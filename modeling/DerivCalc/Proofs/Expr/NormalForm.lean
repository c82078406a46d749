import DerivCalc.Proofs.Expr.Marks

/-!
# The normal form of expressions

`IsReduced` says that none of the rules of simplification applies to the topmost node, and
`IsNormal` that every node is settled and reduced.  Neither mentions the pass that
simplifies.  The link to it is `isNormal_iff`: an expression is normal iff its marks are
right and its topmost node is settled.  So whatever the pass returns is normal, and a normal
expression is a fixed point of the pass, also of one that does not see the marks.
-/

namespace DerivCalc.Expr

/-! ## Nodes to which no rule applies -/

/-- No rule applies to an operation on two expressions that are not both numbers. -/
def HoldsApart (op : Operator) (l r : Expr) : Prop :=
  match op with
  | .add => l.isConstant = false ∧ r.isClose 0 = false
  | .sub => l.isClose 0 = false ∧ r.isClose 0 = false
  | .mul => r.isConstant = false ∧ l.isClose 0 = false ∧ l.isClose 1 = false
  | .div => l.isClose 0 = false ∧ r.isClose 1 = false
  | .pow => l.isClose 0 = false ∧ l.isClose 1 = false ∧ r.isClose 0 = false ∧ r.isClose 1 = false

/-- No rule applies to the topmost node. -/
def IsReduced : Expr → Prop
  | const _ _ => True
  | var _ => True
  | binary _ op l r => (l.isConstant && r.isConstant) = false ∧ HoldsApart op l r
  | apply _ _ arg => arg.isConstant = false

/-- All nodes are settled, and no rule applies to any of them. -/
def IsNormal (e : Expr) : Prop := ∀ node ∈ e.nodes, node.isSettled = true ∧ node.IsReduced

theorem isNormal_const_iff {settled : Bool} {v : Float} :
    (const settled v).IsNormal ↔ settled = true := by
  simp [IsNormal, nodes, isSettled, IsReduced]

theorem isNormal_var_iff {settled : Bool} : (var settled).IsNormal ↔ settled = true := by
  simp [IsNormal, nodes, isSettled, IsReduced]

theorem isNormal_binary_iff {settled : Bool} {op : Operator} {l r : Expr} :
    (binary settled op l r).IsNormal ↔
      settled = true ∧ (binary settled op l r).IsReduced ∧ l.IsNormal ∧ r.IsNormal := by
  constructor
  · intro h
    obtain ⟨hSettled, hReduced⟩ := h (binary settled op l r) (by simp [nodes])
    refine ⟨hSettled, hReduced, ?_, ?_⟩
    · intro node hMem
      exact h node (by simp [nodes, hMem])
    · intro node hMem
      exact h node (by simp [nodes, hMem])
  · rintro ⟨hSettled, hReduced, hLeft, hRight⟩ node hMem
    simp only [nodes, List.mem_cons, List.mem_append] at hMem
    rcases hMem with rfl | hMem | hMem
    · exact ⟨hSettled, hReduced⟩
    · exact hLeft node hMem
    · exact hRight node hMem

theorem isNormal_apply_iff {settled : Bool} {f : Func} {arg : Expr} :
    (apply settled f arg).IsNormal ↔
      settled = true ∧ arg.isConstant = false ∧ arg.IsNormal := by
  constructor
  · intro h
    obtain ⟨hSettled, hReduced⟩ := h (apply settled f arg) (by simp [nodes])
    refine ⟨hSettled, hReduced, ?_⟩
    intro node hMem
    exact h node (by simp [nodes, hMem])
  · rintro ⟨hSettled, hReduced, hArg⟩ node hMem
    simp only [nodes, List.mem_cons] at hMem
    rcases hMem with rfl | hMem
    · exact ⟨hSettled, hReduced⟩
    · exact hArg node hMem

/-! ## Reduced operations are those that simplification keeps -/

theorem left_ne_binary (settled : Bool) (op : Operator) (l r : Expr) :
    l ≠ binary settled op l r := by
  intro h
  have hDepth := congrArg depth h
  simp only [depth] at hDepth
  omega

theorem right_ne_binary (settled : Bool) (op : Operator) (l r : Expr) :
    r ≠ binary settled op l r := by
  intro h
  have hDepth := congrArg depth h
  simp only [depth] at hDepth
  omega

section

variable [Elementary]

/-- The only rules whose result is the operation itself are those that keep it. -/
theorem Rule.isReduced {op : Operator} {l r result : Expr} (h : Rule op l r result)
    (hKeep : result = binary true op l r) : (binary true op l r).IsReduced := by
  have hLeft := left_ne_binary true op l r
  have hRight := right_ne_binary true op l r
  cases h with
  | addZero _ _ => exact absurd hKeep hLeft
  | zeroAdd _ _ => exact absurd hKeep hRight
  | addKeep hVar hZero => exact ⟨by rw [hVar, Bool.false_and], hVar, hZero⟩
  | addSwap hConst _ hVar =>
      -- exchanged sides are the sides themselves only if both are numbers or neither is
      have hEq : r = l := by injection hKeep
      rw [hEq, hConst] at hVar
      exact absurd hVar (by decide)
  | subZero _ _ => exact absurd hKeep hLeft
  | subKeep hNot hLeftZero hRightZero => exact ⟨hNot, hLeftZero, hRightZero⟩
  | oneMul _ _ => exact absurd hKeep hRight
  | mulOne _ _ => exact absurd hKeep hLeft
  | mulKeep hZero hOne hVar => exact ⟨by rw [hVar, Bool.and_false], hVar, hZero, hOne⟩
  | mulSwap hVar hConst _ _ =>
      have hEq : r = l := by injection hKeep
      rw [hEq, hVar] at hConst
      exact absurd hConst (by decide)
  | divOne _ _ => exact absurd hKeep hLeft
  | divKeep hNot hZero hOne => exact ⟨hNot, hZero, hOne⟩
  | powOne _ _ => exact absurd hKeep hLeft
  | powKeep hNot hZero hOne hZero' hOne' => exact ⟨hNot, hZero, hOne, hZero', hOne'⟩
  | _ => exact absurd hKeep (by simp)

/-- Simplification keeps an operation to which no rule applies. -/
theorem settleBinary_of_isReduced {op : Operator} {l r : Expr}
    (h : (binary true op l r).IsReduced) : settleBinary op l r = binary true op l r := by
  obtain ⟨hNot, hApart⟩ := h
  cases op with
  | add => exact settleBinary_add_of_isClose hApart.1 hApart.2
  | sub =>
      obtain ⟨hLeft, hRight⟩ := hApart
      rw [settleBinary_of_isConstant hNot]
      simp only [settleDifference, hLeft, hRight, Bool.false_eq_true, if_false]
  | mul => exact settleBinary_mul_of_isClose hApart.2.1 hApart.2.2 hApart.1
  | div =>
      obtain ⟨hZero, hOne⟩ := hApart
      rw [settleBinary_of_isConstant hNot]
      simp only [settleQuotient, hZero, hOne, Bool.false_eq_true, if_false]
  | pow =>
      obtain ⟨hZero, hOne, hZero', hOne'⟩ := hApart
      rw [settleBinary_of_isConstant hNot]
      simp only [settlePower, hZero, hOne, hZero', hOne', Bool.false_eq_true, if_false]

theorem settleBinary_eq_self_iff {op : Operator} {l r : Expr} :
    settleBinary op l r = binary true op l r ↔ (binary true op l r).IsReduced := by
  constructor
  · intro hKeep
    exact (rule_settleBinary op l r).isReduced hKeep
  · exact settleBinary_of_isReduced

theorem settleApply_eq_self_iff {f : Func} {arg : Expr} :
    settleApply f arg = apply true f arg ↔ arg.isConstant = false := by
  unfold settleApply isConstant
  cases arg.constant? with
  | none => simp
  | some v => simp

/-! ## Normal expressions and the pass -/

/-- An expression is normal iff its marks are right and its topmost node is settled. -/
theorem isNormal_iff {e : Expr} : e.IsNormal ↔ e.WellMarked ∧ e.isSettled = true := by
  induction e with
  | const settled v =>
      rw [isNormal_const_iff]
      exact ⟨fun h => ⟨trivial, h⟩, fun h => h.2⟩
  | var settled =>
      rw [isNormal_var_iff]
      exact ⟨fun h => ⟨trivial, h⟩, fun h => h.2⟩
  | binary settled op l r ihLeft ihRight =>
      rw [isNormal_binary_iff, ihLeft, ihRight]
      constructor
      · rintro ⟨rfl, hReduced, ⟨hLeft, hLeftMark⟩, hRight, hRightMark⟩
        have hKeep := settleBinary_eq_self_iff.2 hReduced
        exact ⟨⟨hLeft, hRight, fun _ => ⟨hLeftMark, hRightMark, hKeep⟩⟩, rfl⟩
      · rintro ⟨⟨hLeft, hRight, hMark⟩, hSettled⟩
        obtain rfl : settled = true := hSettled
        obtain ⟨hLeftMark, hRightMark, hKeep⟩ := hMark rfl
        exact ⟨rfl, settleBinary_eq_self_iff.1 hKeep, ⟨hLeft, hLeftMark⟩, hRight, hRightMark⟩
  | apply settled f arg ih =>
      rw [isNormal_apply_iff, ih]
      constructor
      · rintro ⟨rfl, hVar, hArg, hArgMark⟩
        exact ⟨⟨hArg, fun _ => ⟨hArgMark, settleApply_eq_self_iff.2 hVar⟩⟩, rfl⟩
      · rintro ⟨⟨hArg, hMark⟩, hSettled⟩
        obtain rfl : settled = true := hSettled
        obtain ⟨hArgMark, hKeep⟩ := hMark rfl
        exact ⟨rfl, settleApply_eq_self_iff.1 hKeep, hArg, hArgMark⟩

/-- The simplified form of an expression with right marks is normal. -/
theorem isNormal_simplify {e : Expr} (h : e.WellMarked) : e.simplify.IsNormal :=
  isNormal_iff.2 ⟨wellMarked_simplify h, isSettled_simplify e⟩

/-- The derivative of an expression with right marks is normal. -/
theorem isNormal_derivative {e : Expr} (h : e.WellMarked) : e.derivative.IsNormal :=
  isNormal_iff.2 ⟨wellMarked_derivative h, isSettled_derivative e⟩

/-- So is every further derivative. -/
theorem isNormal_iterate_derivative {e : Expr} (h : e.WellMarked) (n : ℕ) :
    (derivative^[n + 1] e).IsNormal := by
  induction n generalizing e with
  | zero => exact isNormal_derivative h
  | succ n ih =>
      rw [Function.iterate_succ_apply]
      exact ih (wellMarked_derivative h)

end

end DerivCalc.Expr
