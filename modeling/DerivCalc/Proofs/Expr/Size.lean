import DerivCalc.Proofs.Expr.Rules

/-!
# The size of simplified expressions

Three measures of an expression: its nodes, its levels, and the occurrences of the variable.
`NoLarger` compares two expressions by all three, so that each rule of simplification is looked
at once.  A rule drops operands, exchanges them, or puts a number or a negation in the place of
an operation, and none of this makes any of the measures greater.
-/

namespace DerivCalc.Expr

/-! ## Measures -/

/-- The number of nodes. -/
def size (e : Expr) : ℕ := e.nodes.length

/-- How often the variable occurs. -/
def occurrences (e : Expr) : ℕ := e.postOrder.count .var

@[simp] theorem size_const (settled : Bool) (v : Float) : (const settled v).size = 1 := rfl

@[simp] theorem size_var (settled : Bool) : (var settled).size = 1 := rfl

@[simp] theorem size_binary (settled : Bool) (op : Operator) (l r : Expr) :
    (binary settled op l r).size = l.size + r.size + 1 := by
  simp [size, nodes]

@[simp] theorem size_apply (settled : Bool) (f : Func) (arg : Expr) :
    (apply settled f arg).size = arg.size + 1 := rfl

theorem size_pos (e : Expr) : 0 < e.size := by
  cases e <;> simp

@[simp] theorem occurrences_const (settled : Bool) (v : Float) :
    (const settled v).occurrences = 0 := rfl

@[simp] theorem occurrences_var (settled : Bool) : (var settled).occurrences = 1 := rfl

@[simp] theorem occurrences_binary (settled : Bool) (op : Operator) (l r : Expr) :
    (binary settled op l r).occurrences = l.occurrences + r.occurrences := by
  simp [occurrences, postOrder, List.count_append]

@[simp] theorem occurrences_apply (settled : Bool) (f : Func) (arg : Expr) :
    (apply settled f arg).occurrences = arg.occurrences := by
  simp [occurrences, postOrder, List.count_append]

/-! ## Comparing by all measures -/

/-- No more nodes, no more levels, and no more occurrences of the variable. -/
structure NoLarger (e e' : Expr) : Prop where
  size : e.size ≤ e'.size
  depth : e.depth ≤ e'.depth
  occurrences : e.occurrences ≤ e'.occurrences

variable {settled settled' : Bool} {op op' : Operator} {f f' : Func} {e e' e'' : Expr}
  {l l' r r' arg arg' : Expr}

theorem NoLarger.refl (e : Expr) : NoLarger e e := ⟨le_rfl, le_rfl, le_rfl⟩

theorem NoLarger.trans (h : NoLarger e e') (h' : NoLarger e' e'') : NoLarger e e'' :=
  ⟨h.size.trans h'.size, h.depth.trans h'.depth, h.occurrences.trans h'.occurrences⟩

/-- Nothing is smaller than a number. -/
theorem noLarger_const (settled : Bool) (v : Float) (e : Expr) : NoLarger (const settled v) e :=
  ⟨e.size_pos, e.depth_pos, Nat.zero_le _⟩

theorem noLarger_left : NoLarger l (binary settled op l r) :=
  ⟨by simp; omega, by simp only [depth]; omega, by simp⟩

theorem noLarger_right : NoLarger r (binary settled op l r) :=
  ⟨by simp; omega, by simp only [depth]; omega, by simp⟩

theorem NoLarger.binary (hLeft : NoLarger l l') (hRight : NoLarger r r') :
    NoLarger (binary settled op l r) (binary settled' op' l' r') := by
  obtain ⟨hSize, hDepth, hOccurrences⟩ := hLeft
  obtain ⟨hSize', hDepth', hOccurrences'⟩ := hRight
  refine ⟨?_, ?_, ?_⟩
  · simp only [size_binary]
    omega
  · simp only [Expr.depth]
    omega
  · simp only [occurrences_binary]
    omega

/-- Exchanging the sides changes none of the measures. -/
theorem noLarger_swap : NoLarger (Expr.binary settled op r l) (Expr.binary settled' op' l r) := by
  refine ⟨?_, ?_, ?_⟩
  · simp only [size_binary]
    omega
  · simp only [Expr.depth]
    omega
  · simp only [occurrences_binary]
    omega

theorem NoLarger.apply (h : NoLarger arg arg') :
    NoLarger (apply settled f arg) (apply settled' f' arg') :=
  ⟨Nat.succ_le_succ h.size, Nat.succ_le_succ h.depth, by simpa using h.occurrences⟩

/-- A function in the place of an operation needs one operand less. -/
theorem noLarger_apply_of_binary :
    NoLarger (Expr.apply settled f r) (Expr.binary settled' op l r) := by
  refine ⟨?_, ?_, ?_⟩
  · simp only [size_apply, size_binary]
    omega
  · simp only [Expr.depth]
    omega
  · simp only [occurrences_apply, occurrences_binary]
    omega

/-! ## Simplification -/

section

variable [Elementary]

/-- No rule makes a larger expression of an operation. -/
theorem Rule.noLarger {result : Expr} (h : Rule op l r result) :
    NoLarger result (Expr.binary settled op l r) := by
  have hKeep : NoLarger (Expr.binary true op l r) (Expr.binary settled op l r) :=
    (NoLarger.refl l).binary (.refl r)
  cases h with
  | addZero _ _ => exact noLarger_left
  | zeroAdd _ _ => exact noLarger_right
  | addKeep _ _ => exact hKeep
  | addSwap _ _ _ => exact noLarger_swap
  | zeroSub _ _ => exact noLarger_apply_of_binary
  | subZero _ _ => exact noLarger_left
  | subKeep _ _ _ => exact hKeep
  | oneMul _ _ => exact noLarger_right
  | mulOne _ _ => exact noLarger_left
  | mulKeep _ _ _ => exact hKeep
  | mulSwap _ _ _ _ => exact noLarger_swap
  | divOne _ _ => exact noLarger_left
  | divKeep _ _ _ => exact hKeep
  | powOne _ _ => exact noLarger_left
  | powKeep _ _ _ _ _ => exact hKeep
  | _ => exact noLarger_const _ _ _

theorem noLarger_settleApply (f : Func) (arg : Expr) :
    NoLarger (settleApply f arg) (Expr.apply settled f arg) := by
  unfold settleApply
  cases arg.constant? with
  | none => exact (NoLarger.refl arg).apply
  | some v => exact noLarger_const _ _ _

/-- The simplified form of an expression is no larger than the expression. -/
theorem noLarger_simplify (e : Expr) : NoLarger e.simplify e := by
  induction e with
  | const settled v => exact noLarger_const _ _ _
  | var settled => exact ⟨le_rfl, le_rfl, le_rfl⟩
  | binary settled op l r ihLeft ihRight =>
      cases settled with
      | true => exact .refl _
      | false =>
          have hRule : NoLarger (settleBinary op l.simplify r.simplify)
              (Expr.binary false op l.simplify r.simplify) :=
            (rule_settleBinary op l.simplify r.simplify).noLarger
          exact hRule.trans (ihLeft.binary ihRight)
  | apply settled f arg ih =>
      cases settled with
      | true => exact .refl _
      | false =>
          have hFunc : NoLarger (settleApply f arg.simplify) (Expr.apply false f arg.simplify) :=
            noLarger_settleApply f arg.simplify
          exact hFunc.trans ih.apply

end

end DerivCalc.Expr
