import DerivCalc.Expr.Derivative
import DerivCalc.Proofs.Double.Arithmetic

/-!
# What the simplification of one operation can do

`Rule op left right result` lists the rules by which an operation on simplified
operands becomes a simplified expression, each with the conditions under which it
is taken.  `rule_settleBinary` says that simplification follows one of them, so a
property of simplification is a case analysis over the rules and needs no look at
the order of the tests.
-/

namespace DerivCalc.Expr

/-! ## Numbers close to a target -/

theorem exists_of_constant? {e : Expr} {c : Float} (h : e.constant? = some c) :
    ∃ settled, e = const settled c := by
  cases e with
  | const settled value =>
      have hEq : value = c := Option.some.inj h
      exact ⟨settled, by rw [hEq]⟩
  | _ => exact absurd h (by simp [constant?])

theorem exists_of_isConstant {e : Expr} (h : e.isConstant = true) :
    ∃ settled value, e = const settled value := by
  obtain ⟨c, hC⟩ := Option.isSome_iff_exists.1 h
  obtain ⟨settled, hE⟩ := exists_of_constant? hC
  exact ⟨settled, c, hE⟩

/-- Only a number is close to something. -/
theorem isConstant_of_isClose {e : Expr} {target : Float} (h : e.isClose target = true) :
    e.isConstant = true := by
  unfold isClose at h
  unfold isConstant
  cases hConst : e.constant? with
  | none =>
      rw [hConst] at h
      exact absurd h Bool.false_ne_true
  | some c => rfl

/-- The expression is no number, or one that equals `target` or is visibly apart from it. -/
def isClearOf (e : Expr) (target : Float) : Bool :=
  e.constant?.all fun c => c == target || tolerance ≤ (c - target).abs

/-- A number that is clear of a target and counts as it is equal to it. -/
theorem beq_of_isClose {e : Expr} {target : Float} (hClear : e.isClearOf target = true)
    (hClose : e.isClose target = true) : ∃ c, e.constant? = some c ∧ (c == target) = true := by
  obtain ⟨settled, c, rfl⟩ := exists_of_isConstant (isConstant_of_isClose hClose)
  refine ⟨c, rfl, ?_⟩
  have hCases : (c == target || tolerance ≤ (c - target).abs) = true := hClear
  have hNear : (c - target).abs < tolerance := of_decide_eq_true hClose
  rcases Bool.or_eq_true_iff.1 hCases with hEq | hFar
  · exact hEq
  · exact absurd hNear (Double.not_lt_of_le (of_decide_eq_true hFar))

/-! ## The rules -/

section

variable [Elementary]

/-- The rules for an operation on two simplified operands. -/
inductive Rule : Operator → Expr → Expr → Expr → Prop
  | fold (op : Operator) (s t : Bool) (v w : Float) :
      Rule op (const s v) (const t w) (const true (op.apply v w))
  | addZero {l r : Expr} : l.isConstant = false → r.isClose 0 = true → Rule .add l r l
  | zeroAdd {l r : Expr} : l.isClose 0 = true → r.isConstant = false → Rule .add l r r
  | addKeep {l r : Expr} : l.isConstant = false → r.isClose 0 = false →
      Rule .add l r (binary true .add l r)
  | addSwap {l r : Expr} : l.isConstant = true → l.isClose 0 = false → r.isConstant = false →
      Rule .add l r (binary true .add r l)
  | zeroSub {l r : Expr} : l.isClose 0 = true → r.isConstant = false →
      Rule .sub l r (apply true .neg r)
  | subZero {l r : Expr} : l.isConstant = false → r.isClose 0 = true → Rule .sub l r l
  | subKeep {l r : Expr} : (l.isConstant && r.isConstant) = false → l.isClose 0 = false →
      r.isClose 0 = false → Rule .sub l r (binary true .sub l r)
  | zeroMul {l r : Expr} : l.isClose 0 = true → r.isConstant = false →
      Rule .mul l r (const true 0)
  | mulZero {l r : Expr} : l.isConstant = false → r.isClose 0 = true →
      Rule .mul l r (const true 0)
  | oneMul {l r : Expr} : l.isClose 1 = true → r.isConstant = false → Rule .mul l r r
  | mulOne {l r : Expr} : l.isConstant = false → r.isClose 1 = true → Rule .mul l r l
  | mulKeep {l r : Expr} : l.isClose 0 = false → l.isClose 1 = false → r.isConstant = false →
      Rule .mul l r (binary true .mul l r)
  | mulSwap {l r : Expr} : l.isConstant = false → r.isConstant = true → r.isClose 0 = false →
      r.isClose 1 = false → Rule .mul l r (binary true .mul r l)
  | zeroDiv {l r : Expr} : l.isClose 0 = true → r.isConstant = false →
      Rule .div l r (const true 0)
  | divOne {l r : Expr} : l.isConstant = false → r.isClose 1 = true → Rule .div l r l
  | divKeep {l r : Expr} : (l.isConstant && r.isConstant) = false → l.isClose 0 = false →
      r.isClose 1 = false → Rule .div l r (binary true .div l r)
  | zeroPow {l r : Expr} : l.isClose 0 = true → r.isConstant = false →
      Rule .pow l r (const true 0)
  | onePow {l r : Expr} : l.isClose 1 = true → r.isConstant = false →
      Rule .pow l r (const true 1)
  | powZero {l r : Expr} : l.isConstant = false → r.isClose 0 = true →
      Rule .pow l r (const true 1)
  | powOne {l r : Expr} : l.isConstant = false → r.isClose 1 = true → Rule .pow l r l
  | powKeep {l r : Expr} : (l.isConstant && r.isConstant) = false → l.isClose 0 = false →
      l.isClose 1 = false → r.isClose 0 = false → r.isClose 1 = false →
      Rule .pow l r (binary true .pow l r)

/-! ## Simplification follows the rules -/

theorem rule_settleSum {l r : Expr} (h : (l.isConstant && r.isConstant) = false) :
    Rule .add l r (settleSum l r) := by
  unfold settleSum
  cases hLeft : l.isConstant with
  | true =>
      have hRight : r.isConstant = false := by rw [hLeft] at h; exact h
      by_cases hZero : l.isClose 0 = true
      · simp only [if_true, hZero]
        exact Rule.zeroAdd hZero hRight
      · simp only [if_true, hZero]
        exact Rule.addSwap hLeft (Bool.eq_false_iff.2 hZero) hRight
  | false =>
      by_cases hZero : r.isClose 0 = true
      · simp only [Bool.false_eq_true, if_false, hZero, if_true]
        exact Rule.addZero hLeft hZero
      · simp only [Bool.false_eq_true, if_false, hZero]
        exact Rule.addKeep hLeft (Bool.eq_false_iff.2 hZero)

theorem rule_settleDifference {l r : Expr} (h : (l.isConstant && r.isConstant) = false) :
    Rule .sub l r (settleDifference l r) := by
  unfold settleDifference
  by_cases hLeft : l.isClose 0 = true
  · have hRight : r.isConstant = false := by rw [isConstant_of_isClose hLeft] at h; exact h
    rw [if_pos hLeft]
    exact Rule.zeroSub hLeft hRight
  · rw [if_neg hLeft]
    by_cases hRight : r.isClose 0 = true
    · rw [if_pos hRight]
      rw [isConstant_of_isClose hRight, Bool.and_true] at h
      exact Rule.subZero h hRight
    · rw [if_neg hRight]
      exact Rule.subKeep h (Bool.eq_false_iff.2 hLeft) (Bool.eq_false_iff.2 hRight)

theorem rule_settleProduct {l r : Expr} (h : (l.isConstant && r.isConstant) = false) :
    Rule .mul l r (settleProduct l r) := by
  unfold settleProduct
  cases hConst : r.isConstant with
  | true =>
      have hLeft : l.isConstant = false := by rw [hConst, Bool.and_true] at h; exact h
      by_cases hZero : r.isClose 0 = true
      · simp only [if_true, hZero]
        exact Rule.mulZero hLeft hZero
      · by_cases hOne : r.isClose 1 = true
        · simp only [if_true, hZero, hOne]
          exact Rule.mulOne hLeft hOne
        · simp only [if_true, hZero, hOne]
          exact Rule.mulSwap hLeft hConst (Bool.eq_false_iff.2 hZero) (Bool.eq_false_iff.2 hOne)
  | false =>
      by_cases hZero : l.isClose 0 = true
      · simp only [Bool.false_eq_true, if_false, hZero, if_true]
        exact Rule.zeroMul hZero hConst
      · by_cases hOne : l.isClose 1 = true
        · simp only [Bool.false_eq_true, if_false, hZero, hOne, if_true]
          exact Rule.oneMul hOne hConst
        · simp only [Bool.false_eq_true, if_false, hZero, hOne]
          exact Rule.mulKeep (Bool.eq_false_iff.2 hZero) (Bool.eq_false_iff.2 hOne) hConst

theorem rule_settleQuotient {l r : Expr} (h : (l.isConstant && r.isConstant) = false) :
    Rule .div l r (settleQuotient l r) := by
  unfold settleQuotient
  by_cases hLeft : l.isClose 0 = true
  · have hRight : r.isConstant = false := by rw [isConstant_of_isClose hLeft] at h; exact h
    rw [if_pos hLeft]
    exact Rule.zeroDiv hLeft hRight
  · rw [if_neg hLeft]
    by_cases hRight : r.isClose 1 = true
    · rw [if_pos hRight]
      rw [isConstant_of_isClose hRight, Bool.and_true] at h
      exact Rule.divOne h hRight
    · rw [if_neg hRight]
      exact Rule.divKeep h (Bool.eq_false_iff.2 hLeft) (Bool.eq_false_iff.2 hRight)

theorem rule_settlePower {l r : Expr} (h : (l.isConstant && r.isConstant) = false) :
    Rule .pow l r (settlePower l r) := by
  have hRightOf {target : Float} (hClose : l.isClose target = true) : r.isConstant = false := by
    rw [isConstant_of_isClose hClose] at h
    exact h
  have hLeftOf {target : Float} (hClose : r.isClose target = true) : l.isConstant = false := by
    rw [isConstant_of_isClose hClose, Bool.and_true] at h
    exact h
  unfold settlePower
  by_cases hZero : l.isClose 0 = true
  · rw [if_pos hZero]
    exact Rule.zeroPow hZero (hRightOf hZero)
  rw [if_neg hZero]
  by_cases hOne : l.isClose 1 = true
  · rw [if_pos hOne]
    exact Rule.onePow hOne (hRightOf hOne)
  rw [if_neg hOne]
  by_cases hZero' : r.isClose 0 = true
  · rw [if_pos hZero']
    exact Rule.powZero (hLeftOf hZero') hZero'
  rw [if_neg hZero']
  by_cases hOne' : r.isClose 1 = true
  · rw [if_pos hOne']
    exact Rule.powOne (hLeftOf hOne') hOne'
  rw [if_neg hOne']
  exact Rule.powKeep h (Bool.eq_false_iff.2 hZero) (Bool.eq_false_iff.2 hOne)
    (Bool.eq_false_iff.2 hZero') (Bool.eq_false_iff.2 hOne')

theorem settleBinary_of_isConstant {op : Operator} {l r : Expr}
    (h : (l.isConstant && r.isConstant) = false) :
    settleBinary op l r =
      match op with
      | .add => settleSum l r
      | .sub => settleDifference l r
      | .mul => settleProduct l r
      | .div => settleQuotient l r
      | .pow => settlePower l r := by
  unfold settleBinary
  cases hLeft : l.constant? with
  | none => rfl
  | some v =>
      cases hRight : r.constant? with
      | none => rfl
      | some w => simp [isConstant, hLeft, hRight] at h

/-- The simplification of an operation is an application of one of the rules. -/
theorem rule_settleBinary (op : Operator) (l r : Expr) : Rule op l r (settleBinary op l r) := by
  by_cases hBoth : (l.isConstant && r.isConstant) = true
  · obtain ⟨hLeft, hRight⟩ := Bool.and_eq_true_iff.1 hBoth
    obtain ⟨s, v, rfl⟩ := exists_of_isConstant hLeft
    obtain ⟨t, w, rfl⟩ := exists_of_isConstant hRight
    exact Rule.fold op s t v w
  · have hNot : (l.isConstant && r.isConstant) = false := Bool.eq_false_iff.2 hBoth
    rw [settleBinary_of_isConstant hNot]
    cases op with
    | add => exact rule_settleSum hNot
    | sub => exact rule_settleDifference hNot
    | mul => exact rule_settleProduct hNot
    | div => exact rule_settleQuotient hNot
    | pow => exact rule_settlePower hNot

/-! ## The result is settled -/

theorem Rule.isSettled {op : Operator} {l r result : Expr} (h : Rule op l r result)
    (hLeft : l.isSettled = true) (hRight : r.isSettled = true) : result.isSettled = true := by
  cases h with
  | addZero _ _ => exact hLeft
  | zeroAdd _ _ => exact hRight
  | subZero _ _ => exact hLeft
  | oneMul _ _ => exact hRight
  | mulOne _ _ => exact hLeft
  | divOne _ _ => exact hLeft
  | powOne _ _ => exact hLeft
  | _ => rfl

/-- A simplified expression is settled. -/
theorem isSettled_simplify (e : Expr) : e.simplify.isSettled = true := by
  induction e with
  | const settled value => rfl
  | var settled => rfl
  | binary settled op l r ihLeft ihRight =>
      cases settled with
      | true => rfl
      | false => exact (rule_settleBinary op l.simplify r.simplify).isSettled ihLeft ihRight
  | apply settled f arg ih =>
      cases settled with
      | true => rfl
      | false =>
          show (settleApply f arg.simplify).isSettled = true
          unfold settleApply
          cases arg.simplify.constant? with
          | none => rfl
          | some v => rfl

/-- A symbolic derivative is settled. -/
theorem isSettled_derivative (e : Expr) : e.derivative.isSettled = true := by
  cases e with
  | const settled value => exact isSettled_simplify _
  | var settled => exact isSettled_simplify _
  | binary settled op l r => exact isSettled_simplify _
  | apply settled f arg => exact isSettled_simplify _

end

end DerivCalc.Expr
