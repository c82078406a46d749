import DerivCalc.Elementary
import DerivCalc.Proofs.Double.Value
import DerivCalc.Proofs.Expr.Rules

/-!
# Expressions over the real numbers

`realEval` reads an expression as a real function: numbers stand for their exact
values, powers are real powers, and the cotangent is the reciprocal of the tangent.

The rules of simplification are identities of real numbers, with one exception:
`0 ^ b` is 0 only for `b ≠ 0`.  What separates simplification from them is
rounding, when numbers are folded or are close to 0 or 1 without being it.
`ExactSimplify` says that nothing of the kind happens.
-/

namespace DerivCalc

open Double

/-! ## Real values -/

/-- The operation of an operator on real numbers. -/
noncomputable def Operator.realApply (op : Operator) (a b : ℝ) : ℝ :=
  match op with
  | .add => a + b
  | .sub => a - b
  | .mul => a * b
  | .div => a / b
  | .pow => a ^ b

/-- The real function of a name. -/
noncomputable def Func.realApply (f : Func) (a : ℝ) : ℝ :=
  match f with
  | .sin => Real.sin a
  | .cos => Real.cos a
  | .tan => Real.tan a
  | .cot => 1 / Real.tan a
  | .neg => -a
  | .ln => Real.log a

/-- A double is the exact result of a real computation. -/
structure IsExact (result : Float) (expected : ℝ) : Prop where
  finite : result.isFinite = true
  value_eq : (value result : ℝ) = expected

/-- The numbers that the left operand of an operator is compared with. -/
def Operator.leftTargets : Operator → List Float
  | .add => [0]
  | .sub => [0]
  | .mul => [0, 1]
  | .div => [0]
  | .pow => [0, 1]

/-- The numbers that the right operand of an operator is compared with. -/
def Operator.rightTargets : Operator → List Float
  | .add => [0]
  | .sub => [0]
  | .mul => [0, 1]
  | .div => [1]
  | .pow => [0, 1]

namespace Expr

/-- The value of the expression at a real number. -/
noncomputable def realEval (x : ℝ) : Expr → ℝ
  | const _ v => value v
  | var _ => x
  | binary _ op left right => op.realApply (left.realEval x) (right.realEval x)
  | apply _ f arg => f.realApply (arg.realEval x)

theorem realEval_of_constant? {e : Expr} {c : Float} (h : e.constant? = some c) (x : ℝ) :
    e.realEval x = value c := by
  obtain ⟨settled, rfl⟩ := exists_of_constant? h
  rfl

/-- A number that is clear of zero and counts as zero is the real zero. -/
theorem realEval_of_isClose_zero {e : Expr} (hClear : e.isClearOf 0 = true)
    (hClose : e.isClose 0 = true) (x : ℝ) : e.realEval x = 0 := by
  obtain ⟨c, hC, hZero⟩ := beq_of_isClose hClear hClose
  rw [realEval_of_constant? hC, value_of_beq_zero hZero, Rat.cast_zero]

/-- A number that is clear of one and counts as one is the real one. -/
theorem realEval_of_isClose_one {e : Expr} (hClear : e.isClearOf 1 = true)
    (hClose : e.isClose 1 = true) (x : ℝ) : e.realEval x = 1 := by
  obtain ⟨c, hC, hOne⟩ := beq_of_isClose hClear hClose
  rw [realEval_of_constant? hC, eq_one_of_beq hOne, value_one, Rat.cast_one]

variable [Elementary]

/-! ## Exact simplification -/

/--
The simplification of an operation on simplified operands is exact: two numbers
are folded without rounding, and a single number is clear of what it is compared
with.
-/
structure ExactSettle (op : Operator) (l r : Expr) : Prop where
  fold : ∀ v w, l.constant? = some v → r.constant? = some w →
    IsExact (op.apply v w) (op.realApply (value v) (value w))
  left : r.isConstant = false → ∀ target ∈ op.leftTargets, l.isClearOf target = true
  right : l.isConstant = false → ∀ target ∈ op.rightTargets, r.isClearOf target = true

/-- Where at most one operand is a number, only the comparisons matter. -/
theorem exactSettle_of_all {op : Operator} {l r : Expr}
    (h : (l.isConstant && r.isConstant) = false)
    (hLeft : op.leftTargets.all l.isClearOf = true)
    (hRight : op.rightTargets.all r.isClearOf = true) : ExactSettle op l r where
  fold v w hV hW := by simp [isConstant, hV, hW] at h
  left _ := List.all_eq_true.1 hLeft
  right _ := List.all_eq_true.1 hRight

/-- The simplification of an expression is exact at every node that it reaches. -/
inductive ExactSimplify : Expr → Prop
  | settled {e : Expr} : e.isSettled = true → ExactSimplify e
  | const (settled : Bool) (v : Float) : ExactSimplify (const settled v)
  | var (settled : Bool) : ExactSimplify (var settled)
  | binary {settled : Bool} {op : Operator} {l r : Expr} : ExactSimplify l → ExactSimplify r →
      ExactSettle op l.simplify r.simplify → ExactSimplify (binary settled op l r)
  | apply {settled : Bool} {f : Func} {arg : Expr} : ExactSimplify arg →
      (∀ v, arg.simplify.constant? = some v → IsExact (f.apply v) (f.realApply (value v))) →
      ExactSimplify (apply settled f arg)

omit [Elementary] in
/-- No power that simplification reaches has the base zero at `x`. -/
def NonzeroBases (x : ℝ) : Expr → Prop
  | const _ _ => True
  | var _ => True
  | binary settled op left right => settled = true ∨
      left.NonzeroBases x ∧ right.NonzeroBases x ∧ (op = .pow → left.realEval x ≠ 0)
  | apply settled _ arg => settled = true ∨ arg.NonzeroBases x

/-- Each rule is an identity of real numbers where it is exact and no base is zero. -/
theorem Rule.realEval_eq {x : ℝ} {op : Operator} {l r result : Expr} (h : Rule op l r result)
    (hExact : ExactSettle op l r) (hBase : op = .pow → l.realEval x ≠ 0) :
    result.realEval x = op.realApply (l.realEval x) (r.realEval x) := by
  cases h with
  | fold op s t v w => exact (hExact.fold v w rfl rfl).value_eq
  | addZero hConst hClose =>
      have hClear := hExact.right hConst 0 (by simp [Operator.rightTargets])
      show _ = l.realEval x + r.realEval x
      rw [realEval_of_isClose_zero hClear hClose, add_zero]
  | zeroAdd hClose hConst =>
      have hClear := hExact.left hConst 0 (by simp [Operator.leftTargets])
      show _ = l.realEval x + r.realEval x
      rw [realEval_of_isClose_zero hClear hClose, zero_add]
  | addKeep hConst hClose => rfl
  | addSwap hLeft hClose hRight => exact add_comm _ _
  | zeroSub hClose hConst =>
      have hClear := hExact.left hConst 0 (by simp [Operator.leftTargets])
      show -r.realEval x = l.realEval x - r.realEval x
      rw [realEval_of_isClose_zero hClear hClose, zero_sub]
  | subZero hConst hClose =>
      have hClear := hExact.right hConst 0 (by simp [Operator.rightTargets])
      show _ = l.realEval x - r.realEval x
      rw [realEval_of_isClose_zero hClear hClose, sub_zero]
  | subKeep hConst hLeft hRight => rfl
  | zeroMul hClose hConst =>
      have hClear := hExact.left hConst 0 (by simp [Operator.leftTargets])
      show ((value 0 : ℚ) : ℝ) = l.realEval x * r.realEval x
      rw [realEval_of_isClose_zero hClear hClose, zero_mul, value_zero, Rat.cast_zero]
  | mulZero hConst hClose =>
      have hClear := hExact.right hConst 0 (by simp [Operator.rightTargets])
      show ((value 0 : ℚ) : ℝ) = l.realEval x * r.realEval x
      rw [realEval_of_isClose_zero hClear hClose, mul_zero, value_zero, Rat.cast_zero]
  | oneMul hClose hConst =>
      have hClear := hExact.left hConst 1 (by simp [Operator.leftTargets])
      show _ = l.realEval x * r.realEval x
      rw [realEval_of_isClose_one hClear hClose, one_mul]
  | mulOne hConst hClose =>
      have hClear := hExact.right hConst 1 (by simp [Operator.rightTargets])
      show _ = l.realEval x * r.realEval x
      rw [realEval_of_isClose_one hClear hClose, mul_one]
  | mulKeep hZero hOne hConst => rfl
  | mulSwap hLeft hRight hZero hOne => exact mul_comm _ _
  | zeroDiv hClose hConst =>
      have hClear := hExact.left hConst 0 (by simp [Operator.leftTargets])
      show ((value 0 : ℚ) : ℝ) = l.realEval x / r.realEval x
      rw [realEval_of_isClose_zero hClear hClose, zero_div, value_zero, Rat.cast_zero]
  | divOne hConst hClose =>
      have hClear := hExact.right hConst 1 (by simp [Operator.rightTargets])
      show _ = l.realEval x / r.realEval x
      rw [realEval_of_isClose_one hClear hClose, div_one]
  | divKeep hConst hLeft hRight => rfl
  | zeroPow hClose hConst =>
      have hClear := hExact.left hConst 0 (by simp [Operator.leftTargets])
      exact absurd (realEval_of_isClose_zero hClear hClose x) (hBase rfl)
  | onePow hClose hConst =>
      have hClear := hExact.left hConst 1 (by simp [Operator.leftTargets])
      show ((value 1 : ℚ) : ℝ) = l.realEval x ^ r.realEval x
      rw [realEval_of_isClose_one hClear hClose, Real.one_rpow, value_one, Rat.cast_one]
  | powZero hConst hClose =>
      have hClear := hExact.right hConst 0 (by simp [Operator.rightTargets])
      show ((value 1 : ℚ) : ℝ) = l.realEval x ^ r.realEval x
      rw [realEval_of_isClose_zero hClear hClose, Real.rpow_zero, value_one, Rat.cast_one]
  | powOne hConst hClose =>
      have hClear := hExact.right hConst 1 (by simp [Operator.rightTargets])
      show _ = l.realEval x ^ r.realEval x
      rw [realEval_of_isClose_one hClear hClose, Real.rpow_one]
  | powKeep hConst hLeftZero hLeftOne hRightZero hRightOne => rfl

theorem realEval_settleApply {f : Func} {e : Expr} (x : ℝ)
    (hExact : ∀ v, e.constant? = some v → IsExact (f.apply v) (f.realApply (value v))) :
    (settleApply f e).realEval x = f.realApply (e.realEval x) := by
  unfold settleApply
  cases hConst : e.constant? with
  | none => rfl
  | some v =>
      rw [realEval_of_constant? hConst]
      exact (hExact v hConst).value_eq

/-- Exact simplification keeps the real value. -/
theorem realEval_simplify {x : ℝ} {e : Expr} (hExact : e.ExactSimplify)
    (hBases : e.NonzeroBases x) : e.simplify.realEval x = e.realEval x := by
  induction e with
  | const settled v => rfl
  | var settled => rfl
  | binary settled op l r ihLeft ihRight =>
      cases settled with
      | true => rfl
      | false =>
          obtain ⟨hBasesLeft, hBasesRight, hBase⟩ := hBases.resolve_left (by decide)
          cases hExact with
          | settled hMark => exact absurd hMark (by simp [isSettled])
          | binary hExactLeft hExactRight hSettle =>
              have hLeft := ihLeft hExactLeft hBasesLeft
              have hRight := ihRight hExactRight hBasesRight
              have hRule := rule_settleBinary op l.simplify r.simplify
              have hValue := hRule.realEval_eq hSettle (by rw [hLeft]; exact hBase)
              rw [hLeft, hRight] at hValue
              exact hValue
  | apply settled f arg ih =>
      cases settled with
      | true => rfl
      | false =>
          cases hExact with
          | settled hMark => exact absurd hMark (by simp [isSettled])
          | apply hExactArg hSettle =>
              have hArg := ih hExactArg (hBases.resolve_left (by decide))
              have hValue := realEval_settleApply x hSettle
              rw [hArg] at hValue
              exact hValue

end Expr

end DerivCalc
