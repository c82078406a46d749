import DerivCalc.Expr.Eval
import DerivCalc.Proofs.Elementary
import DerivCalc.Proofs.Expr.Rules

/-!
# Simplification keeps the value

On doubles a rule such as `0 * b = 0` holds only where `b` is finite, and a number
that merely counts as zero is not zero.  `Tame` collects what the rules need of an
expression and a place: all values are finite, no power is `0 ^ 0` there, and the
numbers that simplification compares with 0 and 1 are equal to them or visibly
apart from both.  Then the simplified expression has an equal value.

The values agree only up to the sign of a zero, so the induction carries `Alike`
and not equality, and finite results are what makes `Alike` pass through the
operations.
-/

namespace DerivCalc.Expr

open Double
open Elementary (specialArguments lawful_specialArguments)

/-! ## Numbers that are told apart -/

/-- The number is 0, is 1, or is apart from both by at least the tolerance. -/
def isApart (c : Float) : Bool :=
  c == 0 || c == 1 || (tolerance ≤ (c - 0).abs && tolerance ≤ (c - 1).abs)

theorem isClearOf_of_all_isApart {e : Expr} (h : e.constant?.all isApart = true) :
    e.isClearOf 0 = true ∧ e.isClearOf 1 = true := by
  unfold isClearOf
  cases hConst : e.constant? with
  | none => exact ⟨rfl, rfl⟩
  | some c =>
      rw [hConst] at h
      have hCases : isApart c = true := h
      show (c == 0 || tolerance ≤ (c - 0).abs) = true ∧ (c == 1 || tolerance ≤ (c - 1).abs) = true
      simp only [isApart, Bool.or_eq_true, Bool.and_eq_true, decide_eq_true_eq] at hCases ⊢
      rcases hCases with (hZero | hOne) | ⟨hFarZero, hFarOne⟩
      · obtain ⟨s, rfl⟩ := zero_cases hZero
        exact ⟨Or.inl hZero, Or.inr (by cases s <;> decide)⟩
      · rw [eq_one_of_beq hOne]
        exact ⟨Or.inr (by decide), Or.inl (by decide)⟩
      · exact ⟨Or.inr hFarZero, Or.inr hFarOne⟩

theorem eval_of_constant? [Elementary] {e : Expr} {c : Float} (h : e.constant? = some c)
    (x : Float) : e.eval x = c := by
  obtain ⟨settled, rfl⟩ := exists_of_constant? h
  rfl

theorem self_mem_nodes (e : Expr) : e ∈ e.nodes := by
  cases e <;> simp [nodes]

/-! ## One rule -/

section

variable [Elementary]

/-- What the rules need of two simplified operands and the operation on their values. -/
structure Fit (x : Float) (op : Operator) (l r : Expr) : Prop where
  left : (l.eval x).isFinite = true
  right : (r.eval x).isFinite = true
  result : (op.apply (l.eval x) (r.eval x)).isFinite = true
  power : op = .pow → ¬ ((l.eval x == 0) = true ∧ (r.eval x == 0) = true)
  apartLeft : l.constant?.all isApart = true
  apartRight : r.constant?.all isApart = true

section

variable {x : Float} {op : Operator} {l r : Expr}

theorem Fit.left_zero (h : Fit x op l r) (hClose : l.isClose 0 = true) :
    (l.eval x == 0) = true := by
  obtain ⟨c, hC, hZero⟩ := beq_of_isClose (isClearOf_of_all_isApart h.apartLeft).1 hClose
  rw [eval_of_constant? hC]
  exact hZero

theorem Fit.right_zero (h : Fit x op l r) (hClose : r.isClose 0 = true) :
    (r.eval x == 0) = true := by
  obtain ⟨c, hC, hZero⟩ := beq_of_isClose (isClearOf_of_all_isApart h.apartRight).1 hClose
  rw [eval_of_constant? hC]
  exact hZero

theorem Fit.left_one (h : Fit x op l r) (hClose : l.isClose 1 = true) : l.eval x = 1 := by
  obtain ⟨c, hC, hOne⟩ := beq_of_isClose (isClearOf_of_all_isApart h.apartLeft).2 hClose
  rw [eval_of_constant? hC, eq_one_of_beq hOne]

theorem Fit.right_one (h : Fit x op l r) (hClose : r.isClose 1 = true) : r.eval x = 1 := by
  obtain ⟨c, hC, hOne⟩ := beq_of_isClose (isClearOf_of_all_isApart h.apartRight).2 hClose
  rw [eval_of_constant? hC, eq_one_of_beq hOne]

/-- Each rule keeps the value of an operation it fits. -/
theorem Rule.alike {result : Expr} (lawful : Elementary.Lawful) (h : Rule op l r result)
    (hFit : Fit x op l r) : Alike (result.eval x) (op.apply (l.eval x) (r.eval x)) := by
  cases h with
  | fold op s t v w => exact Alike.refl _
  | addZero hConst hClose => exact (add_zero_alike _ (hFit.right_zero hClose)).symm
  | zeroAdd hClose hConst =>
      show Alike _ (l.eval x + r.eval x)
      rw [Double.add_comm]
      exact (add_zero_alike _ (hFit.left_zero hClose)).symm
  | addKeep hConst hClose => exact Alike.refl _
  | addSwap hLeft hClose hRight =>
      show Alike (r.eval x + l.eval x) (l.eval x + r.eval x)
      rw [Double.add_comm]
      exact Alike.refl _
  | zeroSub hClose hConst => exact (zero_sub_alike _ (hFit.left_zero hClose)).symm
  | subZero hConst hClose => exact (sub_zero_alike _ (hFit.right_zero hClose)).symm
  | subKeep hConst hLeft hRight => exact Alike.refl _
  | zeroMul hClose hConst =>
      exact zero_alike_of_beq_zero (zero_mul_beq _ (hFit.left_zero hClose) hFit.right)
  | mulZero hConst hClose =>
      apply zero_alike_of_beq_zero
      show (l.eval x * r.eval x == 0) = true
      rw [Double.mul_comm]
      exact zero_mul_beq _ (hFit.right_zero hClose) hFit.left
  | oneMul hClose hConst =>
      show Alike _ (l.eval x * r.eval x)
      rw [hFit.left_one hClose, one_mul_eq]
      exact Alike.refl _
  | mulOne hConst hClose =>
      show Alike _ (l.eval x * r.eval x)
      rw [hFit.right_one hClose, Double.mul_comm, one_mul_eq]
      exact Alike.refl _
  | mulKeep hZero hOne hConst => exact Alike.refl _
  | mulSwap hLeft hRight hZero hOne =>
      show Alike (r.eval x * l.eval x) (l.eval x * r.eval x)
      rw [Double.mul_comm]
      exact Alike.refl _
  | zeroDiv hClose hConst =>
      exact zero_alike_of_beq_zero (zero_div_beq _ (hFit.left_zero hClose) hFit.result)
  | divOne hConst hClose =>
      show Alike _ (l.eval x / r.eval x)
      rw [hFit.right_one hClose, div_one_eq]
      exact Alike.refl _
  | divKeep hConst hLeft hRight => exact Alike.refl _
  | zeroPow hClose hConst =>
      have hBase := hFit.left_zero hClose
      have hExponent : ¬ (r.eval x == 0) = true := fun hZero => hFit.power rfl ⟨hBase, hZero⟩
      exact zero_alike_of_beq_zero (lawful.zero_power hBase hFit.right hExponent hFit.result)
  | onePow hClose hConst =>
      show Alike _ (Elementary.power (l.eval x) (r.eval x))
      rw [hFit.left_one hClose, lawful.one_power]
      exact Alike.refl _
  | powZero hConst hClose =>
      show Alike _ (Elementary.power (l.eval x) (r.eval x))
      rw [lawful.power_zero _ (hFit.right_zero hClose)]
      exact Alike.refl _
  | powOne hConst hClose =>
      show Alike _ (Elementary.power (l.eval x) (r.eval x))
      rw [hFit.right_one hClose, lawful.power_one hFit.left]
      exact Alike.refl _
  | powKeep hConst hLeftZero hLeftOne hRightZero hRightOne => exact Alike.refl _

end

/-! ## Whole expressions -/

/-- The expression is a power whose base and exponent are both zero at `x`. -/
def isZeroPowZero (x : Float) : Expr → Bool
  | binary _ .pow left right => left.eval x == 0 && right.eval x == 0
  | _ => false

/-- The conditions under which simplification keeps the value at `x`. -/
structure Tame (x : Float) (e : Expr) : Prop where
  /-- Every part has a finite value. -/
  finite : ∀ s ∈ e.nodes, (s.eval x).isFinite = true
  /-- No part is zero to the power of zero. -/
  powers : ∀ s ∈ e.nodes, s.isZeroPowZero x = false
  /-- Every number that a part simplifies to is 0, 1 or apart from both. -/
  apart : ∀ s ∈ e.nodes, s.simplify.constant?.all isApart = true

theorem Tame.mono {x : Float} {e e' : Expr} (h : Tame x e) (hNodes : e'.nodes ⊆ e.nodes) :
    Tame x e' where
  finite s hMem := h.finite s (hNodes hMem)
  powers s hMem := h.powers s (hNodes hMem)
  apart s hMem := h.apart s (hNodes hMem)

theorem Tame.left {x : Float} {settled : Bool} {op : Operator} {l r : Expr}
    (h : Tame x (binary settled op l r)) : Tame x l := by
  apply h.mono
  intro s hMem
  simp only [nodes, List.mem_cons, List.mem_append]
  exact Or.inr (Or.inl hMem)

theorem Tame.right {x : Float} {settled : Bool} {op : Operator} {l r : Expr}
    (h : Tame x (binary settled op l r)) : Tame x r := by
  apply h.mono
  intro s hMem
  simp only [nodes, List.mem_cons, List.mem_append]
  exact Or.inr (Or.inr hMem)

theorem Tame.arg {x : Float} {settled : Bool} {f : Func} {arg : Expr}
    (h : Tame x (apply settled f arg)) : Tame x arg := by
  apply h.mono
  intro s hMem
  simp only [nodes, List.mem_cons]
  exact Or.inr hMem

theorem Tame.isFinite {x : Float} {e : Expr} (h : Tame x e) : (e.eval x).isFinite = true :=
  h.finite e (self_mem_nodes e)

/-- A tame operation fits the rules once its operands are simplified. -/
theorem Tame.fit {x : Float} {settled : Bool} {op : Operator} {l r : Expr}
    (lawful : Elementary.Lawful) (h : Tame x (binary settled op l r))
    (hLeft : Alike (l.simplify.eval x) (l.eval x))
    (hRight : Alike (r.simplify.eval x) (r.eval x)) : Fit x op l.simplify r.simplify where
  left := hLeft.symm.isFinite h.left.isFinite
  right := hRight.symm.isFinite h.right.isFinite
  result := (lawful.operator_alike op hLeft.symm hRight.symm h.isFinite).isFinite h.isFinite
  power := by
    intro hPow ⟨hBase, hExponent⟩
    subst hPow
    have hPowers : (l.eval x == 0 && r.eval x == 0) = false := h.powers _ (self_mem_nodes _)
    rw [hLeft.beq_zero hBase, hRight.beq_zero hExponent] at hPowers
    exact absurd hPowers (by decide)
  apartLeft := h.left.apart l (self_mem_nodes l)
  apartRight := h.right.apart r (self_mem_nodes r)

theorem eval_settleApply (x : Float) (f : Func) (e : Expr) :
    (settleApply f e).eval x = f.apply (e.eval x) := by
  unfold settleApply
  cases hConst : e.constant? with
  | none => rfl
  | some v =>
      rw [eval_of_constant? hConst]
      rfl

/-- The value of the simplified expression differs at most in the sign of a zero. -/
theorem alike_simplify {x : Float} {e : Expr} (lawful : Elementary.Lawful) (h : Tame x e) :
    Alike (e.simplify.eval x) (e.eval x) := by
  induction e with
  | const settled value => exact Alike.refl _
  | var settled => exact Alike.refl _
  | binary settled op l r ihLeft ihRight =>
      cases settled with
      | true => exact Alike.refl _
      | false =>
          have hLeft := ihLeft h.left
          have hRight := ihRight h.right
          have hFit := h.fit lawful hLeft hRight
          have hRule := (rule_settleBinary op l.simplify r.simplify).alike lawful hFit
          exact hRule.trans (lawful.operator_alike op hLeft.symm hRight.symm h.isFinite).symm
  | apply settled f arg ih =>
      cases settled with
      | true => exact Alike.refl _
      | false =>
          show Alike ((settleApply f arg.simplify).eval x) (f.apply (arg.eval x))
          rw [eval_settleApply]
          exact (lawful.func_alike f (ih h.arg).symm h.isFinite).symm

/-- The simplified expression has an equal value, the two zeros being equal. -/
theorem eval_simplify_beq {x : Float} {e : Expr} (lawful : Elementary.Lawful) (h : Tame x e) :
    (e.simplify.eval x == e.eval x) = true := by
  have hAlike := alike_simplify lawful h
  exact hAlike.beq (hAlike.symm.isFinite h.isFinite)

end

/-! ## Expressions at special arguments -/

attribute [local instance] specialArguments

/-- `(0 + x ^ 1) * 1 - sin (x - x)`, which becomes `x - sin (x - x)`. -/
def specialSum : Expr :=
  operation .sub
    (operation .mul
      (operation .add (number 0) (operation .pow (var false) (number 1))) (number 1))
    (application .sin (operation .sub (var false) (var false)))

/-- The two forms of the sum have the same value at 2. -/
theorem eval_simplify_specialSum :
    Elementary.Lawful ∧ Tame 2 specialSum ∧
      (specialSum.simplify.eval 2 == specialSum.eval 2) = true := by
  have hTame : Tame 2 specialSum := by
    constructor <;> decide +kernel
  exact ⟨lawful_specialArguments, hTame, eval_simplify_beq lawful_specialArguments hTame⟩

end DerivCalc.Expr
