import DerivCalc.Elementary
import DerivCalc.Proofs.Double.Arithmetic

/-!
# Laws of the functions on doubles

`Elementary.Lawful` collects what is known of the library's functions at special
arguments: the powers with a base or an exponent that is zero or one, and that a
finite result does not depend on the sign of a zero argument.  From it and the
laws of arithmetic the same is shown for every function and operator of the
formulas, with their settled infinities and NaN.
-/

namespace DerivCalc

open Decimal.Binary
open Double (Alike)
open Float.Model (UnpackedFloat)

/-- A finite value at a zero differs from the value at the other zero at most in the sign of a zero. -/
def Elementary.IgnoresZeroSign (f : Float → Float) : Prop :=
  ∀ v w : Float, (v == 0) = true → (w == 0) = true → (f v).isFinite = true → Alike (f v) (f w)

/-- What is known of the library's functions at special arguments. -/
structure Elementary.Lawful [Elementary] : Prop where
  sin_zero : IgnoresZeroSign sin
  cos_zero : IgnoresZeroSign cos
  tan_zero : IgnoresZeroSign tan
  cotangent_zero : IgnoresZeroSign cotangent
  pow_left_zero (w : Float) : IgnoresZeroSign fun v => pow v w
  zero_pow (v w : Float) : (v == 0) = true → 0 < w → (pow v w == 0) = true
  one_pow (w : Float) : pow 1 w = 1
  pow_zero (v w : Float) : (w == 0) = true → pow v w = 1
  pow_one (v : Float) : pow v 1 = v

theorem Elementary.IgnoresZeroSign.alike {f : Float → Float} (hf : IgnoresZeroSign f)
    {v w : Float} (h : Alike v w) (hFinite : (f v).isFinite = true) : Alike (f v) (f w) := by
  rcases h with hEq | ⟨hV, hW⟩
  · rw [hEq]
    exact Alike.refl _
  · exact hf v w hV hW hFinite

namespace Double

/-! ## Order and infinities -/

theorem not_isFinite_of_isInf {v : Float} (h : v.isInf = true) : ¬ v.isFinite = true := by
  have hInf : v.toModel.unpack.isInf = true := h
  show ¬ v.toModel.unpack.isFinite = true
  cases hU : v.toModel.unpack with
  | notANumber => rw [hU] at hInf; simp [UnpackedFloat.isInf] at hInf
  | infinity s => simp [UnpackedFloat.isFinite]
  | zero s => rw [hU] at hInf; simp [UnpackedFloat.isInf] at hInf
  | finite s m q hPos => rw [hU] at hInf; simp [UnpackedFloat.isInf] at hInf

theorem not_isFinite_infinityOf (negative : Bool) : ¬ (infinity negative).isFinite = true := by
  cases negative <;> decide

theorem isFinite_one : (1 : Float).isFinite = true := by decide

theorem not_isFinite_nanValue : ¬ nan.isFinite = true := by decide

theorem Alike.isInf_eq {v w : Float} (h : Alike v w) : v.isInf = w.isInf := by
  rcases h with hEq | ⟨hV, hW⟩
  · rw [hEq]
  · have hNotV : ¬ v.isInf = true := fun hInf =>
      not_isFinite_of_isInf hInf (isFinite_of_beq_zero hV)
    have hNotW : ¬ w.isInf = true := fun hInf =>
      not_isFinite_of_isInf hInf (isFinite_of_beq_zero hW)
    rw [Bool.eq_false_iff.2 hNotV, Bool.eq_false_iff.2 hNotW]

theorem not_lt_zero_of_beq_zero {w : Float} (h : (w == 0) = true) : ¬ w < 0 := by
  obtain ⟨s, hS⟩ := beq_zero_iff.1 h
  rw [lt_iff, hS, unpack_zero]
  simp [UnpackedFloat.lt, UnpackedFloat.compare]

/-- A finite double is negative, zero or positive. -/
theorem pos_of_not_beq_zero {w : Float} (hFinite : w.isFinite = true) (hZero : ¬ (w == 0) = true)
    (hNeg : ¬ w < 0) : 0 < w := by
  rw [lt_iff, unpack_zero] at hNeg ⊢
  rcases (isFinite_iff w).1 hFinite with ⟨s, hS⟩ | ⟨s, m, q, hC, hS⟩
  · exact absurd (beq_zero_iff.2 ⟨s, hS⟩) hZero
  · rw [hS] at hNeg ⊢
    cases s with
    | negative => simp [UnpackedFloat.lt, UnpackedFloat.compare] at hNeg
    | positive => simp [UnpackedFloat.lt, UnpackedFloat.compare]

end Double

open Double

theorem Elementary.periodic_alike {f : Float → Float} (hf : IgnoresZeroSign f) {v w : Float}
    (h : Alike v w) (hFinite : (periodic f v).isFinite = true) :
    Alike (periodic f v) (periodic f w) := by
  unfold periodic at hFinite ⊢
  rw [← h.isInf_eq]
  by_cases hInf : v.isInf = true
  · rw [if_pos hInf] at hFinite
    exact absurd hFinite not_isFinite_nanValue
  · rw [if_neg hInf] at hFinite ⊢
    rw [if_neg hInf]
    exact hf.alike h hFinite

section

variable [Elementary]

/-! ## Powers -/

/-- A finite power is the library's. -/
theorem Elementary.power_of_isFinite {v w : Float} (h : (power v w).isFinite = true) :
    ((v == 0) = true → ¬ w < 0) ∧ power v w = pow v w := by
  unfold power at h ⊢
  by_cases hPole : (v == 0 && w < 0) = true
  · rw [if_pos hPole] at h
    exact absurd h (not_isFinite_infinityOf _)
  · rw [if_neg hPole] at h ⊢
    refine ⟨fun hZero hNeg => hPole ?_, ?_⟩
    · rw [hZero, decide_eq_true hNeg]
      rfl
    · by_cases hOver : (v.isFinite && w.isFinite && (pow v w).isInf) = true
      · simp only [hOver, if_true] at h
        exact absurd h (not_isFinite_infinityOf _)
      · simp only [hOver]
        rfl

theorem Elementary.power_eq_pow {v w : Float} (hPole : (v == 0) = true → ¬ w < 0)
    (h : (pow v w).isFinite = true) : power v w = pow v w := by
  have hNotPole : ¬ (v == 0 && w < 0) = true := by
    intro hBoth
    obtain ⟨hZero, hNeg⟩ := Bool.and_eq_true_iff.1 hBoth
    exact hPole hZero (of_decide_eq_true hNeg)
  have hNotOver : ¬ (v.isFinite && w.isFinite && (pow v w).isInf) = true := by
    intro hOver
    exact not_isFinite_of_isInf (Bool.and_eq_true_iff.1 hOver).2 h
  unfold power
  rw [if_neg hNotPole]
  simp only [hNotOver]
  rfl

theorem Elementary.Lawful.power_alike (lawful : Lawful) {v v' w w' : Float} (hV : Alike v v')
    (hW : Alike w w') (h : (power v w).isFinite = true) : Alike (power v w) (power v' w') := by
  obtain ⟨hPole, hPow⟩ := power_of_isFinite h
  rw [hPow] at h ⊢
  have hLeft : Alike (pow v w) (pow v' w) :=
    (lawful.pow_left_zero w).alike hV h
  have hRight : pow v' w = pow v' w' := by
    rcases hW with hEq | ⟨hZero, hZero'⟩
    · rw [hEq]
    · rw [lawful.pow_zero v' w hZero, lawful.pow_zero v' w' hZero']
  have hPole' : (v' == 0) = true → ¬ w' < 0 := by
    intro hBase
    rcases hW with hEq | ⟨_, hZero'⟩
    · rw [← hEq]
      exact hPole (hV.symm.beq_zero hBase)
    · exact not_lt_zero_of_beq_zero hZero'
  rw [hRight] at hLeft
  rw [power_eq_pow hPole' (hLeft.isFinite h)]
  exact hLeft

theorem Elementary.Lawful.zero_power (lawful : Lawful) {v w : Float} (hV : (v == 0) = true)
    (hW : w.isFinite = true) (hNe : ¬ (w == 0) = true) (h : (power v w).isFinite = true) :
    (power v w == 0) = true := by
  obtain ⟨hPole, hPow⟩ := power_of_isFinite h
  rw [hPow]
  exact lawful.zero_pow v w hV (pos_of_not_beq_zero hW hNe (hPole hV))

theorem Elementary.Lawful.one_power (lawful : Lawful) (w : Float) : power 1 w = 1 := by
  have hPow := lawful.one_pow w
  have hNe : ¬ ((1 : Float) == 0) = true := by decide
  rw [power_eq_pow (fun hZero => absurd hZero hNe) (by rw [hPow]; exact isFinite_one), hPow]

theorem Elementary.Lawful.power_zero (lawful : Lawful) {w : Float} (v : Float)
    (hW : (w == 0) = true) : power v w = 1 := by
  have hPow := lawful.pow_zero v w hW
  have hLt : ¬ w < 0 := not_lt_zero_of_beq_zero hW
  rw [power_eq_pow (fun _ => hLt) (by rw [hPow]; exact isFinite_one), hPow]

theorem Elementary.Lawful.power_one (lawful : Lawful) {v : Float} (hV : v.isFinite = true) :
    power v 1 = v := by
  have hPow := lawful.pow_one v
  have hLt : ¬ (1 : Float) < 0 := by decide
  rw [power_eq_pow (fun _ => hLt) (by rw [hPow]; exact hV), hPow]

/-! ## Functions and operators -/

theorem Elementary.naturalLog_alike {v w : Float} (h : Alike v w)
    (hFinite : (naturalLog v).isFinite = true) : Alike (naturalLog v) (naturalLog w) := by
  rcases h with hEq | ⟨hV, _⟩
  · rw [hEq]
    exact Alike.refl _
  · unfold naturalLog at hFinite
    rw [if_pos hV] at hFinite
    exact absurd hFinite (not_isFinite_infinityOf true)

/-- A finite value of a function does not tell alike arguments apart. -/
theorem Elementary.Lawful.func_alike (lawful : Lawful) (f : Func) {v w : Float} (h : Alike v w)
    (hFinite : (f.apply v).isFinite = true) : Alike (f.apply v) (f.apply w) := by
  cases f with
  | sin => exact periodic_alike lawful.sin_zero h hFinite
  | cos => exact periodic_alike lawful.cos_zero h hFinite
  | tan => exact periodic_alike lawful.tan_zero h hFinite
  | cot => exact lawful.cotangent_zero.alike h hFinite
  | neg => exact neg_alike h
  | ln => exact naturalLog_alike h hFinite

/-- A finite value of an operator does not tell alike operands apart. -/
theorem Elementary.Lawful.operator_alike (lawful : Lawful) (op : Operator) {v v' w w' : Float}
    (hV : Alike v v') (hW : Alike w w') (hFinite : (op.apply v w).isFinite = true) :
    Alike (op.apply v w) (op.apply v' w') := by
  cases op with
  | add => exact (add_alike_left w hV).trans (add_alike_right v' hW)
  | sub => exact (sub_alike_left w hV).trans (sub_alike_right v' hW)
  | mul => exact (mul_alike_left w hV).trans (mul_alike_right v' hW)
  | div =>
      have hLeft : Alike (v / w) (v' / w) := div_alike_left w hV
      have hFinite' : (v' / w).isFinite = true := hLeft.isFinite hFinite
      exact hLeft.trans (div_alike_right v' hW hFinite')
  | pow => exact lawful.power_alike hV hW hFinite

end

/-! ## A library -/

/--
A library that is right at the arguments where zero and one decide the result
and has no value elsewhere.
-/
abbrev Elementary.specialArguments : Elementary where
  sin v := if v == 0 then v else nan
  cos v := if v == 0 then 1 else nan
  tan v := if v == 0 then v else nan
  log v := if v == 1 then 0 else nan
  pow v w :=
    if w == 0 || v == 1 then 1
    else if w == 1 then v
    else if v == 0 && 0 < w then 0
    else nan

theorem Elementary.lawful_specialArguments : @Lawful specialArguments := by
  have hNeOne {v : Float} (h : (v == 0) = true) : (v == 1) = false := by
    obtain ⟨s, rfl⟩ := zero_cases h
    cases s <;> decide
  refine @Lawful.mk specialArguments ?_ ?_ ?_ ?_ ?_ ?_ ?_ ?_ ?_
  · intro v w hV hW _
    show Alike (if v == 0 then v else _) (if w == 0 then w else _)
    rw [if_pos hV, if_pos hW]
    exact Or.inr ⟨hV, hW⟩
  · intro v w hV hW _
    show Alike (if v == 0 then 1 else _) (if w == 0 then 1 else _)
    rw [if_pos hV, if_pos hW]
    exact Alike.refl _
  · intro v w hV hW _
    show Alike (if v == 0 then v else _) (if w == 0 then w else _)
    rw [if_pos hV, if_pos hW]
    exact Or.inr ⟨hV, hW⟩
  · intro v w hV _ hFinite
    obtain ⟨s, rfl⟩ := zero_cases hV
    exact absurd hFinite (by cases s <;> decide)
  · intro u v w hV hW _
    show Alike (if u == 0 || v == 1 then 1 else if u == 1 then v else
      if v == 0 && 0 < u then 0 else _) (if u == 0 || w == 1 then 1 else if u == 1 then w else
      if w == 0 && 0 < u then 0 else _)
    rw [hNeOne hV, hNeOne hW, hV, hW]
    split
    · exact Alike.refl _
    · split
      · exact Or.inr ⟨hV, hW⟩
      · exact Alike.refl _
  · intro v w hV hPos
    have hNe : (w == 0) = false := by
      apply Bool.eq_false_iff.2
      intro hZero
      obtain ⟨s, rfl⟩ := zero_cases hZero
      exact absurd hPos (by cases s <;> decide)
    show ((if w == 0 || v == 1 then 1 else if w == 1 then v else
      if v == 0 && 0 < w then 0 else _) == 0) = true
    rw [hNe, hNeOne hV, hV, decide_eq_true hPos]
    split
    · exact absurd ‹_› (by decide)
    · split
      · exact hV
      · decide
  · intro w
    show (if w == 0 || (1 : Float) == 1 then (1 : Float) else _) = 1
    exact if_pos (by rw [show ((1 : Float) == 1) = true by decide, Bool.or_true])
  · intro v w hW
    show (if w == 0 || v == 1 then (1 : Float) else _) = 1
    exact if_pos (by rw [hW, Bool.true_or])
  · intro v
    show (if (1 : Float) == 0 || v == 1 then 1 else if (1 : Float) == 1 then v else _) = v
    have hZero : ((1 : Float) == 0) = false := by decide
    rw [hZero, Bool.false_or]
    by_cases hOne : (v == 1) = true
    · rw [if_pos hOne, eq_one_of_beq hOne]
    · rw [if_neg hOne]
      exact if_pos (by decide)

end DerivCalc
