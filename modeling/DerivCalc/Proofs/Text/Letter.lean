import DerivCalc.Text.Digit
import DerivCalc.Text.Letter
import Mathlib.Data.Nat.Bitwise

/-!
# No letter is a digit

A set of characters given by ranges is also a number, with one bit for each code point.  Two
sets without a common bit are disjoint, and that is one operation on two numbers, where
comparing the ranges would take one comparison for each pair of them.
-/

namespace DerivCalc.Text

/-! ## Ranges as bits -/

/-- The code points of the ranges as the bits of one number. -/
def Ranges.bits (ranges : Ranges) : ℕ :=
  ranges.foldr (fun range bits => (2 ^ (range.2 + 1 - range.1) - 1) <<< range.1 ||| bits) 0

theorem Ranges.testBit_bits {ranges : Ranges} {c : Char} (h : ranges.contains c = true) :
    ranges.bits.testBit c.toNat = true := by
  induction ranges with
  | nil => exact absurd h (by simp [contains])
  | cons range rest ih =>
      unfold contains at h
      rw [List.any_cons, Bool.or_eq_true] at h
      unfold bits
      rw [List.foldr_cons, Nat.testBit_or, Bool.or_eq_true]
      rcases h with hFirst | hRest
      · left
        simp only [Bool.and_eq_true, decide_eq_true_eq] at hFirst
        rw [Nat.testBit_shiftLeft, Nat.testBit_two_pow_sub_one, Bool.and_eq_true,
          decide_eq_true_eq, decide_eq_true_eq]
        omega
      · exact Or.inr (ih hRest)

/-- Ranges without a common bit have no common character. -/
theorem Ranges.contains_eq_false {ranges others : Ranges} {c : Char}
    (hApart : ranges.bits &&& others.bits = 0) (h : ranges.contains c = true) :
    others.contains c = false := by
  rw [Bool.eq_false_iff]
  intro hOther
  have hBit := Nat.testBit_and ranges.bits others.bits c.toNat
  rw [hApart, testBit_bits h, testBit_bits hOther, Nat.zero_testBit] at hBit
  exact absurd hBit (by decide)

/-! ## Letters and digits -/

/-- The decimal digits of all scripts as ranges. -/
def decimals : Ranges := scriptZeros.map fun first => (first, first + 9)

theorem contains_decimals {c : Char} (h : (decimalValue? c).isSome = true) :
    decimals.contains c = true := by
  rw [decimalValue?, Option.isSome_map, List.find?_isSome] at h
  obtain ⟨first, hMem, hRange⟩ := h
  simp only [Bool.and_eq_true, decide_eq_true_eq] at hRange
  refine List.any_eq_true.2 ⟨_, List.mem_map_of_mem hMem, ?_⟩
  simp only [Bool.and_eq_true, decide_eq_true_eq]
  omega

/-- No letter is a digit. -/
theorem isDigit_of_isLetter {c : Char} (h : isLetter c = true) : isDigit c = false := by
  have hDecimals : letters.bits &&& decimals.bits = 0 := by decide +kernel
  have hIsolated : letters.bits &&& isolatedDigits.bits = 0 := by decide +kernel
  have hNoDecimal : (decimalValue? c).isSome = false := by
    rw [Bool.eq_false_iff]
    intro hSome
    have hOutside := Ranges.contains_eq_false hDecimals h
    rw [contains_decimals hSome] at hOutside
    exact absurd hOutside (by decide)
  rw [isDigit, hNoDecimal, Ranges.contains_eq_false hIsolated h]
  rfl

end DerivCalc.Text
