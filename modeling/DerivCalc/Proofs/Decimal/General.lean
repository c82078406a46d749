import DerivCalc.Proofs.Decimal.Numeral
import DerivCalc.Proofs.Decimal.Significant
import Mathlib.Data.Int.Log

/-!
# The general layout

A number rounded to `p` significant digits is written around a plain point, unless its decimal
exponent is below -4 or reaches `p`.  This is the exponent of the rounded number, which a carry
may have raised, so it is read off the number that is written.
-/

namespace DerivCalc.Decimal

/-- A literal in the general layout with `p` digits. -/
structure General (p : ℕ) (l : Literal) : Prop where
  exponent : l.exponent = if Int.log 10 l.value < -4 ∨ (p : ℤ) ≤ Int.log 10 l.value then
    some (Int.log 10 l.value) else none
  lead : l.exponent ≠ none → l.whole.length = 1
  last : l.fraction.getLast? ≠ some '0'

/-! ## The digits of an integer -/

namespace Numeral

theorem getLast_dropTrailingZeros (digits : List Char) :
    (dropTrailingZeros digits).getLast? ≠ some '0' := by
  unfold dropTrailingZeros
  rw [List.getLast?_reverse]
  intro hHead
  have hNot := List.head?_dropWhile_not (· == '0') digits.reverse
  rw [hHead] at hNot
  exact absurd hNot (by decide)

/-- The exponent of the digits is the decimal logarithm of the number. -/
theorem log_ofUnits {units : ℕ} (h : 0 < units) (places : ℤ) :
    Int.log 10 (ofUnits units places).value = (ofUnits units places).exponent := by
  have hLength : 0 < (Nat.toDigits 10 units).length := Nat.length_toDigits_pos
  have hPow (k : ℕ) : ((10 ^ k : ℕ) : ℚ) * 10 ^ (-places) = ((10 : ℕ) : ℚ) ^ (k - places) := by
    rw [Nat.cast_pow, Nat.cast_ofNat, sub_eq_add_neg, zpow_add₀ (by norm_num), zpow_natCast]
  have hPlaces := Binary.ten_zpow_pos (-places)
  have hPos : (0 : ℚ) < units * 10 ^ (-places) := mul_pos (Nat.cast_pos.2 h) hPlaces
  obtain ⟨hLower, hUpper⟩ := Significant.length_toDigits_bounds h
  have hLowerScaled := mul_le_mul_of_nonneg_right (Nat.cast_le (α := ℚ) |>.2 hLower) hPlaces.le
  have hUpperScaled := mul_lt_mul_of_pos_right (Nat.cast_lt (α := ℚ) |>.2 hUpper) hPlaces
  rw [hPow, Int.zpow_le_iff_le_log (by decide) hPos] at hLowerScaled
  rw [hPow, Int.lt_zpow_iff_log_lt (by decide) hPos] at hUpperScaled
  rw [value_ofUnits]
  show _ = ((Nat.toDigits 10 units).length : ℤ) - 1 - places
  omega

end Numeral

/-! ## The layout -/

theorem general_zero {p : ℕ} (hP : 1 ≤ p) : General p Literal.zero := by
  refine ⟨?_, fun hNe => absurd rfl hNe, by simp [Literal.zero]⟩
  rw [Literal.value_zero, Int.log_zero_right, if_neg (by omega)]
  rfl

theorem getLast_drop_ne {l : List Char} {c : Char} (h : l.getLast? ≠ some c) (k : ℕ) :
    (l.drop k).getLast? ≠ some c := by
  rw [List.getLast?_drop]
  split
  · simp
  · exact h

/-- A numeral that does not end in a zero is written in the general layout. -/
theorem Layout.general_literal {n : Numeral} {p : ℕ} (hValid : n.Valid)
    (hLog : Int.log 10 n.value = n.exponent) (hLast : n.digits.getLast? ≠ some '0') :
    General p (Layout.literal ⟨p, []⟩ n) := by
  have hValue := Layout.value_literal (l := ⟨p, []⟩) (Or.inl rfl) hValid
  have hNe := hValid.ne_nil
  by_cases hShort : n.exponent < -4 ∨ (p : ℤ) ≤ n.exponent
  · have hLiteral : Layout.literal ⟨p, []⟩ n =
        ⟨n.digits.take 1, n.digits.drop 1, some n.exponent⟩ := by
      unfold Layout.literal
      rw [if_pos (by simpa using hShort)]
    refine ⟨?_, fun _ => ?_, ?_⟩
    · rw [hValue, hLog, if_pos hShort, hLiteral]
    · have hLength := List.length_pos_iff.2 hNe
      rw [hLiteral, List.length_take]
      omega
    · rw [hLiteral]
      exact getLast_drop_ne hLast 1
  · have hFixed : (Layout.literal ⟨p, []⟩ n).exponent = none := by
      unfold Layout.literal
      rw [if_neg (by simpa using hShort)]
      split <;> rfl
    refine ⟨?_, fun hSome => absurd hFixed hSome, ?_⟩
    · rw [hValue, hLog, if_neg hShort, hFixed]
    · unfold Layout.literal
      rw [if_neg (by simpa using hShort)]
      split
      · show (List.replicate (-n.exponent - 1).toNat '0' ++ n.digits).getLast? ≠ some '0'
        rw [List.getLast?_append_of_ne_nil _ hNe]
        exact hLast
      · show (if (n.digits.drop (n.exponent.toNat + 1)).isEmpty then []
          else n.digits.drop (n.exponent.toNat + 1)).getLast? ≠ some '0'
        split
        · simp
        · exact getLast_drop_ne hLast _

end DerivCalc.Decimal
