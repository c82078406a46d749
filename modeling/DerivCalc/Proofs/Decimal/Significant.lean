import DerivCalc.Proofs.Decimal.Rounding

/-!
# Seventeen significant digits determine a double

Rounding a double to at least seventeen significant digits moves it by less than
the `2 ^ 54`th part of itself, and that is less than half of the gap to either
neighbour.  So the rounded decimal lies between the midpoints.

Where the count of places is capped because the double has no more of them, nothing
is rounded at all.
-/

namespace DerivCalc.Decimal.Significant

open Binary
open Double (Canonical)
open Float.Model (UnpackedFloat)

/-! ## The decimal logarithm -/

theorem length_toDigits_bounds {n : ℕ} (h : 0 < n) :
    10 ^ ((Nat.toDigits 10 n).length - 1) ≤ n ∧
      n < 10 ^ ((Nat.toDigits 10 n).length - 1 + 1) := by
  have hPos : 0 < (Nat.toDigits 10 n).length := Nat.length_toDigits_pos
  constructor
  · by_cases hOne : (Nat.toDigits 10 n).length - 1 = 0
    · rw [hOne, pow_zero]
      exact h
    · by_contra hNot
      have hLe := (Nat.length_toDigits_le_iff (by decide) (by omega)).2 (lt_of_not_ge hNot)
      omega
  · rw [Nat.sub_add_cancel hPos]
    exact (Nat.length_toDigits_le_iff (by decide) hPos).1 (le_refl _)

/-- `floorLog10` is the integer part of the decimal logarithm. -/
theorem floorLog10_bounds {num den : ℕ} (hNum : 0 < num) (hDen : 0 < den) :
    (10 : ℚ) ^ floorLog10 num den ≤ (num : ℚ) / den ∧
      (num : ℚ) / den < 10 ^ (floorLog10 num den + 1) := by
  have hNumLength : 0 < (Nat.toDigits 10 num).length := Nat.length_toDigits_pos
  have hDenLength : 0 < (Nat.toDigits 10 den).length := Nat.length_toDigits_pos
  have hBounds := floorLog_bounds (by decide : 0 < 10) (length_toDigits_bounds hNum)
    (length_toDigits_bounds hDen) (k := ((Nat.toDigits 10 num).length : ℤ) -
      (Nat.toDigits 10 den).length) (by omega) rfl
  rw [Nat.cast_ofNat] at hBounds
  exact hBounds

/-! ## Rounding to significant digits -/

/-- The digits of `round` as one integer. -/
def units (v : Float) (digits : ℕ) : ℕ :=
  roundQuotient ((ratio v).1 * tenPow (places v digits).toNat)
    ((ratio v).2 * tenPow (-places v digits).toNat)

section

variable {v : Float} {s : UnpackedFloat.Sign} {m : ℕ} {q : ℤ} {hPos : 0 < m}

theorem ratio_value (hV : v.toModel.unpack = .finite s m q hPos) :
    0 < (ratio v).1 ∧ ((ratio v).1 : ℚ) / (ratio v).2 = m * 2 ^ q := by
  obtain ⟨-, hM, hQ⟩ := Double.fields_of_unpack hV
  have hScaled := scaled_two m 1 q
  rw [Nat.one_mul, Nat.cast_one, div_one] at hScaled
  unfold ratio
  rw [hM, hQ]
  exact ⟨Nat.mul_pos hPos (twoPow_pos _), hScaled⟩

/-- The rounded integer differs from the scaled double by at most one half. -/
theorem units_error (hV : v.toModel.unpack = .finite s m q hPos) (digits : ℕ) :
    |(units v digits : ℚ) - m * 2 ^ q * 10 ^ places v digits| ≤ 1 / 2 := by
  have hError := roundQuotient_error ((ratio v).1 * tenPow (places v digits).toNat)
    (Nat.mul_pos (ratio_den_pos v) (tenPow_pos (-places v digits).toNat))
  rw [scaled_ten, (ratio_value hV).2] at hError
  exact hError

/-- With as many places as the double has, the scaled double is an integer. -/
theorem units_exact (hV : v.toModel.unpack = .finite s m q hPos) {digits : ℕ}
    (hPlaces : places v digits = max (-q) 0) :
    (units v digits : ℚ) = m * 2 ^ q * 10 ^ places v digits := by
  obtain ⟨n, hN⟩ : ∃ n : ℕ, (n : ℚ) = m * 2 ^ q * 10 ^ places v digits := by
    rw [hPlaces]
    obtain ⟨k, hK | hK⟩ := q.eq_nat_or_neg
    · subst hK
      refine ⟨m * 2 ^ k, ?_⟩
      rw [max_eq_right (by omega), zpow_zero, mul_one, zpow_natCast]
      push_cast
      rfl
    · subst hK
      refine ⟨m * 5 ^ k, ?_⟩
      rw [neg_neg, max_eq_left (by omega), zpow_neg, zpow_natCast, zpow_natCast, mul_assoc,
        inv_mul_eq_div, ← div_pow]
      norm_num
  have hDen := Nat.mul_pos (ratio_den_pos v) (tenPow_pos (-places v digits).toNat)
  have hScaled := scaled_ten (ratio v).1 (ratio v).2 (places v digits)
  rw [(ratio_value hV).2, ← hN] at hScaled
  have hUnits : units v digits = n := by
    apply roundQuotient_eq_of_div hDen
    · rw [hScaled]
      linarith
    · rw [hScaled]
      linarith
    · intro _
      rw [hScaled]
      constructor <;> linarith
  rw [hUnits, hN]

/-- Where the double has more places, they are those that leave the digits asked for. -/
theorem places_eq (hV : v.toModel.unpack = .finite s m q hPos) {digits : ℕ}
    (h : places v digits ≠ max (-q) 0) :
    places v digits = (digits : ℤ) - 1 - floorLog10 (ratio v).1 (ratio v).2 := by
  obtain ⟨-, -, hQ⟩ := Double.fields_of_unpack hV
  have hMin : places v digits =
      min ((digits : ℤ) - 1 - floorLog10 (ratio v).1 (ratio v).2) (max (-q) 0) := by
    rw [← hQ]
    rfl
  omega

/-- One digit is enough for a digit other than zero. -/
theorem units_pos (hV : v.toModel.unpack = .finite s m q hPos) {digits : ℕ}
    (hDigits : 1 ≤ digits) : 0 < units v digits := by
  obtain ⟨hNum, hRatio⟩ := ratio_value hV
  have hTenPos := ten_zpow_pos (places v digits)
  have hValuePos : (0 : ℚ) < m * 2 ^ q := mul_pos (Nat.cast_pos.2 hPos) (two_zpow_pos q)
  rw [Nat.pos_iff_ne_zero]
  intro hZero
  by_cases hExact : places v digits = max (-q) 0
  · have hUnits := units_exact hV hExact
    rw [hZero, Nat.cast_zero] at hUnits
    exact absurd hUnits (ne_of_lt (mul_pos hValuePos hTenPos))
  · have hPlaces := places_eq hV hExact
    have hLog := (floorLog10_bounds hNum (ratio_den_pos v)).1
    rw [hRatio] at hLog
    have hOne : (1 : ℚ) ≤ m * 2 ^ q * 10 ^ places v digits := by
      calc (1 : ℚ) ≤ 10 ^ (floorLog10 (ratio v).1 (ratio v).2 + places v digits) :=
            one_le_zpow₀ (by norm_num) (by omega)
        _ = 10 ^ floorLog10 (ratio v).1 (ratio v).2 * 10 ^ places v digits :=
            zpow_add₀ (by norm_num) _ _
        _ ≤ m * 2 ^ q * 10 ^ places v digits :=
            mul_le_mul_of_nonneg_right hLog (le_of_lt hTenPos)
    have hError := units_error hV digits
    rw [hZero, Nat.cast_zero, zero_sub, abs_neg, abs_of_pos (by linarith)] at hError
    linarith

/-- Seventeen digits keep all but the `2 ^ 54`th part. -/
theorem round_near (hV : v.toModel.unpack = .finite s m q hPos) {digits : ℕ}
    (hDigits : 17 ≤ digits) :
    |(units v digits : ℚ) * 10 ^ (-places v digits) - m * 2 ^ q| * 2 ^ 54 < m * 2 ^ q := by
  obtain ⟨hNum, hRatio⟩ := ratio_value hV
  have hTenPos := ten_zpow_pos (-places v digits)
  have hBack : (m : ℚ) * 2 ^ q = m * 2 ^ q * 10 ^ places v digits * 10 ^ (-places v digits) := by
    rw [mul_assoc, ← zpow_add₀ (by norm_num), add_neg_cancel, zpow_zero, mul_one]
  have hValuePos : (0 : ℚ) < m * 2 ^ q :=
    mul_pos (Nat.cast_pos.2 hPos) (two_zpow_pos q)
  by_cases hExact : places v digits = max (-q) 0
  · rw [units_exact hV hExact, ← hBack, sub_self, abs_zero, zero_mul]
    exact hValuePos
  · have hPlaces := places_eq hV hExact
    have hLog := (floorLog10_bounds hNum (ratio_den_pos v)).1
    rw [hRatio] at hLog
    have hUnit : (10 : ℚ) ^ (-places v digits) * 10 ^ 16 ≤ m * 2 ^ q := by
      calc (10 : ℚ) ^ (-places v digits) * 10 ^ 16
          = 10 ^ (-places v digits + 16) := by
            rw [zpow_add₀ (by norm_num)]
            rfl
        _ ≤ 10 ^ floorLog10 (ratio v).1 (ratio v).2 :=
            zpow_le_zpow_right₀ (by norm_num) (by omega)
        _ ≤ m * 2 ^ q := hLog
    have hError := units_error hV digits
    have hScaledError : |(units v digits : ℚ) * 10 ^ (-places v digits) - m * 2 ^ q| ≤
        1 / 2 * 10 ^ (-places v digits) := by
      rw [hBack, ← sub_mul, abs_mul, abs_of_pos hTenPos]
      exact mul_le_mul_of_nonneg_right hError (le_of_lt hTenPos)
    nlinarith

end

/-! ## The interval around a double -/

/-- A number within the `2 ^ 54`th part of a double is between its midpoints. -/
theorem between_of_near {m : ℕ} {q : ℤ} {x : ℚ} (h : Canonical m q)
    (hNear : |x - m * 2 ^ q| * 2 ^ 54 < m * 2 ^ q) : Between m q x := by
  have hPow := two_zpow_pos q
  have hM : (m : ℚ) < 2 ^ 53 := by exact_mod_cast h.lt
  rw [← lt_div_iff₀ (by norm_num), abs_lt] at hNear
  obtain ⟨hBelow, hAbove⟩ := hNear
  have hLower : lowerMidpoint m q < x := by
    unfold lowerMidpoint
    split
    · rename_i hPower
      have hCast : (m : ℚ) = 2 ^ 52 := by exact_mod_cast hPower.1
      rw [hCast] at hBelow ⊢
      linarith
    · nlinarith
  have hUpper : x < upperMidpoint m q := by
    unfold upperMidpoint
    nlinarith
  exact ⟨le_of_lt hLower, le_of_lt hUpper, fun _ => ⟨hLower, hUpper⟩⟩

end DerivCalc.Decimal.Significant
