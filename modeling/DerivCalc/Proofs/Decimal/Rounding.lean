import DerivCalc.Decimal.Significant
import DerivCalc.Proofs.Double.Arithmetic

/-!
# Decimals that are read as a given double

A positive decimal is read as the double `m * 2 ^ q` iff it lies between the
midpoints to the two neighbours, a midpoint counting iff `m` is even: `Between`.
Below a power of two the lower neighbour is only half as far away.

Fractions of naturals are compared as rationals.  `scaled` turns the pair of powers
by which a fraction is scaled into one power with an integer exponent.
-/

namespace DerivCalc.Decimal.Binary

open Double (Canonical)
open Float.Model (UnpackedFloat)

/-! ## Scaled fractions -/

theorem zpow_toNat (b : ℚ) (k : ℤ) : b ^ k.toNat / b ^ (-k).toNat = b ^ k := by
  obtain ⟨n, hN | hN⟩ := k.eq_nat_or_neg
  · subst hN
    simp
  · subst hN
    simp

/-- A fraction scaled by a power of `b` with an integer exponent. -/
theorem scaled (b num den : ℕ) (k : ℤ) :
    ((num * Nat.pow b k.toNat : ℕ) : ℚ) / ((den * Nat.pow b (-k).toNat : ℕ) : ℚ) =
      (num : ℚ) / den * (b : ℚ) ^ k := by
  rw [← zpow_toNat b k, div_mul_div_comm]
  push_cast [Nat.pow_eq]
  rfl

theorem scaled_two (num den : ℕ) (k : ℤ) :
    ((num * twoPow k.toNat : ℕ) : ℚ) / ((den * twoPow (-k).toNat : ℕ) : ℚ) =
      (num : ℚ) / den * 2 ^ k := by
  have hScaled := scaled 2 num den k
  rw [Nat.cast_ofNat] at hScaled
  exact hScaled

theorem scaled_ten (num den : ℕ) (k : ℤ) :
    ((num * tenPow k.toNat : ℕ) : ℚ) / ((den * tenPow (-k).toNat : ℕ) : ℚ) =
      (num : ℚ) / den * 10 ^ k := by
  have hScaled := scaled 10 num den k
  rw [Nat.cast_ofNat] at hScaled
  exact hScaled

/-! ## Rounding a fraction -/

/-- An integer within half of the fraction is its rounding, at exactly half if it is even. -/
theorem roundQuotient_eq {num den m : ℕ} (hDen : 0 < den) (hLower : 2 * (m * den) ≤ 2 * num + den)
    (hUpper : 2 * num ≤ 2 * (m * den) + den)
    (hOdd : m % 2 = 1 → 2 * (m * den) < 2 * num + den ∧ 2 * num < 2 * (m * den) + den) :
    roundQuotient num den = m := by
  have hDivMod : den * (num / den) + num % den = num := Nat.div_add_mod num den
  have hRest : num % den < den := Nat.mod_lt num hDen
  unfold roundQuotient
  generalize num / den = low at hDivMod ⊢
  generalize num % den = rest at hDivMod hRest ⊢
  subst hDivMod
  simp only
  have hCases : m = low ∨ m = low + 1 := by
    have hLow : m < low + 2 := by
      by_contra hNot
      have hMul : (low + 2) * den ≤ m * den := Nat.mul_le_mul_right den (by omega)
      rw [Nat.add_mul, Nat.mul_comm low] at hMul
      omega
    have hHigh : low < m + 1 := by
      by_contra hNot
      have hMul : (m + 1) * den ≤ low * den := Nat.mul_le_mul_right den (by omega)
      rw [Nat.add_mul, Nat.mul_comm low] at hMul
      omega
    omega
  rcases hCases with hEq | hEq
  · subst hEq
    rw [Nat.mul_comm m den] at hLower hUpper hOdd
    have hParity := Nat.mod_two_eq_zero_or_one m
    split
    · rfl
    · split
      · omega
      · rcases hParity with hEven | hIsOdd
        · omega
        · have hStrict := hOdd hIsOdd
          omega
  · subst hEq
    rw [Nat.add_mul, Nat.mul_comm low den] at hLower hUpper hOdd
    have hParity := Nat.mod_two_eq_zero_or_one low
    split
    · omega
    · split
      · rfl
      · rcases hParity with hEven | hIsOdd
        · have hStrict := hOdd (by omega)
          omega
        · omega

/-- Rounding moves a fraction by at most one half. -/
theorem roundQuotient_error (num : ℕ) {den : ℕ} (hDen : 0 < den) :
    |(roundQuotient num den : ℚ) - (num : ℚ) / den| ≤ 1 / 2 := by
  have hDivMod : den * (num / den) + num % den = num := Nat.div_add_mod num den
  have hRest : num % den < den := Nat.mod_lt num hDen
  have hCast : (0 : ℚ) < den := Nat.cast_pos.2 hDen
  have hBounds : 2 * (roundQuotient num den * den) ≤ 2 * num + den ∧
      2 * num ≤ 2 * (roundQuotient num den * den) + den := by
    unfold roundQuotient
    generalize num / den = low at hDivMod ⊢
    generalize num % den = rest at hDivMod hRest ⊢
    subst hDivMod
    have hParity := Nat.mod_two_eq_zero_or_one low
    simp only
    split
    · rw [Nat.mul_comm low den]
      omega
    · split
      · rw [Nat.add_mul, Nat.mul_comm low den]
        omega
      · rcases hParity with hEven | hOdd
        · rw [hEven, Nat.add_zero, Nat.mul_comm low den]
          omega
        · rw [hOdd, Nat.add_mul, Nat.mul_comm low den]
          omega
  obtain ⟨hLower, hUpper⟩ := hBounds
  have hLowerCast : 2 * ((roundQuotient num den : ℚ) * den) ≤ 2 * num + den := by
    exact_mod_cast hLower
  have hUpperCast : (2 : ℚ) * num ≤ 2 * ((roundQuotient num den : ℚ) * den) + den := by
    exact_mod_cast hUpper
  rw [abs_le]
  constructor
  · rw [neg_le_sub_iff_le_add, div_le_iff₀ hCast]
    linarith
  · rw [sub_le_iff_le_add', ← sub_le_iff_le_add, le_div_iff₀ hCast]
    linarith

/-! ## Logarithms of fractions -/

/-- The test by which the logarithms are found compares the fraction with a power. -/
theorem pow_le_div_iff {b num den : ℕ} (hB : 0 < b) (hDen : 0 < den) (k : ℤ) :
    den * Nat.pow b k.toNat ≤ num * Nat.pow b (-k).toNat ↔ (b : ℚ) ^ k ≤ (num : ℚ) / den := by
  have hDenCast : (0 : ℚ) < den := Nat.cast_pos.2 hDen
  have hPow : (0 : ℚ) < (b : ℚ) ^ (-k).toNat := by
    have hCast : (0 : ℚ) < b := Nat.cast_pos.2 hB
    positivity
  rw [← zpow_toNat b k, div_le_div_iff₀ hPow hDenCast, ← Nat.cast_le (α := ℚ)]
  push_cast [Nat.pow_eq]
  rw [mul_comm (den : ℚ)]

/--
Numerator and denominator between consecutive powers of `b` leave two candidates
for the logarithm of the fraction, and the test tells them apart.
-/
theorem floorLog_bounds {b num den i j : ℕ} (hB : 0 < b) (hNum : b ^ i ≤ num ∧ num < b ^ (i + 1))
    (hDen : b ^ j ≤ den ∧ den < b ^ (j + 1)) {k result : ℤ} (hK : k = (i : ℤ) - j)
    (hResult : result =
      if den * Nat.pow b k.toNat ≤ num * Nat.pow b (-k).toNat then k else k - 1) :
    (b : ℚ) ^ result ≤ (num : ℚ) / den ∧ (num : ℚ) / den < (b : ℚ) ^ (result + 1) := by
  have hBCast : (0 : ℚ) < b := Nat.cast_pos.2 hB
  have hNe : (b : ℚ) ≠ 0 := ne_of_gt hBCast
  have hDenPos : 0 < den := lt_of_lt_of_le (Nat.pow_pos hB) hDen.1
  have hDenCast : (0 : ℚ) < den := Nat.cast_pos.2 hDenPos
  have hNumLower : (b : ℚ) ^ i ≤ num := by exact_mod_cast hNum.1
  have hNumUpper : (num : ℚ) < (b : ℚ) ^ (i + 1) := by exact_mod_cast hNum.2
  have hDenLower : (b : ℚ) ^ j ≤ den := by exact_mod_cast hDen.1
  have hDenUpper : (den : ℚ) < (b : ℚ) ^ (j + 1) := by exact_mod_cast hDen.2
  have hUpper : (num : ℚ) / den < (b : ℚ) ^ (k + 1) := by
    have hPow : (b : ℚ) ^ (k + 1) * (b : ℚ) ^ j = (b : ℚ) ^ (i + 1) := by
      rw [← zpow_natCast, ← zpow_natCast, ← zpow_add₀ hNe]
      congr 1
      omega
    have hPowPos : (0 : ℚ) < (b : ℚ) ^ (k + 1) := zpow_pos hBCast _
    rw [div_lt_iff₀ hDenCast]
    calc (num : ℚ) < (b : ℚ) ^ (i + 1) := hNumUpper
      _ = (b : ℚ) ^ (k + 1) * (b : ℚ) ^ j := hPow.symm
      _ ≤ (b : ℚ) ^ (k + 1) * den := mul_le_mul_of_nonneg_left hDenLower (le_of_lt hPowPos)
  have hLower : (b : ℚ) ^ (k - 1) ≤ (num : ℚ) / den := by
    have hPow : (b : ℚ) ^ (k - 1) * (b : ℚ) ^ (j + 1) = (b : ℚ) ^ i := by
      rw [← zpow_natCast, ← zpow_natCast, ← zpow_add₀ hNe]
      congr 1
      push_cast
      omega
    have hPowPos : (0 : ℚ) < (b : ℚ) ^ (k - 1) := zpow_pos hBCast _
    rw [le_div_iff₀ hDenCast]
    calc (b : ℚ) ^ (k - 1) * den ≤ (b : ℚ) ^ (k - 1) * (b : ℚ) ^ (j + 1) :=
          mul_le_mul_of_nonneg_left (le_of_lt hDenUpper) (le_of_lt hPowPos)
      _ = (b : ℚ) ^ i := hPow
      _ ≤ num := hNumLower
  have hTest : _ ↔ (b : ℚ) ^ k ≤ (num : ℚ) / den := pow_le_div_iff hB hDenPos k
  by_cases hFits : den * Nat.pow b k.toNat ≤ num * Nat.pow b (-k).toNat
  · rw [if_pos hFits] at hResult
    subst hResult
    exact ⟨hTest.1 hFits, hUpper⟩
  · rw [if_neg hFits] at hResult
    subst hResult
    refine ⟨hLower, ?_⟩
    rw [sub_add_cancel]
    exact lt_of_not_ge (mt hTest.2 hFits)

/-- `floorLog2` is the integer part of the binary logarithm. -/
theorem floorLog2_bounds {num den : ℕ} (hNum : 0 < num) (hDen : 0 < den) :
    (2 : ℚ) ^ floorLog2 num den ≤ (num : ℚ) / den ∧
      (num : ℚ) / den < 2 ^ (floorLog2 num den + 1) := by
  have hBounds := floorLog_bounds (by decide : 0 < 2)
    ⟨Nat.log2_self_le (Nat.ne_of_gt hNum), Nat.lt_log2_self⟩
    ⟨Nat.log2_self_le (Nat.ne_of_gt hDen), Nat.lt_log2_self⟩ rfl rfl
  rw [Nat.cast_ofNat] at hBounds
  exact hBounds

/-- A number between two consecutive powers of two has that logarithm. -/
theorem floorLog2_eq {num den : ℕ} (hNum : 0 < num) (hDen : 0 < den) {k : ℤ}
    (hLower : (2 : ℚ) ^ k ≤ (num : ℚ) / den) (hUpper : (num : ℚ) / den < 2 ^ (k + 1)) :
    floorLog2 num den = k := by
  obtain ⟨hLogLower, hLogUpper⟩ := floorLog2_bounds hNum hDen
  have hLt : k < floorLog2 num den + 1 :=
    (zpow_lt_zpow_iff_right₀ (by norm_num : (1 : ℚ) < 2)).1 (lt_of_le_of_lt hLower hLogUpper)
  have hGt : floorLog2 num den < k + 1 :=
    (zpow_lt_zpow_iff_right₀ (by norm_num : (1 : ℚ) < 2)).1 (lt_of_le_of_lt hLogLower hUpper)
  omega

/-! ## The interval around a double -/

/-- The midpoint between `m * 2 ^ q` and the next smaller double. -/
def lowerMidpoint (m : ℕ) (q : ℤ) : ℚ :=
  (if m = 2 ^ 52 ∧ -1074 < q then (m : ℚ) - 1 / 4 else (m : ℚ) - 1 / 2) * 2 ^ q

/-- The midpoint between `m * 2 ^ q` and the next larger double. -/
def upperMidpoint (m : ℕ) (q : ℤ) : ℚ := ((m : ℚ) + 1 / 2) * 2 ^ q

/-- The number is nearer to `m * 2 ^ q` than to other doubles, or at a midpoint and `m` is even. -/
def Between (m : ℕ) (q : ℤ) (x : ℚ) : Prop :=
  lowerMidpoint m q ≤ x ∧ x ≤ upperMidpoint m q ∧
    (m % 2 = 1 → lowerMidpoint m q < x ∧ x < upperMidpoint m q)

theorem two_zpow_pos (q : ℤ) : (0 : ℚ) < 2 ^ q := zpow_pos (by norm_num) q

theorem ten_zpow_pos (k : ℤ) : (0 : ℚ) < 10 ^ k := zpow_pos (by norm_num) k

theorem lowerMidpoint_ge (m : ℕ) (q : ℤ) : ((m : ℚ) - 1 / 2) * 2 ^ q ≤ lowerMidpoint m q := by
  have hPow := two_zpow_pos q
  unfold lowerMidpoint
  split
  · apply mul_le_mul_of_nonneg_right _ (le_of_lt hPow)
    linarith
  · exact le_refl _

theorem roundQuotient_eq_of_div {num den m : ℕ} (hDen : 0 < den)
    (hLower : (m : ℚ) - 1 / 2 ≤ (num : ℚ) / den) (hUpper : (num : ℚ) / den ≤ m + 1 / 2)
    (hOdd : m % 2 = 1 → (m : ℚ) - 1 / 2 < (num : ℚ) / den ∧ (num : ℚ) / den < m + 1 / 2) :
    roundQuotient num den = m := by
  have hCast : (0 : ℚ) < den := Nat.cast_pos.2 hDen
  rw [le_div_iff₀ hCast] at hLower
  rw [div_le_iff₀ hCast] at hUpper
  apply roundQuotient_eq hDen
  · have hGoal : (2 : ℚ) * (m * den) ≤ 2 * num + den := by linarith
    exact_mod_cast hGoal
  · have hGoal : (2 : ℚ) * num ≤ 2 * (m * den) + den := by linarith
    exact_mod_cast hGoal
  · intro hIsOdd
    obtain ⟨hLt, hGt⟩ := hOdd hIsOdd
    rw [lt_div_iff₀ hCast] at hLt
    rw [div_lt_iff₀ hCast] at hGt
    constructor
    · have hGoal : (2 : ℚ) * (m * den) < 2 * num + den := by linarith
      exact_mod_cast hGoal
    · have hGoal : (2 : ℚ) * num < 2 * (m * den) + den := by linarith
      exact_mod_cast hGoal

/-- Rounding a fraction to a multiple of `2 ^ q`. -/
theorem roundQuotient_scaled {num den m : ℕ} (hDen : 0 < den) (q : ℤ)
    (hLower : ((m : ℚ) - 1 / 2) * 2 ^ q ≤ (num : ℚ) / den)
    (hUpper : (num : ℚ) / den ≤ ((m : ℚ) + 1 / 2) * 2 ^ q)
    (hOdd : m % 2 = 1 → ((m : ℚ) - 1 / 2) * 2 ^ q < (num : ℚ) / den ∧
      (num : ℚ) / den < ((m : ℚ) + 1 / 2) * 2 ^ q) :
    roundQuotient (num * twoPow (-q).toNat) (den * twoPow q.toNat) = m := by
  have hPow := two_zpow_pos q
  have hScaled := scaled_two num den (-q)
  rw [neg_neg, zpow_neg, ← div_eq_mul_inv] at hScaled
  apply roundQuotient_eq_of_div (Nat.mul_pos hDen (twoPow_pos _))
  · rw [hScaled, le_div_iff₀ hPow]
    exact hLower
  · rw [hScaled, div_le_iff₀ hPow]
    exact hUpper
  · intro hIsOdd
    rw [hScaled, lt_div_iff₀ hPow, div_lt_iff₀ hPow]
    exact hOdd hIsOdd

/-- The word of a fraction whose exponent and rounded significand are known. -/
theorem nearestBits_of_rounded {num den m' : ℕ} {q' : ℤ} (hNum : 0 < num)
    (hExponent : max (floorLog2 num den - 52) (-1074) = q')
    (hRounded : roundQuotient (num * twoPow (-q').toNat) (den * twoPow q'.toNat) = m')
    (hBound : (q' + 1074).toNat * exponentUnit + m' ≤ infinityBits) :
    nearestBits num den = (q' + 1074).toNat * exponentUnit + m' := by
  unfold nearestBits
  rw [if_neg (Nat.ne_of_gt hNum)]
  simp only [hExponent, hRounded]
  exact Nat.min_eq_left hBound

section

variable {num den m : ℕ} {q : ℤ}

theorem zpow_add_fiftyTwo (q : ℤ) : (2 : ℚ) ^ (q + 52) = 2 ^ 52 * 2 ^ q := by
  rw [zpow_add₀ (by norm_num), mul_comm]
  norm_num

/-- A fraction below the upper midpoint is below the next power of two. -/
theorem div_lt_of_between (h : Canonical m q) (hBetween : Between m q ((num : ℚ) / den)) :
    (num : ℚ) / den < 2 ^ (q + 52 + 1) := by
  have hPow := two_zpow_pos q
  have hMCast : (m : ℚ) + 1 ≤ 2 ^ 53 := by exact_mod_cast h.lt
  have hUpper := hBetween.2.1
  unfold upperMidpoint at hUpper
  rw [zpow_add₀ (by norm_num), zpow_add_fiftyTwo]
  nlinarith

/-- A fraction with the exponent of the double is rounded to it. -/
theorem nearestBits_same_exponent (h : Canonical m q) (hNum : 0 < num) (hDen : 0 < den)
    (hBetween : Between m q ((num : ℚ) / den))
    (hFull : (2 : ℚ) ^ (q + 52) ≤ (num : ℚ) / den ∨ q = -1074) :
    nearestBits num den = (q + 1074).toNat * exponentUnit + m := by
  have hBelow := div_lt_of_between h hBetween
  obtain ⟨hPos, hLt, hLow, hHigh, hNormal⟩ := h
  obtain ⟨hLower, hUpper, hOdd⟩ := hBetween
  have hUnit : exponentUnit = 2 ^ 52 := rfl
  have hInfinity : infinityBits = 2047 * 2 ^ 52 := rfl
  have hLowerHalf := lowerMidpoint_ge m q
  have hExponent : max (floorLog2 num den - 52) (-1074) = q := by
    rcases hFull with hFull | hLeast
    · rw [floorLog2_eq hNum hDen hFull hBelow]
      omega
    · have hLogLower := (floorLog2_bounds hNum hDen).1
      have hLog : floorLog2 num den < q + 52 + 1 :=
        (zpow_lt_zpow_iff_right₀ (by norm_num : (1 : ℚ) < 2)).1 (lt_of_le_of_lt hLogLower hBelow)
      omega
  apply nearestBits_of_rounded hNum hExponent
  · apply roundQuotient_scaled hDen
    · exact le_trans hLowerHalf hLower
    · exact hUpper
    · intro hIsOdd
      exact ⟨lt_of_le_of_lt hLowerHalf (hOdd hIsOdd).1, (hOdd hIsOdd).2⟩
  · rw [hUnit]
    omega

/-- A fraction just below a power of two is rounded up to it. -/
theorem nearestBits_lower_exponent (h : Canonical m q) (hNum : 0 < num) (hDen : 0 < den)
    (hBetween : Between m q ((num : ℚ) / den)) (hLeast : -1074 < q)
    (hBelow : (num : ℚ) / den < 2 ^ (q + 52)) :
    nearestBits num den = (q + 1074).toNat * exponentUnit + m := by
  obtain ⟨hPos, hLt, hLow, hHigh, hNormal⟩ := h
  have hLower := hBetween.1
  have hUnit : exponentUnit = 2 ^ 52 := rfl
  have hInfinity : infinityBits = 2047 * 2 ^ 52 := rfl
  have hPow := two_zpow_pos q
  have hHalfPos := two_zpow_pos (q - 1)
  have hHalfPow : (2 : ℚ) ^ q = 2 * 2 ^ (q - 1) := by
    rw [← zpow_one_add₀ (by norm_num)]
    congr 1
    omega
  have hLog : floorLog2 num den < q + 52 :=
    (zpow_lt_zpow_iff_right₀ (by norm_num : (1 : ℚ) < 2)).1
      (lt_of_le_of_lt (floorLog2_bounds hNum hDen).1 hBelow)
  rw [zpow_add_fiftyTwo] at hBelow
  have hM : m = 2 ^ 52 := by
    by_contra hNe
    have hMNext : (2 : ℚ) ^ 52 + 1 ≤ m := by
      have hNat : 2 ^ 52 + 1 ≤ m := by omega
      exact_mod_cast hNat
    have hLowerHalf := lowerMidpoint_ge m q
    nlinarith
  have hQuarter : ((2 : ℚ) ^ 52 - 1 / 4) * 2 ^ q ≤ (num : ℚ) / den := by
    unfold lowerMidpoint at hLower
    rw [if_pos ⟨hM, hLeast⟩, hM] at hLower
    push_cast at hLower
    exact hLower
  rw [hHalfPow] at hQuarter hBelow
  have hExponent : max (floorLog2 num den - 52) (-1074) = q - 1 := by
    have hLogLower : (2 : ℚ) ^ (q + 51) ≤ (num : ℚ) / den := by
      rw [show q + 51 = (q - 1) + 52 by omega, zpow_add_fiftyTwo]
      nlinarith
    have hLogUpper := (floorLog2_bounds hNum hDen).2
    have hLogGe : q + 51 < floorLog2 num den + 1 :=
      (zpow_lt_zpow_iff_right₀ (by norm_num : (1 : ℚ) < 2)).1 (lt_of_le_of_lt hLogLower hLogUpper)
    omega
  have hRounded : roundQuotient (num * twoPow (-(q - 1)).toNat) (den * twoPow (q - 1).toNat) =
      2 ^ 53 := by
    apply roundQuotient_scaled hDen
    · push_cast
      linarith
    · push_cast
      linarith
    · intro hIsOdd
      omega
  rw [nearestBits_of_rounded hNum hExponent hRounded (by rw [hUnit]; omega), hUnit]
  omega

/-- A fraction between the midpoints around a double is rounded to it. -/
theorem nearestBits_eq (h : Canonical m q) (hNum : 0 < num) (hDen : 0 < den)
    (hBetween : Between m q ((num : ℚ) / den)) :
    nearestBits num den = (q + 1074).toNat * exponentUnit + m := by
  by_cases hFull : (2 : ℚ) ^ (q + 52) ≤ (num : ℚ) / den
  · exact nearestBits_same_exponent h hNum hDen hBetween (Or.inl hFull)
  · by_cases hLeast : q = -1074
    · exact nearestBits_same_exponent h hNum hDen hBetween (Or.inr hLeast)
    · have hLow := h.low
      exact nearestBits_lower_exponent h hNum hDen hBetween (by omega) (lt_of_not_ge hFull)

end

/-! ## Reading a decimal -/

theorem pos_of_between {m : ℕ} {q : ℤ} {x : ℚ} (h : Canonical m q) (hBetween : Between m q x) :
    (2 : ℚ) ^ (-1075 : ℤ) ≤ x := by
  have hM : (1 : ℚ) ≤ m := by exact_mod_cast h.pos
  have hPow : (2 : ℚ) ^ (-1074 : ℤ) ≤ 2 ^ q := zpow_le_zpow_right₀ (by norm_num) h.low
  have hHalf : (2 : ℚ) ^ (-1075 : ℤ) = 1 / 2 * 2 ^ (-1074 : ℤ) := by
    rw [show (-1075 : ℤ) = -1 + -1074 by omega, zpow_add₀ (by norm_num), zpow_neg_one,
      one_div]
  calc (2 : ℚ) ^ (-1075 : ℤ) = 1 / 2 * 2 ^ (-1074 : ℤ) := hHalf
    _ ≤ 1 / 2 * 2 ^ q := by linarith
    _ ≤ ((m : ℚ) - 1 / 2) * 2 ^ q :=
        mul_le_mul_of_nonneg_right (by linarith) (le_of_lt (two_zpow_pos q))
    _ ≤ lowerMidpoint m q := lowerMidpoint_ge m q
    _ ≤ x := hBetween.1

theorem lt_of_between {m : ℕ} {q : ℤ} {x : ℚ} (h : Canonical m q) (hBetween : Between m q x) :
    x < 2 ^ (1024 : ℤ) := by
  have hM : (m : ℚ) + 1 ≤ 2 ^ 53 := by exact_mod_cast h.lt
  have hPow : (2 : ℚ) ^ q ≤ 2 ^ (971 : ℤ) := zpow_le_zpow_right₀ (by norm_num) h.high
  have hTop : (2 : ℚ) ^ (1024 : ℤ) = 2 ^ 53 * 2 ^ (971 : ℤ) := by
    rw [show (1024 : ℤ) = 53 + 971 by omega, zpow_add₀ (by norm_num)]
    rfl
  calc x ≤ ((m : ℚ) + 1 / 2) * 2 ^ q := hBetween.2.1
    _ < 2 ^ 53 * 2 ^ q := mul_lt_mul_of_pos_right (by linarith) (two_zpow_pos q)
    _ ≤ 2 ^ 53 * 2 ^ (971 : ℤ) := mul_le_mul_of_nonneg_left hPow (by norm_num)
    _ = 2 ^ (1024 : ℤ) := hTop.symm

theorem two_pow_le_ten_pow (n : ℕ) : (2 : ℚ) ^ (3 * n) ≤ 10 ^ n := by
  rw [pow_mul]
  exact pow_le_pow_left₀ (by norm_num) (by norm_num) n

/-- A decimal that is told to be too large is larger than every double. -/
theorem exponent_le_of_lt {digits : ℕ} {exponent : ℤ} (hDigits : digits ≠ 0)
    (h : (digits : ℚ) * 10 ^ exponent < 2 ^ (1024 : ℤ)) : exponent ≤ 400 := by
  by_contra hNot
  have hOne : (1 : ℚ) ≤ digits := by exact_mod_cast Nat.one_le_iff_ne_zero.2 hDigits
  have hLarge : (2 : ℚ) ^ (1024 : ℤ) ≤ digits * 10 ^ exponent := by
    calc (2 : ℚ) ^ (1024 : ℤ) ≤ 2 ^ ((3 * 400 : ℕ) : ℤ) :=
          zpow_le_zpow_right₀ (by norm_num) (by omega)
      _ ≤ 10 ^ ((400 : ℕ) : ℤ) := by
          rw [zpow_natCast, zpow_natCast]
          exact two_pow_le_ten_pow 400
      _ ≤ 10 ^ exponent := zpow_le_zpow_right₀ (by norm_num) (by omega)
      _ ≤ digits * 10 ^ exponent := le_mul_of_one_le_left (le_of_lt (ten_zpow_pos _)) hOne
  exact absurd h (not_lt_of_ge hLarge)

/-- A decimal that is told to be too small is smaller than half of the least double. -/
theorem lt_of_exponent_lt {digits : ℕ} {exponent : ℤ}
    (h : (digits.log2 : ℤ) + 1101 < 3 * (-exponent)) :
    (digits : ℚ) * 10 ^ exponent < 2 ^ (-1075 : ℤ) := by
  obtain ⟨n, hN⟩ : ∃ n : ℕ, exponent = -(n : ℤ) := ⟨(-exponent).toNat, by omega⟩
  subst hN
  have hDigits : (digits : ℚ) < 2 ^ (digits.log2 + 1) := by exact_mod_cast Nat.lt_log2_self
  have hSplit : (2 : ℚ) ^ (digits.log2 + 1) * 2 ^ 1075 ≤ 2 ^ (3 * n) := by
    rw [← pow_add]
    exact pow_le_pow_right₀ (by norm_num) (by omega)
  have hTenPos : (0 : ℚ) < 10 ^ n := by positivity
  rw [zpow_neg, zpow_natCast, ← div_eq_mul_inv, div_lt_iff₀ hTenPos, zpow_neg,
    inv_mul_eq_div, lt_div_iff₀ (by norm_num)]
  calc (digits : ℚ) * 2 ^ (1075 : ℤ) < 2 ^ (digits.log2 + 1) * 2 ^ (1075 : ℤ) :=
        mul_lt_mul_of_pos_right hDigits (by norm_num)
    _ = 2 ^ (digits.log2 + 1) * 2 ^ 1075 := rfl
    _ ≤ 2 ^ (3 * n) := hSplit
    _ ≤ 10 ^ n := two_pow_le_ten_pow n

/-- A decimal between the midpoints around the size of a double is read, with its sign, as it. -/
theorem ofDecimal_sign_eq {digits : ℕ} {exponent : ℤ} {v : Float} {s : UnpackedFloat.Sign} {m : ℕ}
    {q : ℤ} (h : Canonical m q) (hV : v.toModel.unpack = .finite s m q h.pos)
    (hBetween : Between m q ((digits : ℚ) * 10 ^ exponent)) :
    ofDecimal (s == .negative) digits exponent = v := by
  have hLower := pos_of_between h hBetween
  have hUpper := lt_of_between h hBetween
  have hLeast := two_zpow_pos (-1075)
  have hDigits : digits ≠ 0 := by
    intro hZero
    rw [hZero, Nat.cast_zero, zero_mul] at hLower
    linarith
  have hNotLarge := exponent_le_of_lt hDigits hUpper
  have hNotSmall : ¬ (digits.log2 : ℤ) + 1101 < 3 * (-exponent) := by
    intro hSmall
    have hLt := lt_of_exponent_lt hSmall
    linarith
  have hScaled := scaled_ten digits 1 exponent
  rw [Nat.one_mul, Nat.cast_one, div_one] at hScaled
  rw [← hScaled] at hBetween
  have hBits := nearestBits_eq h (Nat.mul_pos (by omega) (tenPow_pos _)) (tenPow_pos _) hBetween
  have hUnit : exponentUnit = 2 ^ 52 := rfl
  have hInfinity : infinityBits = 2047 * 2 ^ 52 := rfl
  have hBound : (q + 1074).toNat * exponentUnit + m ≤ infinityBits := by
    obtain ⟨hPos, hLt, hLow, hHigh, hNormal⟩ := h
    rw [hUnit]
    omega
  unfold ofDecimal
  rw [if_neg hDigits, if_neg (by omega), if_neg hNotSmall, hBits]
  apply Double.unpack_injective
  rw [hV]
  have hWord := Double.word_ofSignBits (s == .negative) hBound
  have hSign : (if (s == .negative) = true then .negative else .positive) = s := by
    cases s <;> rfl
  rw [hSign] at hWord
  exact Double.unpack_of_word h hWord

/-- A decimal between the midpoints around a positive double is read as that double. -/
theorem ofDecimal_eq {digits : ℕ} {exponent : ℤ} {v : Float} {m : ℕ} {q : ℤ} (h : Canonical m q)
    (hV : v.toModel.unpack = .finite .positive m q h.pos)
    (hBetween : Between m q ((digits : ℚ) * 10 ^ exponent)) :
    ofDecimal false digits exponent = v := by
  have hSign : (UnpackedFloat.Sign.positive == .negative) = false := rfl
  rw [← hSign]
  exact ofDecimal_sign_eq h hV hBetween

end DerivCalc.Decimal.Binary
