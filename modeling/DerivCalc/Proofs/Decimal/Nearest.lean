import DerivCalc.Proofs.Decimal.Significant

/-!
# The nearest decimal with a given count of digits

`Nearest p x d` says, without the algorithm, that `d` is what `x` is rounded to: of all decimals
with at most `p` significant digits none is nearer to `x`, and where two are equally near, `d` is
the one that ends in an even digit.  This leaves one `d` for each `x`, and no smaller one for a
greater `x`.

The decimals with `p` digits are not evenly spaced.  From the power of ten below `x` on they lie
on the grid on which `x` is rounded, and those below this power are further away than it is.
-/

namespace DerivCalc.Decimal

open Binary

/-! ## The rule -/

/-- A decimal with at most `p` significant digits. -/
def HasDigits (p : ℕ) (d : ℚ) : Prop := ∃ n k : ℤ, |n| < 10 ^ p ∧ d = n * 10 ^ k

/-- Written to the same places the two differ by one in the last digit, and that of `d` is even. -/
def EvenBeside (d d' : ℚ) : Prop :=
  ∃ n n' k : ℤ, d = n * 10 ^ k ∧ d' = n' * 10 ^ k ∧ |n - n'| = 1 ∧ Even n

/-- `d` is `x` rounded to `p` significant digits. -/
structure Nearest (p : ℕ) (x d : ℚ) : Prop where
  digits : HasDigits p d
  nearest : ∀ d', HasDigits p d' → |d - x| ≤ |d' - x|
  even : ∀ d', HasDigits p d' → d' ≠ d → |d' - x| = |d - x| → EvenBeside d d'

/-! ## One result for each number -/

/-- Of two neighbours only one ends in an even digit. -/
theorem EvenBeside.not_symm {d d' : ℚ} (h : EvenBeside d d') : ¬ EvenBeside d' d := by
  rintro ⟨m, m', j, hD', hD, hBeside', hEven'⟩
  obtain ⟨n, n', k, hN, hN', hBeside, hEven⟩ := h
  have hDistance : |d - d'| = 10 ^ k := by
    rw [hN, hN', ← sub_mul, abs_mul, abs_of_pos (ten_zpow_pos k), ← Int.cast_sub, ← Int.cast_abs,
      hBeside, Int.cast_one, one_mul]
  have hDistance' : |d - d'| = 10 ^ j := by
    rw [abs_sub_comm, hD', hD, ← sub_mul, abs_mul, abs_of_pos (ten_zpow_pos j), ← Int.cast_sub,
      ← Int.cast_abs, hBeside', Int.cast_one, one_mul]
  have hPlace : k = j :=
    zpow_right_injective₀ (by norm_num : (0 : ℚ) < 10) (by norm_num)
      (hDistance.symm.trans hDistance')
  subst hPlace
  have hSame : n' = m := by
    have hEq := mul_right_cancel₀ (ten_zpow_pos k).ne' (hN'.symm.trans hD')
    exact_mod_cast hEq
  subst hSame
  rw [Int.even_iff] at hEven hEven'
  rcases abs_eq (zero_le_one' ℤ) |>.1 hBeside with hOne | hOne <;> omega

/-- A number at least as near to `d` as to a smaller `e` is not below the middle. -/
theorem middle_le_of_nearer {x d e : ℚ} (hLt : e < d) (h : |d - x| ≤ |e - x|) :
    d + e ≤ 2 * x := by
  rcases abs_cases (d - x) with hD | hD <;> rcases abs_cases (e - x) with hE | hE <;> linarith

/-- A number at least as near to `e` as to a greater `d` is not above the middle. -/
theorem le_middle_of_nearer {x d e : ℚ} (hLt : e < d) (h : |e - x| ≤ |d - x|) :
    2 * x ≤ d + e := by
  rcases abs_cases (d - x) with hD | hD <;> rcases abs_cases (e - x) with hE | hE <;> linarith

/-- Rounding does not turn an order around. -/
theorem Nearest.mono {p : ℕ} {x y d e : ℚ} (h : Nearest p x d) (h' : Nearest p y e)
    (hLe : x ≤ y) : d ≤ e := by
  by_contra hNot
  have hLt : e < d := lt_of_not_ge hNot
  have hX := middle_le_of_nearer hLt (h.nearest e h'.digits)
  have hY := le_middle_of_nearer hLt (h'.nearest d h.digits)
  -- both numbers are the middle, and then the even digit decides
  have hSame : x = y := by linarith
  subst hSame
  have hTie : |e - x| = |d - x| :=
    le_antisymm (h'.nearest d h.digits) (h.nearest e h'.digits)
  exact (h.even e h'.digits hLt.ne hTie).not_symm (h'.even d h.digits hLt.ne' hTie.symm)

/-! ## Opposites, zero and exact decimals -/

theorem HasDigits.neg {p : ℕ} {d : ℚ} (h : HasDigits p d) : HasDigits p (-d) := by
  obtain ⟨n, k, hN, rfl⟩ := h
  exact ⟨-n, k, by rwa [abs_neg], by push_cast; ring⟩

theorem EvenBeside.neg {d d' : ℚ} (h : EvenBeside d d') : EvenBeside (-d) (-d') := by
  obtain ⟨n, n', k, rfl, rfl, hBeside, hEven⟩ := h
  refine ⟨-n, -n', k, by push_cast; ring, by push_cast; ring, ?_, hEven.neg⟩
  rwa [neg_sub_neg, abs_sub_comm]

theorem Nearest.neg {p : ℕ} {x d : ℚ} (h : Nearest p x d) : Nearest p (-x) (-d) := by
  have hDistance (c : ℚ) : |-c - x| = |c - -x| := by
    rw [show -c - x = -(c - -x) by ring, abs_neg]
  refine ⟨h.digits.neg, fun d' hD' => ?_, fun d' hD' hNe hTie => ?_⟩
  · rw [← hDistance, ← hDistance, neg_neg]
    exact h.nearest (-d') hD'.neg
  · rw [← hDistance, ← hDistance, neg_neg] at hTie
    have hBeside := (h.even (-d') hD'.neg (fun hEq => hNe (by rw [← hEq, neg_neg])) hTie).neg
    rwa [neg_neg] at hBeside

/-- A number with few enough digits is not changed. -/
theorem nearest_self {p : ℕ} {x : ℚ} (h : HasDigits p x) : Nearest p x x := by
  refine ⟨h, fun d' _ => ?_, fun d' _ hNe hTie => ?_⟩
  · rw [sub_self, abs_zero]
    exact abs_nonneg _
  · rw [sub_self, abs_zero, abs_eq_zero, sub_eq_zero] at hTie
    exact absurd hTie hNe

theorem hasDigits_zero (p : ℕ) : HasDigits p 0 := ⟨0, 0, by simp, by simp⟩

/-! ## The grid of a number -/

section

variable {p : ℕ} {y : ℚ} {u : ℤ}

/-- With all its digits before the point, a decimal is a multiple of the unit of the last one. -/
theorem HasDigits.exists_grid {d : ℚ} (h : HasDigits p d)
    (hLower : (10 ^ (p - 1) : ℕ) * 10 ^ u ≤ d) : ∃ n : ℤ, d = n * 10 ^ u := by
  obtain ⟨n, k, hN, rfl⟩ := h
  have hTen : (1 : ℚ) < 10 := by norm_num
  have hCast : (n : ℚ) < 10 ^ p := by exact_mod_cast lt_of_le_of_lt (le_abs_self n) hN
  have hBelow : (10 : ℚ) ^ ((p - 1 : ℕ) + u) < 10 ^ (p + k) := by
    calc (10 : ℚ) ^ ((p - 1 : ℕ) + u) = (10 ^ (p - 1) : ℕ) * 10 ^ u := by
          rw [zpow_add₀ (by norm_num), zpow_natCast, Nat.cast_pow, Nat.cast_ofNat]
      _ ≤ n * 10 ^ k := hLower
      _ < 10 ^ p * 10 ^ k := mul_lt_mul_of_pos_right hCast (ten_zpow_pos k)
      _ = 10 ^ (p + k) := by rw [zpow_add₀ (by norm_num), zpow_natCast]
  have hExponent : (p - 1 : ℕ) + u < p + k := (zpow_lt_zpow_iff_right₀ hTen).1 hBelow
  obtain ⟨j, hJ⟩ := Int.le.dest (show u ≤ k by omega)
  refine ⟨n * 10 ^ j, ?_⟩
  rw [← hJ, zpow_add₀ (by norm_num), zpow_natCast]
  push_cast
  ring

/-- No integer is nearer to a number than one within a half of it. -/
theorem abs_sub_le_of_half {y : ℚ} {n m : ℤ} (hError : |n - y| ≤ 1 / 2) (hNe : m ≠ n) :
    |n - y| ≤ |m - y| ∧ (|m - y| = |n - y| → |(n : ℚ) - y| = 1 / 2 ∧ |n - m| = 1) := by
  have hOne : (1 : ℚ) ≤ |(n : ℚ) - m| := by
    have hInt : 1 ≤ |n - m| := Int.one_le_abs (sub_ne_zero.2 hNe.symm)
    exact_mod_cast hInt
  have hSplit : |(n : ℚ) - m| ≤ |n - y| + |m - y| := by
    rw [abs_sub_comm (m : ℚ)]
    exact abs_sub_le _ _ _
  refine ⟨by linarith, fun hTie => ⟨by linarith, ?_⟩⟩
  have hCast : |(n : ℚ) - m| = 1 := by linarith
  exact_mod_cast hCast

theorem le_of_error_le {n k : ℕ} {y : ℚ} (hY : y < k) (hError : |(n : ℚ) - y| ≤ 1 / 2) :
    n ≤ k := by
  have hBelow : (n : ℚ) < (k + 1 : ℕ) := by
    push_cast
    linarith [le_abs_self ((n : ℚ) - y)]
  have hLt : n < k + 1 := by exact_mod_cast hBelow
  omega

/-- What is below a bound is further away than the bound. -/
theorem sub_lt_of_below {d bound : ℚ} (x : ℚ) (h : d < bound) : x - bound < |d - x| := by
  have hDistance : x - d ≤ |d - x| := by
    rw [abs_sub_comm]
    exact le_abs_self _
  linarith

/-- Rounding up to the next power of ten leaves a single digit. -/
theorem hasDigits_of_le {n : ℕ} {k : ℤ} (hP : 1 ≤ p) (hN : n ≤ 10 ^ p) :
    HasDigits p (n * 10 ^ k) := by
  by_cases hEq : n = 10 ^ p
  · refine ⟨1, p + k, ?_, ?_⟩
    · exact_mod_cast Nat.one_lt_pow (by omega) (by decide)
    · rw [hEq, zpow_add₀ (by norm_num), zpow_natCast]
      push_cast
      ring
  · refine ⟨n, k, ?_, by rw [Int.cast_natCast]⟩
    rw [abs_of_nonneg (by omega)]
    exact_mod_cast lt_of_le_of_ne hN hEq

/-- The multiple of the unit that is nearest to a number is the nearest decimal. -/
theorem nearest_of_grid {n : ℕ} (hP : 1 ≤ p) (hLower : (10 ^ (p - 1) : ℕ) ≤ y)
    (hUpper : y < (10 ^ p : ℕ)) (hError : |(n : ℚ) - y| ≤ 1 / 2)
    (hTie : |(n : ℚ) - y| = 1 / 2 → Even n) : Nearest p (y * 10 ^ u) (n * 10 ^ u) := by
  have hUnit := ten_zpow_pos u
  have hScaled (c : ℚ) : |c * 10 ^ u - y * 10 ^ u| = |c - y| * 10 ^ u := by
    rw [← sub_mul, abs_mul, abs_of_pos hUnit]
  have hGrid (m : ℤ) : |(n : ℚ) - y| ≤ |(m : ℚ) - y| := by
    by_cases hEq : m = n
    · rw [hEq, Int.cast_natCast]
    · exact_mod_cast (abs_sub_le_of_half (n := n) (by exact_mod_cast hError) hEq).1
  -- below the power of ten the grid is finer, but everything there is further away than the power
  have hNearPower : |(n : ℚ) * 10 ^ u - y * 10 ^ u| ≤
      y * 10 ^ u - (10 ^ (p - 1) : ℕ) * 10 ^ u := by
    have hPower := hGrid (10 ^ (p - 1) : ℕ)
    rw [Int.cast_natCast, abs_sub_comm ((10 ^ (p - 1) : ℕ) : ℚ),
      abs_of_nonneg (sub_nonneg.2 hLower)] at hPower
    rw [hScaled, ← sub_mul]
    exact mul_le_mul_of_nonneg_right hPower hUnit.le
  refine ⟨hasDigits_of_le hP (le_of_error_le hUpper hError), fun d' hD' => ?_,
    fun d' hD' hNe hSame => ?_⟩
  · by_cases hBelow : d' < (10 ^ (p - 1) : ℕ) * 10 ^ u
    · linarith [sub_lt_of_below (y * 10 ^ u) hBelow]
    · obtain ⟨m, rfl⟩ := hD'.exists_grid (le_of_not_gt hBelow)
      rw [hScaled, hScaled]
      exact mul_le_mul_of_nonneg_right (hGrid m) hUnit.le
  · by_cases hBelow : d' < (10 ^ (p - 1) : ℕ) * 10 ^ u
    · linarith [sub_lt_of_below (y * 10 ^ u) hBelow]
    · obtain ⟨m, rfl⟩ := hD'.exists_grid (le_of_not_gt hBelow)
      rw [hScaled, hScaled] at hSame
      have hSame := mul_right_cancel₀ hUnit.ne' hSame
      have hOther : m ≠ n := by
        rintro rfl
        exact hNe (by rw [Int.cast_natCast])
      obtain ⟨hHalf, hBeside⟩ := (abs_sub_le_of_half (n := n) (by exact_mod_cast hError) hOther).2
        (by exact_mod_cast hSame)
      exact ⟨n, m, u, by rw [Int.cast_natCast], rfl, hBeside,
        (Int.even_coe_nat n).2 (hTie (by exact_mod_cast hHalf))⟩

end

/-! ## Rounding a double -/

/-- A quotient half way between two integers is rounded to the even one. -/
theorem roundQuotient_even {num den : ℕ} (hDen : 0 < den)
    (h : |(roundQuotient num den : ℚ) - (num : ℚ) / den| = 1 / 2) :
    Even (roundQuotient num den) := by
  by_contra hOdd
  rw [Nat.even_iff] at hOdd
  generalize hN : roundQuotient num den = n at h hOdd
  -- the other integer is even, so it would have been the result
  rcases abs_eq (by norm_num) |>.1 h with hAbove | hBelow
  · obtain ⟨m, rfl⟩ : ∃ m, n = m + 1 := ⟨n - 1, by omega⟩
    push_cast at hAbove
    have hOther : roundQuotient num den = m :=
      roundQuotient_eq_of_div hDen (by linarith) (by linarith) (fun hM => by omega)
    omega
  · have hOther : roundQuotient num den = n + 1 :=
      roundQuotient_eq_of_div hDen (by push_cast; linarith) (by push_cast; linarith)
        (fun hM => by omega)
    omega

namespace Significant

open Float.Model (UnpackedFloat)

variable {v : Float} {s : UnpackedFloat.Sign} {m : ℕ} {q : ℤ} {hPos : 0 < m}

/-- The digits of a double are those of the nearest decimal. -/
theorem round_nearest (hV : v.toModel.unpack = .finite s m q hPos) {p : ℕ} (hP : 1 ≤ p) :
    Nearest p (m * 2 ^ q) (units v p * 10 ^ (-places v p)) := by
  obtain ⟨hNum, hRatio⟩ := ratio_value hV
  obtain ⟨hLower, hUpper⟩ := floorLog10_bounds hNum (ratio_den_pos v)
  rw [hRatio] at hLower hUpper
  have hPlaces : places v p ≤ (p : ℤ) - 1 - floorLog10 (ratio v).1 (ratio v).2 := min_le_left _ _
  have hBelowTop : (m : ℚ) * 2 ^ q * 10 ^ places v p < (10 ^ p : ℕ) := by
    calc (m : ℚ) * 2 ^ q * 10 ^ places v p
        < 10 ^ (floorLog10 (ratio v).1 (ratio v).2 + 1) * 10 ^ places v p :=
          mul_lt_mul_of_pos_right hUpper (ten_zpow_pos _)
      _ = 10 ^ (floorLog10 (ratio v).1 (ratio v).2 + 1 + places v p) :=
          (zpow_add₀ (by norm_num) _ _).symm
      _ ≤ 10 ^ (p : ℤ) := zpow_le_zpow_right₀ (by norm_num) (by omega)
      _ = (10 ^ p : ℕ) := by rw [zpow_natCast, Nat.cast_pow, Nat.cast_ofNat]
  have hBack : (m : ℚ) * 2 ^ q = m * 2 ^ q * 10 ^ places v p * 10 ^ (-places v p) := by
    rw [zpow_neg, mul_inv_cancel_right₀ (ten_zpow_pos _).ne']
  by_cases hExact : places v p = max (-q) 0
  · have hUnits := units_exact hV hExact
    have hFew : units v p ≤ 10 ^ p := by exact_mod_cast (hUnits.trans_lt hBelowTop).le
    rw [hBack, ← hUnits]
    exact nearest_self (hasDigits_of_le hP hFew)
  · have hAll := places_eq hV hExact
    have hAbovePower : ((10 ^ (p - 1) : ℕ) : ℚ) ≤ m * 2 ^ q * 10 ^ places v p := by
      calc ((10 ^ (p - 1) : ℕ) : ℚ)
          = 10 ^ (floorLog10 (ratio v).1 (ratio v).2 + places v p) := by
            rw [Nat.cast_pow, Nat.cast_ofNat, ← zpow_natCast]
            congr 1
            omega
        _ = 10 ^ floorLog10 (ratio v).1 (ratio v).2 * 10 ^ places v p :=
            zpow_add₀ (by norm_num) _ _
        _ ≤ m * 2 ^ q * 10 ^ places v p :=
            mul_le_mul_of_nonneg_right hLower (ten_zpow_pos _).le
    have hTie : |(units v p : ℚ) - m * 2 ^ q * 10 ^ places v p| = 1 / 2 → Even (units v p) := by
      intro hHalf
      apply roundQuotient_even (Nat.mul_pos (ratio_den_pos v) (tenPow_pos _))
      rw [scaled_ten, hRatio]
      exact hHalf
    have hNearest := nearest_of_grid (u := -places v p) hP hAbovePower hBelowTop
      (units_error hV p) hTie
    rwa [← hBack] at hNearest

end Significant

end DerivCalc.Decimal
