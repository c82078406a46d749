import DerivCalc.Proofs.Decimal.Significant
import DerivCalc.Proofs.Double.Value

/-!
# Sign, size and order of doubles

The exact value of a finite double is a sign and a fraction, the fraction being the one that the
fields of the word give.  From the fraction it is seen whether a double is an integer and which
parity it has.  Comparing exponents first and significands second is comparing values, since no
two finite doubles share one value.
-/

namespace DerivCalc.Double

open Decimal.Binary
open Float.Model (UnpackedFloat)
open Float.Model.UnpackedFloat

/-! ## Opposites -/

theorem signFactor_neg (s : Sign) : signFactor (-s) = -signFactor s := by
  cases s with
  | positive => rfl
  | negative => exact (neg_neg 1).symm

theorem value_neg (v : Float) : value (-v) = -value v := by
  unfold value
  rw [unpack_neg]
  cases v.toModel.unpack with
  | notANumber => exact neg_zero.symm
  | infinity s => exact neg_zero.symm
  | zero s => exact neg_zero.symm
  | finite s m q hPos =>
      show signFactor (-s) * (m * 2 ^ q) = -(signFactor s * (m * 2 ^ q))
      rw [signFactor_neg, neg_mul]

theorem isFinite_neg (v : Float) : (-v).isFinite = v.isFinite := by
  show (-v).toModel.unpack.isFinite = v.toModel.unpack.isFinite
  rw [unpack_neg]
  cases v.toModel.unpack <;> rfl

theorem isNaN_neg (v : Float) : (-v).isNaN = v.isNaN := by
  show (-v).toModel.unpack.isNaN = v.toModel.unpack.isNaN
  rw [unpack_neg]
  cases v.toModel.unpack <;> rfl

theorem isInf_neg (v : Float) : (-v).isInf = v.isInf := by
  show (-v).toModel.unpack.isInf = v.toModel.unpack.isInf
  rw [unpack_neg]
  cases v.toModel.unpack <;> rfl

theorem neg_beq_zero (v : Float) : (-v == 0) = (v == 0) := by
  rw [Bool.eq_iff_iff, beq_zero_iff, beq_zero_iff, unpack_neg]
  cases v.toModel.unpack with
  | zero s => exact ⟨fun _ => ⟨s, rfl⟩, fun _ => ⟨-s, rfl⟩⟩
  | notANumber => simp [UnpackedFloat.neg]
  | infinity s => simp [UnpackedFloat.neg]
  | finite s m q hPos => simp [UnpackedFloat.neg]

theorem abs_neg (v : Float) : (-v).abs = v.abs := by
  show ofUnpacked (-v).toModel.unpack.abs = ofUnpacked v.toModel.unpack.abs
  rw [unpack_neg]
  cases v.toModel.unpack <;> rfl

theorem unpack_abs (v : Float) : v.abs.toModel.unpack = v.toModel.unpack.abs := by
  show (ofUnpacked v.toModel.unpack.abs).toModel.unpack = v.toModel.unpack.abs
  rcases unpack_cases v with hU | ⟨s, hU⟩ | ⟨s, hU⟩ | ⟨s, m, q, hC, hU⟩
  · rw [hU]
    rfl
  · rw [hU]
    cases s <;> rfl
  · rw [hU]
    cases s <;> rfl
  · rw [hU]
    exact unpack_ofUnpacked_finite .positive hC

theorem abs_of_positive {v : Float} {m : ℕ} {q : ℤ} {hPos : 0 < m}
    (h : v.toModel.unpack = .finite .positive m q hPos) : v.abs = v := by
  apply unpack_injective
  rw [unpack_abs, h]
  rfl

theorem abs_of_zero {v : Float} (h : (v == 0) = true) : v.abs = 0 := by
  obtain ⟨s, rfl⟩ := zero_cases h
  cases s <;> rfl

theorem isNaN_abs (v : Float) : v.abs.isNaN = v.isNaN := by
  show v.abs.toModel.unpack.isNaN = v.toModel.unpack.isNaN
  rw [unpack_abs]
  cases v.toModel.unpack <;> rfl

theorem sign_of_infinity {v : Float} {s : Sign} (h : v.toModel.unpack = .infinity s) :
    sign v = s := by
  rw [unpack_eq] at h
  split at h
  · split at h
    · injection h
    · exact absurd h (by simp)
  · split at h <;> exact absurd h (by simp)

theorem fields_of_zero {v : Float} {s : Sign} (h : v.toModel.unpack = .zero s) :
    sign v = s ∧ significand v = 0 := by
  rw [unpack_eq] at h
  split at h
  · split at h <;> exact absurd h (by simp)
  · split at h
    · injection h with hSign
      exact ⟨hSign, by assumption⟩
    · exact absurd h (by simp)

theorem sign_neg {v : Float} (h : v.isNaN = false) : sign (-v) = -sign v := by
  have hNeg := unpack_neg v
  rcases unpack_cases v with hU | ⟨s, hU⟩ | ⟨s, hU⟩ | ⟨s, m, q, hC, hU⟩
  · have hNaN : v.toModel.unpack.isNaN = false := h
    rw [hU] at hNaN
    exact absurd hNaN (by decide)
  · rw [hU] at hNeg
    rw [sign_of_infinity hNeg, sign_of_infinity hU]
  · rw [hU] at hNeg
    rw [(fields_of_zero hNeg).1, (fields_of_zero hU).1]
  · rw [hU] at hNeg
    rw [(fields_of_unpack hNeg).1, (fields_of_unpack hU).1]

theorem isNaN_of_isFinite {v : Float} (h : v.isFinite = true) : v.isNaN = false := by
  show v.toModel.unpack.isNaN = false
  rcases (isFinite_iff v).1 h with ⟨s, hV⟩ | ⟨s, m, q, hC, hV⟩ <;> rw [hV] <;> rfl

theorem isNegative_neg {v : Float} (h : v.isNaN = false) : isNegative (-v) = !isNegative v := by
  have hSign (u : Float) : isNegative u = (sign u == .negative) := by
    unfold sign
    cases isNegative u <;> rfl
  rw [hSign, hSign, sign_neg h]
  cases sign v <;> rfl

/-- Of a finite double other than zero and its opposite one is negative. -/
theorem neg_lt_zero_iff {v : Float} (hFinite : v.isFinite = true) (hNe : (v == 0) = false) :
    -v < 0 ↔ ¬ v < 0 := by
  rcases (isFinite_iff v).1 hFinite with ⟨s, hV⟩ | ⟨s, m, q, hC, hV⟩
  · exact absurd (beq_zero_iff.2 ⟨s, hV⟩) (by rw [hNe]; decide)
  · have hNeg := unpack_neg v
    rw [hV] at hNeg
    cases s with
    | positive => exact iff_of_true (lt_zero_of_negative hNeg) (not_lt_zero_of_positive hV)
    | negative =>
        exact iff_of_false (not_lt_zero_of_positive hNeg) (not_not.2 (lt_zero_of_negative hV))

/-! ## The size as a fraction -/

theorem abs_signFactor (s : Sign) : |signFactor s| = 1 := by
  cases s <;> simp [signFactor]

/-- The size of a finite double is the fraction that its fields give. -/
theorem abs_value_eq {v : Float} (h : v.isFinite = true) :
    |value v| = ((ratio v).1 : ℚ) / (ratio v).2 := by
  rcases (isFinite_iff v).1 h with ⟨s, hV⟩ | ⟨s, m, q, hC, hV⟩
  · have hValue : value v = 0 := value_of_beq_zero (beq_zero_iff.2 ⟨s, hV⟩)
    have hNum : (ratio v).1 = 0 := by
      unfold ratio
      rw [(fields_of_zero hV).2, Nat.zero_mul]
    rw [hValue, hNum, abs_zero, Nat.cast_zero, zero_div]
  · have hSize : (0 : ℚ) ≤ m * 2 ^ q := by positivity
    rw [value_of_unpack hV, (Decimal.Significant.ratio_value hV).2, abs_mul, abs_signFactor,
      one_mul, abs_of_nonneg hSize]

/-! ## Integers -/

/-- The size is a natural number iff the division leaves no rest, and then it is the quotient. -/
theorem abs_value_eq_natCast_iff {v : Float} (h : v.isFinite = true) (n : ℕ) :
    |value v| = n ↔ (ratio v).1 % (ratio v).2 = 0 ∧ (ratio v).1 / (ratio v).2 = n := by
  have hDen := ratio_den_pos v
  have hDenCast : ((ratio v).2 : ℚ) ≠ 0 := by exact_mod_cast hDen.ne'
  rw [abs_value_eq h, div_eq_iff hDenCast]
  constructor
  · intro hNum
    have hNat : (ratio v).1 = n * (ratio v).2 := by exact_mod_cast hNum
    rw [hNat]
    exact ⟨Nat.mul_mod_left _ _, Nat.mul_div_cancel _ hDen⟩
  · rintro ⟨hRest, rfl⟩
    exact_mod_cast (Nat.div_mul_cancel (Nat.dvd_of_mod_eq_zero hRest)).symm

theorem abs_value_eq_natAbs {v : Float} {k : ℤ} (h : value v = k) : |value v| = k.natAbs := by
  rw [h, Nat.cast_natAbs, Int.cast_abs]

/-- A value whose size is a natural number is that number or its opposite. -/
theorem exists_int_of_abs {v : Float} {n : ℕ} (h : |value v| = n) :
    ∃ k : ℤ, k.natAbs = n ∧ value v = k := by
  rcases abs_choice (value v) with hSign | hSign
  · exact ⟨n, Int.natAbs_natCast n, by rw [← hSign, h, Int.cast_natCast]⟩
  · refine ⟨-n, by rw [Int.natAbs_neg, Int.natAbs_natCast], ?_⟩
    rw [Int.cast_neg, Int.cast_natCast, ← h, hSign, neg_neg]

theorem isInteger_iff (v : Float) :
    isInteger v = true ↔ v.isFinite = true ∧ ∃ k : ℤ, value v = k := by
  unfold isInteger
  rw [Bool.and_eq_true, beq_iff_eq]
  constructor
  · rintro ⟨hFinite, hRest⟩
    obtain ⟨k, -, hK⟩ := exists_int_of_abs ((abs_value_eq_natCast_iff hFinite _).2 ⟨hRest, rfl⟩)
    exact ⟨hFinite, k, hK⟩
  · rintro ⟨hFinite, k, hK⟩
    exact ⟨hFinite, ((abs_value_eq_natCast_iff hFinite _).1 (abs_value_eq_natAbs hK)).1⟩

/-- The test for odd integers is right for every double. -/
theorem isOddInteger_iff (v : Float) :
    isOddInteger v = true ↔ v.isFinite = true ∧ ∃ k : ℤ, Odd k ∧ value v = k := by
  unfold isOddInteger
  rw [Bool.and_eq_true, isInteger_iff, beq_iff_eq, ← Nat.odd_iff]
  constructor
  · rintro ⟨⟨hFinite, k, hK⟩, hOdd⟩
    have hQuotient := ((abs_value_eq_natCast_iff hFinite _).1 (abs_value_eq_natAbs hK)).2
    rw [hQuotient, Int.natAbs_odd] at hOdd
    exact ⟨hFinite, k, hOdd, hK⟩
  · rintro ⟨hFinite, k, hOdd, hK⟩
    have hQuotient := ((abs_value_eq_natCast_iff hFinite _).1 (abs_value_eq_natAbs hK)).2
    rw [hQuotient, Int.natAbs_odd]
    exact ⟨⟨hFinite, k, hK⟩, hOdd⟩

/-! ## Order -/

/-- Of two canonical numbers the one with the greater exponent is greater. -/
theorem Canonical.size_lt {m m' : ℕ} {q q' : ℤ} (h : Canonical m q) (h' : Canonical m' q')
    (hLt : q < q') : (m : ℚ) * 2 ^ q < m' * 2 ^ q' := by
  have hPow := two_zpow_pos q
  have hM : (m : ℚ) < 2 ^ 53 := by exact_mod_cast h.lt
  have hM' : (2 : ℚ) ^ 52 ≤ m' := by
    have hFull := h'.normal.resolve_right (by have := h.low; omega)
    exact_mod_cast hFull
  calc (m : ℚ) * 2 ^ q < 2 ^ 53 * 2 ^ q := mul_lt_mul_of_pos_right hM hPow
    _ = 2 ^ 52 * 2 ^ (q + 1) := by
        rw [zpow_add₀ two_ne_zero]
        ring
    _ ≤ 2 ^ 52 * 2 ^ q' :=
        mul_le_mul_of_nonneg_left (zpow_le_zpow_right₀ one_le_two (by omega)) (by norm_num)
    _ ≤ m' * 2 ^ q' := mul_le_mul_of_nonneg_right hM' (two_zpow_pos q').le

/-- Comparing exponents first and significands second is comparing sizes. -/
theorem Canonical.size_le {m m' : ℕ} {q q' : ℤ} (h : Canonical m q) (h' : Canonical m' q')
    (hLe : ((compare q q').then (compare m m')) ≠ .gt) : (m : ℚ) * 2 ^ q ≤ m' * 2 ^ q' := by
  rcases lt_trichotomy q q' with hLt | rfl | hGt
  · exact (h.size_lt h' hLt).le
  · have hM : m ≤ m' := by
      have hSame : compare q q = .eq := compare_eq_iff_eq.2 rfl
      rw [hSame] at hLe
      exact compare_le_iff_le.1 hLe
    exact mul_le_mul_of_nonneg_right (by exact_mod_cast hM) (two_zpow_pos q).le
  · rw [compare_gt_iff_gt.2 hGt] at hLe
    exact absurd rfl hLe

/-- Finite doubles are ordered by their values. -/
theorem value_le_of_le {v w : Float} (hV : v.isFinite = true) (hW : w.isFinite = true)
    (h : v ≤ w) : value v ≤ value w := by
  have hLe := (le_iff v w).1 h
  have hSize (m : ℕ) (q : ℤ) : (0 : ℚ) ≤ m * 2 ^ q := by positivity
  unfold value
  rcases (isFinite_iff v).1 hV with ⟨s, hV⟩ | ⟨s, m, q, hC, hV⟩ <;>
    rcases (isFinite_iff w).1 hW with ⟨t, hW⟩ | ⟨t, m', q', hC', hW⟩ <;>
    rw [hV, hW] at hLe <;> simp only [hV, hW]
  · exact le_refl _
  · cases t with
    | positive => simpa [signFactor] using hSize m' q'
    | negative => exact absurd hLe (by simp [UnpackedFloat.le, UnpackedFloat.compare])
  · cases s with
    | positive => exact absurd hLe (by simp [UnpackedFloat.le, UnpackedFloat.compare])
    | negative => simpa [signFactor] using hSize m q
  · have hLeft := hSize m q
    have hRight := hSize m' q'
    cases s with
    | positive =>
        cases t with
        | positive =>
            have hSizes : (m : ℚ) * 2 ^ q ≤ m' * 2 ^ q' := hC.size_le hC' (by
              simpa [UnpackedFloat.le, UnpackedFloat.compare, Ordering.isLE_iff_ne_gt] using hLe)
            simpa [signFactor] using hSizes
        | negative => exact absurd hLe (by simp [UnpackedFloat.le, UnpackedFloat.compare])
    | negative =>
        cases t with
        | positive =>
            simp only [signFactor]
            linarith
        | negative =>
            -- both signs turn the order around
            have hSizes : (m' : ℚ) * 2 ^ q' ≤ m * 2 ^ q := hC'.size_le hC (by
              simpa [UnpackedFloat.le, UnpackedFloat.compare, Ordering.isLE_iff_ne_gt,
                Ordering.swap_then, Int.compare_swap, Nat.compare_swap] using hLe)
            simp only [signFactor]
            linarith

end DerivCalc.Double
