import DerivCalc.Proofs.Double.Value

/-!
# Doubles that are integers

Every positive integer below `2 ^ 53` is a double, and one less than an integer up to
`2 ^ 53` is computed without rounding: the difference, aligned to the smaller of the two
exponents, is the significand of that double with some zero bits, which rounding drops.
-/

namespace DerivCalc.Double

open Float.Model (Format UnpackedFloat)
open Float.Model.UnpackedFloat

/-! ## A double is determined by its value -/

/-- No two canonical pairs stand for the same number. -/
theorem Canonical.unique {m m' : ℕ} {q q' : ℤ} (h : Canonical m q) (h' : Canonical m' q')
    (hValue : (m : ℚ) * 2 ^ q = m' * 2 ^ q') : m = m' ∧ q = q' := by
  wlog hLe : q ≤ q' generalizing m m' q q'
  · obtain ⟨hM, hQ⟩ := this h' h hValue.symm (by omega)
    exact ⟨hM.symm, hQ.symm⟩
  obtain ⟨k, rfl⟩ := Int.le.dest hLe
  have hScaled : m = m' * 2 ^ k := by
    rw [zpow_add₀ two_ne_zero, zpow_natCast, mul_comm ((2 : ℚ) ^ q), ← mul_assoc] at hValue
    have hEq := mul_right_cancel₀ (zpow_ne_zero q two_ne_zero) hValue
    exact_mod_cast hEq
  cases k with
  | zero => simpa using hScaled
  | succ k =>
      -- a greater exponent leaves room for one more bit only if it is the least one
      have hFull : 2 ^ 52 ≤ m' := by
        rcases h'.normal with hFull | hLeast
        · exact hFull
        · have := h.low
          omega
      have hGrown : m' * 2 ≤ m := by
        rw [hScaled, pow_succ, ← mul_assoc, mul_right_comm]
        exact Nat.le_mul_of_pos_right _ (by positivity)
      have := h.lt
      omega

/-- A double with a value other than zero is finite. -/
theorem exists_unpack_of_value_ne_zero {v : Float} (h : value v ≠ 0) :
    ∃ s m q, ∃ hCanonical : Canonical m q, v.toModel.unpack = .finite s m q hCanonical.pos := by
  rcases unpack_cases v with hU | ⟨s, hU⟩ | ⟨s, hU⟩ | hFinite
  · exact absurd (by unfold value; rw [hU]) h
  · exact absurd (by unfold value; rw [hU]) h
  · exact absurd (by unfold value; rw [hU]) h
  · exact hFinite

/-- A double with a positive value, unpacked. -/
theorem exists_unpack_of_value_pos {v : Float} (h : 0 < value v) :
    ∃ m q, ∃ hCanonical : Canonical m q,
      v.toModel.unpack = .finite .positive m q hCanonical.pos ∧ value v = m * 2 ^ q := by
  obtain ⟨s, m, q, hCanonical, hU⟩ := exists_unpack_of_value_ne_zero (ne_of_gt h)
  have hValue := value_of_unpack hU
  cases s with
  | positive => exact ⟨m, q, hCanonical, hU, by rw [hValue, signFactor, one_mul]⟩
  | negative =>
      have hSize : (0 : ℚ) ≤ m * 2 ^ q := by positivity
      rw [hValue, signFactor] at h
      linarith

/-- Doubles with the same positive value are the same. -/
theorem eq_of_value_eq {v w : Float} (hPos : 0 < value v) (h : value v = value w) : v = w := by
  obtain ⟨m, q, hCanonical, hU, hV⟩ := exists_unpack_of_value_pos hPos
  obtain ⟨m', q', hCanonical', hU', hW⟩ := exists_unpack_of_value_pos (h ▸ hPos)
  obtain ⟨rfl, rfl⟩ := hCanonical.unique hCanonical' (by rw [← hV, ← hW, h])
  apply unpack_injective
  rw [hU, hU']

/-! ## Small integers -/

/-- The significand of an integer below `2 ^ 53`, with 53 bits. -/
def integerSignificand (n : ℕ) : ℕ := n * 2 ^ (52 - n.log2)

/-- The exponent that belongs to it. -/
def integerExponent (n : ℕ) : ℤ := n.log2 - 52

variable {n : ℕ}

theorem log2_le_of_lt (hPos : 0 < n) (hLt : n < 2 ^ 53) : n.log2 ≤ 52 := by
  have := (Nat.log2_lt (by omega)).2 hLt
  omega

/-- A positive integer below `2 ^ 53` is a double. -/
theorem canonical_integer (hPos : 0 < n) (hLt : n < 2 ^ 53) :
    Canonical (integerSignificand n) (integerExponent n) := by
  have hLog := log2_le_of_lt hPos hLt
  have hLow : 2 ^ 52 ≤ integerSignificand n := by
    have hPow := Nat.mul_le_mul_right (2 ^ (52 - n.log2)) (Nat.log2_self_le (by omega : n ≠ 0))
    rwa [← pow_add, Nat.add_sub_cancel' hLog] at hPow
  have hHigh : integerSignificand n < 2 ^ 53 := by
    have hPow := Nat.mul_lt_mul_of_pos_right (Nat.lt_log2_self : n < 2 ^ (n.log2 + 1))
      (by positivity : 0 < 2 ^ (52 - n.log2))
    rwa [← pow_add, show n.log2 + 1 + (52 - n.log2) = 53 by omega] at hPow
  unfold integerExponent
  exact ⟨by omega, hHigh, by omega, by omega, Or.inl hLow⟩

theorem integer_value (hPos : 0 < n) (hLt : n < 2 ^ 53) :
    (integerSignificand n : ℚ) * 2 ^ integerExponent n = n := by
  have hLog := log2_le_of_lt hPos hLt
  have hExponent : integerExponent n = -((52 - n.log2 : ℕ) : ℤ) := by
    unfold integerExponent
    omega
  rw [integerSignificand, hExponent, zpow_neg, zpow_natCast, Nat.cast_mul, Nat.cast_pow,
    Nat.cast_ofNat]
  exact mul_inv_cancel_right₀ (by positivity) _

/-! ## One less than an integer -/

/-- A canonical number with further zero bits is rounded to itself. -/
theorem round_exact {m : ℕ} {q : ℤ} (s : Sign) (h : Canonical m q) (k : ℕ) :
    UnpackedFloat.round Format.binary64 s (m * 2 ^ k) (q - k) = .finite s m q h.pos := by
  have hShift : (q - (k : ℤ) - q).toNat = 0 := by omega
  unfold UnpackedFloat.round decreaseExponent
  simp only [targetExponent_canonical h, hShift, Nat.shiftLeft_zero, Int.natCast_zero, Int.sub_zero]
  exact roundWithAccuracy_exact s h k

/-- Aligning a significand to a smaller exponent keeps the number. -/
theorem decreaseExponent_value (m : ℕ) {q target : ℤ} (h : target ≤ q) :
    ((decreaseExponent m q target).1 : ℚ) * 2 ^ target = m * 2 ^ q := by
  obtain ⟨k, rfl⟩ := Int.le.dest h
  have hShift : (target + (k : ℤ) - target).toNat = k := by omega
  simp only [decreaseExponent, hShift, Nat.shiftLeft_eq]
  rw [zpow_add₀ two_ne_zero, zpow_natCast]
  push_cast
  ring

/-- A positive number that is canonical up to zero bits is normalized to itself. -/
theorem normalize_exact {M : ℤ} {m : ℕ} {q target : ℤ} (h : Canonical m q) (hLe : target ≤ q)
    (hValue : (M : ℚ) * 2 ^ target = m * 2 ^ q) (zeroSign : Sign) :
    UnpackedFloat.normalize Format.binary64 M target zeroSign = .finite .positive m q h.pos := by
  obtain ⟨k, hK⟩ := Int.le.dest hLe
  have hM : M = ((m * 2 ^ k : ℕ) : ℤ) := by
    rw [← hK, zpow_add₀ two_ne_zero, zpow_natCast, mul_comm ((2 : ℚ) ^ target),
      ← mul_assoc] at hValue
    have hEq := mul_right_cancel₀ (zpow_ne_zero target two_ne_zero) hValue
    exact_mod_cast hEq
  have hPos : 0 < m * 2 ^ k := Nat.mul_pos h.pos (by positivity)
  have hCompare : compare M 0 = .gt := by
    rw [compare_gt_iff_gt, hM]
    exact_mod_cast hPos
  have hTarget : target = q - k := by omega
  unfold UnpackedFloat.normalize
  rw [hCompare, hM, hTarget]
  exact round_exact .positive h k

/-- A difference that is a double with no smaller exponent is computed exactly. -/
theorem unpack_sub_exact {v w : Float} {m m' k : ℕ} {q q' r : ℤ} {hM : 0 < m} {hM' : 0 < m'}
    (hV : v.toModel.unpack = .finite .positive m q hM)
    (hW : w.toModel.unpack = .finite .positive m' q' hM') (h : Canonical k r)
    (hLe : min q q' ≤ r) (hValue : value v - value w = k * 2 ^ r) :
    (v - w).toModel.unpack = .finite .positive k r h.pos := by
  have hDifference :
      (((decreaseExponent m q (min q q')).1 - (decreaseExponent m' q' (min q q')).1 : ℤ) : ℚ) *
        2 ^ min q q' = k * 2 ^ r := by
    rw [← hValue, value_of_unpack hV, value_of_unpack hW]
    push_cast
    rw [sub_mul, decreaseExponent_value m (min_le_left q q'),
      decreaseExponent_value m' (min_le_right q q'), signFactor, one_mul, one_mul]
  have hSub : UnpackedFloat.sub Format.binary64 v.toModel.unpack w.toModel.unpack =
      .finite .positive k r h.pos := by
    rw [hV, hW]
    exact normalize_exact h hLe hDifference .positive
  show (ofUnpacked (UnpackedFloat.sub Format.binary64 v.toModel.unpack
    w.toModel.unpack)).toModel.unpack = _
  rw [hSub]
  exact unpack_ofUnpacked_finite .positive h

/-- One less than an integer up to `2 ^ 53` is computed exactly. -/
theorem value_sub_one {p : Float} (h : value p = n) (hTwo : 2 ≤ n) (hLe : n ≤ 2 ^ 53) :
    value (p - 1) = (n - 1 : ℕ) := by
  have hPos : (0 : ℚ) < n := by exact_mod_cast (by omega : 0 < n)
  obtain ⟨m, q, hCanonical, hUnpack, -⟩ := exists_unpack_of_value_pos (h ▸ hPos)
  have hLess := canonical_integer (by omega : 0 < n - 1) (by omega)
  have hValue := integer_value (by omega : 0 < n - 1) (by omega)
  have hDifference : value p - value 1 =
      integerSignificand (n - 1) * 2 ^ integerExponent (n - 1) := by
    rw [hValue, h, value_one, Nat.cast_sub (by omega : 1 ≤ n), Nat.cast_one]
  have hExponent : min q (-52) ≤ integerExponent (n - 1) := by
    unfold integerExponent
    omega
  have hSub := unpack_sub_exact hUnpack unpack_one hLess hExponent hDifference
  rw [value_of_unpack hSub, signFactor, one_mul, hValue]

end DerivCalc.Double
