import DerivCalc.Decimal.Shortest
import DerivCalc.Proofs.Decimal.Numeral
import DerivCalc.Proofs.Decimal.Significant

/-!
# The shortest decimal lies between the midpoints

`readsBack` compares integers, and what they are is a decimal and the two midpoints in a common
unit.  So a decimal that is told to read back lies between the midpoints, and with it the
decimal that is chosen: it is one of the two neighbours on its grid, or one with seventeen
digits.
-/

namespace DerivCalc.Decimal.Shortest

open Binary
open Double (Canonical)
open Float.Model (UnpackedFloat)

/-! ## The common unit -/

/-- Quarters of `2 ^ q` and multiples of `10 ^ -places`, counted in one unit. -/
theorem exists_unit (q places : ℤ) :
    ∃ unit : ℚ, 0 < unit ∧
      (∀ quarters : ℕ, ((quarters * (tenPow places.toNat * twoPow q.toNat) : ℕ) : ℚ) =
        quarters / 4 * 2 ^ q * unit) ∧
      ∀ units : ℕ, ((4 * units * tenPow (-places).toNat * twoPow (-q).toNat : ℕ) : ℚ) =
        units * 10 ^ (-places) * unit := by
  have hTen : (0 : ℚ) < tenPow places.toNat := Nat.cast_pos.2 (tenPow_pos _)
  have hTwo : (0 : ℚ) < twoPow (-q).toNat := Nat.cast_pos.2 (twoPow_pos _)
  refine ⟨4 * tenPow places.toNat * twoPow (-q).toNat, by positivity, ?_, ?_⟩
  · intro quarters
    have hScaled := scaled_two quarters 1 q
    rw [Nat.one_mul, Nat.cast_one, div_one, div_eq_iff (ne_of_gt hTwo)] at hScaled
    push_cast at hScaled ⊢
    linear_combination (tenPow places.toNat : ℚ) * hScaled
  · intro units
    have hScaled := scaled_ten units 1 (-places)
    rw [Nat.one_mul, Nat.cast_one, div_one, neg_neg, div_eq_iff (ne_of_gt hTen)] at hScaled
    push_cast at hScaled ⊢
    linear_combination 4 * (twoPow (-q).toNat : ℚ) * hScaled

section

variable {v : Float} {s : UnpackedFloat.Sign} {m : ℕ} {q : ℤ} {hPos : 0 < m}

/-! ## Decimals that read back -/

theorem lowerQuarters_eq (hV : v.toModel.unpack = .finite s m q hPos) :
    (lowerQuarters v : ℚ) / 4 * 2 ^ q = lowerMidpoint m q := by
  obtain ⟨-, hM, hQ⟩ := Double.fields_of_unpack hV
  have hSignificand := Double.significand_eq v
  have hScale := Double.scale_eq v
  have hFraction : fractionField v < 2 ^ 52 := fractionField_lt v
  have hPower : (fractionField v = 0 ∧ 1 < exponentField v) ↔ (m = 2 ^ 52 ∧ -1074 < q) := by
    split at hSignificand <;> omega
  unfold lowerQuarters lowerMidpoint
  rw [hM]
  simp only [hPower]
  split
  · rw [Nat.cast_sub (by omega)]
    push_cast
    ring
  · rw [Nat.cast_sub (by omega)]
    push_cast
    ring

theorem upperQuarters_eq (hV : v.toModel.unpack = .finite s m q hPos) :
    (upperQuarters v : ℚ) / 4 * 2 ^ q = upperMidpoint m q := by
  obtain ⟨-, hM, -⟩ := Double.fields_of_unpack hV
  unfold upperQuarters upperMidpoint
  rw [hM]
  push_cast
  ring

/-- A decimal that is told to read back lies between the midpoints. -/
theorem between_of_readsBack (hV : v.toModel.unpack = .finite s m q hPos) {units : ℕ}
    {places : ℤ} (h : readsBack v units places = true) :
    Between m q ((units : ℚ) * 10 ^ (-places)) := by
  obtain ⟨-, hM, hQ⟩ := Double.fields_of_unpack hV
  obtain ⟨unit, hUnit, hQuarters, hUnits⟩ := exists_unit q places
  have hDecimal := hUnits units
  have hLower := hQuarters (lowerQuarters v)
  have hUpper := hQuarters (upperQuarters v)
  rw [lowerQuarters_eq hV] at hLower
  rw [upperQuarters_eq hV] at hUpper
  simp only [readsBack, hM, hQ] at h
  split at h
  · rename_i hEven
    rw [Bool.and_eq_true, decide_eq_true_eq, decide_eq_true_eq] at h
    obtain ⟨hAbove, hBelow⟩ := h
    rw [← Nat.cast_le (α := ℚ), hLower, hDecimal, mul_le_mul_iff_left₀ hUnit] at hAbove
    rw [← Nat.cast_le (α := ℚ), hUpper, hDecimal, mul_le_mul_iff_left₀ hUnit] at hBelow
    exact ⟨hAbove, hBelow, fun hOdd => absurd hOdd (by omega)⟩
  · rw [Bool.and_eq_true, decide_eq_true_eq, decide_eq_true_eq] at h
    obtain ⟨hAbove, hBelow⟩ := h
    rw [← Nat.cast_lt (α := ℚ), hLower, hDecimal, mul_lt_mul_iff_left₀ hUnit] at hAbove
    rw [← Nat.cast_lt (α := ℚ), hUpper, hDecimal, mul_lt_mul_iff_left₀ hUnit] at hBelow
    exact ⟨le_of_lt hAbove, le_of_lt hBelow, fun _ => ⟨hAbove, hBelow⟩⟩

/-! ## The chosen decimal -/

/-- A candidate is a decimal that reads back. -/
theorem exists_of_candidate {digits : ℕ} {n : Numeral} (h : candidate v digits = some n) :
    ∃ units places, n = .ofUnits units places ∧ readsBack v units places = true := by
  unfold candidate at h
  simp only at h
  split at h
  · rename_i hLow hHigh
    refine ⟨_, _, (Option.some.inj h).symm, ?_⟩
    -- rounding gives one of the two neighbours, and both read back
    generalize hNum : (ratio v).1 * tenPow _ = num at hLow hHigh ⊢
    generalize hDen : (ratio v).2 * tenPow _ = den at hLow hHigh ⊢
    obtain ⟨hGe, hLe⟩ := roundQuotient_bounds num den
    rcases Nat.lt_or_ge (num / den) (roundQuotient num den) with hLt | hEq
    · rw [show roundQuotient num den = num / den + 1 by omega]
      exact hHigh
    · rw [show roundQuotient num den = num / den by omega]
      exact hLow
  · rename_i hLow _
    exact ⟨_, _, (Option.some.inj h).symm, hLow⟩
  · rename_i _ hHigh
    exact ⟨_, _, (Option.some.inj h).symm, hHigh⟩
  · exact absurd h (by simp)

/-- The shortest decimal lies between the midpoints. -/
theorem exists_of_round (hV : v.toModel.unpack = .finite s m q hPos) :
    ∃ units places, round v = .ofUnits units places ∧
      Between m q ((units : ℚ) * 10 ^ (-places)) := by
  unfold round
  cases hFound : (List.range 16).findSome? (fun n => candidate v (n + 1)) with
  | some n =>
      obtain ⟨count, -, hCandidate⟩ := List.exists_of_findSome?_eq_some hFound
      obtain ⟨units, places, hN, hBack⟩ := exists_of_candidate hCandidate
      exact ⟨units, places, hN, between_of_readsBack hV hBack⟩
  | none =>
      have hNear := Significant.round_near hV (le_refl 17)
      exact ⟨Significant.units v 17, Significant.places v 17, rfl,
        Significant.between_of_near (Double.canonical_of_unpack hV) hNear⟩

/-- The shortest numeral has digits, the first no zero, and its value lies between the midpoints. -/
theorem round_between (hV : v.toModel.unpack = .finite s m q hPos) :
    (round v).Valid ∧ (round v).digits.head? ≠ some '0' ∧ Between m q (round v).value := by
  obtain ⟨units, places, hRound, hBetween⟩ := exists_of_round hV
  have hUnits : 0 < units := by
    rw [Nat.pos_iff_ne_zero]
    rintro rfl
    have hLower := pos_of_between (Double.canonical_of_unpack hV) hBetween
    have hLeast := two_zpow_pos (-1075)
    rw [Nat.cast_zero, zero_mul] at hLower
    linarith
  rw [hRound, Numeral.value_ofUnits]
  exact ⟨Numeral.valid_ofUnits hUnits places, Numeral.head_ofUnits_ne_zero hUnits places, hBetween⟩

end

end DerivCalc.Decimal.Shortest
