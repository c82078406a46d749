import DerivCalc.Proofs.Double.Size
import DerivCalc.Proofs.Elementary

/-!
# The parity of integer powers

A library may report a fault instead of a power: that there is no value, or that the value is too
large.  `guardedPower` is the power over such a library, with every fault caught, and it is
`power`, so it has a value for all doubles.

The sign of a power with an integer exponent is decided in three places: by the library, by the
poles at zero, and where finite operands overflow.  In all three it changes with the sign of the
base iff the exponent is odd.
-/

namespace DerivCalc

open Decimal.Binary
open Double (value isOddInteger_iff value_neg isFinite_neg)
open Float.Model (UnpackedFloat)

namespace Elementary

/-! ## A library that reports faults -/

/-- Why there is no result. -/
inductive Fault where
  /-- The operation has no value here. -/
  | domain
  /-- The value is too large. -/
  | overflow
deriving DecidableEq

/-- A power that is a result or a fault. -/
abbrev Reporting := Float → Float → Except Fault Float

/-- A negative power of zero, or a power of a negative base that is no integer power. -/
def NoValue (v w : Float) : Prop :=
  (v == 0) = true ∧ w.isFinite = true ∧ w < 0 ∨
    v.isFinite = true ∧ v < 0 ∧ w.isFinite = true ∧ ¬ ∃ k : ℤ, value w = k

/--
What is known of the power that the library reports, where `tooLarge a w` tells whether it finds
the power of a positive `a` too large.
-/
structure Reports [Elementary] (report : Reporting) (tooLarge : Float → Float → Prop) : Prop where
  /-- A result is the library's power. -/
  result : ∀ v w r, report v w = .ok r → pow v w = r
  /-- Where there is no value, apart from the poles at zero, the library's power is NaN. -/
  undefined : ∀ v w, report v w = .error .domain → (v == 0) = false → pow v w = nan
  /-- Where the value is too large the library's power is infinite. -/
  infinite : ∀ v w, report v w = .error .overflow → (pow v w).isInf = true
  /-- The result for finite operands is not infinite. -/
  finite : ∀ v w r, report v w = .ok r → v.isFinite = true → w.isFinite = true → r.isInf = false
  domain_iff : ∀ v w, report v w = .error .domain ↔ NoValue v w
  overflow_iff : ∀ v w, report v w = .error .overflow ↔
    v.isFinite = true ∧ (v == 0) = false ∧ w.isFinite = true ∧ ¬ NoValue v w ∧ tooLarge v.abs w
  odd : ∀ v w r (k : ℤ), w.isFinite = true → value w = k → Odd k → report v w = .ok r →
    report (-v) w = .ok (-r)
  even : ∀ v w r (k : ℤ), w.isFinite = true → value w = k → Even k → report v w = .ok r →
    report (-v) w = .ok r

/-! ## Catching the faults -/

/-- The integer part of a finite double; there is none of a NaN or an infinity. -/
def truncate (v : Float) : Except Fault ℤ :=
  if v.isNaN then .error .domain
  else if v.isInf then .error .overflow
  else .ok ((value v).num.tdiv (value v).den)

/-- The double is an odd integer; only the integer part of a finite one is asked for. -/
def guardedOdd (v : Float) : Except Fault Bool :=
  if v.isFinite then (truncate v).map fun i : ℤ => decide (value v = i) && i % 2 == 1
  else .ok false

/-- The power over a library that reports faults. -/
def guardedPower (report : Reporting) (v w : Float) : Except Fault Float :=
  if v == 0 && w < 0 then
    (guardedOdd (-w)).map fun odd => infinity (isNegative v && odd)
  else
    match report v w with
    | .ok r => .ok r
    | .error .domain => .ok nan
    | .error .overflow => (guardedOdd w).map fun odd => infinity (v < 0 && odd)

theorem truncate_of_isFinite {v : Float} (h : v.isFinite = true) :
    truncate v = .ok ((value v).num.tdiv (value v).den) := by
  have hInf : ¬ v.isInf = true := fun hInf => Double.not_isFinite_of_isInf hInf h
  unfold truncate
  rw [Double.isNaN_of_isFinite h, if_neg Bool.false_ne_true, if_neg hInf]

/-- The parity test never fails, and it is the one that is used. -/
theorem guardedOdd_eq (v : Float) : guardedOdd v = .ok (isOddInteger v) := by
  unfold guardedOdd
  by_cases hFinite : v.isFinite = true
  · rw [if_pos hFinite, truncate_of_isFinite hFinite]
    show Except.ok _ = _
    congr 1
    rw [Bool.eq_iff_iff, isOddInteger_iff, Bool.and_eq_true, decide_eq_true_eq, beq_iff_eq,
      ← Int.odd_iff]
    constructor
    · rintro ⟨hValue, hOdd⟩
      exact ⟨hFinite, _, hOdd, hValue⟩
    · rintro ⟨-, k, hOdd, hValue⟩
      rw [hValue, Rat.num_intCast, Rat.den_intCast, Nat.cast_one, Int.tdiv_one]
      exact ⟨rfl, hOdd⟩
  · have hNot : ¬ isOddInteger v = true := fun hOdd => hFinite ((isOddInteger_iff v).1 hOdd).1
    rw [if_neg hFinite, Bool.eq_false_iff.2 hNot]

theorem isOddInteger_neg (v : Float) : isOddInteger (-v) = isOddInteger v := by
  rw [Bool.eq_iff_iff, isOddInteger_iff, isOddInteger_iff, isFinite_neg, value_neg]
  refine and_congr_right fun _ => ⟨?_, ?_⟩
  · rintro ⟨k, hOdd, hValue⟩
    exact ⟨-k, hOdd.neg, by rw [Int.cast_neg, ← hValue, neg_neg]⟩
  · rintro ⟨k, hOdd, hValue⟩
    exact ⟨-k, hOdd.neg, by rw [Int.cast_neg, ← hValue]⟩

/-! ## Opposite bases -/

theorem not_isOddInteger_of_even {w : Float} {k : ℤ} (hK : value w = k) (hEven : Even k) :
    ¬ isOddInteger w = true := by
  rw [isOddInteger_iff]
  rintro ⟨-, j, hOdd, hJ⟩
  rw [Int.cast_inj.1 (hJ.symm.trans hK)] at hOdd
  exact Int.not_even_iff_odd.2 hOdd hEven

/-- The sign of an infinite power changes with the sign of the base iff the exponent is odd. -/
theorem infinity_opposite (negative odd : Bool) : infinity (!negative && odd) =
    if odd then -infinity (negative && odd) else infinity (negative && odd) := by
  cases negative <;> cases odd <;> decide

/-- An integer power is without a value only at a pole. -/
theorem noValue_iff_of_integer {v w : Float} {k : ℤ} (hFinite : w.isFinite = true)
    (hK : value w = k) :
    NoValue v w ↔ (v == 0 && w < 0) = true := by
  rw [Bool.and_eq_true, decide_eq_true_eq]
  constructor
  · rintro (⟨hZero, -, hNeg⟩ | ⟨-, -, -, hNot⟩)
    · exact ⟨hZero, hNeg⟩
    · exact absurd ⟨k, hK⟩ hNot
  · rintro ⟨hZero, hNeg⟩
    exact Or.inl ⟨hZero, hFinite, hNeg⟩

section

variable [Elementary] {report : Reporting} {tooLarge : Float → Float → Prop} {v w : Float}

/-! ## The three places -/

theorem power_of_pole (h : (v == 0 && w < 0) = true) :
    power v w = infinity (isNegative v && isOddInteger w) := by
  unfold power
  rw [if_pos h]

theorem Reports.power_of_ok (h : Reports report tooLarge) (hPole : ¬ (v == 0 && w < 0) = true)
    {r : Float} (hReport : report v w = .ok r) : power v w = r := by
  unfold power
  rw [if_neg hPole, h.result v w r hReport]
  refine if_neg fun hOver => ?_
  obtain ⟨hOperands, hInf⟩ := Bool.and_eq_true_iff.1 hOver
  obtain ⟨hV, hW⟩ := Bool.and_eq_true_iff.1 hOperands
  exact absurd (h.finite v w r hReport hV hW) (by rw [hInf]; decide)

theorem Reports.power_of_domain (h : Reports report tooLarge)
    (hPole : ¬ (v == 0 && w < 0) = true) (hReport : report v w = .error .domain) :
    power v w = nan := by
  have hNe : (v == 0) = false := by
    rw [Bool.eq_false_iff]
    intro hZero
    have hNoValue := (h.domain_iff v w).1 hReport
    rcases hNoValue with ⟨-, -, hNeg⟩ | ⟨-, hNeg, -⟩
    · exact hPole (by rw [hZero, decide_eq_true hNeg]; rfl)
    · exact Double.not_lt_zero_of_beq_zero hZero hNeg
  have hNaN : nan.isInf = false := by decide
  unfold power
  rw [if_neg hPole, h.undefined v w hReport hNe]
  simp only [hNaN, Bool.and_false]
  rfl

theorem Reports.power_of_overflow (h : Reports report tooLarge)
    (hPole : ¬ (v == 0 && w < 0) = true) (hReport : report v w = .error .overflow) :
    power v w = infinity (v < 0 && isOddInteger w) := by
  obtain ⟨hV, -, hW, -⟩ := (h.overflow_iff v w).1 hReport
  unfold power
  rw [if_neg hPole]
  simp only [hV, hW, h.infinite v w hReport]
  rfl

/-- The power has a value for all doubles, whatever the library reports. -/
theorem Reports.guardedPower_eq (h : Reports report tooLarge) (v w : Float) :
    guardedPower report v w = .ok (power v w) := by
  unfold guardedPower
  by_cases hPole : (v == 0 && w < 0) = true
  · rw [if_pos hPole, guardedOdd_eq, isOddInteger_neg, power_of_pole hPole]
    rfl
  · rw [if_neg hPole]
    cases hReport : report v w with
    | ok r => rw [h.power_of_ok hPole hReport]
    | error fault =>
        cases fault with
        | domain => rw [h.power_of_domain hPole hReport]
        | overflow =>
            rw [h.power_of_overflow hPole hReport, guardedOdd_eq]
            rfl

/-! ## Both signs of a base -/

/-- An integer power of the opposite base is the opposite power iff the exponent is odd. -/
theorem Reports.power_neg (h : Reports report tooLarge) (v : Float) {w : Float} {k : ℤ}
    (hFinite : w.isFinite = true) (hK : value w = k) :
    power (-v) w = if isOddInteger w then -power v w else power v w := by
  have hSamePole : (-v == 0 && w < 0) = (v == 0 && w < 0) := by rw [Double.neg_beq_zero]
  by_cases hPole : (v == 0 && w < 0) = true
  · have hZero := (Bool.and_eq_true_iff.1 hPole).1
    have hNaN := Double.isNaN_of_isFinite (Double.isFinite_of_beq_zero hZero)
    rw [power_of_pole hPole, power_of_pole (hSamePole.trans hPole), Double.isNegative_neg hNaN]
    exact infinity_opposite (isNegative v) (isOddInteger w)
  · have hPole' : ¬ (-v == 0 && w < 0) = true := by rwa [hSamePole]
    cases hReport : report v w with
    | ok r =>
        rw [h.power_of_ok hPole hReport]
        rcases Int.even_or_odd k with hEven | hOdd
        · rw [if_neg (not_isOddInteger_of_even hK hEven),
            h.power_of_ok hPole' (h.even v w r k hFinite hK hEven hReport)]
        · have hIsOdd : isOddInteger w = true := (isOddInteger_iff w).2 ⟨hFinite, k, hOdd, hK⟩
          rw [if_pos hIsOdd, h.power_of_ok hPole' (h.odd v w r k hFinite hK hOdd hReport)]
    | error fault =>
        cases fault with
        | domain =>
            have hNoValue := (h.domain_iff v w).1 hReport
            exact absurd ((noValue_iff_of_integer hFinite hK).1 hNoValue) hPole
        | overflow =>
            obtain ⟨hV, hNe, -, -, hLarge⟩ := (h.overflow_iff v w).1 hReport
            have hReport' : report (-v) w = .error .overflow := by
              refine (h.overflow_iff (-v) w).2 ⟨?_, ?_, hFinite, ?_, ?_⟩
              · rwa [isFinite_neg]
              · rwa [Double.neg_beq_zero]
              · exact mt (noValue_iff_of_integer hFinite hK).1 hPole'
              · rwa [Double.abs_neg]
            have hSign : decide (-v < 0) = !decide (v < 0) := by
              rw [← decide_not]
              exact decide_eq_decide.2 (Double.neg_lt_zero_iff hV hNe)
            rw [h.power_of_overflow hPole hReport, h.power_of_overflow hPole' hReport', hSign]
            exact infinity_opposite (decide (v < 0)) (isOddInteger w)

/--
Integer powers keep the parity of the exponent: the power of the opposite base is the opposite
for an odd exponent and the same for an even one, at the poles and where the power overflows
too.  And whatever faults the library reports, there is a power of all doubles.
-/
theorem power_keeps_parity (h : Reports report tooLarge) :
    (∀ (b n : Float) (k : ℤ), n.isFinite = true → value n = k →
      (Odd k → power (-b) n = -power b n) ∧ (Even k → power (-b) n = power b n)) ∧
    ∀ v w, guardedPower report v w = .ok (power v w) := by
  refine ⟨fun b n k hFinite hK => ⟨fun hOdd => ?_, fun hEven => ?_⟩, h.guardedPower_eq⟩
  · have hIsOdd : isOddInteger n = true := (isOddInteger_iff n).2 ⟨hFinite, k, hOdd, hK⟩
    rw [h.power_neg b hFinite hK, if_pos hIsOdd]
  · rw [h.power_neg b hFinite hK, if_neg (not_isOddInteger_of_even hK hEven)]

end

/-! ## A library that multiplies -/

/-- The product of `k` equal factors. -/
def product (a : Float) : ℕ → Float
  | 0 => 1
  | k + 1 => a * product a k

/-- The size of an integer. -/
def count (w : Float) : ℕ := (ratio w).1 / (ratio w).2

instance (v w : Float) : Decidable (NoValue v w) :=
  decidable_of_iff ((v == 0) = true ∧ w.isFinite = true ∧ w < 0 ∨
    v.isFinite = true ∧ v < 0 ∧ w.isFinite = true ∧ ¬ isInteger w = true) (by
      unfold NoValue
      refine or_congr Iff.rfl (and_congr_right fun _ => and_congr_right fun _ =>
        and_congr_right fun hFinite => not_congr ?_)
      rw [Double.isInteger_iff]
      exact and_iff_right hFinite)

/-- The exponent is a natural number, and the base is not NaN. -/
def Multiplies (v w : Float) : Prop := v.isNaN = false ∧ isInteger w = true ∧ ¬ w < 0

instance (v w : Float) : Decidable (Multiplies v w) := inferInstanceAs (Decidable (_ ∧ _))

/-- The product of finite factors other than zero is too large for a double. -/
def ProductTooLarge (v w : Float) : Prop :=
  v.isFinite = true ∧ (v == 0) = false ∧ (product v.abs (count w)).isInf = true

instance (v w : Float) : Decidable (ProductTooLarge v w) := inferInstanceAs (Decidable (_ ∧ _))

/-- Powers with natural exponents are products, and no others have a value. -/
def multiplied : Reporting := fun v w =>
  if NoValue v w then .error .domain
  else if ¬ Multiplies v w then .ok nan
  else if ProductTooLarge v w then .error .overflow
  else
    .ok (if isNegative v && isOddInteger w then -product v.abs (count w)
      else product v.abs (count w))

/-- The result, or what stands for a fault. -/
def settled : Except Fault Float → Float
  | .ok r => r
  | .error .domain => nan
  | .error .overflow => infinity false

/-- The library with these powers. -/
abbrev multiplying : Elementary where
  sin := specialArguments.sin
  cos := specialArguments.cos
  tan := specialArguments.tan
  log := specialArguments.log
  pow v w := settled (multiplied v w)

theorem isFinite_product_of_zero {a : Float} (h : (a == 0) = true) (k : ℕ) :
    (product a k).isFinite = true := by
  induction k with
  | zero => exact Double.isFinite_one
  | succ k ih => exact Double.isFinite_of_beq_zero (Double.zero_mul_beq (product a k) h ih)

theorem multiplied_cases (v w : Float) :
    (NoValue v w ∧ multiplied v w = .error .domain) ∨
    (¬ NoValue v w ∧ ¬ Multiplies v w ∧ multiplied v w = .ok nan) ∨
    (¬ NoValue v w ∧ Multiplies v w ∧ ProductTooLarge v w ∧
      multiplied v w = .error .overflow) ∨
    (¬ NoValue v w ∧ Multiplies v w ∧ ¬ ProductTooLarge v w ∧ multiplied v w =
      .ok (if isNegative v && isOddInteger w then -product v.abs (count w)
        else product v.abs (count w))) := by
  unfold multiplied
  split
  · exact Or.inl ⟨‹_›, rfl⟩
  · split
    · exact Or.inr (Or.inl ⟨‹_›, ‹_›, rfl⟩)
    · split
      · exact Or.inr (Or.inr (Or.inl ⟨‹_›, not_not.1 ‹_›, ‹_›, rfl⟩))
      · exact Or.inr (Or.inr (Or.inr ⟨‹_›, not_not.1 ‹_›, ‹_›, rfl⟩))

theorem multiplied_neg {v w r : Float} {k : ℤ} (hFinite : w.isFinite = true) (hK : value w = k)
    (hReport : multiplied v w = .ok r) :
    multiplied (-v) w = .ok (if isOddInteger w then -r else r) := by
  have hNoValue : NoValue (-v) w ↔ NoValue v w := by
    rw [noValue_iff_of_integer hFinite hK, noValue_iff_of_integer hFinite hK, Double.neg_beq_zero]
  have hMultiplies : Multiplies (-v) w ↔ Multiplies v w := by
    unfold Multiplies
    rw [Double.isNaN_neg]
  have hTooLarge : ProductTooLarge (-v) w ↔ ProductTooLarge v w := by
    unfold ProductTooLarge
    rw [isFinite_neg, Double.neg_beq_zero, Double.abs_neg]
  have hUndefined : -nan = nan := by decide
  unfold multiplied at hReport ⊢
  simp only [hNoValue, hMultiplies, hTooLarge, Double.abs_neg]
  split at hReport
  · exact absurd hReport (by simp)
  · split at hReport
    · obtain rfl := Except.ok.inj hReport
      rw [if_neg ‹_›, if_pos ‹_›, hUndefined, ite_self]
    · split at hReport
      · exact absurd hReport (by simp)
      · obtain rfl := Except.ok.inj hReport
        have hBase : Multiplies v w := not_not.1 ‹_›
        rw [if_neg ‹_›, if_neg ‹_›, if_neg ‹_›, Double.isNegative_neg hBase.1]
        cases isNegative v <;> cases isOddInteger w <;> simp [Double.neg_neg]

/-- A product of finite factors is not infinite if it is not too large. -/
theorem isInf_product {v w : Float} (hFinite : v.isFinite = true) (h : ¬ ProductTooLarge v w) :
    (product v.abs (count w)).isInf = false := by
  rw [Bool.eq_false_iff]
  intro hInf
  by_cases hZero : (v == 0) = true
  · have hAbs : (v.abs == 0) = true := by
      obtain ⟨s, rfl⟩ := Double.zero_cases hZero
      cases s <;> decide
    exact Double.not_isFinite_of_isInf hInf (isFinite_product_of_zero hAbs _)
  · exact h ⟨hFinite, Bool.eq_false_iff.2 hZero, hInf⟩

theorem reports_multiplied : @Reports multiplying multiplied
    fun a w => Multiplies a w ∧ (product a (count w)).isInf = true := by
  refine @Reports.mk multiplying multiplied _ ?_ ?_ ?_ ?_ ?_ ?_ ?_ ?_
  · intro v w r hReport
    exact congrArg settled hReport
  · intro v w hReport _
    exact congrArg settled hReport
  · intro v w hReport
    rw [show @pow multiplying v w = infinity false from congrArg settled hReport]
    decide
  · intro v w r hReport hV _
    have hUndefined : nan.isInf = false := by decide
    rcases multiplied_cases v w with ⟨-, hCase⟩ | ⟨-, -, hCase⟩ | ⟨-, -, -, hCase⟩ |
      ⟨-, -, hSmall, hCase⟩
    · exact absurd (hCase.symm.trans hReport) (by simp)
    · obtain rfl := Except.ok.inj (hCase.symm.trans hReport)
      exact hUndefined
    · exact absurd (hCase.symm.trans hReport) (by simp)
    · obtain rfl := Except.ok.inj (hCase.symm.trans hReport)
      split
      · rw [Double.isInf_neg, isInf_product hV hSmall]
      · exact isInf_product hV hSmall
  · intro v w
    rcases multiplied_cases v w with ⟨hNone, hCase⟩ | ⟨hSome, -, hCase⟩ | ⟨hSome, -, -, hCase⟩ |
      ⟨hSome, -, -, hCase⟩
    · exact iff_of_true hCase hNone
    all_goals exact iff_of_false (by rw [hCase]; simp) hSome
  · intro v w
    have hAbs : Multiplies v.abs w ↔ Multiplies v w := by
      unfold Multiplies
      rw [Double.isNaN_abs]
    rcases multiplied_cases v w with ⟨hNone, hCase⟩ | ⟨-, hNot, hCase⟩ |
      ⟨hSome, hMultiplies, ⟨hV, hNe, hInf⟩, hCase⟩ | ⟨-, -, hSmall, hCase⟩
    · exact iff_of_false (by rw [hCase]; simp) fun h => h.2.2.2.1 hNone
    · exact iff_of_false (by rw [hCase]; simp) fun h => hNot (hAbs.1 h.2.2.2.2.1)
    · have hW := ((Double.isInteger_iff w).1 hMultiplies.2.1).1
      exact iff_of_true hCase ⟨hV, hNe, hW, hSome, hAbs.2 hMultiplies, hInf⟩
    · exact iff_of_false (by rw [hCase]; simp) fun h => hSmall ⟨h.1, h.2.1, h.2.2.2.2.2⟩
  · intro v w r k hFinite hK hOdd hReport
    rw [multiplied_neg hFinite hK hReport, if_pos ((isOddInteger_iff w).2 ⟨hFinite, k, hOdd, hK⟩)]
  · intro v w r k hFinite hK hEven hReport
    rw [multiplied_neg hFinite hK hReport, if_neg (not_isOddInteger_of_even hK hEven)]

/-- Cubes of opposite numbers, where one overflows the other does, and the poles at both zeros. -/
theorem power_of_opposites :
    @power multiplying (-2) 3 = -8 ∧ @power multiplying (-1e200) 3 = -infinity false ∧
      @power multiplying (-0) (-3) = -infinity false ∧ @power multiplying (-1.5) 2 = 2.25 ∧
      guardedPower multiplied (-1e200) 3 = .ok (-infinity false) := by
  obtain ⟨hParity, hCaught⟩ := @power_keeps_parity multiplying _ _ reports_multiplied
  have hCube : @power multiplying 2 3 = 8 := by decide +kernel
  have hLarge : @power multiplying 1e200 3 = infinity false := by decide +kernel
  have hPole : @power multiplying 0 (-3) = infinity false := by decide +kernel
  have hSquare : @power multiplying 1.5 2 = 2.25 := by decide +kernel
  have hThree : value 3 = (3 : ℤ) := by decide +kernel
  have hMinusThree : value (-3) = (-3 : ℤ) := by decide +kernel
  have hTwo : value 2 = (2 : ℤ) := by decide +kernel
  have hOpposite := (hParity 1e200 3 3 (by decide) hThree).1 (by decide)
  refine ⟨?_, ?_, ?_, ?_, ?_⟩
  · rw [(hParity 2 3 3 (by decide) hThree).1 (by decide), hCube]
  · rw [hOpposite, hLarge]
  · rw [(hParity 0 (-3) (-3) (by decide) hMinusThree).1 (by decide), hPole]
  · rw [(hParity 1.5 2 2 (by decide) hTwo).2 (by decide), hSquare]
  · rw [hCaught, hOpposite, hLarge]

end Elementary

end DerivCalc
