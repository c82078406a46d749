import DerivCalc.Proofs.Double.Fields

/-!
# Laws of arithmetic on doubles

Doubles compare equal without being the same: there are two zeros.  `Alike` is
equality up to the sign of a zero, and the laws below hold up to it: zero and one
are neutral, and an operation with a finite result does not tell alike operands
apart.
-/

namespace DerivCalc.Double

open Decimal.Binary
open Float.Model (Format UnpackedFloat totalExponent)
open Float.Model.UnpackedFloat

/-! ## Kinds of doubles -/

/-- A double is a NaN, an infinity, a zero or a canonical finite number. -/
theorem unpack_cases (v : Float) :
    v.toModel.unpack = .notANumber ∨ (∃ s, v.toModel.unpack = .infinity s) ∨
      (∃ s, v.toModel.unpack = .zero s) ∨
      ∃ s m q, ∃ h : Canonical m q, v.toModel.unpack = .finite s m q h.pos := by
  rw [unpack_eq]
  by_cases hTop : exponentField v = 2047
  · rw [if_pos hTop]
    by_cases hFraction : fractionField v = 0
    · exact Or.inr (Or.inl ⟨sign v, if_pos hFraction⟩)
    · exact Or.inl (if_neg hFraction)
  · rw [if_neg hTop]
    by_cases hZero : significand v = 0
    · exact Or.inr (Or.inr (Or.inl ⟨sign v, dif_pos hZero⟩))
    · exact Or.inr (Or.inr (Or.inr ⟨sign v, significand v, scale v,
        canonical_of_finite hTop hZero, dif_neg hZero⟩))

theorem canonical_of_unpack {v : Float} {s : Sign} {m : Nat} {q : Int} {hPos : 0 < m}
    (h : v.toModel.unpack = .finite s m q hPos) : Canonical m q := by
  rcases unpack_cases v with hU | ⟨t, hU⟩ | ⟨t, hU⟩ | ⟨t, n, r, hC, hU⟩
  · rw [hU] at h
    exact absurd h (by simp)
  · rw [hU] at h
    exact absurd h (by simp)
  · rw [hU] at h
    exact absurd h (by simp)
  · rw [hU] at h
    injection h with _ hM hQ
    rw [← hM, ← hQ]
    exact hC

theorem unpack_injective {v w : Float} (h : v.toModel.unpack = w.toModel.unpack) : v = w := by
  rw [← ofUnpacked_unpack v, h, ofUnpacked_unpack]

theorem unpack_neg (v : Float) : (-v).toModel.unpack = v.toModel.unpack.neg := by
  show (ofUnpacked v.toModel.unpack.neg).toModel.unpack = v.toModel.unpack.neg
  rcases unpack_cases v with hU | ⟨s, hU⟩ | ⟨s, hU⟩ | ⟨s, m, q, hC, hU⟩
  · rw [hU]
    rfl
  · rw [hU]
    cases s <;> rfl
  · rw [hU]
    cases s <;> rfl
  · rw [hU]
    exact unpack_ofUnpacked_finite _ hC

protected theorem neg_neg (v : Float) : - -v = v := by
  apply unpack_injective
  rw [unpack_neg, unpack_neg]
  cases v.toModel.unpack with
  | notANumber => rfl
  | infinity s => cases s <;> rfl
  | zero s => cases s <;> rfl
  | finite s m q hPos => cases s <;> rfl

theorem unpack_zero : (0 : Float).toModel.unpack = .zero .positive := rfl

theorem unpack_one : (1 : Float).toModel.unpack = .finite .positive (2 ^ 52) (-52) (by decide) := rfl

theorem unpacked_beq_zero_iff (u : UnpackedFloat) :
    u.beq (.zero .positive) = true ↔ ∃ s, u = .zero s := by
  cases u with
  | notANumber => simp [UnpackedFloat.beq, UnpackedFloat.compare]
  | infinity s => cases s <;> simp [UnpackedFloat.beq, UnpackedFloat.compare]
  | zero s => simp [UnpackedFloat.beq, UnpackedFloat.compare]
  | finite s m q hPos => cases s <;> simp [UnpackedFloat.beq, UnpackedFloat.compare]

/-- A double equals zero iff it is one of the two zeros. -/
theorem beq_zero_iff {v : Float} : (v == 0) = true ↔ ∃ s, v.toModel.unpack = .zero s :=
  unpacked_beq_zero_iff v.toModel.unpack

theorem zero_cases {v : Float} (h : (v == 0) = true) : ∃ s, v = ofUnpacked (.zero s) := by
  obtain ⟨s, hS⟩ := beq_zero_iff.1 h
  exact ⟨s, by rw [← hS, ofUnpacked_unpack]⟩

theorem isFinite_iff (v : Float) : v.isFinite = true ↔
    (∃ s, v.toModel.unpack = .zero s) ∨
      ∃ s m q, ∃ h : Canonical m q, v.toModel.unpack = .finite s m q h.pos := by
  show v.toModel.unpack.isFinite = true ↔ _
  rcases unpack_cases v with hU | ⟨s, hU⟩ | ⟨s, hU⟩ | ⟨s, m, q, hC, hU⟩
  · rw [hU]
    simp [UnpackedFloat.isFinite]
  · rw [hU]
    simp [UnpackedFloat.isFinite]
  · rw [hU]
    simp [UnpackedFloat.isFinite]
  · constructor
    · intro _
      exact Or.inr ⟨s, m, q, hC, hU⟩
    · intro _
      rw [hU]
      rfl

/-! ## Equality up to the sign of a zero -/

/-- Both doubles are zeros, or they are the same. -/
def Alike (v w : Float) : Prop := v = w ∨ (v == 0) = true ∧ (w == 0) = true

theorem Alike.refl (v : Float) : Alike v v := Or.inl rfl

theorem zero_alike_of_beq_zero {v : Float} (h : (v == 0) = true) : Alike 0 v :=
  Or.inr ⟨by decide, h⟩

theorem Alike.symm {v w : Float} (h : Alike v w) : Alike w v := by
  rcases h with hEq | ⟨hV, hW⟩
  · exact Or.inl hEq.symm
  · exact Or.inr ⟨hW, hV⟩

theorem Alike.trans {u v w : Float} (h : Alike u v) (h' : Alike v w) : Alike u w := by
  rcases h with hEq | ⟨hU, hV⟩
  · rw [hEq]
    exact h'
  · rcases h' with hEq | ⟨_, hW⟩
    · rw [← hEq]
      exact Or.inr ⟨hU, hV⟩
    · exact Or.inr ⟨hU, hW⟩

theorem Alike.beq_zero {v w : Float} (h : Alike v w) (hV : (v == 0) = true) : (w == 0) = true := by
  rcases h with hEq | ⟨_, hW⟩
  · rw [← hEq]
    exact hV
  · exact hW

theorem isFinite_of_beq_zero {v : Float} (h : (v == 0) = true) : v.isFinite = true :=
  (isFinite_iff v).2 (Or.inl (beq_zero_iff.1 h))

theorem Alike.isFinite {v w : Float} (h : Alike v w) (hV : v.isFinite = true) :
    w.isFinite = true := by
  rcases h with hEq | ⟨_, hW⟩
  · rw [← hEq]
    exact hV
  · exact isFinite_of_beq_zero hW

theorem unpacked_beq_self_of_isFinite (u : UnpackedFloat) (h : u.isFinite = true) :
    u.beq u = true := by
  cases u with
  | notANumber => simp [UnpackedFloat.isFinite] at h
  | infinity s => simp [UnpackedFloat.isFinite] at h
  | zero s => simp [UnpackedFloat.beq, UnpackedFloat.compare]
  | finite s m q hPos => cases s <;> simp [UnpackedFloat.beq, UnpackedFloat.compare]

/-- Alike finite doubles compare equal. -/
theorem Alike.beq {v w : Float} (h : Alike v w) (hV : v.isFinite = true) : (v == w) = true := by
  rcases h with hEq | ⟨hV, hW⟩
  · subst hEq
    exact unpacked_beq_self_of_isFinite v.toModel.unpack hV
  · obtain ⟨s, hS⟩ := beq_zero_iff.1 hV
    obtain ⟨t, hT⟩ := beq_zero_iff.1 hW
    show UnpackedFloat.beq v.toModel.unpack w.toModel.unpack = true
    rw [hS, hT]
    rfl

/-- A double that equals one is one. -/
theorem eq_one_of_beq {v : Float} (h : (v == 1) = true) : v = 1 := by
  apply unpack_injective
  rw [unpack_one]
  have hBeq : UnpackedFloat.beq v.toModel.unpack (.finite .positive (2 ^ 52) (-52) (by decide)) =
    true := h
  generalize v.toModel.unpack = u at hBeq
  cases u with
  | notANumber => simp [UnpackedFloat.beq, UnpackedFloat.compare] at hBeq
  | infinity s => cases s <;> simp [UnpackedFloat.beq, UnpackedFloat.compare] at hBeq
  | zero s => simp [UnpackedFloat.beq, UnpackedFloat.compare] at hBeq
  | finite s m q hPos =>
      cases s with
      | negative => simp [UnpackedFloat.beq, UnpackedFloat.compare] at hBeq
      | positive =>
          simp only [UnpackedFloat.beq, UnpackedFloat.compare, beq_iff_eq, Option.some.injEq,
            Ordering.then_eq_eq, Int.compare_eq_eq, Nat.compare_eq_eq] at hBeq
          obtain ⟨hQ, hM⟩ := hBeq
          subst hQ hM
          rfl

/-! ## Rounding what needs no rounding -/

/-- The target exponent of a canonical number is its own, however it is scaled. -/
theorem targetExponent_canonical {m : Nat} {q : Int} (h : Canonical m q) (k : Nat) :
    Format.binary64.targetExponent (totalExponent (m * 2 ^ k) (q - k)) = q := by
  obtain ⟨hPos, hLt, hLow, hHigh, hNormal⟩ := h
  have hLog : (m * 2 ^ k).log2 = m.log2 + k := by
    rw [Nat.log2_eq_iff (Nat.mul_ne_zero (by omega) (by simp)), pow_succ, pow_add, mul_assoc,
      mul_comm _ 2, ← mul_assoc, ← pow_succ]
    exact ⟨Nat.mul_le_mul_right _ (Nat.log2_self_le (by omega)),
      Nat.mul_lt_mul_of_pos_right Nat.lt_log2_self (by simp)⟩
  have hMin : Format.binary64.minExponent = -1074 := rfl
  have hBits : Format.binary64.mantissaBits = 53 := rfl
  have hTop : m.log2 < 53 := (Nat.log2_lt (by omega)).2 hLt
  unfold Format.targetExponent totalExponent
  rw [hLog, hMin, hBits]
  rcases hNormal with hFull | hLeast
  · have hLow := (Nat.le_log2 (by omega)).2 hFull
    omega
  · omega

/-- Dropping zero bits loses nothing. -/
theorem shiftRight_exact (m k : Nat) :
    ExtendedMantissa.ofMantissaAndAccuracy (m * 2 ^ k) .exact >>> k =
      ExtendedMantissa.ofMantissaAndAccuracy m .exact := by
  induction k generalizing m with
  | zero => simp [HShiftRight.hShiftRight, Nat.repeat]
  | succ k ih =>
      have hStep : ExtendedMantissa.ofMantissaAndAccuracy (m * 2 ^ (k + 1)) .exact >>> (k + 1) =
          (ExtendedMantissa.ofMantissaAndAccuracy (m * 2 * 2 ^ k) .exact >>> k).shiftRightOne := by
        rw [mul_assoc, ← pow_succ']
        rfl
      rw [hStep, ih]
      simp [ExtendedMantissa.shiftRightOne, ExtendedMantissa.ofMantissaAndAccuracy]

theorem shiftToTargetExponent_exact {m : Nat} {q : Int} (h : Canonical m q) (k : Nat) :
    shiftToTargetExponent Format.binary64 (m * 2 ^ k) (q - k) .exact =
      (ExtendedMantissa.ofMantissaAndAccuracy m .exact, q) := by
  unfold shiftToTargetExponent shiftToExponent
  have hShift : (q - (q - (k : Int))).toNat = k := by omega
  simp only [targetExponent_canonical h, hShift, shiftRight_exact]
  congr 1
  omega

/-- A canonical number is its own rounding. -/
theorem roundWithAccuracy_exact {m : Nat} {q : Int} (s : Sign) (h : Canonical m q) (k : Nat) :
    roundWithAccuracy Format.binary64 s (m * 2 ^ k) (q - k) .exact = .finite s m q h.pos := by
  have hFirst := shiftToTargetExponent_exact h k
  have hSecond := shiftToTargetExponent_exact h 0
  rw [pow_zero, mul_one, Int.natCast_zero, Int.sub_zero] at hSecond
  have hRounded :
      (ExtendedMantissa.ofMantissaAndAccuracy m .exact).roundedMantissa = m := rfl
  unfold roundWithAccuracy
  simp only [hFirst, hRounded, hSecond]
  exact dif_neg (Nat.ne_of_gt h.pos)

/-! ## Neutral elements -/

protected theorem add_comm (v w : Float) : v + w = w + v := by
  have hUnpacked (a b : UnpackedFloat) :
      UnpackedFloat.add Format.binary64 a b = UnpackedFloat.add Format.binary64 b a := by
    cases a with
    | notANumber => cases b <;> rfl
    | infinity s =>
        cases b with
        | infinity t => cases s <;> cases t <;> rfl
        | notANumber => rfl
        | zero t => rfl
        | finite t m q hPos => rfl
    | zero s =>
        cases b with
        | zero t => cases s <;> cases t <;> rfl
        | notANumber => rfl
        | infinity t => rfl
        | finite t m q hPos => rfl
    | finite s m q hPos =>
        cases b with
        | finite t n r hPos' =>
            simp only [UnpackedFloat.add, Int.add_comm, Int.min_comm]
        | notANumber => rfl
        | infinity t => rfl
        | zero t => rfl
  exact congrArg ofUnpacked (hUnpacked v.toModel.unpack w.toModel.unpack)

protected theorem mul_comm (v w : Float) : v * w = w * v := by
  have hSign (s t : Sign) : s * t = t * s := by cases s <;> cases t <;> rfl
  have hUnpacked (a b : UnpackedFloat) :
      UnpackedFloat.mul Format.binary64 a b = UnpackedFloat.mul Format.binary64 b a := by
    cases a <;> cases b <;>
      simp only [UnpackedFloat.mul, hSign, Nat.mul_comm, Int.add_comm]
  exact congrArg ofUnpacked (hUnpacked v.toModel.unpack w.toModel.unpack)

theorem ofUnpacked_zero_beq (s : Sign) : (ofUnpacked (.zero s) == 0) = true :=
  beq_zero_iff.2 ⟨s, unpack_ofUnpacked_zero s⟩

/-- Results of unpacked arithmetic that are the same, or both zeros, are alike doubles. -/
theorem alike_of_unpacked {a b : UnpackedFloat} (h : a = b ∨ ∃ s t, a = .zero s ∧ b = .zero t) :
    Alike (ofUnpacked a) (ofUnpacked b) := by
  rcases h with hEq | ⟨s, t, hA, hB⟩
  · rw [hEq]
    exact Alike.refl _
  · rw [hA, hB]
    exact Or.inr ⟨ofUnpacked_zero_beq s, ofUnpacked_zero_beq t⟩

theorem alike_self_of_unpacked {a : UnpackedFloat} {v : Float}
    (h : a = v.toModel.unpack ∨ ∃ s t, a = .zero s ∧ v.toModel.unpack = .zero t) :
    Alike (ofUnpacked a) v := by
  have hAlike := alike_of_unpacked h
  rw [ofUnpacked_unpack] at hAlike
  exact hAlike

theorem add_zero_alike {w : Float} (v : Float) (h : (w == 0) = true) : Alike (v + w) v := by
  obtain ⟨t, hT⟩ := beq_zero_iff.1 h
  show Alike (ofUnpacked (UnpackedFloat.add Format.binary64 v.toModel.unpack w.toModel.unpack)) v
  rw [hT]
  apply alike_self_of_unpacked
  cases v.toModel.unpack with
  | notANumber => exact Or.inl rfl
  | infinity s => exact Or.inl rfl
  | zero s =>
      right
      cases s <;> cases t <;> exact ⟨_, _, rfl, rfl⟩
  | finite s m q hPos => exact Or.inl rfl

theorem sub_zero_alike {w : Float} (v : Float) (h : (w == 0) = true) : Alike (v - w) v := by
  obtain ⟨t, hT⟩ := beq_zero_iff.1 h
  show Alike (ofUnpacked (UnpackedFloat.sub Format.binary64 v.toModel.unpack w.toModel.unpack)) v
  rw [hT]
  apply alike_self_of_unpacked
  cases v.toModel.unpack with
  | notANumber => exact Or.inl rfl
  | infinity s => exact Or.inl rfl
  | zero s =>
      right
      cases s <;> cases t <;> exact ⟨_, _, rfl, rfl⟩
  | finite s m q hPos => exact Or.inl rfl

theorem zero_sub_alike {w : Float} (v : Float) (h : (w == 0) = true) : Alike (w - v) (-v) := by
  obtain ⟨t, hT⟩ := beq_zero_iff.1 h
  show Alike (ofUnpacked (UnpackedFloat.sub Format.binary64 w.toModel.unpack v.toModel.unpack))
    (ofUnpacked v.toModel.unpack.neg)
  rw [hT]
  apply alike_of_unpacked
  cases v.toModel.unpack with
  | notANumber => exact Or.inl rfl
  | infinity s => exact Or.inl rfl
  | zero s =>
      right
      cases s <;> cases t <;> exact ⟨_, _, rfl, rfl⟩
  | finite s m q hPos => exact Or.inl rfl

theorem zero_mul_beq {w : Float} (v : Float) (h : (w == 0) = true) (hV : v.isFinite = true) :
    (w * v == 0) = true := by
  obtain ⟨t, hT⟩ := beq_zero_iff.1 h
  show (ofUnpacked (UnpackedFloat.mul Format.binary64 w.toModel.unpack v.toModel.unpack) == 0) =
    true
  rw [hT]
  rcases (isFinite_iff v).1 hV with ⟨s, hS⟩ | ⟨s, m, q, hC, hS⟩ <;> rw [hS] <;>
    exact ofUnpacked_zero_beq _

theorem not_isFinite_nan : ¬ (ofUnpacked .notANumber).isFinite = true := by decide

theorem not_isFinite_infinity (s : Sign) : ¬ (ofUnpacked (.infinity s)).isFinite = true := by
  cases s <;> decide

theorem zero_div_beq {w : Float} (v : Float) (h : (w == 0) = true)
    (hFinite : (w / v).isFinite = true) : (w / v == 0) = true := by
  obtain ⟨t, hT⟩ := beq_zero_iff.1 h
  have hDiv : w / v =
      ofUnpacked (UnpackedFloat.div Format.binary64 w.toModel.unpack v.toModel.unpack) := rfl
  rw [hDiv, hT] at hFinite ⊢
  cases hV : v.toModel.unpack with
  | notANumber =>
      rw [hV] at hFinite
      exact absurd hFinite not_isFinite_nan
  | infinity s => exact ofUnpacked_zero_beq _
  | zero s =>
      rw [hV] at hFinite
      exact absurd hFinite not_isFinite_nan
  | finite s m q hPos => exact ofUnpacked_zero_beq _

theorem one_mul_eq (v : Float) : 1 * v = v := by
  apply Eq.trans _ (ofUnpacked_unpack v)
  show ofUnpacked (UnpackedFloat.mul Format.binary64
    (.finite .positive (2 ^ 52) (-52) (by decide)) v.toModel.unpack) = _
  have hSign (s : Sign) : Sign.positive * s = s := by cases s <;> rfl
  rcases unpack_cases v with hU | ⟨s, hU⟩ | ⟨s, hU⟩ | ⟨s, m, q, hC, hU⟩
  · rw [hU]
    rfl
  · rw [hU]
    simp only [UnpackedFloat.mul, hSign]
  · rw [hU]
    simp only [UnpackedFloat.mul, hSign]
  · rw [hU]
    have hExact := roundWithAccuracy_exact s hC 52
    simp only [UnpackedFloat.mul, hSign]
    rw [← hExact, Nat.mul_comm, Int.add_comm]
    rfl

/-- Division by one scales the significand by at most one bit, which rounding takes back. -/
theorem divCore_one {m : Nat} {q : Int} (h : Canonical m q) :
    ∃ k : Nat, divCore Format.binary64 m q (2 ^ 52) (-52) = (m * 2 ^ k, q - k, .exact) := by
  obtain ⟨hPos, hLt, hLow, hHigh, hNormal⟩ := h
  have hMin : Format.binary64.minExponent = -1074 := rfl
  have hBits : Format.binary64.mantissaBits = 53 := rfl
  have hLog : (2 ^ 52 : Nat).log2 = 52 := by decide
  have hTop : m.log2 < 53 := (Nat.log2_lt (by omega)).2 hLt
  generalize hTarget : Format.binary64.targetExponent
    (totalExponent m q - totalExponent (2 ^ 52) (-52)) = target
  have hOne : target = q ∨ target = q - 1 := by
    subst hTarget
    unfold Format.targetExponent totalExponent
    rw [hMin, hBits, hLog]
    rcases hNormal with hFull | hLeast
    · have hLow := (Nat.le_log2 (by omega)).2 hFull
      omega
    · omega
  refine ⟨(q - target).toNat, ?_⟩
  have hShift : (q - -52 - min (q - -52) target).toNat = (q - target).toNat + 52 := by omega
  unfold divCore
  simp only [hTarget, hShift, Nat.shiftLeft_eq, pow_add, ← mul_assoc]
  rw [Nat.mul_div_cancel _ (by decide), Nat.mul_mod_left]
  congr 2
  omega

theorem div_one_eq (v : Float) : v / 1 = v := by
  apply Eq.trans _ (ofUnpacked_unpack v)
  show ofUnpacked (UnpackedFloat.div Format.binary64 v.toModel.unpack
    (.finite .positive (2 ^ 52) (-52) (by decide))) = _
  have hSign (s : Sign) : s / Sign.positive = s := by cases s <;> rfl
  rcases unpack_cases v with hU | ⟨s, hU⟩ | ⟨s, hU⟩ | ⟨s, m, q, hC, hU⟩
  · rw [hU]
    rfl
  · rw [hU]
    simp only [UnpackedFloat.div, hSign]
  · rw [hU]
    simp only [UnpackedFloat.div, hSign]
  · rw [hU]
    obtain ⟨k, hCore⟩ := divCore_one hC
    simp only [UnpackedFloat.div, hSign, hCore]
    rw [roundWithAccuracy_exact s hC k]

/-! ## Operands that differ in the sign of a zero -/

theorem neg_alike {v v' : Float} (h : Alike v v') : Alike (-v) (-v') := by
  rcases h with hEq | ⟨hV, hV'⟩
  · rw [hEq]
    exact Alike.refl _
  · obtain ⟨s, hS⟩ := beq_zero_iff.1 hV
    obtain ⟨t, hT⟩ := beq_zero_iff.1 hV'
    show Alike (ofUnpacked v.toModel.unpack.neg) (ofUnpacked v'.toModel.unpack.neg)
    rw [hS, hT]
    exact alike_of_unpacked (Or.inr ⟨_, _, rfl, rfl⟩)

theorem add_alike_left {v v' : Float} (w : Float) (h : Alike v v') : Alike (v + w) (v' + w) := by
  rcases h with hEq | ⟨hV, hV'⟩
  · rw [hEq]
    exact Alike.refl _
  · rw [Double.add_comm v, Double.add_comm v']
    exact (add_zero_alike w hV).trans (add_zero_alike w hV').symm

theorem add_alike_right {w w' : Float} (v : Float) (h : Alike w w') : Alike (v + w) (v + w') := by
  rw [Double.add_comm v, Double.add_comm v]
  exact add_alike_left v h

theorem sub_alike_left {v v' : Float} (w : Float) (h : Alike v v') : Alike (v - w) (v' - w) := by
  rcases h with hEq | ⟨hV, hV'⟩
  · rw [hEq]
    exact Alike.refl _
  · exact (zero_sub_alike w hV).trans (zero_sub_alike w hV').symm

theorem sub_alike_right {w w' : Float} (v : Float) (h : Alike w w') : Alike (v - w) (v - w') := by
  rcases h with hEq | ⟨hW, hW'⟩
  · rw [hEq]
    exact Alike.refl _
  · exact (sub_zero_alike v hW).trans (sub_zero_alike v hW').symm

theorem mul_alike_left {v v' : Float} (w : Float) (h : Alike v v') : Alike (v * w) (v' * w) := by
  rcases h with hEq | ⟨hV, hV'⟩
  · rw [hEq]
    exact Alike.refl _
  · obtain ⟨s, hS⟩ := beq_zero_iff.1 hV
    obtain ⟨t, hT⟩ := beq_zero_iff.1 hV'
    show Alike (ofUnpacked (UnpackedFloat.mul Format.binary64 v.toModel.unpack w.toModel.unpack))
      (ofUnpacked (UnpackedFloat.mul Format.binary64 v'.toModel.unpack w.toModel.unpack))
    rw [hS, hT]
    apply alike_of_unpacked
    cases w.toModel.unpack with
    | notANumber => exact Or.inl rfl
    | infinity s => exact Or.inl rfl
    | zero s => exact Or.inr ⟨_, _, rfl, rfl⟩
    | finite s m q hPos => exact Or.inr ⟨_, _, rfl, rfl⟩

theorem mul_alike_right {w w' : Float} (v : Float) (h : Alike w w') : Alike (v * w) (v * w') := by
  rw [Double.mul_comm v, Double.mul_comm v]
  exact mul_alike_left v h

theorem div_alike_left {v v' : Float} (w : Float) (h : Alike v v') : Alike (v / w) (v' / w) := by
  rcases h with hEq | ⟨hV, hV'⟩
  · rw [hEq]
    exact Alike.refl _
  · obtain ⟨s, hS⟩ := beq_zero_iff.1 hV
    obtain ⟨t, hT⟩ := beq_zero_iff.1 hV'
    have hDiv (u : Float) : u / w =
        ofUnpacked (UnpackedFloat.div Format.binary64 u.toModel.unpack w.toModel.unpack) := rfl
    rw [hDiv v, hDiv v', hS, hT]
    apply alike_of_unpacked
    cases w.toModel.unpack with
    | notANumber => exact Or.inl rfl
    | infinity s => exact Or.inr ⟨_, _, rfl, rfl⟩
    | zero s => exact Or.inl rfl
    | finite s m q hPos => exact Or.inr ⟨_, _, rfl, rfl⟩

/-- A quotient by a zero is not finite, so alike divisors are the same where it matters. -/
theorem div_alike_right {w w' : Float} (v : Float) (h : Alike w w')
    (hFinite : (v / w).isFinite = true) : Alike (v / w) (v / w') := by
  rcases h with hEq | ⟨hW, _⟩
  · rw [hEq]
    exact Alike.refl _
  · obtain ⟨t, hT⟩ := beq_zero_iff.1 hW
    have hDiv : v / w =
        ofUnpacked (UnpackedFloat.div Format.binary64 v.toModel.unpack w.toModel.unpack) := rfl
    rw [hDiv, hT] at hFinite
    cases hV : v.toModel.unpack with
    | notANumber =>
        rw [hV] at hFinite
        exact absurd hFinite not_isFinite_nan
    | infinity s =>
        rw [hV] at hFinite
        exact absurd hFinite (not_isFinite_infinity _)
    | zero s =>
        rw [hV] at hFinite
        exact absurd hFinite not_isFinite_nan
    | finite s m q hPos =>
        rw [hV] at hFinite
        exact absurd hFinite (not_isFinite_infinity _)

/-! ## Comparisons -/

theorem lt_iff (v w : Float) :
    v < w ↔ UnpackedFloat.lt v.toModel.unpack w.toModel.unpack = true := by
  show decide (UnpackedFloat.lt v.toModel.unpack w.toModel.unpack = true) = true ↔ _
  exact decide_eq_true_iff

theorem le_iff (v w : Float) :
    v ≤ w ↔ UnpackedFloat.le v.toModel.unpack w.toModel.unpack = true := by
  show decide (UnpackedFloat.le v.toModel.unpack w.toModel.unpack = true) = true ↔ _
  exact decide_eq_true_iff

theorem unpacked_compare_swap (a b : UnpackedFloat) :
    b.compare a = (a.compare b).map Ordering.swap := by
  cases a with
  | notANumber => cases b <;> rfl
  | infinity s =>
      cases b with
      | notANumber => cases s <;> rfl
      | infinity t => cases s <;> cases t <;> rfl
      | zero t => cases s <;> rfl
      | finite t n r hPos => cases s <;> cases t <;> rfl
  | zero s =>
      cases b with
      | notANumber => rfl
      | infinity t => cases t <;> rfl
      | zero t => rfl
      | finite t n r hPos => cases t <;> rfl
  | finite s m q hPos =>
      cases b with
      | notANumber => cases s <;> rfl
      | infinity t => cases s <;> cases t <;> rfl
      | zero t => cases s <;> rfl
      | finite t n r hPos' =>
          cases s <;> cases t <;>
            simp [UnpackedFloat.compare, Ordering.swap_then, Int.compare_swap, Nat.compare_swap]

theorem not_lt_of_le {v w : Float} (h : v ≤ w) : ¬ w < v := by
  intro hLt
  have hLe := (le_iff v w).1 h
  have hLt := (lt_iff w v).1 hLt
  unfold UnpackedFloat.lt at hLt
  unfold UnpackedFloat.le at hLe
  rw [unpacked_compare_swap v.toModel.unpack w.toModel.unpack] at hLt
  cases hCompare : v.toModel.unpack.compare w.toModel.unpack with
  | none => simp [hCompare] at hLe
  | some o => cases o <;> simp [hCompare] at hLe hLt

/-! ## Numbers by their sign -/

/-- A finite number other than the negative zero is zero, positive or negative. -/
theorem printable_cases {v : Float} (hFinite : v.isFinite = true) (hNe : v ≠ -0) :
    v = 0 ∨ (∃ m q, ∃ h : 0 < m, v.toModel.unpack = .finite .positive m q h) ∨
      ∃ m q, ∃ h : 0 < m, v.toModel.unpack = .finite .negative m q h := by
  rcases (isFinite_iff v).1 hFinite with ⟨s, hS⟩ | ⟨s, m, q, hC, hS⟩
  · cases s with
    | positive => exact Or.inl (unpack_injective hS)
    | negative => exact absurd (unpack_injective hS) hNe
  · cases s with
    | positive => exact Or.inr (Or.inl ⟨m, q, hC.pos, hS⟩)
    | negative => exact Or.inr (Or.inr ⟨m, q, hC.pos, hS⟩)

theorem not_lt_zero_of_positive {v : Float} {m : Nat} {q : Int} {h : 0 < m}
    (hV : v.toModel.unpack = .finite .positive m q h) : ¬ v < 0 := by
  rw [lt_iff, hV, unpack_zero]
  simp [UnpackedFloat.lt, UnpackedFloat.compare]

theorem lt_zero_of_negative {v : Float} {m : Nat} {q : Int} {h : 0 < m}
    (hV : v.toModel.unpack = .finite .negative m q h) : v < 0 := by
  rw [lt_iff, hV, unpack_zero]
  simp [UnpackedFloat.lt, UnpackedFloat.compare]

end DerivCalc.Double
