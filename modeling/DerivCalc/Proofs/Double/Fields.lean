import DerivCalc.Decimal.Binary
import Mathlib

/-!
# The fields of a double

The logic defines arithmetic on doubles through unpacking: a double is a NaN, an
infinity, a zero or a signed `m * 2 ^ q`.  This file ties that view to the
fields of the 64-bit word by which decimals are read and written: `unpack_eq`
reads the unpacked form off the fields, `unpack_of_word` goes back, and
`ofUnpacked_unpack` says that nothing is lost on the way.
-/

namespace DerivCalc.Double

open Decimal.Binary
open Float.Model (Format UnpackedFloat)
open Float.Model.UnpackedFloat

/-! ## Parts of a word -/

theorem toNat_unpackMantissa (b : BitVec Format.binary64.numBits) :
    (unpackMantissa b).toNat = b.toNat % 2 ^ 52 := by
  simp [unpackMantissa, BitVec.extractLsb]

theorem toNat_unpackExponent (b : BitVec Format.binary64.numBits) :
    (unpackExponent b).toNat = b.toNat / 2 ^ 52 % 2 ^ 11 := by
  simp [unpackExponent, BitVec.extractLsb, Nat.shiftRight_eq_div_pow]

theorem toNat_unpackSign (b : BitVec Format.binary64.numBits) :
    (unpackSign b).toNat = b.toNat / 2 ^ 63 := by
  have hb : b.toNat < 2 ^ 64 := b.isLt
  simp [unpackSign, BitVec.extractLsb, Nat.shiftRight_eq_div_pow]
  omega

theorem toNat_packComponents (s : Sign) (e : BitVec 11) (m : BitVec 52) :
    (packComponents Format.binary64 s e m).toNat =
      s.toBitVec.toNat * 2 ^ 63 + e.toNat * 2 ^ 52 + m.toNat := by
  have he := e.isLt
  have hm := m.isLt
  simp only [packComponents]
  rw [BitVec.toNat_append, ← Nat.shiftLeft_add_eq_or_of_lt hm, BitVec.toNat_append,
    ← Nat.shiftLeft_add_eq_or_of_lt he]
  simp only [Nat.shiftLeft_eq]
  ring

/-! ## Fields of a double -/

/-- The word of a double. -/
def vector (v : Float) : BitVec Format.binary64.numBits := v.toModel.toBits.toBitVec

/-- The word of a double as a number. -/
def word (v : Float) : Nat := (vector v).toNat

theorem word_lt (v : Float) : word v < 2 ^ 64 := (vector v).isLt

theorem exponentField_eq (v : Float) : exponentField v = word v / 2 ^ 52 % 2 ^ 11 := by
  have h : exponentField v = word v % 2 ^ 63 / 2 ^ 52 := rfl
  omega

theorem fractionField_eq (v : Float) : fractionField v = word v % 2 ^ 52 := by
  have h : fractionField v = word v % 2 ^ 63 % 2 ^ 52 := rfl
  omega

theorem isNegative_iff (v : Float) : isNegative v = true ↔ 2 ^ 63 ≤ word v := by
  have h : isNegative v = decide (2 ^ 63 ≤ word v) := rfl
  rw [h, decide_eq_true_eq]

/-- The sign of a double; a NaN counts as positive. -/
def sign (v : Float) : Sign := if isNegative v then .negative else .positive

theorem ofBitVec_unpackSign (v : Float) : Sign.ofBitVec (unpackSign (vector v)) = sign v := by
  have hWord := word_lt v
  have hBit : (unpackSign (vector v)).toNat = word v / 2 ^ 63 := toNat_unpackSign _
  unfold Sign.ofBitVec sign
  by_cases hNeg : isNegative v = true
  · have hLe := (isNegative_iff v).1 hNeg
    rw [if_pos hNeg, if_neg]
    intro hZero
    rw [hZero, BitVec.toNat_zero] at hBit
    omega
  · have hLt := mt (isNegative_iff v).2 hNeg
    rw [if_neg hNeg, if_pos]
    apply BitVec.eq_of_toNat_eq
    rw [hBit, BitVec.toNat_zero]
    omega

theorem significand_eq (v : Float) : significand v =
    if exponentField v = 0 then fractionField v else 2 ^ 52 + fractionField v := rfl

theorem scale_eq (v : Float) : scale v = (max (exponentField v) 1 : Nat) - 1075 := rfl

theorem toNat_exponent (v : Float) : (unpackExponent (vector v)).toNat = exponentField v :=
  (toNat_unpackExponent _).trans (exponentField_eq v).symm

theorem toNat_mantissa (v : Float) : (unpackMantissa (vector v)).toNat = fractionField v :=
  (toNat_unpackMantissa _).trans (fractionField_eq v).symm

theorem exponent_eq_top_iff (v : Float) :
    unpackExponent (vector v) = -1#_ ↔ exponentField v = 2047 := by
  rw [← BitVec.toNat_inj, toNat_exponent]
  rfl

theorem exponent_eq_zero_iff (v : Float) :
    unpackExponent (vector v) = 0#_ ↔ exponentField v = 0 := by
  rw [← BitVec.toNat_inj, toNat_exponent]
  rfl

theorem mantissa_eq_zero_iff (v : Float) :
    unpackMantissa (vector v) = 0#_ ↔ fractionField v = 0 := by
  rw [← BitVec.toNat_inj, toNat_mantissa]
  rfl

theorem toNat_implicit (v : Float) :
    (1#1 ++ unpackMantissa (vector v)).toNat = 2 ^ 52 + fractionField v := by
  rw [BitVec.toNat_append, ← Nat.shiftLeft_add_eq_or_of_lt (unpackMantissa (vector v)).isLt,
    toNat_mantissa]
  rfl

/-- What a double is, read off its fields. -/
theorem unpack_eq (v : Float) : v.toModel.unpack =
    if exponentField v = 2047 then
      if fractionField v = 0 then .infinity (sign v) else .notANumber
    else if h : significand v = 0 then .zero (sign v)
    else .finite (sign v) (significand v) (scale v) (Nat.pos_of_ne_zero h) := by
  have hTopIff := exponent_eq_top_iff v
  have hLowIff := exponent_eq_zero_iff v
  have hNoneIff := mantissa_eq_zero_iff v
  have hImplicit := toNat_implicit v
  change UnpackedFloat.unpack Format.binary64 (vector v) = _
  have hSig := significand_eq v
  have hScale := scale_eq v
  unfold UnpackedFloat.unpack
  simp only [ofBitVec_unpackSign, hTopIff, hLowIff, hNoneIff, toNat_exponent, toNat_mantissa,
    hImplicit]
  by_cases hTop : exponentField v = 2047
  · rw [if_pos hTop, if_pos hTop]
  · rw [if_neg hTop, if_neg hTop]
    by_cases hLow : exponentField v = 0
    · rw [if_pos hLow] at hSig ⊢
      simp only [hSig]
      split
      · rfl
      · congr 1
        rw [hScale, hLow]
        rfl
    · rw [if_neg hLow] at hSig ⊢
      rw [dif_neg (by omega)]
      congr 1
      · exact hSig.symm
      · rw [hScale, Nat.max_eq_left (by omega)]
        rfl

/-- The fields of a double that unpacks to a finite number other than zero. -/
theorem fields_of_unpack {v : Float} {s : Sign} {m : Nat} {q : Int} {hPos : 0 < m}
    (h : v.toModel.unpack = .finite s m q hPos) :
    sign v = s ∧ significand v = m ∧ scale v = q := by
  rw [unpack_eq] at h
  split at h
  · split at h <;> exact absurd h (by simp)
  · split at h
    · exact absurd h (by simp)
    · injection h with hSign hM hQ
      exact ⟨hSign, hM, hQ⟩

/-! ## Packing -/

/-- The weight of a sign in the word. -/
def signWeight (s : Sign) : Nat := s.toBitVec.toNat * 2 ^ 63

theorem signWeight_cases (s : Sign) : signWeight s = 0 ∨ signWeight s = 2 ^ 63 := by
  cases s
  · exact Or.inr rfl
  · exact Or.inl rfl

theorem word_eq (v : Float) :
    word v = signWeight (sign v) + exponentField v * 2 ^ 52 + fractionField v := by
  have hWord := word_lt v
  have hE := exponentField_eq v
  have hF := fractionField_eq v
  unfold sign
  by_cases hNeg : isNegative v = true
  · have hLe := (isNegative_iff v).1 hNeg
    have hWeight : signWeight Sign.negative = 2 ^ 63 := rfl
    rw [if_pos hNeg, hWeight]
    omega
  · have hLt := mt (isNegative_iff v).2 hNeg
    have hWeight : signWeight Sign.positive = 0 := rfl
    rw [if_neg hNeg, hWeight]
    omega

/-- Doubles with the same word are the same. -/
theorem eq_of_word_eq {v w : Float} (h : word v = word w) : v = w := by
  obtain ⟨⟨a, ha⟩⟩ := v
  obtain ⟨⟨b, hb⟩⟩ := w
  have hBits : a = b := UInt64.toBitVec_inj.1 (BitVec.eq_of_toNat_eq h)
  subst hBits
  rfl

/-- The significands and exponents of finite doubles other than zero. -/
structure Canonical (m : Nat) (q : Int) : Prop where
  pos : 0 < m
  lt : m < 2 ^ 53
  low : -1074 ≤ q
  high : q ≤ 971
  normal : 2 ^ 52 ≤ m ∨ q = -1074

/-- The word of a finite double: normal and subnormal numbers follow one formula. -/
theorem toNat_pack_finite {m : Nat} {q : Int} (s : Sign) (h : Canonical m q) :
    (UnpackedFloat.pack Format.binary64 (.finite s m q h.pos)).toNat =
      signWeight s + ((q + 1074).toNat * 2 ^ 52 + m) := by
  obtain ⟨hPos, hLt, hLow, hHigh, hNormal⟩ := h
  have hBias : (q + Format.binary64.exponentBias + Format.binary64.mantissaBitsWithoutImplicit).toNat
      = (q + 1075).toNat := by
    change (q + 1023 + 52).toNat = _
    omega
  have hOver : ¬ 2 ^ Format.binary64.exponentBits ≤ (q + 1075).toNat + 1 := by
    change ¬ 2048 ≤ _
    omega
  unfold UnpackedFloat.pack
  simp only [hBias]
  rw [if_neg hOver]
  by_cases hFull : 2 ^ 52 ≤ m
  · have hLog : m.log2 = 52 := (Nat.log2_eq_iff (by omega)).2 ⟨hFull, hLt⟩
    rw [if_pos (by rw [hLog]; rfl), toNat_packComponents, BitVec.toNat_ofNat, BitVec.toNat_ofNat]
    unfold signWeight
    omega
  · have hLog : m.log2 < 52 := (Nat.log2_lt (by omega)).2 (by omega)
    have hSub : ¬ m.log2 + 1 = Format.binary64.mantissaBits := by
      change ¬ m.log2 + 1 = 53
      omega
    rw [if_neg hSub, toNat_packComponents, BitVec.toNat_ofNat, BitVec.toNat_ofNat]
    unfold signWeight
    omega

/-- The significand and exponent of a finite double other than zero are canonical. -/
theorem canonical_of_finite {v : Float} (hFinite : exponentField v ≠ 2047)
    (hNe : significand v ≠ 0) : Canonical (significand v) (scale v) := by
  have hSig := significand_eq v
  have hScale := scale_eq v
  have hF := fractionField_eq v
  have hE := exponentField_eq v
  by_cases hLow : exponentField v = 0
  · rw [if_pos hLow] at hSig
    constructor <;> omega
  · rw [if_neg hLow] at hSig
    constructor <;> omega

/-- The exponent and fraction of a finite double as one number. -/
theorem fields_of_finite (v : Float) :
    exponentField v * 2 ^ 52 + fractionField v =
      (scale v + 1074).toNat * 2 ^ 52 + significand v := by
  have hSig := significand_eq v
  have hScale := scale_eq v
  by_cases hLow : exponentField v = 0
  · rw [if_pos hLow] at hSig
    omega
  · rw [if_neg hLow] at hSig
    omega

/-- The double packed from an unpacked one. -/
def ofUnpacked (u : UnpackedFloat) : Float := .ofModel (.pack u)

/-- Unpacking and packing gives the same double again. -/
theorem ofUnpacked_unpack (v : Float) : ofUnpacked v.toModel.unpack = v := by
  apply eq_of_word_eq
  change (UnpackedFloat.pack Format.binary64 v.toModel.unpack).toNat = word v
  rw [unpack_eq, word_eq]
  by_cases hTop : exponentField v = 2047
  · rw [if_pos hTop]
    by_cases hFraction : fractionField v = 0
    · rw [if_pos hFraction, hFraction, hTop]
      exact toNat_packComponents _ _ _
    · rw [if_neg hFraction, ← word_eq]
      have hValid : vector v = packedNaN Format.binary64 :=
        v.toModel.valid.eq_packedNaN ((exponent_eq_top_iff v).2 hTop)
          (mt (mantissa_eq_zero_iff v).1 hFraction)
      exact congrArg BitVec.toNat hValid.symm
  · rw [if_neg hTop]
    by_cases hZero : significand v = 0
    · rw [dif_pos hZero]
      have hFields := fields_of_finite v
      have hScale := scale_eq v
      have hSig := significand_eq v
      have hExponent : exponentField v = 0 := by
        by_contra hNe
        rw [if_neg hNe] at hSig
        omega
      rw [if_pos hExponent] at hSig
      rw [hExponent, ← hSig, hZero]
      exact toNat_packComponents _ _ _
    · rw [dif_neg hZero, Nat.add_assoc, fields_of_finite]
      exact toNat_pack_finite (sign v) (canonical_of_finite hTop hZero)

/-- A finite double is determined by its sign, significand and exponent. -/
theorem unpack_of_word {v : Float} {s : Sign} {m : Nat} {q : Int} (h : Canonical m q)
    (hWord : word v = signWeight s + ((q + 1074).toNat * 2 ^ 52 + m)) :
    v.toModel.unpack = .finite s m q h.pos := by
  obtain ⟨hPos, hLt, hLow, hHigh, hNormal⟩ := h
  have hE := exponentField_eq v
  have hF := fractionField_eq v
  have hSig := significand_eq v
  have hScale := scale_eq v
  have hSign : sign v = s := by
    have hNeg := isNegative_iff v
    unfold sign
    cases s with
    | negative =>
        have hWeight : signWeight Sign.negative = 2 ^ 63 := rfl
        rw [if_pos (hNeg.2 (by omega))]
    | positive =>
        have hWeight : signWeight Sign.positive = 0 := rfl
        rw [if_neg (mt hNeg.1 (by omega))]
  have hWeight := signWeight_cases s
  have hSigM : significand v = m := by
    split at hSig <;> omega
  have hScaleQ : scale v = q := by omega
  rw [unpack_eq, if_neg (by omega), dif_neg (by omega), hSign]
  simp only [hSigM, hScaleQ]

theorem unpack_ofUnpacked_finite {m : Nat} {q : Int} (s : Sign) (h : Canonical m q) :
    (ofUnpacked (.finite s m q h.pos)).toModel.unpack = .finite s m q h.pos :=
  unpack_of_word h (toNat_pack_finite s h)

@[simp] theorem unpack_ofUnpacked_zero (s : Sign) :
    (ofUnpacked (.zero s)).toModel.unpack = .zero s := by
  cases s <;> rfl

/-! ## Doubles from words -/

/-- The double with a given sign and 63 lower bits has that word, unless it is a NaN. -/
theorem word_ofSignBits (negative : Bool) {bits : Nat} (h : bits ≤ infinityBits) :
    word (ofSignBits negative bits) = signWeight (if negative then .negative else .positive) + bits := by
  have hInfinity : infinityBits = 2047 * 2 ^ 52 := rfl
  have hSignUnit : signUnit = 2 ^ 63 := rfl
  generalize hN : (if negative then signUnit + bits else bits) = n
  have hWord : n = signWeight (if negative then .negative else .positive) + bits := by
    subst hN
    cases negative <;> simp [signWeight, Sign.toBitVec, hSignUnit]
  have hLt : n < 2 ^ 64 := by
    subst hN
    split <;> omega
  have hToNat : (UInt64.ofNat n).toBitVec.toNat = n := by
    rw [UInt64.toNat_toBitVec, UInt64.toNat_ofNat']
    exact Nat.mod_eq_of_lt hLt
  have hValid : Format.binary64.Valid (UInt64.ofNat n).toBitVec := by
    refine ⟨fun hTop hFraction => absurd ?_ hFraction⟩
    have hE := congrArg BitVec.toNat hTop
    have hM := toNat_unpackMantissa (UInt64.ofNat n).toBitVec
    rw [toNat_unpackExponent, hToNat] at hE
    rw [hToNat] at hM
    have hE' : n / 2 ^ 52 % 2 ^ 11 = 2047 := hE
    have hWeight := signWeight_cases (if negative then .negative else .positive)
    apply BitVec.eq_of_toNat_eq
    rw [hM]
    change _ = 0
    omega
  have hSelf : ofSignBits negative bits = .ofModel ⟨UInt64.ofNat n, hValid⟩ := by
    rw [← ofUnpacked_unpack (.ofModel ⟨UInt64.ofNat n, hValid⟩), ofSignBits, hN]
    rfl
  rw [hSelf, ← hWord]
  exact hToNat

end DerivCalc.Double
