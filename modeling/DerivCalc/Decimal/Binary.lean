/-!
# Doubles as integers times powers of two

A finite double is `± m * 2 ^ q` with a natural `m`.  This file reads `m` and
`q` off the bits of a `Float` and goes the other way: `nearestBits num den` are
the bits of the double nearest to the fraction `num / den`, a tie going to the
even neighbour.

Both directions are plain `Nat` arithmetic on the 64-bit word, with `/` and `%`
instead of masks, so that statements about them are statements about integers.
The word of a positive double is `(q + 1074) * 2 ^ 52 + m`, for subnormal and
normal numbers alike, and a significand that rounds up to `2 ^ 53` carries into
the exponent by itself.
-/

namespace DerivCalc.Decimal.Binary

/-! ## Powers -/

/-- The power `2 ^ k`. -/
def twoPow (k : Nat) : Nat := Nat.pow 2 k

/-- The power `10 ^ k`. -/
def tenPow (k : Nat) : Nat := Nat.pow 10 k

theorem twoPow_pos (k : Nat) : 0 < twoPow k := Nat.pow_pos (by decide)

theorem tenPow_pos (k : Nat) : 0 < tenPow k := Nat.pow_pos (by decide)

/-! ## Fields of a word -/

/-- Weight of the lowest exponent bit. -/
def exponentUnit : Nat := twoPow 52

/-- Weight of the sign bit. -/
def signUnit : Nat := twoPow 63

/-- The word of positive infinity: all exponent bits set and no other. -/
def infinityBits : Nat := 2047 * exponentUnit

/-- The sign bit is set. -/
def isNegative (v : Float) : Bool := signUnit ≤ v.toBits.toNat

/-- The word without its sign bit. -/
def magnitudeBits (v : Float) : Nat := v.toBits.toNat % signUnit

/-- The biased exponent. -/
def exponentField (v : Float) : Nat := magnitudeBits v / exponentUnit

/-- The stored part of the significand. -/
def fractionField (v : Float) : Nat := magnitudeBits v % exponentUnit

/-- The double with this sign and these 63 lower bits. -/
def ofSignBits (negative : Bool) (bits : Nat) : Float :=
  Float.ofBits (UInt64.ofNat (if negative then signUnit + bits else bits))

/-- Infinity of the given sign. -/
def infinity (negative : Bool) : Float := ofSignBits negative infinityBits

/-- The result of an operation without a value. -/
def nan : Float := Float.ofBits 0x7FF8000000000000

/-- Zero of the given sign. -/
def zero (negative : Bool) : Float := ofSignBits negative 0

/-! ## The value of a finite double -/

/-- The integer `m` of a finite value `± m * 2 ^ q`. -/
def significand (v : Float) : Nat :=
  if exponentField v = 0 then fractionField v else exponentUnit + fractionField v

/-- The exponent `q` of a finite value `± m * 2 ^ q`. -/
def scale (v : Float) : Int := (max (exponentField v) 1 : Nat) - 1075

/-- Numerator and denominator of the size of a finite value. -/
def ratio (v : Float) : Nat × Nat :=
  (significand v * twoPow (scale v).toNat, twoPow (-scale v).toNat)

/-- A finite value without fractional part. -/
def isInteger (v : Float) : Bool :=
  v.isFinite && (ratio v).1 % (ratio v).2 == 0

/-- A finite value that is an odd integer. -/
def isOddInteger (v : Float) : Bool :=
  isInteger v && (ratio v).1 / (ratio v).2 % 2 == 1

theorem fractionField_lt (v : Float) : fractionField v < exponentUnit :=
  Nat.mod_lt _ (by decide)

/-- The size of a finite value is a fraction with a positive denominator. -/
theorem ratio_den_pos (v : Float) : 0 < (ratio v).2 := twoPow_pos _

/-! ## Rounding to the nearest double -/

/-- The integer nearest to `num / den`; of two at the same distance the even one. -/
def roundQuotient (num den : Nat) : Nat :=
  let low := num / den
  let rest := num % den
  if 2 * rest < den then low
  else if den < 2 * rest then low + 1
  else low + low % 2

/-- A quotient is rounded to one of the two integers around it. -/
theorem roundQuotient_bounds (num den : Nat) :
    num / den ≤ roundQuotient num den ∧ roundQuotient num den ≤ num / den + 1 := by
  simp only [roundQuotient]
  split
  · omega
  · split <;> omega

/-- The largest `k` with `2 ^ k ≤ num / den`, for positive `num` and `den`. -/
def floorLog2 (num den : Nat) : Int :=
  let k : Int := (num.log2 : Int) - den.log2
  if den * twoPow k.toNat ≤ num * twoPow (-k).toNat then k else k - 1

/-- The 63 lower bits of the double nearest to `num / den`, infinity where it is too large. -/
def nearestBits (num den : Nat) : Nat :=
  if num = 0 then 0
  else
    let q := max (floorLog2 num den - 52) (-1074)
    let m := roundQuotient (num * twoPow (-q).toNat) (den * twoPow q.toNat)
    min ((q + 1074).toNat * exponentUnit + m) infinityBits

/--
The double nearest to `digits * 10 ^ exponent`, with the given sign.

Sizes that are far out of range are decided before the power of ten is
computed: above `10 ^ 400` everything is infinite, and with
`digits < 2 ^ (log2 + 1)` and `10 > 2 ^ 3` the second test says that the value
is below `2 ^ -1100`.
-/
def ofDecimal (negative : Bool) (digits : Nat) (exponent : Int) : Float :=
  if digits = 0 then zero negative
  else if 400 < exponent then infinity negative
  else if (digits.log2 : Int) + 1101 < 3 * (-exponent) then zero negative
  else
    ofSignBits negative
      (nearestBits (digits * tenPow exponent.toNat) (tenPow (-exponent).toNat))

end DerivCalc.Decimal.Binary
