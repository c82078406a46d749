import DerivCalc.Decimal.Binary
import DerivCalc.Decimal.Numeral

/-!
# Numbers with a given count of significant digits

`significant v p` is the exact value of `v` rounded to `p` significant decimal
digits, a tie going to the even digit.  The rounding is one integer division:
the value is scaled by the power of ten that leaves `p` digits before the point.
Scaling never goes beyond the point where the scaled value is an integer, so the
work does not grow with `p`.
-/

namespace DerivCalc.Decimal.Significant

open DerivCalc.Decimal.Binary

/-- The largest `k` with `10 ^ k ≤ num / den`, for positive `num` and `den`. -/
def floorLog10 (num den : Nat) : Int :=
  let k : Int := ((Nat.toDigits 10 num).length : Int) - (Nat.toDigits 10 den).length
  if den * tenPow k.toNat ≤ num * tenPow (-k).toNat then k else k - 1

/--
The count of decimal places that leaves `digits` significant digits of the size
of `v`, and no more places than the size has.
-/
def places (v : Float) (digits : Nat) : Int :=
  min ((digits : Int) - 1 - floorLog10 (ratio v).1 (ratio v).2) (max (-scale v) 0)

/-- The numeral nearest to the size of `v` with at most `digits` significant digits. -/
def round (v : Float) (digits : Nat) : Numeral :=
  let s := places v digits
  .ofUnits (roundQuotient ((ratio v).1 * tenPow s.toNat) ((ratio v).2 * tenPow (-s).toNat)) s

/-- A number that is no finite non-zero double, in its fixed spelling. -/
def exceptional (v : Float) : Option (List Char) :=
  if v.isNaN then some ['n', 'a', 'n']
  else if v.isInf then some (if isNegative v then ['-', 'i', 'n', 'f'] else ['i', 'n', 'f'])
  else none

/--
The text of `v` with at most `precision` significant digits; none counts as one.

An exponent is written iff it is below -4 or reaches the precision, zeros at the
end of the fraction are dropped, and both zeros are written `0`.
-/
def text (v : Float) (precision : Nat) : List Char :=
  let digits := max precision 1
  match exceptional v with
  | some word => word
  | none =>
    if v == 0 then ['0']
    else
      let body := Layout.render ⟨digits, []⟩ (round v digits)
      if isNegative v then '-' :: body else body

end DerivCalc.Decimal.Significant
