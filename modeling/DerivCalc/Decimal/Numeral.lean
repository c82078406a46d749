/-!
# Decimal numerals

A `Numeral` is a run of significant digits together with the power of ten of
the first of them.  A `Layout` decides how it is written: up to which exponent
the digits stand around a plain point, and what closes a number without
fractional digits.
-/

namespace DerivCalc.Decimal

/-- Significant digits `d₀ d₁ …` that stand for `d₀.d₁… * 10 ^ exponent`. -/
structure Numeral where
  digits : List Char
  exponent : Int
deriving DecidableEq, Repr

namespace Numeral

/-- Drops the zeros at the end of a run of digits. -/
def dropTrailingZeros (digits : List Char) : List Char :=
  (digits.reverse.dropWhile (· == '0')).reverse

/-- The numeral of `units * 10 ^ -places`, without superfluous zeros at its end. -/
def ofUnits (units : Nat) (places : Int) : Numeral :=
  let digits := Nat.toDigits 10 units
  ⟨dropTrailingZeros digits, (digits.length : Int) - 1 - places⟩

/-- The exponent part: its sign and at least two digits. -/
def exponentText (exponent : Int) : List Char :=
  let digits := Nat.toDigits 10 exponent.natAbs
  'e' :: (if exponent < 0 then '-' else '+') ::
    (if digits.length < 2 then '0' :: digits else digits)

/-- One digit, the others after a point, and the exponent. -/
def scientific (n : Numeral) : List Char :=
  match n.digits with
  | [] => exponentText n.exponent
  | [d] => d :: exponentText n.exponent
  | d :: ds => d :: '.' :: ds ++ exponentText n.exponent

/-- The digits around a plain point; `closing` follows a number without fractional digits. -/
def positional (n : Numeral) (closing : List Char) : List Char :=
  if n.exponent < 0 then
    '0' :: '.' :: List.replicate (-n.exponent - 1).toNat '0' ++ n.digits
  else
    let whole := n.exponent.toNat + 1
    let fraction := n.digits.drop whole
    n.digits.take whole ++ List.replicate (whole - n.digits.length) '0' ++
      (if fraction.isEmpty then closing else '.' :: fraction)

end Numeral

/-- How numerals are written. -/
structure Layout where
  /-- Exponents below this one, and not below -4, are written around a plain point. -/
  positionalBelow : Int
  /-- What follows a number without fractional digits. -/
  closing : List Char

/-- The text of a numeral. -/
def Layout.render (l : Layout) (n : Numeral) : List Char :=
  if n.exponent < -4 || l.positionalBelow ≤ n.exponent then n.scientific
  else n.positional l.closing

end DerivCalc.Decimal
