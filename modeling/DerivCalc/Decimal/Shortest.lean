import DerivCalc.Decimal.Significant

/-!
# The shortest text of a double

`shortest v` has the fewest significant digits that read back as `v`, and of
those the ones nearest to `v`.  A decimal reads back as `m * 2 ^ q` iff it lies
between the midpoints to the two neighbours, the midpoints themselves included
iff `m` is even.  Below a power of two the lower neighbour is only half as far
away, so the bounds are counted in quarters of `2 ^ q`.

For each count of digits only the two neighbours of `v` on that decimal grid
have to be tried: if any point of the grid lies between the midpoints, one of
these two does.
-/

namespace DerivCalc.Decimal.Shortest

open DerivCalc.Decimal.Binary
open DerivCalc.Decimal.Significant (floorLog10 exceptional)

/-- Four times the significand of the midpoint to the smaller neighbour. -/
def lowerQuarters (v : Float) : Nat :=
  if fractionField v = 0 ∧ 1 < exponentField v then 4 * significand v - 1
  else 4 * significand v - 2

/-- Four times the significand of the midpoint to the larger neighbour. -/
def upperQuarters (v : Float) : Nat := 4 * significand v + 2

/-- The decimal `units * 10 ^ -places` is nearer to the size of `v` than to any other double. -/
def readsBack (v : Float) (units : Nat) (places : Int) : Bool :=
  let decimal := 4 * units * tenPow (-places).toNat * twoPow (-scale v).toNat
  let unit := tenPow places.toNat * twoPow (scale v).toNat
  if significand v % 2 = 0 then
    lowerQuarters v * unit ≤ decimal && decimal ≤ upperQuarters v * unit
  else
    lowerQuarters v * unit < decimal && decimal < upperQuarters v * unit

/-- The best decimal with this many digits that reads back, if there is one. -/
def candidate (v : Float) (digits : Nat) : Option Numeral :=
  let s : Int := (digits : Int) - 1 - floorLog10 (ratio v).1 (ratio v).2
  let num := (ratio v).1 * tenPow s.toNat
  let den := (ratio v).2 * tenPow (-s).toNat
  let low := num / den
  match readsBack v low s, readsBack v (low + 1) s with
  | true, true => some (.ofUnits (roundQuotient num den) s)
  | true, false => some (.ofUnits low s)
  | false, true => some (.ofUnits (low + 1) s)
  | false, false => none

/-- The shortest numeral for the size of a finite non-zero double; seventeen digits always suffice. -/
def round (v : Float) : Numeral :=
  ((List.range 16).findSome? (fun n => candidate v (n + 1))).getD (Significant.round v 17)

/-- Positional below `10 ^ 16`, with a fractional digit in every positional number. -/
def layout : Layout := ⟨16, ['.', '0']⟩

/-- The shortest text of `v`. -/
def text (v : Float) : List Char :=
  match exceptional v with
  | some word => word
  | none =>
    let body := if v == 0 then ['0', '.', '0'] else layout.render (round v)
    if isNegative v then '-' :: body else body

end DerivCalc.Decimal.Shortest
