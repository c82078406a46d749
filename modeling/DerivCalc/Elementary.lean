import DerivCalc.Decimal.Binary
import DerivCalc.Operator

/-!
# Elementary functions on doubles

Sine, cosine, tangent, logarithm and power of doubles come from a mathematical
library whose results are not fixed by a formula.  They are a parameter here, so
that a statement about values says what it needs of them; everything else is
decided in this file, with infinities and NaN as IEEE 754 has them.
-/

namespace DerivCalc

open Decimal.Binary

/-- The functions that a mathematical library for doubles supplies. -/
class Elementary where
  sin : Float → Float
  cos : Float → Float
  tan : Float → Float
  log : Float → Float
  pow : Float → Float → Float

namespace Elementary

variable [Elementary]

/-- A periodic function has no value at infinity. -/
def periodic (f : Float → Float) (v : Float) : Float := if v.isInf then nan else f v

/-- The cotangent is the reciprocal of the tangent. -/
def cotangent (v : Float) : Float := 1.0 / periodic tan v

/-- The natural logarithm: negative infinity at both zeros, no value below them. -/
def naturalLog (v : Float) : Float :=
  if v == 0 then infinity true
  else if v < 0 || v.isNaN then nan
  else log v

/--
The power of a double.

The sign of an infinite result is settled here: of a negative power of zero it
is the sign of that zero for odd integers and plus otherwise, and where finite
operands overflow it is minus iff the base is negative and the exponent an odd
integer.
-/
def power (base exponent : Float) : Float :=
  if base == 0 && exponent < 0 then infinity (isNegative base && isOddInteger exponent)
  else
    let result := pow base exponent
    if base.isFinite && exponent.isFinite && result.isInf then
      infinity (base < 0 && isOddInteger exponent)
    else result

end Elementary

variable [Elementary]

/-- The value of a function. -/
def Func.apply (f : Func) (v : Float) : Float :=
  match f with
  | .sin => Elementary.periodic Elementary.sin v
  | .cos => Elementary.periodic Elementary.cos v
  | .tan => Elementary.periodic Elementary.tan v
  | .cot => Elementary.cotangent v
  | .neg => -v
  | .ln => Elementary.naturalLog v

/-- The value of an operator; a division by zero is infinite, or NaN for `0 / 0`. -/
def Operator.apply (op : Operator) (v w : Float) : Float :=
  match op with
  | .add => v + w
  | .sub => v - w
  | .mul => v * w
  | .div => v / w
  | .pow => Elementary.power v w

end DerivCalc
