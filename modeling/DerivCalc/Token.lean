import DerivCalc.Operator

/-!
# Tokens

The units of a formula: numbers, the variable `x`, round brackets, functions and
operators.
-/

namespace DerivCalc

/-- A unit of a formula. -/
inductive Token where
  | number (value : Float)
  | var
  | openBracket
  | closeBracket
  | func (f : Func)
  | op (o : Operator)
deriving DecidableEq

namespace Token

/-- Equality with numbers compared by value: zeros of both signs are the same, and NaN differs from itself. -/
def same : Token → Token → Bool
  | number v, number w => v == w
  | var, var => true
  | openBracket, openBracket => true
  | closeBracket, closeBracket => true
  | func f, func g => f == g
  | op o, op p => o == p
  | _, _ => false

end Token

end DerivCalc
