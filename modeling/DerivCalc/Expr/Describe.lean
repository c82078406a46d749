import DerivCalc.Decimal.Shortest
import DerivCalc.Expr

/-!
# Tokens and expressions in diagnostics

Diagnostics show the structure of tokens and expressions, with every number in
its shortest text that reads back.
-/

namespace DerivCalc

/-- A number in diagnostics. -/
def describeNumber (v : Float) : String := String.ofList (Decimal.Shortest.text v)

/-- A token in diagnostics. -/
def Token.describe : Token → String
  | .number value => "Token(" ++ describeNumber value ++ ")"
  | .var => "Token('x')"
  | .openBracket => "Token('(')"
  | .closeBracket => "Token(')')"
  | .func f => "Token(" ++ f.name ++ ")"
  | .op o => "Token('" ++ o.symbol.toString ++ "')"

/-- A list of tokens in diagnostics. -/
def Token.describeList (tokens : List Token) : String :=
  "[" ++ ", ".intercalate (tokens.map Token.describe) ++ "]"

/-- An expression in diagnostics. -/
def Expr.describe : Expr → String
  | const _ value => "Constant(" ++ describeNumber value ++ ")"
  | var _ => "Variable('x')"
  | binary _ op left right =>
    "BinOp('" ++ op.symbol.toString ++ "', left=" ++ left.describe ++ ", right=" ++
      right.describe ++ ")"
  | apply _ f arg => "UnaryFunc('" ++ f.name ++ "', " ++ arg.describe ++ ")"

end DerivCalc
