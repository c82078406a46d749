import DerivCalc.Expr.Build
import DerivCalc.Expr.Derivative
import DerivCalc.Expr.Eval
import DerivCalc.Expr.Print
import DerivCalc.Token.Lexer
import DerivCalc.Token.PostOrder

/-!
# The engine

From a text to its simplified expression, and the operations on expressions
within the engine's limits.  Every walk over an expression takes a bounded
number of levels; an expression with more levels is an error and nothing else
happens.
-/

namespace DerivCalc.Engine

/-! ## Limits -/

/-- The greatest number of levels that a walk over an expression takes. -/
def maxLevels : Nat := 980

/-- The greatest number of levels of an expression that is differentiated: each level is entered twice. -/
def maxDerivativeLevels : Nat := 485

/-- The greatest precision that numbers can be formatted with. -/
def maxPrecision : Nat := 2147483647

/-- The greatest precision that can be asked for at all. -/
def maxPrecisionWord : Nat := 9223372036854775807

/-- The expression, if a walk can reach all of its levels. -/
def within (limit : Nat) (e : Expr) : Except Error Expr :=
  if e.depth ≤ limit then .ok e else .error .tooDeep

theorem within_eq_ok_iff {limit : Nat} {e result : Expr} :
    within limit e = .ok result ↔ e.depth ≤ limit ∧ result = e := by
  unfold within
  split
  · rename_i hDepth
    simp [hDepth, eq_comm]
  · rename_i hDepth
    simp [hDepth]

/-! ## Reading -/

/-- The tokens of a text. -/
def tokenize (text : String) : Except Error (List Token) :=
  match Token.Lexer.tokenize text.toList with
  | .ok tokens => .ok tokens
  | .error fragment => .error (.invalidToken (String.ofList fragment))

/-- The expression of a text as it is written. -/
def read (text : String) : Except Error Expr := do
  let tokens ← tokenize text
  let listing ← Token.PostOrder.ofInfix tokens
  Expr.ofPostOrder listing

variable [Elementary]

/-- The simplified expression of a post-order listing. -/
def build (listing : List Token) : Except Error Expr := do
  let e ← Expr.ofPostOrder listing
  return e.simplify

/-- The simplified expression of a text; an error carries the text. -/
def parse (text : String) : Except Failure Expr :=
  match read text >>= within maxLevels with
  | .ok e => .ok e.simplify
  | .error cause => .error ⟨cause, some text⟩

/-! ## Operations -/

/-- The value at `x`. -/
def evaluate (e : Expr) (x : Float) : Except Error Float :=
  (within maxLevels e).map (Expr.eval x)

/-- The simplified derivative. -/
def derivative (e : Expr) : Except Error Expr :=
  (within maxDerivativeLevels e).map Expr.derivative

/-- The simplified form. -/
def simplify (e : Expr) : Except Error Expr :=
  (within maxLevels e).map Expr.simplify

/-- A second copy, which a later change of the first does not reach. -/
def copy (e : Expr) : Except Error Expr := within maxLevels e

/-- The value of the operator that is written with this sign. -/
def applyOperator (symbol : String) (v w : Float) : Except Error Float :=
  match symbol.toList with
  | [c] =>
    match Operator.ofSymbol? c with
    | some op => .ok (op.apply v w)
    | none => .error (.unknownOperator symbol)
  | _ => .error (.unknownOperator symbol)

/-- Numbers can be formatted with this precision. -/
def checkPrecision (precision : Nat) : Except Error Unit :=
  if maxPrecisionWord < precision then .error .precisionTooWide
  else if maxPrecision < precision then .error .precisionTooBig
  else .ok ()

/-- The text of a number. -/
def formatNumber (precision : Nat) (v : Float) : Except Error String := do
  checkPrecision precision
  return String.ofList (Decimal.Significant.text v precision)

/-- The text of an expression; the precision matters only if there is a number in it. -/
def print (precision : Nat) (e : Expr) : Except Error String := do
  let e ← within maxLevels e
  if e.hasNumber then checkPrecision precision
  return String.ofList (e.print precision)

end DerivCalc.Engine
