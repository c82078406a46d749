import DerivCalc.Engine
import DerivCalc.Expr.Describe

/-!
# Diagnostics of the engine

What the engine reports about its stages if diagnostics are switched on.  A
stage that fails reports nothing, and no later stage does.

The report on the finished expression walks over it once more, with more calls
for each level than any other walk.  So reading a text can fail by its report.
-/

namespace DerivCalc.Engine.Trace

/-- The report on the tokens of a text. -/
def tokens (list : List Token) : List String := ["Tokens: " ++ Token.describeList list]

/-- The report on a post-order listing. -/
def listing (list : List Token) : List String := ["Postfix: " ++ Token.describeList list]

/-- The greatest number of levels of an expression that is described: each level takes three calls. -/
def maxLevels : Nat := Engine.maxLevels / 3

/-- The report on a finished expression; its title comes first and is there in any case. -/
def expression (e : Expr) : List String :=
  if e.depth ≤ maxLevels then ["Final AST:", e.describe] else ["Final AST:"]

/-- The report on reading the tokens of a text. -/
def tokenize (text : String) : List String :=
  match Engine.tokenize text with
  | .ok list => tokens list
  | .error _ => []

/-- The report on reordering tokens. -/
def reorder (list : List Token) : List String :=
  match Token.PostOrder.ofInfix list with
  | .ok list => listing list
  | .error _ => []

/-- The report on reading a text and reordering its tokens. -/
def tokenizeAndReorder (text : String) : List String :=
  match Engine.tokenize text with
  | .ok list => tokens list ++ reorder list
  | .error _ => []

variable [Elementary]

/-- The report on building an expression from a post-order listing. -/
def build (list : List Token) : List String :=
  match Engine.build list with
  | .ok e => expression e
  | .error _ => []

/-- The report on parsing a text. -/
def parse (text : String) : List String :=
  tokenizeAndReorder text ++
    (match Engine.parse text with
     | .ok e => expression e
     | .error _ => [])

/--
Parses a text, with a report if diagnostics are switched on: then an expression that cannot be
described is an error as well.
-/
def parseWith (debug : Bool) (text : String) : Except Failure Expr × List String :=
  if debug then
    (match Engine.parse text with
     | .ok e => if e.depth ≤ maxLevels then .ok e else .error ⟨.tooDeep, some text⟩
     | .error failure => .error failure,
     parse text)
  else (Engine.parse text, [])

end DerivCalc.Engine.Trace
