import DerivCalc.Decimal.Shortest
import DerivCalc.Json
import DerivCalc.Json.Text

/-!
# Writing JSON

Two layouts of one value: `pretty` puts every element on a line of its own,
indented by four spaces per level, and `compact` writes everything on one line.
Doubles are written by their shortest text.
-/

namespace DerivCalc.Json.Writer

/-- The text of an integer. -/
def integer (i : Int) : List Char :=
  if i < 0 then '-' :: Nat.toDigits 10 i.natAbs else Nat.toDigits 10 i.natAbs

/-- The text of a double; the exceptional ones are written as words. -/
def double (v : Float) : List Char :=
  if v.isNaN then "NaN".toList
  else if v.isInf then
    if Decimal.Binary.isNegative v then "-Infinity".toList else "Infinity".toList
  else Decimal.Shortest.text v

/-- The start of a line at the given level. -/
def newLine (level : Nat) : List Char := '\n' :: List.replicate (4 * level) ' '

mutual

/-- The value over several lines; lines inside it are indented below `level`. -/
def pretty (level : Nat) : Json → List Char
  | .null => "null".toList
  | .bool true => "true".toList
  | .bool false => "false".toList
  | .int i => integer i
  | .float v => double v
  | .str s => Text.encode s.toList
  | .arr [] => ['[', ']']
  | .arr (e :: rest) =>
    '[' :: newLine (level + 1) ++ pretty (level + 1) e ++ prettyElements (level + 1) rest ++
      newLine level ++ [']']
  | .obj [] => ['{', '}']
  | .obj ((key, e) :: rest) =>
    '{' :: newLine (level + 1) ++ Text.encode key.toList ++ ':' :: ' ' ::
      pretty (level + 1) e ++ prettyFields (level + 1) rest ++ newLine level ++ ['}']

/-- The elements after the first one. -/
def prettyElements (level : Nat) : List Json → List Char
  | [] => []
  | e :: rest => ',' :: newLine level ++ pretty level e ++ prettyElements level rest

/-- The fields after the first one. -/
def prettyFields (level : Nat) : List (String × Json) → List Char
  | [] => []
  | (key, e) :: rest =>
    ',' :: newLine level ++ Text.encode key.toList ++ ':' :: ' ' :: pretty level e ++
      prettyFields level rest

end

mutual

/-- The value on one line. -/
def compact : Json → List Char
  | .null => "null".toList
  | .bool true => "true".toList
  | .bool false => "false".toList
  | .int i => integer i
  | .float v => double v
  | .str s => Text.encode s.toList
  | .arr list => '[' :: compactElements list ++ [']']
  | .obj fields => '{' :: compactFields fields ++ ['}']

/-- Elements with commas between them. -/
def compactElements : List Json → List Char
  | [] => []
  | [e] => compact e
  | e :: rest => compact e ++ ',' :: compactElements rest

/-- Fields with commas between them. -/
def compactFields : List (String × Json) → List Char
  | [] => []
  | [(key, e)] => Text.encode key.toList ++ ':' :: compact e
  | (key, e) :: rest =>
    Text.encode key.toList ++ ':' :: compact e ++ ',' :: compactFields rest

end

/-- The content of a file that holds the value. -/
def file (value : Json) : String := String.ofList (pretty 0 value)

end DerivCalc.Json.Writer
