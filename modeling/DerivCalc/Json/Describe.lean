import DerivCalc.Decimal.Shortest
import DerivCalc.Json
import DerivCalc.Json.Writer
import DerivCalc.Text.Quoted

/-!
# JSON values in diagnostics

Diagnostics and messages show values in a notation of their own: constants are
capitalised, strings stand in quotes of the diagnostics' kind, and a space
follows each comma and colon.
-/

namespace DerivCalc.Json

/-- A string in diagnostics. -/
def describeString (s : String) : List Char := Text.Quoted.encode s.toList

mutual

/-- The value in diagnostics. -/
def describe : Json → List Char
  | .null => "None".toList
  | .bool true => "True".toList
  | .bool false => "False".toList
  | .int i => Writer.integer i
  | .float v => Decimal.Shortest.text v
  | .str s => describeString s
  | .arr list => '[' :: describeElements list ++ [']']
  | .obj fields => '{' :: describeFields fields ++ ['}']

/-- Elements with commas between them. -/
def describeElements : List Json → List Char
  | [] => []
  | [e] => describe e
  | e :: rest => describe e ++ ',' :: ' ' :: describeElements rest

/-- Fields with commas between them. -/
def describeFields : List (String × Json) → List Char
  | [] => []
  | [(key, e)] => describeString key ++ ':' :: ' ' :: describe e
  | (key, e) :: rest =>
    describeString key ++ ':' :: ' ' :: describe e ++ ',' :: ' ' :: describeFields rest

end

/-- The value in a message: a string as it is, anything else as in diagnostics. -/
def plain : Json → List Char
  | .str s => s.toList
  | value => describe value

end DerivCalc.Json
