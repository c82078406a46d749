import DerivCalc.Json
import DerivCalc.Json.Text
import DerivCalc.Text.Number

/-!
# Reading JSON

A recursive reader.  Beyond the standard it takes `NaN`, `Infinity` and
`-Infinity` as numbers, and of several fields with one key it keeps the last
value in the first place.  A number with a fraction or an exponent is a double,
any other an integer.
-/

namespace DerivCalc.Json.Reader

open DerivCalc.Text

/-- The text without the blanks at its start. -/
def skipBlanks (text : List Char) : List Char :=
  text.dropWhile fun c => c == ' ' || c == '\t' || c == '\n' || c == '\r'

/-- The text after a fixed word. -/
def afterWord? (word : String) (text : List Char) : Option (List Char) :=
  if word.toList.isPrefixOf text then some (text.drop word.length) else none

/-! ## Numbers -/

/-- The integer digits of a number: a single zero, or digits that start with another one. -/
def splitWhole (text : List Char) : Option (List Char × List Char) :=
  match text with
  | '0' :: rest => some (['0'], rest)
  | c :: _ =>
    if isAsciiDigit c then some (text.takeWhile isAsciiDigit, text.dropWhile isAsciiDigit)
    else none
  | [] => none

/-- The digits of a fraction, if a complete one comes next. -/
def splitFraction (text : List Char) : Option (List Char) × List Char :=
  match text with
  | '.' :: rest =>
    let digits := rest.takeWhile isAsciiDigit
    if digits.isEmpty then (none, text) else (some digits, rest.dropWhile isAsciiDigit)
  | _ => (none, text)

/-- The exponent, if a complete one comes next. -/
def splitExponent (text : List Char) : Option Int × List Char :=
  match text with
  | [] => (none, [])
  | c :: rest =>
    if c = 'e' || c = 'E' then
      let (negative, body) := splitSign rest
      let digits := body.takeWhile isAsciiDigit
      if digits.isEmpty then (none, text)
      else
        (some (if negative then -(digitsValue digits : Int) else digitsValue digits),
          body.dropWhile isAsciiDigit)
    else (none, text)

/-- The number of the given parts. -/
def numberOfParts (negative : Bool) (whole : List Char) (fraction : Option (List Char))
    (exponent : Option Int) : Json :=
  match fraction, exponent with
  | none, none =>
    .int (if negative then -(digitsValue whole : Int) else digitsValue whole)
  | _, _ =>
    let digits := fraction.getD []
    .float (Decimal.Binary.ofDecimal negative (digitsValue (whole ++ digits))
      (exponent.getD 0 - digits.length))

/-- The number after its sign. -/
def unsigned (negative : Bool) (text : List Char) : Option (Json × List Char) := do
  let (whole, afterWhole) ← splitWhole text
  let (fraction, afterFraction) := splitFraction afterWhole
  let (exponent, rest) := splitExponent afterFraction
  return (numberOfParts negative whole fraction exponent, rest)

/-- The number at the start of a text. -/
def number (text : List Char) : Option (Json × List Char) :=
  match text with
  | '-' :: rest => unsigned true rest
  | _ => unsigned false text

/-! ## Values -/

/-- The words that stand for values. -/
def words : List (String × Json) :=
  [("null", .null), ("true", .bool true), ("false", .bool false),
   ("NaN", .float Decimal.Binary.nan), ("Infinity", .float (Decimal.Binary.infinity false)),
   ("-Infinity", .float (Decimal.Binary.infinity true))]

/-- The word or number at the start of a text. -/
def scalar (text : List Char) : Option (Json × List Char) :=
  match words.findSome? fun (word, value) => (afterWord? word text).map ((value, ·)) with
  | some result => some result
  | none => number text

mutual

/-- The value at the start of a text; `fuel` bounds the nesting and the count of elements. -/
def value (fuel : Nat) (text : List Char) : Option (Json × List Char) :=
  match fuel with
  | 0 => none
  | fuel + 1 =>
    match text with
    | '"' :: rest => (Text.decode rest).map fun (chars, rest) => (.str (String.ofList chars), rest)
    | '[' :: rest =>
      match skipBlanks rest with
      | ']' :: rest => some (.arr [], rest)
      | rest => (elements fuel rest).map fun (list, rest) => (.arr list, rest)
    | '{' :: rest =>
      match skipBlanks rest with
      | '}' :: rest => some (.obj [], rest)
      | rest => (members fuel rest).map fun (list, rest) => (.obj (Fields.override [] list), rest)
    | _ => scalar text

/-- The elements of an array up to its closing bracket; at least one. -/
def elements (fuel : Nat) (text : List Char) : Option (List Json × List Char) :=
  match fuel with
  | 0 => none
  | fuel + 1 => do
    let (first, rest) ← value fuel text
    match skipBlanks rest with
    | ']' :: rest => return ([first], rest)
    | ',' :: rest =>
      let (others, rest) ← elements fuel (skipBlanks rest)
      return (first :: others, rest)
    | _ => none

/-- The fields of an object up to its closing brace; at least one. -/
def members (fuel : Nat) (text : List Char) : Option (Fields × List Char) :=
  match fuel with
  | 0 => none
  | fuel + 1 => do
    let (key, value, rest) ← field fuel text
    match skipBlanks rest with
    | '}' :: rest => return ([(key, value)], rest)
    | ',' :: rest =>
      let (others, rest) ← members fuel (skipBlanks rest)
      return ((key, value) :: others, rest)
    | _ => none

/-- A key, a colon and a value. -/
def field (fuel : Nat) (text : List Char) : Option (String × Json × List Char) :=
  match fuel with
  | 0 => none
  | fuel + 1 =>
    match text with
    | '"' :: rest => do
      let (key, rest) ← Text.decode rest
      match skipBlanks rest with
      | ':' :: rest =>
        let (value, rest) ← value fuel (skipBlanks rest)
        return (String.ofList key, value, rest)
      | _ => none
    | _ => none

end

/-- The value that is the whole text. -/
def read (text : List Char) : Option Json := do
  let (result, rest) ← value (3 * text.length + 1) (skipBlanks text)
  if (skipBlanks rest).isEmpty then return result else none

end DerivCalc.Json.Reader
