import DerivCalc.Json.Reader

/-!
# Limits of the JSON reader

A text can be JSON and still be more than the reader takes: an integer may have too many digits,
and arrays and objects may be nested too deep.  The reader goes through the text from its start
and ends in the first of these faults that it meets, unless it has found before that the text is
no JSON.
-/

namespace DerivCalc.Json.Reader

open DerivCalc.Text

/-- What the reader does not take. -/
inductive Fault where
  /-- An integer with too many digits. -/
  | longInteger (digits : Nat)
  /-- An array inside too many others. -/
  | deepArray
  /-- An object inside too many others. -/
  | deepObject
deriving DecidableEq, Repr

namespace Fault

/-- The text of a fault. -/
def message : Fault → String
  | longInteger digits => tooLongMessage digits
  | deepArray =>
    "maximum recursion depth exceeded while decoding a JSON array from a unicode string"
  | deepObject =>
    "maximum recursion depth exceeded while decoding a JSON object from a unicode string"

/-- The fault is one of nesting. -/
def isDeep : Fault → Bool
  | longInteger _ => false
  | deepArray => true
  | deepObject => true

end Fault

/-- The greatest count of arrays and objects inside each other. -/
def maxNesting : Nat := 980

/-- The fault of a number after its sign: an integer has too many digits. -/
def unsignedFault? (text : List Char) : Option Fault := do
  let (whole, afterWhole) ← splitWhole text
  let (fraction, afterFraction) := splitFraction afterWhole
  let (exponent, _) := splitExponent afterFraction
  if fraction.isNone && exponent.isNone && maxIntegerDigits < whole.length then
    some (.longInteger whole.length)
  else none

/-- The fault of the word or number at the start of a text. -/
def scalarFault? (text : List Char) : Option Fault :=
  if words.any fun (word, _) => (afterWord? word text).isSome then none
  else
    match text with
    | '-' :: rest => unsignedFault? rest
    | _ => unsignedFault? text

mutual

/--
The fault in the value at the start of a text.  As many levels are left as `levels` says, and
`fuel` is that of the reader.
-/
def valueFault? (levels fuel : Nat) (text : List Char) : Option Fault :=
  match fuel with
  | 0 => none
  | fuel + 1 =>
    match text with
    | '"' :: _ => none
    | '[' :: rest =>
      match levels, skipBlanks rest with
      | 0, _ => some .deepArray
      | _, ']' :: _ => none
      | levels + 1, rest => elementsFault? levels fuel rest
    | '{' :: rest =>
      match levels, skipBlanks rest with
      | 0, _ => some .deepObject
      | _, '}' :: _ => none
      | levels + 1, rest => membersFault? levels fuel rest
    | _ => scalarFault? text
termination_by structural fuel

/-- The first fault in the elements of an array. -/
def elementsFault? (levels fuel : Nat) (text : List Char) : Option Fault :=
  match fuel with
  | 0 => none
  | fuel + 1 =>
    match valueFault? levels fuel text with
    | some fault => some fault
    | none =>
      match (value fuel text).map fun (_, rest) => skipBlanks rest with
      | some (',' :: rest) => elementsFault? levels fuel (skipBlanks rest)
      | _ => none
termination_by structural fuel

/-- The first fault in the members of an object. -/
def membersFault? (levels fuel : Nat) (text : List Char) : Option Fault :=
  match fuel with
  | 0 => none
  | fuel + 1 =>
    match fieldFault? levels fuel text with
    | some fault => some fault
    | none =>
      match (field fuel text).map fun (_, _, rest) => skipBlanks rest with
      | some (',' :: rest) => membersFault? levels fuel (skipBlanks rest)
      | _ => none
termination_by structural fuel

/-- The fault in the value of a field. -/
def fieldFault? (levels fuel : Nat) (text : List Char) : Option Fault :=
  match fuel with
  | 0 => none
  | fuel + 1 =>
    match text with
    | '"' :: rest =>
      match (Text.decode rest).map fun (_, rest) => skipBlanks rest with
      | some (':' :: rest) => valueFault? levels fuel (skipBlanks rest)
      | _ => none
    | _ => none
termination_by structural fuel

end

/-- The fault in which the reader ends, if there is one. -/
def fault? (text : List Char) : Option Fault :=
  valueFault? maxNesting (3 * text.length + 1) (skipBlanks text)

end DerivCalc.Json.Reader
