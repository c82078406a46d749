import DerivCalc.Decimal.Binary
import DerivCalc.Text.Digit

/-!
# Words that are numbers

Numbers typed by a user are read more freely than number literals of a formula:
with a sign, with the digits of any script, with single underscores between
digits, without a digit on one side of the point, and with the words `inf`,
`infinity` and `nan` in any case.
-/

namespace DerivCalc.Text

/-! ## Runs of digits -/

/-- The digits that continue a run, and the rest; an underscore belongs to the run iff a digit follows it. -/
def digitRunTail : List Char → List Char × List Char
  | [] => ([], [])
  | [c] => if isAsciiDigit c then ([c], []) else ([], [c])
  | c :: d :: rest =>
    if isAsciiDigit c then
      let run := digitRunTail (d :: rest)
      (c :: run.1, run.2)
    else if c = '_' && isAsciiDigit d then
      let run := digitRunTail rest
      (d :: run.1, run.2)
    else ([], c :: d :: rest)

/-- A run of digits at the start of the text, and the rest. -/
def digitRun : List Char → List Char × List Char
  | [] => ([], [])
  | c :: rest =>
    if isAsciiDigit c then
      let run := digitRunTail rest
      (c :: run.1, run.2)
    else ([], c :: rest)

/-- The sign at the start of a number, true for minus, and the rest. -/
def splitSign : List Char → Bool × List Char
  | '-' :: rest => (true, rest)
  | '+' :: rest => (false, rest)
  | text => (false, text)

/-! ## Doubles -/

/-- The exponent that is the whole rest of a number, zero if nothing is left. -/
def exponentOf? : List Char → Option Int
  | [] => some 0
  | c :: rest =>
    if c = 'e' || c = 'E' then
      let (negative, body) := splitSign rest
      match digitRun body with
      | ([], _) => none
      | (digits, []) =>
        some (if negative then -(digitsValue digits : Int) else digitsValue digits)
      | _ => none
    else none

/-- The digits after a point, if a point comes next, and the rest. -/
def splitFraction : List Char → List Char × List Char
  | '.' :: rest => digitRun rest
  | text => ([], text)

/-- The value of an unsigned number with digits. -/
def unsignedFloat? (negative : Bool) (text : List Char) : Option Float :=
  let (whole, afterWhole) := digitRun text
  let (fraction, afterFraction) := splitFraction afterWhole
  if whole.isEmpty && fraction.isEmpty then none
  else
    (exponentOf? afterFraction).map fun exponent =>
      Decimal.Binary.ofDecimal negative (digitsValue (whole ++ fraction))
        (exponent - fraction.length)

/-- The double that a word without blanks stands for. -/
def floatOfWord? (word : List Char) : Option Float :=
  let (negative, body) := splitSign (word.map toAsciiDigit)
  let name := String.ofList (body.map Char.toLower)
  if name = "inf" || name = "infinity" then some (Decimal.Binary.infinity negative)
  else if name = "nan" then some Decimal.Binary.nan
  else unsignedFloat? negative body

/-! ## Integers -/

/-- Why a word is no integer. -/
inductive IntegerFault where
  /-- The word is not a sign and digits. -/
  | malformed
  /-- The word has too many digits. -/
  | tooLong (digits : Nat)
deriving DecidableEq, Repr

/-- The greatest count of digits of an integer in a text. -/
def maxIntegerDigits : Nat := 4300

/-- What is said of an integer with more digits. -/
def tooLongMessage (digits : Nat) : String :=
  "Exceeds the limit (" ++ toString maxIntegerDigits ++
    " digits) for integer string conversion: value has " ++ toString digits ++
    " digits; use sys.set_int_max_str_digits() to increase the limit"

/-- The integer that a word stands for. -/
def integerOfWord (word : List Char) : Except IntegerFault Int :=
  let (negative, body) := splitSign (word.map toAsciiDigit)
  let (digits, rest) := digitRun body
  if digits.isEmpty || rest.head? = some '_' then .error .malformed
  else if maxIntegerDigits < digits.length then .error (.tooLong digits.length)
  else if !rest.isEmpty then .error .malformed
  else .ok (if negative then -(digitsValue digits : Int) else digitsValue digits)

end DerivCalc.Text
