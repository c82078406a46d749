import DerivCalc.Text.Blank
import DerivCalc.Text.Letter
import DerivCalc.Text.Number
import DerivCalc.Text.Words
import DerivCalc.Token

/-!
# From text to tokens

`next` reads one token at the start of a text and returns the rest, which is
always shorter.  A token is the longest one that starts there:

* a number: digits, an optional fraction, an optional complete exponent;
* the variable: an `x` that no letter `A` to `Z` follows;
* a function: a whole run of such letters that is its name;
* an operator or a bracket: one character.

Blanks between tokens are skipped.  `tokenize` reads a whole text and afterwards
settles which minus signs are negations.
-/

namespace DerivCalc.Token.Lexer

open DerivCalc.Text

/-! ## Numbers -/

/-- The exponent at the start of the text, zero if there is no complete one, and the rest. -/
def splitExponent (text : List Char) : Int × List Char :=
  match text with
  | [] => (0, [])
  | c :: rest =>
    if c = 'e' || c = 'E' then
      let (negative, body) := splitSign rest
      let digits := body.takeWhile isAsciiDigit
      if digits.isEmpty then (0, text)
      else
        (if negative then -(digitsValue digits : Int) else digitsValue digits,
          body.dropWhile isAsciiDigit)
    else (0, text)

/-- The fractional digits at the start of the text, none if there is no point, and the rest. -/
def splitFraction : List Char → List Char × List Char
  | '.' :: rest => (rest.takeWhile isAsciiDigit, rest.dropWhile isAsciiDigit)
  | text => ([], text)

/-- The number at the start of a text that starts with a digit, and the rest. -/
def splitNumber (text : List Char) : Float × List Char :=
  let whole := text.takeWhile isAsciiDigit
  let (fraction, afterFraction) := splitFraction (text.dropWhile isAsciiDigit)
  let (exponent, rest) := splitExponent afterFraction
  (Decimal.Binary.ofDecimal false (digitsValue (whole ++ fraction))
    (exponent - fraction.length), rest)

/-! ## One token -/

/-- What stands at the start of a text. -/
inductive Step where
  /-- Nothing but blanks. -/
  | finished
  /-- A token, and what follows it. -/
  | token (t : Token) (rest : List Char)
  /-- No token; the run of letters or the single character there, and the text from there on. -/
  | invalid (fragment rest : List Char)
deriving DecidableEq

/-- The text that is left after a step. -/
def Step.rest : Step → List Char
  | finished => []
  | token _ rest => rest
  | invalid _ rest => rest

/-- The bracket that a character stands for. -/
def bracket? (c : Char) : Option Token :=
  if c = '(' then some .openBracket
  else if c = ')' then some .closeBracket
  else none

/-- The function name or bracket at the start of `c :: rest`. -/
def nextWord (c : Char) (rest : List Char) : Step :=
  let run := (c :: rest).takeWhile isAsciiLetter
  match Func.ofName? run with
  | some f => .token (.func f) ((c :: rest).dropWhile isAsciiLetter)
  | none =>
    match bracket? c with
    | some t => .token t rest
    | none => .invalid (if run.isEmpty then [c] else run) (c :: rest)

/-- The token at the start of `c :: rest`, where `c` is no blank. -/
def nextAt (c : Char) (rest : List Char) : Step :=
  if isAsciiDigit c then
    let (value, afterNumber) := splitNumber (c :: rest)
    .token (.number value) afterNumber
  else if c = 'x' && !rest.head?.any isAsciiLetter then .token .var rest
  else
    match Operator.ofSymbol? c with
    | some o => .token (.op o) rest
    | none => nextWord c rest

/-- The first token of a text. -/
def next (text : List Char) : Step :=
  match stripLeft text with
  | [] => .finished
  | c :: rest => nextAt c rest

/-! ## The rest is shorter -/

theorem length_dropWhile_le (p : Char → Bool) (l : List Char) :
    (l.dropWhile p).length ≤ l.length :=
  (List.dropWhile_sublist p).length_le

theorem length_dropWhile_cons_lt {p : Char → Bool} {c : Char} (rest : List Char)
    (h : p c = true) : ((c :: rest).dropWhile p).length < (c :: rest).length := by
  have hRest := length_dropWhile_le p rest
  rw [List.dropWhile_cons, if_pos h, List.length_cons]
  omega

theorem splitSign_length_le (text : List Char) : (splitSign text).2.length ≤ text.length := by
  unfold splitSign
  split <;> simp

theorem splitFraction_length_le (text : List Char) :
    (splitFraction text).2.length ≤ text.length := by
  unfold splitFraction
  split
  · rename_i rest
    have hRest := length_dropWhile_le isAsciiDigit rest
    simp only [List.length_cons]
    omega
  · simp

theorem splitExponent_length_le (text : List Char) :
    (splitExponent text).2.length ≤ text.length := by
  unfold splitExponent
  split
  · simp
  · rename_i c rest
    have hSign := splitSign_length_le rest
    have hDigits := length_dropWhile_le isAsciiDigit (splitSign rest).2
    simp only
    split
    · split
      · simp
      · simp only [List.length_cons]
        omega
    · simp

theorem splitNumber_length_lt {c : Char} {rest : List Char} (h : isAsciiDigit c = true) :
    (splitNumber (c :: rest)).2.length < (c :: rest).length := by
  have hWhole := length_dropWhile_cons_lt rest h
  have hFraction := splitFraction_length_le ((c :: rest).dropWhile isAsciiDigit)
  have hExponent :=
    splitExponent_length_le (splitFraction ((c :: rest).dropWhile isAsciiDigit)).2
  simp only [splitNumber]
  omega

theorem ne_nil_of_ofName? {run : List Char} {f : Func} (h : Func.ofName? run = some f) :
    run ≠ [] := by
  intro hNil
  subst hNil
  simp [Func.ofName?, Func.named, Func.name] at h

theorem nextWord_length_lt {c : Char} {rest tail : List Char} {t : Token}
    (h : nextWord c rest = .token t tail) : tail.length < (c :: rest).length := by
  simp only [nextWord] at h
  split at h
  · rename_i f hName
    injection h with _ hTail
    subst hTail
    have hRun := ne_nil_of_ofName? hName
    have hLetter : isAsciiLetter c = true := by
      by_cases hc : isAsciiLetter c = true
      · exact hc
      · simp [hc] at hRun
    exact length_dropWhile_cons_lt rest hLetter
  · split at h
    · injection h with _ hTail
      subst hTail
      simp
    · simp at h

theorem nextAt_length_lt {c : Char} {rest tail : List Char} {t : Token}
    (h : nextAt c rest = .token t tail) : tail.length < (c :: rest).length := by
  simp only [nextAt] at h
  split at h
  · rename_i hDigit
    injection h with _ hTail
    subst hTail
    exact splitNumber_length_lt hDigit
  · split at h
    · injection h with _ hTail
      subst hTail
      simp
    · split at h
      · injection h with _ hTail
        subst hTail
        simp
      · exact nextWord_length_lt h

/-- Reading a token leaves a shorter text. -/
theorem next_length_lt {text tail : List Char} {t : Token} (h : next text = .token t tail) :
    tail.length < text.length := by
  have hBlank := length_dropWhile_le isBlank text
  simp only [next, stripLeft] at h
  split at h
  · simp at h
  · rename_i c rest hBody
    have hTail := nextAt_length_lt h
    rw [hBody] at hBlank
    omega

/-! ## All tokens -/

/-- All steps up to the end of the text or the first place where no token starts. -/
def steps (text : List Char) : List Step :=
  match _hStep : next text with
  | .token t rest => .token t rest :: steps rest
  | step => [step]
termination_by text.length
decreasing_by exact next_length_lt _hStep

/-- The tokens of a text with every minus as an operator, or the fragment where no token starts. -/
def scan (text : List Char) : Except (List Char) (List Token) :=
  match _hStep : next text with
  | .finished => .ok []
  | .token t rest => (scan rest).map (t :: ·)
  | .invalid fragment _ => .error fragment
termination_by text.length
decreasing_by exact next_length_lt _hStep

/--
Makes each minus without a left operand a negation: the one that comes first, and
those that directly follow an opening bracket.  `opening` tells whether such a
place has been reached.
-/
def resolveMinus (opening : Bool) : List Token → List Token
  | [] => []
  | t :: rest =>
    (if opening && t = .op .sub then .func .neg else t) ::
      resolveMinus (t = .openBracket) rest

/-- The tokens of a text, or the fragment where no token starts. -/
def tokenize (text : List Char) : Except (List Char) (List Token) :=
  (scan text).map (resolveMinus true)

end DerivCalc.Token.Lexer
