import DerivCalc.Text.Quoted

/-!
# JSON strings

Strings are written with ASCII characters only.  A character outside the basic
plane is written as two escapes, its surrogates.  Reading goes the other way in
two steps: from characters to pieces, each a plain character or an escaped code
unit, and from pieces to characters.
-/

namespace DerivCalc.Json.Text

/-! ## Writing -/

/-- A code unit as an escape. -/
def unitEscape (unit : Nat) : List Char := '\\' :: 'u' :: Text.Quoted.hexDigits 4 unit

/-- A character as it stands in a written string. -/
def encodeChar (c : Char) : List Char :=
  if c = '"' then ['\\', '"']
  else if c = '\\' then ['\\', '\\']
  else if c = '\n' then ['\\', 'n']
  else if c = '\r' then ['\\', 'r']
  else if c = '\t' then ['\\', 't']
  else if c = '\x08' then ['\\', 'b']
  else if c = '\x0c' then ['\\', 'f']
  else if ' ' ≤ c && c ≤ '~' then [c]
  else if c.toNat < 0x10000 then unitEscape c.toNat
  else
    let offset := c.toNat - 0x10000
    unitEscape (0xD800 + offset / 0x400) ++ unitEscape (0xDC00 + offset % 0x400)

/-- A string in double quotes. -/
def encode (text : List Char) : List Char := '"' :: text.flatMap encodeChar ++ ['"']

/-! ## Reading -/

/-- A part of a string as it is written. -/
inductive Piece where
  /-- A character that stands for itself, or one with an escape of its own. -/
  | char (c : Char)
  /-- A code unit escaped by its number. -/
  | unit (n : Nat)
deriving DecidableEq

/-- The value of a hexadecimal digit. -/
def hexDigit? (c : Char) : Option Nat :=
  if '0' ≤ c && c ≤ '9' then some (c.toNat - '0'.toNat)
  else if 'a' ≤ c && c ≤ 'f' then some (c.toNat - 'a'.toNat + 10)
  else if 'A' ≤ c && c ≤ 'F' then some (c.toNat - 'A'.toNat + 10)
  else none

/-- The value of a run of hexadecimal digits. -/
def hexValue? (digits : List Char) : Option Nat :=
  digits.foldlM (fun n c => (hexDigit? c).map (16 * n + ·)) 0

/-- The character with this one-letter escape. -/
def shortEscape? (c : Char) : Option Char :=
  match c with
  | '"' => some '"'
  | '\\' => some '\\'
  | '/' => some '/'
  | 'b' => some '\x08'
  | 'f' => some '\x0c'
  | 'n' => some '\n'
  | 'r' => some '\r'
  | 't' => some '\t'
  | _ => none

/-- The pieces up to the closing quote and the text after it; control characters are refused. -/
def pieces : List Char → Option (List Piece × List Char)
  | [] => none
  | '"' :: rest => some ([], rest)
  | '\\' :: 'u' :: a :: b :: c :: d :: rest => do
    let n ← hexValue? [a, b, c, d]
    let (tail, rest) ← pieces rest
    return (.unit n :: tail, rest)
  | '\\' :: e :: rest => do
    let c ← shortEscape? e
    let (tail, rest) ← pieces rest
    return (.char c :: tail, rest)
  | c :: rest => do
    if c < ' ' then failure
    let (tail, rest) ← pieces rest
    return (.char c :: tail, rest)

/-- A code unit on its own; half of a surrogate pair is no character and is replaced. -/
def unitChar (n : Nat) : Char := if 0xD800 ≤ n && n < 0xE000 then '\uFFFD' else Char.ofNat n

/-- The characters of the pieces, with surrogate pairs joined. -/
def join : List Piece → List Char
  | [] => []
  | .unit high :: .unit low :: rest =>
    if 0xD800 ≤ high && high < 0xDC00 && 0xDC00 ≤ low && low < 0xE000 then
      Char.ofNat (0x10000 + (high - 0xD800) * 0x400 + (low - 0xDC00)) :: join rest
    else unitChar high :: join (.unit low :: rest)
  | .unit n :: rest => unitChar n :: join rest
  | .char c :: rest => c :: join rest

/-- The string whose opening quote has been read, and the text after its closing quote. -/
def decode (text : List Char) : Option (List Char × List Char) :=
  (pieces text).map fun (parts, rest) => (join parts, rest)

end DerivCalc.Json.Text
