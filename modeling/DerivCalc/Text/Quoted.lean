import DerivCalc.Text.Printable

/-!
# Quoted texts

A quoted text stands in single quotes, or in double quotes if it holds a single
quote and no double quote.  Backslashes and the quote itself are escaped, and so
is every character without a visible form.
-/

namespace DerivCalc.Text.Quoted

/-- The last `width` hexadecimal digits of `n`, with small letters. -/
def hexDigits : (width n : Nat) → List Char
  | 0, _ => []
  | width + 1, n => hexDigits width (n / 16) ++ [Nat.digitChar (n % 16)]

/-- The quote that a text is put in. -/
def mark (text : List Char) : Char :=
  if text.contains '\'' && !text.contains '"' then '"' else '\''

/-- A character by its code point, in as many digits as it needs: two, four or eight. -/
def encodeCode (n : Nat) : List Char :=
  if n < 0x100 then '\\' :: 'x' :: hexDigits 2 n
  else if n < 0x10000 then '\\' :: 'u' :: hexDigits 4 n
  else '\\' :: 'U' :: hexDigits 8 n

/-- A character as it stands between the given quotes. -/
def encodeChar (quote c : Char) : List Char :=
  if c = quote || c = '\\' then ['\\', c]
  else if c = '\n' then ['\\', 'n']
  else if c = '\r' then ['\\', 'r']
  else if c = '\t' then ['\\', 't']
  else if isPrintable c then [c]
  else encodeCode c.toNat

/-- The text in quotes. -/
def encode (text : List Char) : List Char :=
  mark text :: text.flatMap (encodeChar (mark text)) ++ [mark text]

end DerivCalc.Text.Quoted
