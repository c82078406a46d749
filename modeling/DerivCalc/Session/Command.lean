import DerivCalc.Text.Words

/-!
# Commands

A command is one line: a command word in small or capital letters, and what
follows it.
-/

namespace DerivCalc

/-- A command with what follows its word. -/
inductive Command where
  /-- Reads an expression. -/
  | expr (text : String)
  /-- Saves the last expression under a name. -/
  | save (arguments : List String)
  /-- Differentiates the last expression or a saved one. -/
  | der (arguments : List String)
  /-- Evaluates the last expression or a saved one. -/
  | eval (arguments : List String)
  /-- Prints the last expression or a saved one. -/
  | print (arguments : List String)
deriving DecidableEq, Repr

namespace Command

/--
The capital of a letter, as far as command words need it: besides the letters
`a` to `z`, only the dotless i and the long s have a capital that occurs in a
command word.
-/
def capital (c : Char) : Char :=
  if c = 'ı' then 'I' else if c = 'ſ' then 'S' else c.toUpper

/-- The word in capitals. -/
def capitals (word : List Char) : String := String.ofList (word.map capital)

/-- The command that a line stands for. -/
def ofLine? (line : String) : Option Command := do
  let (word, rest) ← Text.firstWord? line.toList
  let arguments := (Text.words rest).map String.ofList
  match capitals word with
  | "EXPR" => some (.expr (String.ofList rest))
  | "SAVE" => some (.save arguments)
  | "DER" => some (.der arguments)
  | "EVAL" => some (.eval arguments)
  | "PRINT" => some (.print arguments)
  | _ => none

end Command

end DerivCalc
