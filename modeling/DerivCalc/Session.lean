import DerivCalc.Engine.Trace
import DerivCalc.Session.Command
import DerivCalc.Settings
import DerivCalc.Text.Letter
import DerivCalc.Text.Number

/-!
# Sessions

A session remembers a last expression and expressions saved under names, and
executes one command line at a time.

Executing a line yields the next session and either an answer or an error.  The
settings are consulted for diagnostics while an expression is read, and for the
precision of printed numbers at the moment of printing: a derivative or a printed
saved expression has become the last expression by then, whether it can be
printed or not.

The settings are loaded at these moments, and loading can end in a fault.
`execute` goes by settings that are loaded, and `executeUnder` also by a fault.
-/

namespace DerivCalc

/-- What a session remembers. -/
structure Session where
  /-- The last expression. -/
  last : Option Expr := none
  /-- The saved expressions by name, each name once. -/
  saved : List (String × Expr) := []
deriving DecidableEq

namespace Session

/-! ## Saved expressions -/

/-- Puts an expression under a name, in place of an earlier one. -/
def store (name : String) (e : Expr) : List (String × Expr) → List (String × Expr)
  | [] => [(name, e)]
  | (n, old) :: rest => if n = name then (n, e) :: rest else (n, old) :: store name e rest

/-- The expression that was stored under a name is found there. -/
theorem lookup_store_self (name : String) (e : Expr) (saved : List (String × Expr)) :
    (store name e saved).lookup name = some e := by
  induction saved with
  | nil => simp [store]
  | cons entry rest ih =>
      obtain ⟨n, old⟩ := entry
      simp only [store]
      split
      · rename_i hName
        simp [hName]
      · rename_i hName
        have hNe : (name == n) = false := beq_eq_false_iff_ne.mpr (Ne.symm hName)
        simp only [List.lookup_cons, hNe]
        exact ih

/-- Storing under one name leaves the others alone. -/
theorem lookup_store_of_ne {name other : String} (e : Expr) (saved : List (String × Expr))
    (h : other ≠ name) : (store name e saved).lookup other = saved.lookup other := by
  have hOther : (other == name) = false := beq_eq_false_iff_ne.mpr h
  induction saved with
  | nil => simp [store, h]
  | cons entry rest ih =>
      obtain ⟨n, old⟩ := entry
      simp only [store]
      split
      · rename_i hName
        subst hName
        simp [List.lookup_cons, hOther]
      · simp only [List.lookup_cons]
        rw [ih]

/-- The expression saved under a name. -/
def find? (s : Session) (name : String) : Option Expr := s.saved.lookup name

/-- The saved names in the order of their characters' code points. -/
def names (s : Session) : List String := (s.saved.map (·.1)).mergeSort (fun a b => a ≤ b)

/-! ## Arguments -/

/-- The last expression, without which most commands make no sense. -/
def requireLast (s : Session) : Except Error Expr :=
  match s.last with
  | some e => .ok e
  | none => .error .noExpression

/-- The first character of a word satisfies `p`. -/
def startsWith (p : Char → Bool) (word : String) : Bool := word.toList.head?.any p

/-- The name under which an expression is to be saved: one word that starts with a letter. -/
def newName (arguments : List String) : Except Error String :=
  match arguments with
  | [] => .error .emptyName
  | [name] => if startsWith Text.isLetter name then .ok name else .error .nameWithoutLetter
  | _ => .error .nameWithSpaces

/-- The expression that an optional name stands for, the last one without a name. -/
def chosen (s : Session) (last : Expr) (arguments : List String) : Except Error Expr :=
  match arguments with
  | [] => .ok last
  | [name] =>
    match s.find? name with
    | some e => .ok e
    | none => .error (.unknownName name)
  | _ => .error .nameWithSpaces

/-- The number that a word stands for. -/
def numberOf (word : String) : Except Error Float :=
  match Text.floatOfWord? word.toList with
  | some v => .ok v
  | none => .error .invalidQuery

/-- A word like `2f`, which starts with a digit and is no number. -/
def isDigitName (word : String) : Bool :=
  startsWith Text.isDigit word && (Text.floatOfWord? word.toList).isNone

/-- The expression and the place of a query: a number, or a name and a number. -/
def query (s : Session) (last : Expr) (arguments : List String) : Except Error (Expr × Float) :=
  if arguments.head?.any isDigitName then .error .nameWithDigit
  else
    match arguments with
    | [place] => do return (last, ← numberOf place)
    | [name, place] => do
      if startsWith Text.isDigit name then throw .invalidQuery
      let x ← numberOf place
      match s.find? name with
      | some e => return (e, x)
      | none => throw (.unknownName name)
    | _ => .error .invalidQuery

/-! ## Commands -/

/-- What a command leaves: the session after it, and an answer or an error. -/
abbrev Outcome := Session × Except Failure (Option String)

/-- A command that failed before it changed anything. -/
def fail (s : Session) (cause : Error) : Outcome := (s, .error (.ofError cause))

/-- Makes the result the last expression and prints it; without a result nothing changes. -/
def showLast (settings : Settings) (s : Session) (result : Except Error Expr) : Outcome :=
  match result with
  | .error cause => s.fail cause
  | .ok e =>
    let s := { s with last := some e }
    match settings.precision >>= fun p => Engine.print p e with
    | .ok text => (s, .ok (some text))
    | .error cause => s.fail cause

variable [Elementary]

/-- Reads an expression; it becomes the last one. -/
def enter (settings : Settings) (s : Session) (text : String) : Outcome :=
  match (Engine.Trace.parseWith settings.debug text).1 with
  | .ok e => ({ s with last := some e }, .ok none)
  | .error failure => (s, .error failure)

/-- Saves the last expression. -/
def save (s : Session) (arguments : List String) : Outcome :=
  match do
    let last ← s.requireLast
    let name ← newName arguments
    return (name, ← Engine.copy last) with
  | .ok (name, e) => ({ s with saved := store name e s.saved }, .ok none)
  | .error cause => s.fail cause

/-- The derivative of the last or a saved expression. -/
def derived (s : Session) (arguments : List String) : Except Error Expr := do
  let last ← s.requireLast
  Engine.derivative (← s.chosen last arguments)

/-- Differentiates the last or a saved expression; the derivative becomes the last one. -/
def differentiate (settings : Settings) (s : Session) (arguments : List String) : Outcome :=
  s.showLast settings (s.derived arguments)

/-- The value that a query asks for. -/
def valueOf (s : Session) (arguments : List String) : Except Error Float := do
  let last ← s.requireLast
  let (e, x) ← s.query last arguments
  Engine.evaluate e x

/-- The text of the value of the last or a saved expression. -/
def evaluate (settings : Settings) (s : Session) (arguments : List String) :
    Except Error String := do
  let value ← s.valueOf arguments
  Engine.formatNumber (← settings.precision) value

/-- The last expression, or a copy of a saved one. -/
def recalled (s : Session) (arguments : List String) : Except Error Expr := do
  let last ← s.requireLast
  let e ← s.chosen last arguments
  if arguments.isEmpty then return e else Engine.copy e

/-- Prints the last expression, or a saved one, which becomes the last one. -/
def print (settings : Settings) (s : Session) (arguments : List String) : Outcome :=
  s.showLast settings (s.recalled arguments)

/-- Executes a command. -/
def perform (settings : Settings) (s : Session) (command : Command) : Outcome :=
  match command with
  | .expr text => s.enter settings text
  | .save arguments => s.save arguments
  | .der arguments => s.differentiate settings arguments
  | .eval arguments =>
    match s.evaluate settings arguments with
    | .ok text => (s, .ok (some text))
    | .error cause => s.fail cause
  | .print arguments => s.print settings arguments

/-- Executes a command line. -/
def execute (settings : Settings) (s : Session) (line : String) : Outcome :=
  match Command.ofLine? line with
  | some command => s.perform settings command
  | none => s.fail .invalidCommand

/--
What is reported while a line is executed, if diagnostics are switched on: the
stages of reading an expression.
-/
def diagnostics (settings : Settings) (line : String) : List String :=
  match Command.ofLine? line with
  | some (.expr text) => (Engine.Trace.parseWith settings.debug text).2
  | _ => []

/-! ## Faults of loading -/

/-- How a line ends: in a result, or in a fault of loading the settings, which nothing handles. -/
inductive Ending where
  | result (result : Except Failure (Option String))
  | crash (fault : Json.Reader.Fault)

/--
A fault of loading while an expression is read or printed: one of nesting is taken for
one of the expression.
-/
def endingOf (fault : Json.Reader.Fault) (source : Option String) : Ending :=
  if fault.isDeep then .result (.error ⟨.tooDeep, source⟩) else .crash fault

/-- Makes the result the last expression, and comes to a fault before it is printed. -/
def showLastWithout (fault : Json.Reader.Fault) (s : Session) (result : Except Error Expr) :
    Session × Ending :=
  match result with
  | .error cause => (s, .result (.error (.ofError cause)))
  | .ok e => ({ s with last := some e }, endingOf fault none)

/-- Executes a command, with a fault wherever the settings would be loaded. -/
def performWithout (fault : Json.Reader.Fault) (s : Session) (command : Command) :
    Session × Ending :=
  match command with
  | .expr text =>
    match Engine.tokenize text with
    | .error cause => (s, .result (.error ⟨cause, some text⟩))
    | .ok _ => (s, endingOf fault (some text))
  | .save arguments => let (next, result) := s.save arguments; (next, .result result)
  | .der arguments => s.showLastWithout fault (s.derived arguments)
  | .eval arguments =>
    match s.valueOf arguments with
    | .error cause => (s, .result (.error (.ofError cause)))
    | .ok _ => (s, .crash fault)
  | .print arguments => s.showLastWithout fault (s.recalled arguments)

/-- Executes a command line under settings that are loaded whenever they are needed. -/
def executeUnder (loaded : Except Json.Reader.Fault Settings) (s : Session) (line : String) :
    Session × Ending :=
  match loaded with
  | .ok settings => let (next, result) := s.execute settings line; (next, .result result)
  | .error fault =>
    match Command.ofLine? line with
    | some command => s.performWithout fault command
    | none => (s, .result (.error (.ofError .invalidCommand)))

/-- What is reported while a line is executed; a fault comes before the first report. -/
def diagnosticsUnder (loaded : Except Json.Reader.Fault Settings) (line : String) :
    List String :=
  match loaded with
  | .ok settings => diagnostics settings line
  | .error _ => []

/-! ## Runs -/

/-- What one line of a run puts out: diagnostics, and then the answer or the text of the error. -/
structure Report where
  diagnostics : List String
  response : Option String

/--
Executes the lines in order; blank lines are skipped and errors are reported.
A fault of the program's own limits ends the run.
-/
def run (settings : Settings) (s : Session) : List String → List Report
  | [] => []
  | line :: rest =>
    if (Text.firstWord? line.toList).isNone then run settings s rest
    else
      match s.execute settings line with
      | (next, .ok answer) =>
        ⟨diagnostics settings line, answer⟩ :: run settings next rest
      | (next, .error failure) =>
        if failure.cause.isCrash then [⟨diagnostics settings line, none⟩]
        else
          ⟨diagnostics settings line, some failure.cause.message⟩ :: run settings next rest

end Session

end DerivCalc
