/-!
# Style sheets

The style sheets of the window, of its buttons, and of the boxes it opens, in
ordinary and in dark colours.
-/

namespace DerivCalc.Window.Style

/-- A rule of a style sheet: what it applies to, and its declarations. -/
structure Rule where
  selector : String
  declarations : List String

/-- The given count of spaces. -/
def spaces (count : Nat) : String := String.ofList (List.replicate count ' ')

/-- A rule on one line. -/
def Rule.line (rule : Rule) : String :=
  rule.selector ++ " \x7b" ++ String.join rule.declarations ++ "\x7d"

/-- A rule with each declaration on its own line, four spaces further in. -/
def Rule.block (indent : Nat) (rule : Rule) : String :=
  "\n" ++ spaces indent ++ rule.selector ++ " \x7b" ++
    String.join (rule.declarations.map fun d => "\n" ++ spaces (indent + 4) ++ d) ++
    "\n" ++ spaces indent ++ "\x7d"

/-! ## The settings dialog -/

/-- The dark colours of the settings dialog. -/
def dialogRules : List Rule :=
  [⟨"QDialog", ["background-color: #121212;"]⟩,
   ⟨"QLabel", ["color: white;"]⟩,
   ⟨"QCheckBox", ["color: white;"]⟩,
   ⟨"QLineEdit", ["background-color: #444444;", "color: white;", "border: 1px solid #666666;"]⟩,
   ⟨"QDialogButtonBox QPushButton", ["background-color: #666666;", "color: white;"]⟩]

/-- The style sheet of the settings dialog. -/
def dialog (dark : Bool) : String :=
  if dark then String.join (dialogRules.map fun rule => "\n" ++ spaces 24 ++ rule.line) else ""

/-! ## Message boxes -/

/-- The dark colours of a message box. -/
def messageBoxRules : List Rule :=
  [⟨"QMessageBox", ["background-color: #121212;", "color: white;"]⟩,
   ⟨"QLabel", ["color: white;"]⟩,
   ⟨"QPushButton", ["background-color: #2e2e2e;", "color: white;", "border: 1px solid #444444;",
     "padding: 5px 15px;"]⟩]

/-- The style sheet of a message box. -/
def messageBox (dark : Bool) : String :=
  if dark then String.join (messageBoxRules.map (Rule.block 16)) ++ "\n" ++ spaces 12 else ""

/-! ## The window -/

/-- The style sheet of the window itself. -/
def window (dark : Bool) : String := if dark then "background-color: #121212;" else ""

/-- The style sheet of the history. -/
def history (dark : Bool) : String :=
  if dark then "background-color: #121212; color: white;" else ""

/-- The style sheet of the input line. -/
def input (dark : Bool) : String :=
  if dark then "background-color: #2e2e2e; color: white;" else ""

/-- The style sheet of every button except the one that runs commands. -/
def button (dark : Bool) : String :=
  if dark then "background-color: #121212; color: white; font-weight: bold;"
  else "font-weight: normal;"

/-- The style sheet of the button that runs commands: red while one is running. -/
def runButton (active : Bool) : String :=
  if active then "background-color: #FF0000; color: white; font-weight: bold;"
  else "background-color: #007bff; color: white; font-weight: bold;"

end DerivCalc.Window.Style
