import DerivCalc.Launcher
import DerivCalc.Window

/-!
# The window on its desktop

The window together with what surrounds it: the settings files and the
clipboard.  An `Action` is one turn of the user, whose parts happen in a fixed
order.
-/

namespace DerivCalc.Window

/-- The window, the settings files and the clipboard. -/
structure Desktop where
  files : SettingsFiles
  clipboard : String := ""
  window : Window

/-- What the user clicks on. -/
inductive Click where
  | command (button : CommandButton)
  | clipboard
  | settings
  | run
deriving DecidableEq, Repr

/-- The click on the button with this name. -/
def Click.ofName? (name : String) : Option Click :=
  match CommandButton.all.find? fun button => button.word == name with
  | some button => some (.command button)
  | none =>
    match name with
    | "Copy" => some .clipboard
    | "Settings" => some .settings
    | "Run" => some .run
    | _ => none

/-- One turn of the user; the parts happen in the order of the fields. -/
structure Action where
  shift : Bool := false
  /-- A text comes into the clipboard. -/
  clipboard : Option String := none
  /-- The settings file gets a new text. -/
  settingsFile : Option String := none
  /-- The directory of the settings files is deleted. -/
  removesDirectory : Bool := false
  /-- The input line gets a new text. -/
  typed : Option String := none
  click : Option Click := none
  /-- What is done in the settings dialog, if the click opens it. -/
  dialog : List DialogAction := []
  /-- The return key is pressed. -/
  enter : Bool := false
  /-- The results that wait are delivered at the end. -/
  waits : Bool := true

namespace Desktop

/-- The desktop after its surroundings have changed as the action says. -/
def prepare (d : Desktop) (action : Action) : Desktop :=
  let clipboard := action.clipboard.getD d.clipboard
  let files := match action.settingsFile with
    | some text => d.files.write text
    | none => d.files
  let files := if action.removesDirectory then files.removeDirectory else files
  { d with clipboard, files }

/-- The events of a click; a command that is launched is executed at once. -/
def clickEvents (clipboard : String) (action : Action) : Click → List Event
  | .command button => [.command button]
  | .clipboard => if action.shift then [.paste clipboard, .work] else [.copy]
  | .settings => [.openSettings action.dialog]
  | .run => [.run, .work]

/-- The events of a turn. -/
def events (clipboard : String) (action : Action) : List Event :=
  (action.typed.map Event.type).toList ++
    action.click.toList.flatMap (clickEvents clipboard action) ++
    (if action.enter then [.run, .work] else []) ++
    (if action.waits then [.deliver] else [])

variable [Elementary]

/-- The events in order. -/
def stepAll (d : Desktop) : List Event → Desktop × Effects
  | [] => (d, {})
  | event :: rest =>
    let (files, window, effects) := d.window.step d.files event
    let (d, later) := stepAll { d with files, window } rest
    (d, effects ++ later)

/-- One turn of the user. -/
def perform (d : Desktop) (action : Action) : Desktop × Effects :=
  let d := d.prepare action
  d.stepAll (events d.clipboard action)

/-- The desktop after the window has opened, which it does if the settings can be loaded. -/
def opening (files : SettingsFiles) : Desktop := { files, window := .opening files.load }

/-- The desktop and the effects after each turn. -/
def run (d : Desktop) : List Action → List (Desktop × Effects)
  | [] => []
  | action :: rest =>
    let turn := d.perform action
    turn :: run turn.1 rest

/-- What is reported on standard output during a whole run of the window. -/
def output (files : SettingsFiles) (turns : List (Desktop × Effects)) : String :=
  Launcher.unlines
    (Launcher.settingsReport files.load ++ turns.flatMap fun turn => turn.2.diagnostics)

end Desktop

end DerivCalc.Window
