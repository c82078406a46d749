import DerivCalc.Session
import DerivCalc.Window.Dialog

/-!
# The window

The window has a history, an input line and a row of buttons.  A command that is
launched goes to a worker, which executes it at some moment under the settings
files of that moment.  Its result reaches the window only when it is delivered;
until then the window refuses to launch another one.

Events change the window, and whatever else the user gets to see or hear of is
collected in `Effects`.
-/

namespace DerivCalc

namespace Window

/-! ## Parts -/

/-- A button that puts a command word into the input line. -/
inductive CommandButton where
  | der
  | print
  | eval
  | save
deriving DecidableEq, Repr

namespace CommandButton

/-- All of them, in the order in which they stand. -/
def all : List CommandButton := [der, print, eval, save]

/-- The command word, which is also the text of the button. -/
def word : CommandButton → String
  | der => "DER"
  | print => "PRINT"
  | eval => "EVAL"
  | save => "SAVE"

end CommandButton

/-- A command that was executed, and how it ended. -/
structure Job where
  line : String
  ending : Session.Ending

/-- The settings dialog of an event: as it opened, and as it was when it closed. -/
structure DialogReport where
  opened : Dialog
  closed : Dialog

/-- What an event brings about besides the change of the window. -/
structure Effects where
  boxes : List Box := []
  copied : List String := []
  dialogs : List DialogReport := []
  diagnostics : List String := []

instance : Append Effects where
  append a b :=
    ⟨a.boxes ++ b.boxes, a.copied ++ b.copied, a.dialogs ++ b.dialogs,
      a.diagnostics ++ b.diagnostics⟩

end Window

/-- The state of the window. -/
structure Window where
  /-- The settings as they were loaded last: at the start or when the dialog closed. -/
  settings : Settings
  session : Session := {}
  /-- The latest response. -/
  lastOutput : String := ""
  /-- A launched command has not been delivered yet. -/
  active : Bool := false
  /-- The lines of the commands that have not reported back. -/
  workers : List String := []
  /-- The lines that workers have not executed yet. -/
  atWork : List String := []
  /-- The results that wait to be delivered. -/
  pending : List Window.Job := []
  /-- The text of the button that runs commands. -/
  runText : String := "Run"
  /-- The style sheet of the button that runs commands. -/
  runStyle : String := Window.Style.runButton false
  input : String := ""
  /-- The paragraphs of the history. -/
  history : List String := []

namespace Window

/-- A step of the user, of a worker, or the arrival of a result. -/
inductive Event where
  /-- The input line is replaced. -/
  | type (text : String)
  /-- A button with a command word. -/
  | command (button : CommandButton)
  /-- The clipboard button. -/
  | copy
  /-- The clipboard button with the shift key, with this text in the clipboard. -/
  | paste (clipboard : String)
  /-- The button that runs the command, or the return key. -/
  | run
  /-- The settings dialog, with what is done in it. -/
  | openSettings (actions : List DialogAction)
  /-- A worker executes the line that was launched. -/
  | work
  /-- The results that wait are delivered. -/
  | deliver

/-! ## Appearance -/

/-- The title of the window. -/
def title : String := "Derivative Calculator"

/-- The width and height of the window. -/
def size : Nat × Nat := (520, 420)

/-- The title of the settings dialog. -/
def dialogTitle : String := "Calculator Settings"

/-- The smallest width and height of the settings dialog. -/
def dialogSize : Nat × Nat := (300, 200)

/-- The controls of the window as it opens. -/
def layout : List Row :=
  [.single (.textArea ""),
   .single (.lineEdit "" "EXPR sin(x) * x ^ 2"),
   .group (CommandButton.all.map (fun button => .button button.word none) ++
     [.button "Copy" (some "Copy last output (Shift: paste into the input line)"),
      .button "Settings" none, .button "Run" none])]

/-- The style sheets of the parts of the window, by the name of the part. -/
def styles (w : Window) : List (String × String) :=
  let dark := w.settings.darkmode
  [("window", Style.window dark), ("history", Style.history dark), ("input", Style.input dark)] ++
    (CommandButton.all.map CommandButton.word ++ ["Copy", "Settings"]).map
      (fun name => (name, Style.button dark)) ++
    [("Run", w.runStyle)]

/-- What the box for an error shows: its code and message, and the text it was found in. -/
structure Shown where
  code : String
  message : String
  source : Option String
deriving DecidableEq, Repr

/-- What is shown for an error of a command; a fault of the program's limits is shown with its line. -/
def shownFailure (line : String) (failure : Failure) : Shown where
  code := failure.cause.code
  message := failure.cause.message
  source := if failure.cause.isCrash then some line else failure.source

/-- The box for an error. -/
def errorBox (w : Window) (shown : Shown) : Box where
  title := "Calculation error"
  text := "Error " ++ shown.code ++ ": " ++ shown.message
  details :=
    some ("Input: " ++ shown.source.getD "None", Style.messageBox w.settings.darkmode)

/-- The button that runs commands shows whether one is running. -/
def updateRunButton (w : Window) : Window :=
  { w with
    runText := if w.active then "X" else "Run"
    runStyle := Style.runButton w.active }

/-! ## Events -/

/-- The window as it opens. -/
def opening (settings : Settings) : Window := updateRunButton { settings }

/-- Loads the settings again, as far as they can be loaded. -/
def reload (files : SettingsFiles) (w : Window) : Window :=
  match files.loaded with
  | .ok settings => updateRunButton { w with settings }
  | .error _ => w

/-- The first word is a command word. -/
def isCommandWord (word : List Char) : Bool :=
  ("EXPR" :: CommandButton.all.map CommandButton.word).contains (Command.capitals word)

/-- The text without its command word, if it starts with one, and without blanks around it. -/
def withoutCommandWord (text : List Char) : List Char :=
  match Text.firstWord? text with
  | some (word, rest) => if isCommandWord word then rest else Text.strip text
  | none => []

/--
Puts a command word in front of the arguments in the input line, in place of the
one that is there.
-/
def insertCommand (text : String) (button : CommandButton) : String :=
  button.word ++ " " ++ String.ofList (withoutCommandWord text.toList)

/-- The window after a line was launched: a worker has it, and will execute it. -/
def launching (w : Window) (line : String) : Window :=
  updateRunButton
    { w with active := true, workers := w.workers ++ [line], atWork := w.atWork ++ [line] }

/-- Launches the command in the input line, if there is one and none is running. -/
def launch (w : Window) : Window × Effects :=
  match Text.strip w.input.toList with
  | [] => (w, {})
  | body =>
    let line := String.ofList body
    if w.active then
      (w, { boxes := [w.errorBox (shownFailure line ⟨.commandRunning, some line⟩)] })
    else (w.launching line, {})

variable [Elementary]

/-- A worker executes a line that was launched, under the files as they are now. -/
def work (files : SettingsFiles) (w : Window) : Window × Effects :=
  match w.atWork with
  | [] => (w, {})
  | line :: rest =>
    let (session, ending) := w.session.executeUnder files.loaded line
    ({ w with session, atWork := rest, pending := w.pending ++ [⟨line, ending⟩] },
      { diagnostics := Session.diagnosticsUnder files.loaded line })

/-- What comes of a job for the window: a response, or an error to be shown. -/
def Job.outcome (job : Job) : Except Shown (Option String) :=
  match job.ending with
  | .result (.ok response) => .ok response
  | .result (.error failure) => .error (shownFailure job.line failure)
  | .crash fault => .error ⟨"9999", "Unexpected crash: " ++ fault.message, some job.line⟩

/-- A result reaches the window. -/
def receive (w : Window) (job : Job) : Window × Effects :=
  let w := updateRunButton
    { w with active := false, workers := w.workers.filter (· ≠ job.line) }
  match job.outcome with
  | .error shown => (w, { boxes := [w.errorBox shown] })
  | .ok response =>
    ({ w with
        history := w.history ++ ("> " ++ job.line) :: response.toList
        lastOutput := response.getD w.lastOutput
        input := "" }, {})

/-- All results that wait reach the window, in the order of their launches. -/
def deliver (w : Window) : Window × Effects :=
  w.pending.foldl
    (fun (w, effects) job =>
      let (w, more) := w.receive job
      (w, effects ++ more))
    ({ w with pending := [] }, {})

/-- The text of the clipboard is appended to the input line and, if so set, run. -/
def paste (w : Window) (clipboard : String) : Window × Effects :=
  if clipboard = "" then (w, {})
  else
    let w := { w with input := w.input ++ clipboard }
    if w.settings.runsAfterPaste then w.launch else (w, {})

/-- The settings dialog is opened, used and closed; the settings are loaded again. -/
def openSettings (files : SettingsFiles) (w : Window) (actions : List DialogAction) :
    SettingsFiles × Window × Effects :=
  match Dialog.open? files with
  | none => (files, w, {})
  | some opened =>
    let (files, closed, boxes) := opened.run files actions
    (files, w.reload files, { boxes, dialogs := [⟨opened, closed⟩] })

/-- One event. -/
def step (files : SettingsFiles) (w : Window) (event : Event) :
    SettingsFiles × Window × Effects :=
  match event with
  | .type text => (files, { w with input := text }, {})
  | .command button => (files, { w with input := insertCommand w.input button }, {})
  | .copy => (files, w, if w.lastOutput = "" then {} else { copied := [w.lastOutput] })
  | .paste clipboard => (files, w.paste clipboard)
  | .run => (files, w.launch)
  | .openSettings actions => w.openSettings files actions
  | .work => (files, w.work files)
  | .deliver => (files, w.deliver)

end Window

end DerivCalc
