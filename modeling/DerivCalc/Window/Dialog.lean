import DerivCalc.Settings
import DerivCalc.Text.Number
import DerivCalc.Text.Quoted
import DerivCalc.Text.Words
import DerivCalc.Window.Layout
import DerivCalc.Window.Style

/-!
# The settings dialog

The dialog shows a check box for each setting that is true or false and an input
field for each integer; other settings are not shown.  OK takes over the shown
values in order, up to the first field that cannot be read, and writes the file
if all could be.  What was taken over stays in the dialog even if OK is refused.

The dialog does not open if its files cannot be loaded, or if something else than a text is
to be shown as a description.
-/

namespace DerivCalc.Window

/-! ## Reading a field -/

/-- The longest part of a refused word that a message quotes. -/
def maxQuoted : Nat := 200

/-- Why the content of a field is no integer. -/
def integerFaultMessage (word : List Char) : Text.IntegerFault → String
  | .malformed =>
    "invalid literal for int() with base 10: " ++
      String.ofList ((Text.Quoted.encode word).take maxQuoted)
  | .tooLong digits => Text.tooLongMessage digits

/-- The integer in a field for the setting `key`, or a message that tells what is wrong with it. -/
def fieldValue (key : String) (word : List Char) : Except String Int :=
  match Text.integerOfWord word with
  | .error fault => .error (integerFaultMessage word fault)
  | .ok i =>
    if key = "precision" && i < 1 then
      .error ("'" ++ String.ofList (Json.Writer.integer i) ++ "' is too small. Minimum is 1.")
    else .ok i

/-! ## The dialog -/

/-- What a setting is edited with. -/
inductive Editor where
  | checkBox (checked : Bool)
  | field (placeholder text : String)
deriving DecidableEq, Repr

/-- A setting that the dialog shows. -/
structure Entry where
  key : String
  caption : String
  editor : Editor
deriving DecidableEq, Repr

/-- How a dialog was closed by a button. -/
inductive Verdict where
  | accepted
  | rejected
deriving DecidableEq, Repr

/-- The settings dialog. -/
structure Dialog where
  /-- The settings as loaded, with what OK has taken over so far. -/
  settings : Settings
  entries : List Entry
  style : String
  /-- How often settings were saved. -/
  saved : Nat := 0
  verdict : Option Verdict := none

/-- A change of an entry by the user. -/
inductive Edit where
  | check (key : String) (checked : Bool)
  | fill (key : String) (text : String)
deriving DecidableEq, Repr

/-- A button of the dialog. -/
inductive Press where
  | ok
  | cancel
deriving DecidableEq, Repr

/-- Changes of entries, and then possibly a button. -/
structure DialogAction where
  edits : List Edit := []
  press : Option Press := none
deriving DecidableEq, Repr

namespace Dialog

/-- The description of a setting, its key if there is none; it may be no text. -/
def captionOf? (descriptions : Json.Fields) (key : String) : Option String :=
  match descriptions.get? key with
  | some (.str description) => some description
  | some _ => none
  | none => some key

/-- The caption of a setting. -/
def captionOf (descriptions : Json.Fields) (key : String) : String :=
  (captionOf? descriptions key).getD ""

/-- The entry for a setting, if the dialog shows it. -/
def entryOf? (descriptions : Json.Fields) (key : String) : Json → Option Entry
  | .bool checked => some ⟨key, captionOf descriptions key, .checkBox checked⟩
  | .int i =>
    some ⟨key, captionOf descriptions key ++ " (min. 1):",
      .field (String.ofList (Json.Writer.integer i)) ""⟩
  | _ => none

/-- The dialog as it opens. -/
def opened (settings : Settings) (descriptions : Json.Fields) : Dialog where
  settings := settings
  entries := settings.filterMap fun (key, value) => entryOf? descriptions key value
  style := Style.dialog settings.darkmode

/-- Every setting that is shown has a text for its description. -/
def canOpen (settings : Settings) (descriptions : Json.Fields) : Bool :=
  (opened settings descriptions).entries.all fun entry =>
    (captionOf? descriptions entry.key).isSome

/-- Opens the dialog; none if a fault comes between. -/
def open? (files : SettingsFiles) : Option Dialog :=
  match files.loaded, files.loadedDescriptions with
  | .ok settings, .ok descriptions =>
    if canOpen settings descriptions then some (opened settings descriptions) else none
  | _, _ => none

/-- The controls of an entry. -/
def row (entry : Entry) : Row :=
  match entry.editor with
  | .checkBox checked => .single (.checkBox entry.caption checked)
  | .field placeholder text => .group [.label entry.caption, .lineEdit text placeholder]

/-- The controls of the dialog. -/
def layout (d : Dialog) : List Row := d.entries.map row ++ [.single .buttonBox]

/-- The entry after a change. -/
def editEntry (edit : Edit) (entry : Entry) : Entry :=
  match edit, entry.editor with
  | .check key checked, .checkBox _ =>
    if entry.key = key then { entry with editor := .checkBox checked } else entry
  | .fill key text, .field placeholder _ =>
    if entry.key = key then { entry with editor := .field placeholder text } else entry
  | _, _ => entry

/-- The dialog after a change. -/
def edit (d : Dialog) (e : Edit) : Dialog := { d with entries := d.entries.map (editEntry e) }

/-- The box for a field that cannot be read. -/
def fieldBox (key message : String) : Box where
  title := "Invalid Input:"
  text := "Error in input for '" ++ key ++ "':\n\n" ++ message ++ "\n\nPlease correct your input."
  details := none

/-- The box for settings that could not be written. -/
def unsavedBox : Box :=
  ⟨"Error", "Error 4501: Not all Settings could be saved: config.json", none⟩

/--
Takes over the values of the entries in order.  A blank field leaves its setting
alone; at a field that cannot be read the rest is left, and its box is shown.
-/
def takeOver (settings : Settings) : List Entry → Settings × Option Box
  | [] => (settings, none)
  | entry :: rest =>
    match entry.editor with
    | .checkBox checked => takeOver (settings.put entry.key (.bool checked)) rest
    | .field _ text =>
      match Text.strip text.toList with
      | [] => takeOver settings rest
      | word =>
        match fieldValue entry.key word with
        | .error message => (settings, some (fieldBox entry.key message))
        | .ok i => takeOver (settings.put entry.key (.int i)) rest

/--
The OK button.  The settings were written if the answer is not empty; after a fault of the system
there is no answer, and nobody is told.
-/
def accept (files : SettingsFiles) (d : Dialog) : SettingsFiles × Dialog × List Box :=
  match takeOver d.settings d.entries with
  | (settings, some box) => (files, { d with settings }, [box])
  | (settings, none) =>
    match files.attemptSave (.obj settings) with
    | (files, none) => (files, { d with settings }, [])
    | (files, some (.obj [])) => (files, { d with settings }, [unsavedBox])
    | (files, some _) =>
      (files,
        { d with
          settings
          style := Style.dialog settings.darkmode
          saved := d.saved + 1
          verdict := some .accepted }, [])

/-- A button of the dialog. -/
def press (files : SettingsFiles) (d : Dialog) : Press → SettingsFiles × Dialog × List Box
  | .ok => d.accept files
  | .cancel => (files, { d with verdict := some .rejected }, [])

/-- Changes of entries, and then possibly a button. -/
def act (files : SettingsFiles) (d : Dialog) (action : DialogAction) :
    SettingsFiles × Dialog × List Box :=
  let d := action.edits.foldl edit d
  match action.press with
  | some button => d.press files button
  | none => (files, d, [])

/-- Actions until the dialog is closed by a button or there are no more. -/
def run (files : SettingsFiles) (d : Dialog) :
    List DialogAction → SettingsFiles × Dialog × List Box
  | [] => (files, d, [])
  | action :: rest =>
    let (files, d, boxes) := d.act files action
    if d.verdict.isSome then (files, d, boxes)
    else
      let (files, d, later) := run files d rest
      (files, d, boxes ++ later)

end Dialog

end DerivCalc.Window
