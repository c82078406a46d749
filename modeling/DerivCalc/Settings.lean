import DerivCalc.Error
import DerivCalc.Json.Describe
import DerivCalc.Json.Limits
import DerivCalc.Json.Writer

/-!
# Settings

Settings are kept in a file and read again at every use.  A file that is
missing, unreadable or no JSON object counts as empty, and the fields of the
file override the defaults: default keys come first and in their own order, other
keys follow in the order of the file.  A second file holds descriptions of the
settings in the same way.

Loading ends in a fault if the reader does, and saving can fail at two places: the file may not
open, and writing may break off when its old text is gone already.
-/

namespace DerivCalc

/-- Settings by key, in order. -/
abbrev Settings := Json.Fields

namespace Settings

/-- The settings of an empty file. -/
def defaults : Settings :=
  [("precision", .int 6), ("debug", .bool false), ("darkmode", .bool false),
   ("after_paste_enter", .bool false)]

/-- The descriptions of an empty file. -/
def defaultDescriptions : Json.Fields :=
  [("precision", .str "Significant digits"), ("debug", .str "Print parser diagnostics"),
   ("darkmode", .str "Dark mode"), ("after_paste_enter", .str "Run command after paste")]

/-- The fields of the object in a file; none if there is no such object. -/
def fieldsOfFile (content : Option String) : Json.Fields :=
  match content.bind fun text => Json.Reader.read text.toList with
  | some (.obj fields) => fields
  | _ => []

/-- The fault in which loading a file ends, if there is one. -/
def faultOfFile (content : Option String) : Option Json.Reader.Fault :=
  content.bind fun text => Json.Reader.fault? text.toList

/-- The settings that a file stands for. -/
def ofFile (content : Option String) : Settings := defaults.override (fieldsOfFile content)

/-- Loads the settings from a file. -/
def loadFile (content : Option String) : Except Json.Reader.Fault Settings :=
  match faultOfFile content with
  | some fault => .error fault
  | none => .ok (ofFile content)

/-- The descriptions that a file stands for. -/
def descriptionsOfFile (content : Option String) : Json.Fields :=
  defaultDescriptions.override (fieldsOfFile content)

/-- The value of a key, zero if there is none; the key `all` stands for the whole object. -/
def value (fields : Json.Fields) (key : String) : Json :=
  if key = "all" then .obj fields else (fields.get? key).getD (.int 0)

/-- The count of significant digits: an integer, and at least one. -/
def precision (settings : Settings) : Except Error Nat :=
  match value settings "precision" with
  | .int i =>
    if i < 1 then .error (.invalidPrecision (String.ofList (Json.plain (.int i))))
    else .ok i.toNat
  | other => .error (.invalidPrecision (String.ofList other.plain))

/-- Diagnostics are switched on. -/
def debug (settings : Settings) : Bool := (value settings "debug").isOn

/-- The dark colours are switched on. -/
def darkmode (settings : Settings) : Bool := (value settings "darkmode").isOn

/-- A pasted command is run at once. -/
def runsAfterPaste (settings : Settings) : Bool := (value settings "after_paste_enter").isOn

end Settings

/-! ## The files -/

/-- What comes of an attempt to write the settings file. -/
inductive Disk where
  /-- The file opens and takes the whole text. -/
  | takes
  /-- The file does not open: its directory is missing, or writing is not permitted. -/
  | refuses
  /-- The file does not open for another reason, say because the disk can only be read. -/
  | faults
  /-- The file opens, which clears it, and writing breaks off after so many characters. -/
  | breaks (kept : Nat)
deriving DecidableEq, Repr

/-- The contents of the two files; a file that holds no text is as good as missing. -/
structure SettingsFiles where
  settings : Option String := none
  descriptions : Option String := none
  disk : Disk := .takes

namespace SettingsFiles

/-- The file can be opened and written. -/
def writable (files : SettingsFiles) : Bool := files.disk == .takes

/-- The settings as they are now. -/
def load (files : SettingsFiles) : Settings := Settings.ofFile files.settings

/-- The descriptions as they are now. -/
def loadDescriptions (files : SettingsFiles) : Json.Fields :=
  Settings.descriptionsOfFile files.descriptions

/-- The settings as they are now, or the fault in which loading them ends. -/
def loaded (files : SettingsFiles) : Except Json.Reader.Fault Settings :=
  Settings.loadFile files.settings

/-- The descriptions as they are now, or the fault in which loading them ends. -/
def loadedDescriptions (files : SettingsFiles) : Except Json.Reader.Fault Json.Fields :=
  match Settings.faultOfFile files.descriptions with
  | some fault => .error fault
  | none => .ok files.loadDescriptions

/-- Replaces the text of the settings file, if it can be written. -/
def write (files : SettingsFiles) (text : String) : SettingsFiles :=
  if files.writable then { files with settings := some text } else files

/--
Writes settings to the file, as far as the disk takes them.  The answer is what was written, or an
empty object if the file did not open as the caller expects it; any other failure is a fault of
the system and leaves no answer.
-/
def attemptSave (files : SettingsFiles) (settings : Json) : SettingsFiles × Option Json :=
  match files.disk with
  | .takes => (files.write (Json.Writer.file settings), some settings)
  | .refuses => (files, some (.obj []))
  | .faults => (files, none)
  | .breaks kept =>
    ({ files with
        settings := some (String.ofList ((Json.Writer.file settings).toList.take kept)) }, none)

/-- Writes settings to the file; the answer is what was written, an empty object if it could not be. -/
def save (files : SettingsFiles) (settings : Json) : SettingsFiles × Json :=
  let (files, answer) := files.attemptSave settings
  (files, answer.getD (.obj []))

/-- Deletes the directory with both files. -/
def removeDirectory (_files : SettingsFiles) : SettingsFiles := ⟨none, none, .refuses⟩

end SettingsFiles

end DerivCalc
