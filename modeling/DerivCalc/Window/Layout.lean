/-!
# Controls and boxes

What a window is made of, as far as it shows: controls with their texts, in rows,
and the message boxes that a window opens.
-/

namespace DerivCalc.Window

/-- A control of a window. -/
inductive Control where
  | textArea (text : String)
  | lineEdit (text placeholder : String)
  | button (text : String) (tip : Option String)
  | label (text : String)
  | checkBox (text : String) (checked : Bool)
  | buttonBox
deriving DecidableEq, Repr

/-- A line of a window: one control, or several side by side. -/
inductive Row where
  | single (control : Control)
  | group (controls : List Control)
deriving DecidableEq, Repr

/-- A message box for an error. -/
structure Box where
  title : String
  text : String
  /-- The explanation below the text, and the style sheet, of a box for a command's error. -/
  details : Option (String × String)
deriving DecidableEq, Repr

end DerivCalc.Window
