import DerivCalc.Elementary.Native
import DerivCalc.Launcher

/-!
# The command line

Checks that the program is complete, reads the settings, and runs the line
interpreter over standard input.  The window is a state machine without a
drawing layer, so there is no other front end to start from here.
-/

open DerivCalc

/-- The bytes of a file; nothing if there is no such file. -/
def readBytes? (path : String) : IO (Option ByteArray) := do
  try
    return some (← IO.FS.readBinFile path)
  catch _ =>
    return none

/-- The command line: everything on standard input is executed line by line. -/
def main : IO UInt32 := do
  let present ← Launcher.requiredFiles.filterM fun path => do
    return (← readBytes? path).isSome
  let missing := Launcher.missingReport present.contains
  if !missing.isEmpty then
    IO.print (Launcher.unlines missing)
    return 1
  let settings := Settings.ofFile ((← readBytes? "config.json").bind String.fromUTF8?)
  let input ← (← IO.getStdin).readToEnd
  IO.print (Launcher.interpret settings input)
  return 0
