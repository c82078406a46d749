import DerivCalc.Session

/-!
# Starting the program

Checking that the program is complete, and the line interpreter over standard
input.
-/

namespace DerivCalc.Launcher

/-! ## Files -/

/-- The files without which the program does not start, in the order in which they are checked. -/
def requiredFiles : List String :=
  ["symcalc/UI.py", "symcalc/MathEngine.py", "symcalc/Calculator.py",
   "symcalc/config_manager.py", "config.json", "ui_strings.json"]

/-- The last part of a path. -/
def fileName (path : String) : String :=
  String.ofList (path.toList.reverse.takeWhile (· ≠ '/')).reverse

/-- The lines that name the missing files; none if nothing is missing. -/
def missingReport (isPresent : String → Bool) : List String :=
  match requiredFiles.filter (!isPresent ·) with
  | [] => []
  | missing =>
    "Error 1000: The following files are missing or in the wrong location:" ::
      missing.map fun path => "- " ++ fileName path

/-! ## Settings at the start -/

/-- What is reported about the settings at the start, if diagnostics are switched on. -/
def settingsReport (settings : Settings) : List String :=
  if settings.debug then
    ["Config loaded: " ++ String.ofList (Json.describe (.obj settings))]
  else []

/-! ## Lines -/

/-- The lines of a text; a line ends at a line feed, a carriage return, or both in this order. -/
def lines : List Char → List (List Char)
  | [] => []
  | '\r' :: '\n' :: rest => [] :: lines rest
  | c :: rest =>
    if c = '\n' || c = '\r' then [] :: lines rest
    else
      match lines rest with
      | [] => [[c]]
      | line :: others => (c :: line) :: others

/-- The text of some lines, each ended. -/
def unlines (list : List String) : String := String.join (list.map (· ++ "\n"))

variable [Elementary]

/-- Everything that the line interpreter puts out for a given input. -/
def interpret (settings : Settings) (input : String) : String :=
  let reports := Session.run settings {} ((lines input.toList).map String.ofList)
  unlines (settingsReport settings ++
    reports.flatMap fun report => report.diagnostics ++ report.response.toList)

end DerivCalc.Launcher
