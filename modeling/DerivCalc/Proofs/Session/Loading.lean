import DerivCalc.Proofs.Session.History

/-!
# Lines under settings that may not load

An `Attempt` is a line with what loading the settings comes to at its moment: settings, or a
fault.  With settings it is a turn.
-/

namespace DerivCalc.Session

/-- A command line, and what loading the settings comes to when it is executed. -/
structure Attempt where
  loaded : Except Json.Reader.Fault Settings
  line : String

/-- The attempt in which the settings are loaded. -/
def Turn.attempt (t : Turn) : Attempt := ⟨.ok t.settings, t.line⟩

section

variable [Elementary]

/-- The session after an attempt. -/
def tried (s : Session) (a : Attempt) : Session := (s.executeUnder a.loaded a.line).1

/-- How an attempt ends. -/
def ending (s : Session) (a : Attempt) : Ending := (s.executeUnder a.loaded a.line).2

/-- The session after any number of attempts. -/
def afterAttempts (s : Session) (attempts : List Attempt) : Session := attempts.foldl tried s

@[simp] theorem tried_attempt (s : Session) (t : Turn) : s.tried t.attempt = s.next t := rfl

@[simp] theorem ending_attempt (s : Session) (t : Turn) :
    s.ending t.attempt = .result (s.answer t) := rfl

theorem afterAttempts_concat (s : Session) (attempts : List Attempt) (a : Attempt) :
    s.afterAttempts (attempts ++ [a]) = (s.afterAttempts attempts).tried a := List.foldl_append

/-- If the settings are always loaded, attempts are turns. -/
theorem afterAttempts_map_attempt (s : Session) (turns : List Turn) :
    s.afterAttempts (turns.map Turn.attempt) = s.after turns := by
  unfold afterAttempts after
  rw [List.foldl_map]
  rfl

end

end DerivCalc.Session
