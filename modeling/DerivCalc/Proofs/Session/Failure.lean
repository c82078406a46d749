import DerivCalc.Proofs.Elementary
import DerivCalc.Session

/-!
# What a failed command leaves behind

Saved expressions survive every failure.  The last expression survives a failure
unless the command had already replaced it: a derivative, or a saved expression
that is to be printed, becomes the last one before the precision is read and the
text is made, and both can fail.

`execute_error` says exactly this.  It is a case analysis over the commands, of which
only the two that go through `showLast` can replace the last expression and then fail.
-/

namespace DerivCalc.Session

open Elementary (specialArguments)

section

variable [Elementary]

/-! ## Replacing the last expression -/

/-- The expression that a command makes the last one before it prints it, if it gets that far. -/
def replacement (s : Session) (command : Command) : Except Error Expr :=
  match command with
  | .der arguments => s.derived arguments
  | .print arguments => s.recalled arguments
  | _ => .error .invalidCommand

omit [Elementary] in
/-- A failure of `showLast` leaves the session alone iff there was nothing new to show. -/
theorem showLast_error {settings : Settings} {s s' : Session} {result : Except Error Expr}
    {failure : Failure} (h : s.showLast settings result = (s', .error failure)) :
    s'.saved = s.saved ∧ (s'.last = s.last ↔ ∀ e, result = .ok e → s.last = some e) := by
  cases result with
  | error cause =>
      have hSame : s = s' := congrArg Prod.fst h
      subst hSame
      refine ⟨rfl, fun _ e hOk => ?_, fun _ => rfl⟩
      exact absurd hOk (by simp)
  | ok e =>
      have hNext : s' = { s with last := some e } := by
        have hFirst : (s.showLast settings (.ok e)).1 = s' := congrArg Prod.fst h
        rw [← hFirst]
        simp only [showLast]
        split <;> rfl
      subst hNext
      refine ⟨rfl, ?_, ?_⟩
      · intro hLast e' hOk
        cases hOk
        exact hLast.symm
      · intro hLast
        exact (hLast e rfl).symm

/-! ## Commands that change nothing before they fail -/

theorem enter_error {settings : Settings} {s s' : Session} {text : String} {failure : Failure}
    (h : s.enter settings text = (s', .error failure)) : s' = s := by
  unfold enter at h
  split at h
  · exact absurd (congrArg Prod.snd h) (by simp)
  · exact (congrArg Prod.fst h).symm

omit [Elementary] in
theorem save_error {s s' : Session} {arguments : List String} {failure : Failure}
    (h : s.save arguments = (s', .error failure)) : s' = s := by
  unfold save at h
  split at h
  · exact absurd (congrArg Prod.snd h) (by simp)
  · exact (congrArg Prod.fst h).symm

theorem evaluate_error {settings : Settings} {s s' : Session} {arguments : List String}
    {failure : Failure}
    (h : s.perform settings (.eval arguments) = (s', .error failure)) : s' = s := by
  simp only [perform] at h
  split at h
  · exact absurd (congrArg Prod.snd h) (by simp)
  · exact (congrArg Prod.fst h).symm

/-! ## Every command -/

theorem unchanged_of_eq {s s' : Session} {command : Command} {cause : Error} (h : s' = s)
    (hNone : s.replacement command = .error cause) :
    s'.saved = s.saved ∧
      (s'.last = s.last ↔ ∀ e, s.replacement command = .ok e → s.last = some e) := by
  subst h
  refine ⟨rfl, fun _ e hOk => ?_, fun _ => rfl⟩
  rw [hNone] at hOk
  exact absurd hOk (by simp)

theorem perform_error {settings : Settings} {s s' : Session} {command : Command}
    {failure : Failure} (h : s.perform settings command = (s', .error failure)) :
    s'.saved = s.saved ∧
      (s'.last = s.last ↔ ∀ e, s.replacement command = .ok e → s.last = some e) := by
  cases command with
  | expr text => exact unchanged_of_eq (enter_error h) rfl
  | save arguments => exact unchanged_of_eq (save_error h) rfl
  | der arguments => exact showLast_error h
  | eval arguments => exact unchanged_of_eq (evaluate_error h) rfl
  | print arguments => exact showLast_error h

/--
A failed line leaves the saved expressions as they were, and the last expression iff
its command had not yet replaced it by a different one.
-/
theorem execute_error {settings : Settings} {s s' : Session} {line : String} {failure : Failure}
    (h : s.execute settings line = (s', .error failure)) :
    s'.saved = s.saved ∧
      (s'.last = s.last ↔ ∀ command e, Command.ofLine? line = some command →
        s.replacement command = .ok e → s.last = some e) := by
  unfold execute at h
  cases hLine : Command.ofLine? line with
  | none =>
      rw [hLine] at h
      have hSame : s = s' := congrArg Prod.fst h
      subst hSame
      refine ⟨rfl, fun _ command e hCommand => ?_, fun _ => rfl⟩
      exact absurd hCommand (by simp)
  | some command =>
      rw [hLine] at h
      obtain ⟨hSaved, hLast⟩ := perform_error h
      refine ⟨hSaved, hLast.trans ⟨?_, ?_⟩⟩
      · intro hKept command' e hCommand hOk
        rw [← Option.some.inj hCommand] at hOk
        exact hKept e hOk
      · intro hKept e hOk
        exact hKept command e rfl hOk

end

/-! ## A failure before and a failure after the replacement -/

attribute [local instance] specialArguments

/-- A session whose last expression is `x`. -/
def lastVar : Session := { last := some (.var true) }

/-- A name that is missing is noticed before anything is saved. -/
theorem execute_save_error :
    lastVar.execute [] "SAVE" = (lastVar, .error (.ofError .emptyName)) ∧
      lastVar.saved = [] ∧
      (lastVar.last = some (.var true) ↔ ∀ command e, Command.ofLine? "SAVE" = some command →
        lastVar.replacement command = .ok e → lastVar.last = some e) := by
  have hRun : lastVar.execute [] "SAVE" = (lastVar, .error (.ofError .emptyName)) := by
    decide +kernel
  exact ⟨hRun, execute_error hRun⟩

/-- The settings with a precision that is rejected. -/
def zeroPrecision : Settings := Settings.ofFile (some "\x7b\"precision\": 0\x7d")

/-- After `x ^ 2`, a derivative that cannot be printed has replaced it. -/
theorem execute_der_error :
    ∃ s : Session, s = (({} : Session).execute zeroPrecision "EXPR x ^ 2").1 ∧
      (s.execute zeroPrecision "DER").2 = .error (.ofError (.invalidPrecision "0")) ∧
      (s.execute zeroPrecision "DER").1.last ≠ s.last := by
  refine ⟨_, rfl, ?_, ?_⟩
  · decide +kernel
  · decide +kernel

end DerivCalc.Session
