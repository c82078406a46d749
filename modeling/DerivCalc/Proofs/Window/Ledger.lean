import DerivCalc.Proofs.Session.Loading
import DerivCalc.Proofs.Window.Script

/-!
# One command at a time

A ledger is kept beside a script: the commands that were launched, those that a worker has
executed, those whose results have arrived, and the boxes that were shown for these, each in
order.  `Accounts` says that the window agrees with it.  Launching, executing and delivering
keep this up, and nothing else touches what the ledger is about, so the window agrees with the
ledger after every script.

So never more than one command is under way, the session is what the executed lines make of a
new one, and every result that arrived has been reported once.  A line is executed under the
settings of that moment; they are those of its launch if the worker executes it at once.
-/

namespace DerivCalc.Window

open Session (Attempt)

/-! ## The ledger -/

/-- What was launched, what was executed and what has arrived, in order. -/
structure Ledger where
  /-- The launched commands, with the settings of their launch. -/
  launched : List Attempt := []
  /-- The executed commands, with the settings of their execution. -/
  executed : List Attempt := []
  /-- The executed commands whose results have arrived. -/
  delivered : List Attempt := []
  /-- The boxes that were shown for results. -/
  boxes : List Box := []

/-- The launched commands whose results have not arrived. -/
def Ledger.underway (l : Ledger) : List Attempt := l.launched.drop l.delivered.length

/-- The input line that an event wants to be run; a pasted text has been appended to it. -/
def pressed? (w : Window) : Event → Option String
  | .run => some w.input
  | .paste clipboard =>
    if clipboard ≠ "" ∧ w.settings.runsAfterPaste then some (w.input ++ clipboard) else none
  | _ => none

/-- The command line in an input line, if that is not blank. -/
def commandLine? (input : String) : Option String :=
  match Text.strip input.toList with
  | [] => none
  | body => some (String.ofList body)

/-- The command line that an event wants to be run. -/
def attempt? (w : Window) (event : Event) : Option String :=
  (w.pressed? event).bind commandLine?

/-- The command that is launched at a moment, with the settings as they are then. -/
def launched? (sc : Scene) : Moment → Option Attempt
  | .event event =>
    if sc.dialog.isNone && !sc.window.active then
      (sc.window.attempt? event).map (⟨sc.files.loaded, ·⟩)
    else none
  | _ => none

/-- The command that a worker executes now, with the settings as they are now. -/
def executed? (sc : Scene) : Option Attempt :=
  sc.window.atWork.head?.map (⟨sc.files.loaded, ·⟩)

namespace Job

/-- What a result adds to the history: nothing if it is an error. -/
def paragraphs (job : Job) : List String :=
  match job.outcome with
  | .ok response => ("> " ++ job.line) :: response.toList
  | .error _ => []

/-- The text of a result. -/
def response? (job : Job) : Option String :=
  match job.outcome with
  | .ok response => response
  | .error _ => none

/-- The error of a result, as it is shown. -/
def shown? (job : Job) : Option Shown :=
  match job.outcome with
  | .ok _ => none
  | .error shown => some shown

end Job

/-- The box is the one for this error. -/
def Box.Shows (box : Box) (shown : Shown) : Prop :=
  box.title = "Calculation error" ∧
    box.text = "Error " ++ shown.code ++ ": " ++ shown.message ∧
    ∃ style, box.details = some ("Input: " ++ shown.source.getD "None", style)

theorem errorBox_shows (w : Window) (shown : Shown) : (w.errorBox shown).Shows shown :=
  ⟨rfl, rfl, _, rfl⟩

/-! ## What the window does to its work -/

/-- A line is launched, or refused while a command is under way; a blank one does nothing. -/
theorem launch_eq (w : Window) :
    w.launch =
      match commandLine? w.input with
      | none => (w, {})
      | some line =>
        if w.active then
          (w, { boxes := [w.errorBox (shownFailure line ⟨.commandRunning, some line⟩)] })
        else (w.launching line, {}) := by
  unfold launch commandLine?
  cases Text.strip w.input.toList with
  | nil => rfl
  | cons c rest => rfl

/-- The button that runs commands shows whether one is under way. -/
def ButtonTells (w : Window) : Prop := w.runText = "X" ↔ w.active = true

theorem buttonTells_updateRunButton (w : Window) : (updateRunButton w).ButtonTells := by
  unfold ButtonTells updateRunButton
  cases w.active <;> simp

/-- The window goes on with its work as before. -/
structure SameWork (w w' : Window) : Prop where
  session : w'.session = w.session
  active : w'.active = w.active
  workers : w'.workers = w.workers
  atWork : w'.atWork = w.atWork
  pending : w'.pending = w.pending
  button : w.ButtonTells → w'.ButtonTells
  history : w'.history = w.history
  lastOutput : w'.lastOutput = w.lastOutput

namespace SameWork

theorem refl (w : Window) : SameWork w w := ⟨rfl, rfl, rfl, rfl, rfl, id, rfl, rfl⟩

theorem trans {w w' w'' : Window} (h : SameWork w w') (h' : SameWork w' w'') : SameWork w w'' :=
  ⟨h'.session.trans h.session, h'.active.trans h.active, h'.workers.trans h.workers,
    h'.atWork.trans h.atWork, h'.pending.trans h.pending, h'.button ∘ h.button,
    h'.history.trans h.history, h'.lastOutput.trans h.lastOutput⟩

theorem input (w : Window) (input : String) : SameWork w { w with input } :=
  ⟨rfl, rfl, rfl, rfl, rfl, id, rfl, rfl⟩

end SameWork

/-- Loading the settings again changes them or nothing. -/
theorem reload_eq (files : SettingsFiles) (w : Window) :
    w.reload files = w ∨ ∃ settings, w.reload files = updateRunButton { w with settings } := by
  unfold reload
  cases files.loaded with
  | ok settings => exact Or.inr ⟨settings, rfl⟩
  | error fault => exact Or.inl rfl

theorem sameWork_reload (files : SettingsFiles) (w : Window) : SameWork w (w.reload files) := by
  rcases reload_eq files w with hEq | ⟨settings, hEq⟩
  · rw [hEq]
    exact .refl w
  · rw [hEq]
    exact ⟨rfl, rfl, rfl, rfl, rfl, fun _ => buttonTells_updateRunButton _, rfl, rfl⟩

/-- A line that is wanted while a command is under way is refused. -/
theorem sameWork_launch {w : Window} (h : w.active = true) : SameWork w w.launch.1 := by
  rw [launch_eq]
  cases commandLine? w.input with
  | none => exact .refl w
  | some line =>
      rw [h]
      exact .refl w

theorem deliver_of_nil {w : Window} (h : w.pending = []) : w.deliver = (w, {}) := by
  unfold deliver
  rw [h]
  show ({ w with pending := [] }, _) = _
  rw [← h]

theorem deliver_of_singleton {w : Window} {job : Job} (h : w.pending = [job]) :
    w.deliver = { w with pending := [] }.receive job := by
  unfold deliver
  rw [h]
  rfl

theorem receive_history (w : Window) (job : Job) :
    (w.receive job).1.history = w.history ++ job.paragraphs := by
  unfold receive Job.paragraphs
  cases job.outcome with
  | error shown => exact (List.append_nil _).symm
  | ok response => rfl

theorem receive_lastOutput (w : Window) (job : Job) :
    (w.receive job).1.lastOutput = job.response?.getD w.lastOutput := by
  unfold receive Job.response?
  cases job.outcome with
  | error shown => rfl
  | ok response => rfl

/-- The box for an error is shown, and none for a success. -/
theorem receive_boxes (w : Window) (job : Job) :
    List.Forall₂ Box.Shows (w.receive job).2.boxes job.shown?.toList := by
  unfold receive Job.shown?
  cases job.outcome with
  | error shown => exact .cons (errorBox_shows _ _) .nil
  | ok response => exact .nil

theorem receive_work (w : Window) (job : Job) :
    (w.receive job).1.session = w.session ∧ (w.receive job).1.active = false ∧
      (w.receive job).1.workers = w.workers.filter (· ≠ job.line) ∧
      (w.receive job).1.atWork = w.atWork ∧ (w.receive job).1.pending = w.pending := by
  unfold receive
  cases job.outcome with
  | error shown => exact ⟨rfl, rfl, rfl, rfl, rfl⟩
  | ok response => exact ⟨rfl, rfl, rfl, rfl, rfl⟩

theorem receive_buttonTells (w : Window) (job : Job) : (w.receive job).1.ButtonTells := by
  unfold receive
  cases job.outcome with
  | error shown => exact buttonTells_updateRunButton _
  | ok response =>
      exact buttonTells_updateRunButton
        { w with active := false, workers := w.workers.filter (· ≠ job.line) }

section

variable [Elementary]

/-- The lines of attempts with the endings that they come to one after the other. -/
def jobs (s : Session) : List Attempt → List Job
  | [] => []
  | a :: rest => ⟨a.line, s.ending a⟩ :: jobs (s.tried a) rest

theorem jobs_concat (s : Session) (attempts : List Attempt) (a : Attempt) :
    jobs s (attempts ++ [a]) =
      jobs s attempts ++ [⟨a.line, (s.afterAttempts attempts).ending a⟩] := by
  induction attempts generalizing s with
  | nil => rfl
  | cons first rest ih =>
      rw [List.cons_append, jobs, jobs, ih, List.cons_append]
      rfl

theorem length_jobs (s : Session) (attempts : List Attempt) :
    (jobs s attempts).length = attempts.length := by
  induction attempts generalizing s with
  | nil => rfl
  | cons a rest ih => rw [jobs, List.length_cons, ih, List.length_cons]

/-- The ledger after a moment. -/
def Ledger.record (l : Ledger) (sc : Scene) (m : Moment) : Ledger :=
  match m with
  | .event .work => { l with executed := l.executed ++ (executed? sc).toList }
  | .event .deliver =>
    { l with delivered := l.executed, boxes := l.boxes ++ (sc.step m).2.boxes }
  | m => { l with launched := l.launched ++ (launched? sc m).toList }

/-- The scene and the ledger after a script. -/
def book (files : SettingsFiles) (script : List Moment) : Scene × Ledger :=
  script.foldl (fun (sc, l) m => (sc.next m, l.record sc m)) (.opening files, {})

theorem book_concat (files : SettingsFiles) (script : List Moment) (m : Moment) :
    book files (script ++ [m]) =
      ((book files script).1.next m, (book files script).2.record (book files script).1 m) := by
  unfold book
  rw [List.foldl_append]
  rfl

/-- The scene in the book is that of the script. -/
theorem book_fst (files : SettingsFiles) (script : List Moment) :
    (book files script).1 = (Scene.opening files).play script := by
  induction script using List.reverseRecOn with
  | nil => rfl
  | append_singleton script m ih => rw [book_concat, ih, Scene.play_append]; rfl

/-! ## What an event does to the work of the window -/

/-- An event that wants the input line to be run launches it. -/
theorem step_of_pressed {files : SettingsFiles} {w : Window} {event : Event} {input : String}
    (h : w.pressed? event = some input) :
    w.step files event = (files, { w with input }.launch) := by
  cases event with
  | run =>
      obtain rfl := Option.some.inj h
      rfl
  | paste clipboard =>
      unfold pressed? at h
      simp only at h
      split at h
      · rename_i hRuns
        obtain rfl := Option.some.inj h
        simp only [step, paste, hRuns.1, if_false, hRuns.2, if_true]
      · exact absurd h (by simp)
  | _ => exact absurd h (by simp [pressed?])

/-- Every other event of the user leaves the work of the window alone. -/
theorem sameWork_step {files : SettingsFiles} {w : Window} {event : Event}
    (hPressed : w.pressed? event = none) (hUser : event.isOfUser = true) :
    SameWork w (w.step files event).2.1 := by
  cases event with
  | type text => exact .input w text
  | command button => exact .input w _
  | copy => exact .refl w
  | paste clipboard =>
      unfold pressed? at hPressed
      simp only at hPressed
      split at hPressed
      · exact absurd hPressed (by simp)
      · rename_i hRuns
        simp only [step, paste]
        split
        · exact .refl w
        · rename_i hText
          have hNotRun : ¬ w.settings.runsAfterPaste = true := fun h => hRuns ⟨hText, h⟩
          simp only [hNotRun]
          exact .input w _
  | run => exact absurd hPressed (by simp [pressed?])
  | openSettings actions =>
      simp only [step, openSettings]
      split
      · exact .refl w
      · exact sameWork_reload _ w
  | work => exact absurd hUser (by simp [Event.isOfUser])
  | deliver => exact absurd hUser (by simp [Event.isOfUser])

/-! ## The window agrees with the ledger -/

/-- How far the window has come with the commands of the ledger. -/
inductive Stage (w : Window) (l : Ledger) : Prop where
  /-- All results have arrived. -/
  | idle (launched : l.launched.map (·.line) = l.delivered.map (·.line))
      (executed : l.executed = l.delivered) (active : w.active = false)
      (workers : w.workers = []) (atWork : w.atWork = []) (pending : w.pending = [])
  /-- One command was launched and is not executed yet. -/
  | working (line : String)
      (launched : l.launched.map (·.line) = l.delivered.map (·.line) ++ [line])
      (executed : l.executed = l.delivered) (active : w.active = true)
      (workers : w.workers = [line]) (atWork : w.atWork = [line]) (pending : w.pending = [])
  /-- One command was executed, and its result has not arrived. -/
  | arriving (a : Attempt)
      (launched : l.launched.map (·.line) = l.delivered.map (·.line) ++ [a.line])
      (executed : l.executed = l.delivered ++ [a]) (active : w.active = true)
      (workers : w.workers = [a.line]) (atWork : w.atWork = [])
      (pending : w.pending = [⟨a.line, (Session.afterAttempts {} l.delivered).ending a⟩])

/-- The state of the window is what the ledger says. -/
structure Accounts (w : Window) (l : Ledger) : Prop where
  stage : Stage w l
  button : w.ButtonTells
  session : w.session = Session.afterAttempts {} l.executed
  history : w.history = (jobs {} l.delivered).flatMap Job.paragraphs
  lastOutput : w.lastOutput = ((jobs {} l.delivered).filterMap Job.response?).getLast?.getD ""
  boxes : List.Forall₂ Box.Shows l.boxes ((jobs {} l.delivered).filterMap Job.shown?)

theorem Accounts.sameWork {w w' : Window} {l : Ledger} (h : Accounts w l)
    (hSame : SameWork w w') : Accounts w' l := by
  refine ⟨?_, hSame.button h.button, hSame.session.trans h.session,
    hSame.history.trans h.history, hSame.lastOutput.trans h.lastOutput, h.boxes⟩
  cases h.stage with
  | idle launched executed active workers atWork pending =>
      exact .idle launched executed (hSame.active.trans active) (hSame.workers.trans workers)
        (hSame.atWork.trans atWork) (hSame.pending.trans pending)
  | working line launched executed active workers atWork pending =>
      exact .working line launched executed (hSame.active.trans active)
        (hSame.workers.trans workers) (hSame.atWork.trans atWork) (hSame.pending.trans pending)
  | arriving a launched executed active workers atWork pending =>
      exact .arriving a launched executed (hSame.active.trans active)
        (hSame.workers.trans workers) (hSame.atWork.trans atWork) (hSame.pending.trans pending)

/-- An idle window has nothing under way. -/
theorem Accounts.of_idle {w : Window} {l : Ledger} (h : Accounts w l) (hIdle : w.active = false) :
    l.launched.map (·.line) = l.delivered.map (·.line) ∧ l.executed = l.delivered ∧
      w.workers = [] ∧ w.atWork = [] ∧ w.pending = [] := by
  cases h.stage with
  | idle launched executed active workers atWork pending =>
      exact ⟨launched, executed, workers, atWork, pending⟩
  | working line launched executed active => exact absurd (hIdle.symm.trans active) (by simp)
  | arriving a launched executed active => exact absurd (hIdle.symm.trans active) (by simp)

/-- A launched command becomes the one that is under way. -/
theorem Accounts.launch {w : Window} {l : Ledger} (h : Accounts w l) (hIdle : w.active = false)
    (a : Attempt) :
    Accounts (w.launching a.line) { l with launched := l.launched ++ [a] } := by
  obtain ⟨hLaunched, hExecuted, hWorkers, hAtWork, hPending⟩ := h.of_idle hIdle
  refine ⟨.working a.line ?_ hExecuted rfl ?_ ?_ hPending, buttonTells_updateRunButton _,
    h.session, h.history, h.lastOutput, h.boxes⟩
  · show (l.launched ++ [a]).map _ = _
    rw [List.map_append, hLaunched, List.map_singleton]
  · show w.workers ++ [a.line] = [a.line]
    rw [hWorkers, List.nil_append]
  · show w.atWork ++ [a.line] = [a.line]
    rw [hAtWork, List.nil_append]

/-! ## Executions -/

theorem work_of_nil {files : SettingsFiles} {w : Window} (h : w.atWork = []) :
    w.work files = (w, {}) := by
  unfold work
  rw [h]

/-- The window after a worker has executed the one line that was launched. -/
theorem work_of_singleton {files : SettingsFiles} {w : Window} {line : String}
    (h : w.atWork = [line]) :
    (w.work files).1 =
      { w with
        session := w.session.tried ⟨files.loaded, line⟩
        atWork := []
        pending := w.pending ++ [⟨line, w.session.ending ⟨files.loaded, line⟩⟩] } := by
  unfold work
  rw [h]
  rfl

/-- The line that was launched is executed, and its result waits. -/
theorem Accounts.work {w : Window} {l : Ledger} (h : Accounts w l) (files : SettingsFiles) :
    Accounts (w.work files).1
      { l with executed := l.executed ++ (w.atWork.head?.map (⟨files.loaded, ·⟩)).toList } := by
  have hNone (hAtWork : w.atWork = []) : Accounts (w.work files).1
      { l with executed := l.executed ++ (w.atWork.head?.map (⟨files.loaded, ·⟩)).toList } := by
    rw [work_of_nil hAtWork, hAtWork]
    simpa using h
  cases h.stage with
  | idle launched executed active workers atWork pending => exact hNone atWork
  | working line launched executed active workers atWork pending =>
      rw [work_of_singleton atWork, atWork]
      refine ⟨.arriving ⟨files.loaded, line⟩ launched ?_ active workers rfl ?_, h.button, ?_,
        h.history, h.lastOutput, h.boxes⟩
      · show l.executed ++ [⟨files.loaded, line⟩] = _
        rw [executed]
      · show w.pending ++ [_] = _
        rw [pending, List.nil_append, h.session, executed]
      · show w.session.tried ⟨files.loaded, line⟩ =
          Session.afterAttempts {} (l.executed ++ [⟨files.loaded, line⟩])
        rw [h.session, Session.afterAttempts_concat]
  | arriving a launched executed active workers atWork pending => exact hNone atWork

/-! ## Arrivals -/

/-- The result that the window waits for is reported, and the window is idle again. -/
theorem Accounts.receive {w : Window} {l : Ledger} {a : Attempt} (h : Accounts w l)
    (hLaunched : l.launched.map (·.line) = l.delivered.map (·.line) ++ [a.line])
    (hExecuted : l.executed = l.delivered ++ [a]) (hWorkers : w.workers = [a.line])
    (hAtWork : w.atWork = [])
    (hPending : w.pending = [⟨a.line, (Session.afterAttempts {} l.delivered).ending a⟩]) :
    Accounts w.deliver.1
      { l with delivered := l.executed, boxes := l.boxes ++ w.deliver.2.boxes } := by
  rw [deliver_of_singleton hPending]
  have hJobs := jobs_concat {} l.delivered a
  rw [← hExecuted] at hJobs
  generalize hJob :
    (⟨a.line, (Session.afterAttempts {} l.delivered).ending a⟩ : Job) = job at hJobs
  obtain ⟨hSession, hActive, hRest, hNoWork, hNone⟩ := receive_work { w with pending := [] } job
  refine ⟨.idle ?_ rfl hActive ?_ (hNoWork.trans hAtWork) hNone, receive_buttonTells _ _,
    hSession.trans h.session, ?_, ?_, ?_⟩
  · show l.launched.map _ = l.executed.map _
    rw [hLaunched, hExecuted, List.map_append, List.map_singleton]
  · rw [hRest, hWorkers, ← hJob]
    simp
  · rw [receive_history, h.history, hJobs, List.flatMap_append, List.flatMap_singleton]
  · rw [receive_lastOutput, h.lastOutput, hJobs, List.filterMap_append]
    cases hResponse : job.response? with
    | none => simp [hResponse]
    | some text => simp [hResponse]
  · show List.Forall₂ _ (l.boxes ++ _) ((jobs {} l.executed).filterMap _)
    rw [hJobs, List.filterMap_append]
    refine List.rel_append h.boxes ?_
    have hBoxes := receive_boxes { w with pending := [] } job
    cases hShown : job.shown? with
    | none => simpa [hShown] using hBoxes
    | some shown => simpa [hShown] using hBoxes

/-- Whatever waits arrives. -/
theorem Accounts.deliver {w : Window} {l : Ledger} (h : Accounts w l) :
    Accounts w.deliver.1
      { l with delivered := l.executed, boxes := l.boxes ++ w.deliver.2.boxes } := by
  have hNone (hPending : w.pending = []) (hExecuted : l.executed = l.delivered) :
      Accounts w.deliver.1
        { l with delivered := l.executed, boxes := l.boxes ++ w.deliver.2.boxes } := by
    rw [deliver_of_nil hPending]
    obtain ⟨launched, executed, delivered, boxes⟩ := l
    obtain rfl : executed = delivered := hExecuted
    simpa using h
  cases h.stage with
  | idle launched executed active workers atWork pending => exact hNone pending executed
  | working line launched executed active workers atWork pending => exact hNone pending executed
  | arriving a launched executed active workers atWork pending =>
      exact h.receive launched executed workers atWork pending

/-! ## Whole scripts -/

theorem accounts_opening (files : SettingsFiles) :
    Accounts (Scene.opening files).window {} :=
  ⟨.idle rfl rfl rfl rfl rfl rfl, buttonTells_updateRunButton _, rfl, rfl, rfl, .nil⟩

/-- What the window makes of an event that it admits. -/
theorem next_event {sc : Scene} {event : Event} (h : sc.admits event = true) :
    sc.next (.event event) =
      { sc with
        files := (sc.window.step sc.files event).1
        window := (sc.window.step sc.files event).2.1 } := by
  simp only [Scene.next, Scene.step, h, if_true]

/-- The dialog is modal: what the user does does not reach the window. -/
theorem next_of_dialog {sc : Scene} {d : Dialog} {event : Event} (hDialog : sc.dialog = some d)
    (hUser : event.isOfUser = true) : sc.next (.event event) = sc := by
  have hAdmits : sc.admits event = false := by simp [Scene.admits, hDialog, hUser]
  simp [Scene.next, Scene.step, hAdmits]

/-- A worker executes its line whether or not the dialog is open. -/
theorem next_work (sc : Scene) :
    sc.next (.event .work) = { sc with window := (sc.window.work sc.files).1 } :=
  next_event (by simp [Scene.admits, Event.isOfUser])

/-- Results arrive whether or not the dialog is open. -/
theorem step_deliver (sc : Scene) :
    sc.step (.event .deliver) = ({ sc with window := sc.window.deliver.1 }, sc.window.deliver.2) := by
  have hAdmits : sc.admits .deliver = true := by simp [Scene.admits, Event.isOfUser]
  simp only [Scene.step, hAdmits, if_true]
  rfl

/-- While the settings dialog is opened, used and closed, or the files are changed, the window
does nothing but load its settings again. -/
theorem window_next {sc : Scene} {m : Moment} (h : ∀ event, m ≠ .event event) :
    (sc.next m).window = sc.window ∨ ∃ files, (sc.next m).window = sc.window.reload files := by
  cases m with
  | event event => exact absurd rfl (h event)
  | openDialog =>
      simp only [Scene.next, Scene.step]
      split <;> exact Or.inl rfl
  | useDialog action =>
      simp only [Scene.next, Scene.step]
      split
      · exact Or.inl rfl
      · simp only [Scene.use]
        split
        · exact Or.inr ⟨_, rfl⟩
        · exact Or.inl rfl
  | leaveDialog =>
      simp only [Scene.next, Scene.step]
      split
      · exact Or.inl rfl
      · exact Or.inr ⟨_, rfl⟩
  | changeFiles files => exact Or.inl rfl

theorem sameWork_next {sc : Scene} {m : Moment} (h : ∀ event, m ≠ .event event) :
    SameWork sc.window (sc.next m).window := by
  rcases window_next h with hWindow | ⟨files, hWindow⟩
  · rw [hWindow]
    exact .refl _
  · rw [hWindow]
    exact sameWork_reload _ _

/-- A command is launched by an idle window and an event that reaches it. -/
theorem next_of_launched {sc : Scene} {m : Moment} {a : Attempt} (h : launched? sc m = some a) :
    a.loaded = sc.files.loaded ∧ sc.window.active = false ∧
      ∃ input, sc.next m = { sc with window := { sc.window with input }.launching a.line } := by
  cases m with
  | event event =>
      simp only [launched?] at h
      split at h
      · rename_i hFree
        obtain ⟨hDialog, hIdle⟩ := Bool.and_eq_true_iff.1 hFree
        obtain ⟨line, hAttempt, rfl⟩ := Option.map_eq_some_iff.1 h
        obtain ⟨input, hPressed, hLine⟩ := Option.bind_eq_some_iff.1 hAttempt
        have hActive : sc.window.active = false := by simpa using hIdle
        refine ⟨rfl, hActive, input, ?_⟩
        rw [next_event (by simp [Scene.admits, hDialog]), step_of_pressed hPressed, launch_eq,
          hLine]
        simp [hActive]
      · exact absurd h (by simp)
  | _ => exact absurd h (by simp [launched?])

/-- An event of the user that launches nothing leaves the work of the window alone. -/
theorem sameWork_event {sc : Scene} {event : Event} (hUser : event.isOfUser = true)
    (h : launched? sc (.event event) = none) :
    SameWork sc.window (sc.next (.event event)).window := by
  cases hDialog : sc.dialog with
  | some d =>
      rw [next_of_dialog hDialog hUser]
      exact .refl _
  | none =>
      rw [next_event (by simp [Scene.admits, hDialog])]
      cases hPressed : sc.window.pressed? event with
      | none => exact sameWork_step hPressed hUser
      | some input =>
          rw [step_of_pressed hPressed]
          refine (SameWork.input sc.window input).trans ?_
          by_cases hActive : sc.window.active = true
          · exact sameWork_launch hActive
          · have hLine : commandLine? input = none := by
              simpa [launched?, attempt?, hDialog, hActive, hPressed] using h
            rw [launch_eq, hLine]
            exact .refl _

/-- The part that a moment has in the work of the window, and what the ledger notes of it. -/
inductive Part (sc : Scene) : Moment → Prop where
  | work : Part sc (.event .work)
  | deliver : Part sc (.event .deliver)
  | launch {m : Moment} (a : Attempt) (launched : launched? sc m = some a)
      (record : ∀ l : Ledger, l.record sc m = { l with launched := l.launched ++ [a] }) : Part sc m
  | other {m : Moment} (same : SameWork sc.window (sc.next m).window)
      (record : ∀ l : Ledger, l.record sc m = l) : Part sc m

/-- A moment that is noted for its launch has no part if it launches nothing. -/
theorem Part.of_record {sc : Scene} {m : Moment}
    (hRecord : ∀ l : Ledger,
      l.record sc m = { l with launched := l.launched ++ (launched? sc m).toList })
    (hQuiet : launched? sc m = none → SameWork sc.window (sc.next m).window) : Part sc m := by
  cases hLaunched : launched? sc m with
  | none =>
      refine .other (hQuiet hLaunched) fun l => ?_
      rw [hRecord, hLaunched, Option.toList_none, List.append_nil]
  | some a =>
      refine .launch a hLaunched fun l => ?_
      rw [hRecord, hLaunched]
      rfl

theorem part (sc : Scene) (m : Moment) : Part sc m := by
  cases m with
  | event event =>
      cases event with
      | work => exact .work
      | deliver => exact .deliver
      | _ => exact .of_record (fun l => rfl) fun hNone => sameWork_event rfl hNone
  | _ => exact .of_record (fun l => rfl) fun _ => sameWork_next (by simp)

/-- The window agrees with the ledger after every moment. -/
theorem Accounts.next {sc : Scene} {l : Ledger} (h : Accounts sc.window l) (m : Moment) :
    Accounts (sc.next m).window (l.record sc m) := by
  cases part sc m with
  | work =>
      rw [next_work]
      exact h.work sc.files
  | deliver =>
      simp only [Scene.next, Ledger.record, step_deliver]
      exact h.deliver
  | launch a launched record =>
      obtain ⟨-, hIdle, input, hNext⟩ := next_of_launched launched
      rw [hNext, record]
      exact (h.sameWork (.input sc.window input)).launch hIdle a
  | other same record =>
      rw [record]
      exact h.sameWork same

theorem accounts_book (files : SettingsFiles) (script : List Moment) :
    Accounts (book files script).1.window (book files script).2 := by
  induction script using List.reverseRecOn with
  | nil => exact accounts_opening files
  | append_singleton script m ih =>
      rw [book_concat]
      exact ih.next m

/-! ## Workers that do not wait -/

/-- The script in which the worker executes its line right after each moment. -/
def promptly (script : List Moment) : List Moment :=
  script.flatMap fun m => [m, .event .work]

/-- No line waits to be executed, and each was executed under the settings of its launch. -/
def CaughtUp (w : Window) (l : Ledger) : Prop := w.atWork = [] ∧ l.executed = l.launched

/-- Without a line to be executed, a worker has nothing to do. -/
theorem CaughtUp.work {sc : Scene} {l : Ledger} (h : CaughtUp sc.window l) :
    CaughtUp (sc.next (.event .work)).window (l.record sc (.event .work)) := by
  rw [next_work, work_of_nil h.1]
  exact ⟨h.1, by simp [Ledger.record, executed?, h.1, h.2]⟩

/-- An arrival leaves the lines alone that are to be executed. -/
theorem Accounts.deliver_atWork {w : Window} {l : Ledger} (h : Accounts w l) :
    w.deliver.1.atWork = w.atWork := by
  cases h.stage with
  | idle launched executed active workers atWork pending => rw [deliver_of_nil pending]
  | working line launched executed active workers atWork pending => rw [deliver_of_nil pending]
  | arriving a launched executed active workers atWork pending =>
      rw [deliver_of_singleton pending]
      exact (receive_work _ _).2.2.2.1

/-- A line that is launched is executed under the settings of its launch if the worker executes it
at once. -/
theorem CaughtUp.next {sc : Scene} {l : Ledger} (h : CaughtUp sc.window l)
    (hAccounts : Accounts sc.window l) (m : Moment) :
    CaughtUp ((sc.next m).next (.event .work)).window
      ((l.record sc m).record (sc.next m) (.event .work)) := by
  cases part sc m with
  | work => exact h.work.work
  | deliver =>
      refine CaughtUp.work ⟨?_, h.2⟩
      rw [Scene.next, step_deliver]
      exact hAccounts.deliver_atWork.trans h.1
  | launch a launched record =>
      obtain ⟨hLoaded, -, input, hNext⟩ := next_of_launched launched
      have hAtWork : (sc.next m).window.atWork = [a.line] := by
        rw [hNext]
        show sc.window.atWork ++ [a.line] = [a.line]
        rw [h.1, List.nil_append]
      have hExecuted : executed? (sc.next m) = some a := by
        unfold executed?
        rw [hAtWork, hNext, ← hLoaded]
        rfl
      rw [next_work, work_of_singleton hAtWork, record]
      refine ⟨rfl, ?_⟩
      show l.executed ++ (executed? (sc.next m)).toList = l.launched ++ [a]
      rw [hExecuted, h.2]
      rfl
  | other same record =>
      rw [record]
      exact CaughtUp.work ⟨same.atWork.trans h.1, h.2⟩

theorem caughtUp_promptly (files : SettingsFiles) (script : List Moment) :
    CaughtUp (book files (promptly script)).1.window (book files (promptly script)).2 := by
  induction script using List.reverseRecOn with
  | nil => exact ⟨rfl, rfl⟩
  | append_singleton script m ih =>
      have hScript : promptly (script ++ [m]) = (promptly script ++ [m]) ++ [.event .work] := by
        simp [promptly]
      rw [hScript, book_concat, book_concat]
      exact ih.next (accounts_book files (promptly script)) m

/-! ## One command at a time -/

/-- What has not arrived is nothing, or the one command that the window waits for. -/
theorem Accounts.underway {w : Window} {l : Ledger} (h : Accounts w l) :
    l.launched.map (·.line) = l.delivered.map (·.line) ++ l.underway.map (·.line) ∧
      ((w.active = false ∧ l.underway = []) ∨ (w.active = true ∧ ∃ a, l.underway = [a])) ∧
      w.workers = l.underway.map (·.line) := by
  have hMap : l.underway.map (·.line) =
      (l.launched.map (·.line)).drop (l.delivered.map (·.line)).length := by
    rw [List.length_map, ← List.map_drop]
    rfl
  have hOne {line : String}
      (hLaunched : l.launched.map (·.line) = l.delivered.map (·.line) ++ [line]) :
      l.underway.map (·.line) = [line] := by
    rw [hMap, hLaunched, List.drop_left]
  have hLength {line : String} (hLines : l.underway.map (·.line) = [line]) :
      ∃ a, l.underway = [a] := by
    rw [← List.length_eq_one_iff, ← List.length_map (·.line), hLines]
    rfl
  cases h.stage with
  | idle launched executed active workers atWork pending =>
      have hNone : l.underway.map (·.line) = [] := by rw [hMap, launched, List.drop_length]
      refine ⟨?_, Or.inl ⟨active, List.map_eq_nil_iff.1 hNone⟩, workers.trans hNone.symm⟩
      rw [hNone, List.append_nil, launched]
  | working line launched executed active workers atWork pending =>
      have hLines := hOne launched
      refine ⟨?_, Or.inr ⟨active, hLength hLines⟩, workers.trans hLines.symm⟩
      rw [hLines, launched]
  | arriving a launched executed active workers atWork pending =>
      have hLines := hOne launched
      refine ⟨?_, Or.inr ⟨active, hLength hLines⟩, workers.trans hLines.symm⟩
      rw [hLines, launched]

/-- Each launched line has been executed or is at work, and each execution has arrived or waits. -/
theorem Accounts.executed {w : Window} {l : Ledger} (h : Accounts w l) :
    l.launched.map (·.line) = l.executed.map (·.line) ++ w.atWork ∧
      l.delivered <+: l.executed ∧
      w.pending = (jobs {} l.executed).drop l.delivered.length := by
  cases h.stage with
  | idle launched executed active workers atWork pending =>
      rw [executed, atWork, List.append_nil, pending, ← length_jobs {}, List.drop_length]
      exact ⟨launched, List.prefix_rfl, rfl⟩
  | working line launched executed active workers atWork pending =>
      rw [executed, atWork, pending, ← length_jobs {}, List.drop_length]
      exact ⟨launched, List.prefix_rfl, rfl⟩
  | arriving a launched executed active workers atWork pending =>
      rw [executed, atWork, pending, jobs_concat, ← length_jobs {}, List.drop_left]
      exact ⟨by simpa using launched, List.prefix_append _ _, rfl⟩

/-- A command that is wanted while another one is under way is refused. -/
theorem step_of_attempt {sc : Scene} {event : Event} {line : String}
    (hActive : sc.window.active = true) (hDialog : sc.dialog = none)
    (hAttempt : sc.window.attempt? event = some line) :
    ∃ input, sc.window.pressed? event = some input ∧
      sc.step (.event event) =
        ({ sc with window := { sc.window with input } },
          { boxes := [sc.window.errorBox (shownFailure line ⟨.commandRunning, some line⟩)] }) := by
  obtain ⟨input, hPressed, hLine⟩ := Option.bind_eq_some_iff.1 hAttempt
  refine ⟨input, hPressed, ?_⟩
  have hAdmits : sc.admits event = true := by simp [Scene.admits, hDialog]
  simp only [Scene.step, hAdmits, if_true, step_of_pressed hPressed, launch_eq, hLine, hActive]
  rfl

/--
The window runs each launched command once, and one at a time.  After every script,

* at most one command is under way; the window is active and its button shows `X` if there is
  one, which is then the only worker;
* each launched line has been executed once, in order, except for one that is at work, and the
  result of each execution has arrived or waits;
* a command that is wanted meanwhile is refused: a box tells so, and nothing changes except that
  a pasted text is in the input line;
* the session is what the executed lines make of a new one, each with the settings of its
  execution; if the worker executes each line at once, these are the launched lines, each with
  the settings of its launch;
* each result that arrived has been reported: the history and the latest response come from the
  successes, and a box was shown for each error, in the order of the launches.
-/
theorem one_command_at_a_time (files : SettingsFiles) (script : List Moment) :
    let sc := (book files script).1
    let l := (book files script).2
    (l.launched.map (·.line) = l.delivered.map (·.line) ++ l.underway.map (·.line) ∧
      l.underway.length ≤ 1 ∧
      (sc.window.active = true ↔ l.underway.length = 1) ∧
      (sc.window.runText = "X" ↔ l.underway.length = 1) ∧
      sc.window.workers = l.underway.map (·.line)) ∧
    (l.launched.map (·.line) = l.executed.map (·.line) ++ sc.window.atWork ∧
      l.delivered <+: l.executed ∧
      sc.window.pending = (jobs {} l.executed).drop l.delivered.length) ∧
    (∀ event line, l.underway ≠ [] → sc.dialog = none →
      sc.window.attempt? event = some line →
      ∃ input box, sc.window.pressed? event = some input ∧
        box.Shows (shownFailure line ⟨.commandRunning, some line⟩) ∧
        sc.step (.event event) =
          ({ sc with window := { sc.window with input } }, { boxes := [box] })) ∧
    (sc.window.session = Session.afterAttempts {} l.executed ∧
      ∀ moments, script = promptly moments →
        l.executed = l.launched ∧ sc.window.session = Session.afterAttempts {} l.launched) ∧
    sc.window.history = (jobs {} l.delivered).flatMap Job.paragraphs ∧
    sc.window.lastOutput = ((jobs {} l.delivered).filterMap Job.response?).getLast?.getD "" ∧
    List.Forall₂ Box.Shows l.boxes ((jobs {} l.delivered).filterMap Job.shown?) := by
  intro sc l
  have hAccounts : Accounts sc.window l := accounts_book files script
  obtain ⟨hLaunched, hUnderway, hWorkers⟩ := hAccounts.underway
  have hActive : sc.window.active = true ↔ l.underway.length = 1 := by
    rcases hUnderway with ⟨hActive, hNone⟩ | ⟨hActive, a, hOne⟩
    · simp [hActive, hNone]
    · simp [hActive, hOne]
  have hAtMostOne : l.underway.length ≤ 1 := by
    rcases hUnderway with ⟨-, hNone⟩ | ⟨-, a, hOne⟩
    · simp [hNone]
    · simp [hOne]
  refine ⟨⟨hLaunched, hAtMostOne, hActive, hAccounts.button.trans hActive, hWorkers⟩,
    hAccounts.executed, ?_, ⟨hAccounts.session, ?_⟩, hAccounts.history, hAccounts.lastOutput,
    hAccounts.boxes⟩
  · intro event line hBusy hDialog hAttempt
    have hLength : l.underway.length = 1 :=
      le_antisymm hAtMostOne (List.length_pos_iff.2 hBusy)
    obtain ⟨input, hPressed, hStep⟩ := step_of_attempt (hActive.2 hLength) hDialog hAttempt
    exact ⟨input, _, hPressed, errorBox_shows _ _, hStep⟩
  · rintro moments rfl
    have hExecuted : l.executed = l.launched := (caughtUp_promptly files moments).2
    exact ⟨hExecuted, hExecuted ▸ hAccounts.session⟩

end

attribute [local instance] Elementary.specialArguments

/-- A line is launched, the settings dialog is opened and left, and another line is typed; the
worker executes the first line while the dialog is open. -/
def busyScript : List Moment :=
  [.event (.type " EXPR x ^ 2 "), .event .run, .openDialog, .event .work, .leaveDialog,
    .event (.type "DER")]

/-- The other line is refused; once the result has arrived, the history tells of the first one.
Had the worker not waited, it would have executed the line under the settings of its launch. -/
theorem refused_while_busy :
    (book {} busyScript).2.underway ≠ [] ∧ (book {} busyScript).1.dialog = none ∧
    (book {} busyScript).1.window.attempt? .run = some "DER" ∧
    (∃ input box, (book {} busyScript).1.window.pressed? .run = some input ∧
      box.Shows (shownFailure "DER" ⟨.commandRunning, some "DER"⟩) ∧
      (book {} busyScript).1.step (.event .run) =
        ({ (book {} busyScript).1 with window := { (book {} busyScript).1.window with input } },
          { boxes := [box] })) ∧
    (book {} (busyScript ++ [.event .deliver])).1.window.history = ["> EXPR x ^ 2"] ∧
    (book {} (promptly busyScript)).2.executed.length = 1 ∧
    (book {} (promptly busyScript)).2.executed = (book {} (promptly busyScript)).2.launched := by
  have hBusy : (book {} busyScript).2.underway ≠ [] := by
    intro hNone
    have hLength : (book {} busyScript).2.underway.length = 1 := by decide +kernel
    rw [hNone] at hLength
    exact absurd hLength (by decide)
  have hAttempt : (book {} busyScript).1.window.attempt? .run = some "DER" := by decide +kernel
  have hRefused := (one_command_at_a_time {} busyScript).2.2.1 .run "DER" hBusy rfl hAttempt
  have hPrompt := (one_command_at_a_time {} (promptly busyScript)).2.2.2.1.2 busyScript rfl
  exact ⟨hBusy, rfl, hAttempt, hRefused, by decide +kernel, by decide +kernel, hPrompt.1⟩

end DerivCalc.Window
