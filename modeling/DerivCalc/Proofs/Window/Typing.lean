import DerivCalc.Proofs.Window.Ledger

/-!
# Typing while a command runs

Beside the window we follow what the user last left in the input line: typing replaces it, a
button puts its word in front of it, and a paste appends to it, whether or not the command that
is wanted with it is launched.  As long as no result arrives this is what the input line holds.

A result that is an error leaves the line alone when it arrives.  A success clears it, and the
line it clears is not the one that was launched but the one that stands there by then.  So a line
that was typed in the meantime survives errors only.
-/

namespace DerivCalc.Window

open Session (Attempt)

/-! ## The line as the user left it -/

/-- What an event of the user makes of the input line. -/
def Event.edit (line : String) : Event → String
  | .type text => text
  | .command button => insertCommand line button
  | .paste clipboard => line ++ clipboard
  | _ => line

/-- Only the user edits the line. -/
theorem Event.edit_of_not_isOfUser {event : Event} (h : event.isOfUser = false) (line : String) :
    event.edit line = line := by
  cases event with
  | work => rfl
  | deliver => rfl
  | _ => exact absurd h (by simp [Event.isOfUser])

/-- What a moment makes of the line, if the event of the user reaches the window. -/
def Scene.edit (sc : Scene) (line : String) : Moment → String
  | .event event => if sc.dialog.isNone then event.edit line else line
  | _ => line

theorem launch_input (w : Window) : w.launch.1.input = w.input := by
  rw [launch_eq]
  cases commandLine? w.input with
  | none => rfl
  | some line => cases hActive : w.active <;> rfl

theorem reload_input (files : SettingsFiles) (w : Window) : (w.reload files).input = w.input := by
  rcases reload_eq files w with hEq | ⟨settings, hEq⟩
  · rw [hEq]
  · rw [hEq]
    rfl

/-- A success clears whatever stands in the input line, and an error leaves it. -/
theorem receive_input (w : Window) (job : Job) :
    (w.receive job).1.input =
      match job.outcome with
      | .error _ => w.input
      | .ok _ => "" := by
  unfold receive
  cases job.outcome with
  | error shown => rfl
  | ok response => rfl

section

variable [Elementary]

/-- The line as the user has left it after a script, whatever the window did with it. -/
def Scene.typed (sc : Scene) (line : String) : List Moment → String
  | [] => line
  | m :: script => (sc.next m).typed (sc.edit line m) script

theorem typed_append (sc : Scene) (line : String) (first second : List Moment) :
    sc.typed line (first ++ second) = (sc.play first).typed (sc.typed line first) second := by
  induction first generalizing sc line with
  | nil => rfl
  | cons m first ih => exact ih _ _

theorem work_input (files : SettingsFiles) (w : Window) : (w.work files).1.input = w.input := by
  unfold work
  cases w.atWork with
  | nil => rfl
  | cons line rest => rfl

/-- The window takes over every edit, and a worker makes none. -/
theorem step_input (files : SettingsFiles) (w : Window) {event : Event}
    (h : event = .deliver → w.pending = []) :
    (w.step files event).2.1.input = event.edit w.input := by
  cases event with
  | type text => rfl
  | command button => rfl
  | copy => rfl
  | paste clipboard =>
      simp only [step, paste, Event.edit]
      split
      · rename_i hNone
        rw [hNone, String.append_empty]
      · split
        · rw [launch_input]
        · rfl
  | run => exact launch_input w
  | openSettings actions =>
      simp only [step, openSettings, Event.edit]
      split
      · rfl
      · exact reload_input _ w
  | work => exact work_input files w
  | deliver =>
      show w.deliver.1.input = w.input
      rw [deliver_of_nil (h rfl)]

/-- Nothing but an arrival takes the line from the user. -/
theorem next_input {sc : Scene} {m : Moment}
    (h : m = .event .deliver → sc.window.pending = []) :
    (sc.next m).window.input = sc.edit sc.window.input m := by
  have hOther (hEvent : ∀ event, m ≠ .event event) :
      (sc.next m).window.input = sc.window.input := by
    rcases window_next hEvent with hWindow | ⟨files, hWindow⟩
    · rw [hWindow]
    · rw [hWindow, reload_input]
  cases m with
  | event event =>
      have hStep : (sc.window.step sc.files event).2.1.input = event.edit sc.window.input :=
        step_input _ _ fun hDeliver => h (congrArg _ hDeliver)
      cases hDialog : sc.dialog with
      | none =>
          rw [next_event (by simp [Scene.admits, hDialog]), hStep]
          simp [Scene.edit, hDialog]
      | some d =>
          cases hUser : event.isOfUser with
          | true =>
              rw [next_of_dialog hDialog hUser]
              simp [Scene.edit, hDialog]
          | false =>
              rw [next_event (by simp [Scene.admits, hUser]), hStep,
                Event.edit_of_not_isOfUser hUser]
              simp [Scene.edit, hDialog]
  | _ => exact hOther (by simp)

/-! ## What waits meanwhile -/

/-- While a command is under way, nothing but its execution and its arrival changes the work of
the window. -/
theorem sameWork_of_active {sc : Scene} {m : Moment} (hActive : sc.window.active = true)
    (hWork : m = .event .work → sc.window.atWork = [])
    (hDeliver : m = .event .deliver → sc.window.pending = []) :
    SameWork sc.window (sc.next m).window := by
  cases part sc m with
  | work =>
      rw [next_work, work_of_nil (hWork rfl)]
      exact .refl _
  | deliver =>
      rw [Scene.next, step_deliver, deliver_of_nil (hDeliver rfl)]
      exact .refl _
  | launch a launched record =>
      exact absurd ((next_of_launched launched).2.1.symm.trans hActive) (by simp)
  | other same record => exact same

/-- While a command is under way and is neither executed nor arrives, the work of the window stays
as it is, and the input line is as the user leaves it. -/
theorem play_of_active {sc : Scene} {script : List Moment} (hActive : sc.window.active = true)
    (hWork : sc.window.atWork = [] ∨ ∀ m ∈ script, m ≠ .event .work)
    (hDeliver : sc.window.pending = [] ∨ ∀ m ∈ script, m ≠ .event .deliver) :
    SameWork sc.window (sc.play script).window ∧
      (sc.play script).window.input = sc.typed sc.window.input script := by
  induction script generalizing sc with
  | nil => exact ⟨.refl _, rfl⟩
  | cons m script ih =>
      have hSame : SameWork sc.window (sc.next m).window :=
        sameWork_of_active hActive
          (fun hEq => hWork.resolve_right fun h => h m List.mem_cons_self hEq)
          (fun hEq => hDeliver.resolve_right fun h => h m List.mem_cons_self hEq)
      have hInput : (sc.next m).window.input = sc.edit sc.window.input m :=
        next_input fun hEq => hDeliver.resolve_right fun h => h m List.mem_cons_self hEq
      have hRest := ih (hSame.active.trans hActive)
        (hWork.imp hSame.atWork.trans fun h other hMem => h other (List.mem_cons_of_mem m hMem))
        (hDeliver.imp hSame.pending.trans fun h other hMem =>
          h other (List.mem_cons_of_mem m hMem))
      refine ⟨hSame.trans hRest.1, ?_⟩
      rw [Scene.play_cons, hRest.2, hInput]
      rfl

/-- A command that was launched is at work until it is executed. -/
theorem Accounts.play_launched {sc : Scene} {l : Ledger} (h : Accounts sc.window l) {m : Moment}
    {a : Attempt} (hLaunched : launched? sc m = some a) {first : List Moment}
    (hFirst : ∀ other ∈ first, other ≠ .event .work) :
    (sc.play (m :: first)).window.active = true ∧
      (sc.play (m :: first)).window.atWork = [a.line] ∧
      (sc.play (m :: first)).window.pending = [] ∧
      (sc.play (m :: first)).window.session = sc.window.session ∧
      (sc.play (m :: first)).window.input = sc.typed sc.window.input (m :: first) := by
  obtain ⟨-, hIdle, input, hNext⟩ := next_of_launched hLaunched
  obtain ⟨-, -, -, hAtWork, hPending⟩ := h.of_idle hIdle
  have hActive : (sc.next m).window.active = true := by rw [hNext]; rfl
  have hNone : (sc.next m).window.pending = [] := by
    rw [hNext]
    exact hPending
  obtain ⟨hSame, hInput⟩ := play_of_active hActive (Or.inr hFirst) (Or.inl hNone)
  rw [Scene.play_cons]
  refine ⟨hSame.active.trans hActive, hSame.atWork.trans ?_, hSame.pending.trans hNone,
    hSame.session.trans ?_, ?_⟩
  · rw [hNext]
    show sc.window.atWork ++ [a.line] = [a.line]
    rw [hAtWork, List.nil_append]
  · rw [hNext]
    rfl
  · rw [hInput, next_input fun _ => hPending]
    rfl

/-- A worker executes the line at work, and its result waits. -/
theorem next_work_of_singleton {sc : Scene} {line : String} (h : sc.window.atWork = [line]) :
    (sc.next (.event .work)).window.active = sc.window.active ∧
      (sc.next (.event .work)).window.atWork = [] ∧
      (sc.next (.event .work)).window.pending =
        sc.window.pending ++ [⟨line, sc.window.session.ending ⟨sc.files.loaded, line⟩⟩] := by
  rw [next_work]
  show (sc.window.work sc.files).1.active = _ ∧ (sc.window.work sc.files).1.atWork = _ ∧
    (sc.window.work sc.files).1.pending = _
  rw [work_of_singleton h]
  exact ⟨rfl, rfl, rfl⟩

/-- Once a command that was launched is executed, its result is the only one that waits, until it
arrives. -/
theorem Accounts.play_executed {sc : Scene} {l : Ledger} (h : Accounts sc.window l) {m : Moment}
    {a : Attempt} (hLaunched : launched? sc m = some a) {first rest : List Moment}
    (hFirst : ∀ other ∈ first, other ≠ .event .work)
    (hRest : ∀ other ∈ rest, other ≠ .event .deliver) :
    (sc.play (m :: first ++ .event .work :: rest)).window.pending =
        [⟨a.line, sc.window.session.ending ⟨(sc.play (m :: first)).files.loaded, a.line⟩⟩] ∧
      (sc.play (m :: first ++ .event .work :: rest)).window.input =
        sc.typed sc.window.input (m :: first ++ .event .work :: rest) := by
  obtain ⟨hActive, hAtWork, hPending, hSession, hInput⟩ := h.play_launched hLaunched hFirst
  obtain ⟨hStill, hDone, hResult⟩ := next_work_of_singleton hAtWork
  rw [hPending, hSession, List.nil_append] at hResult
  have hEdit : ((sc.play (m :: first)).next (.event .work)).window.input =
      (sc.play (m :: first)).edit (sc.play (m :: first)).window.input (.event .work) :=
    next_input (by simp)
  obtain ⟨hSame, hTyped⟩ := play_of_active (hStill.trans hActive) (Or.inl hDone) (Or.inr hRest)
  rw [Scene.play_append, typed_append, Scene.play_cons]
  refine ⟨hSame.pending.trans hResult, ?_⟩
  rw [hTyped, hEdit, hInput]
  rfl

/-! ## The arrival -/

/--
Whatever the user does to the input line between the launch of a command and the arrival of its
result, the line holds it until then, before and after a worker has executed the command.  The
arrival of an error leaves it there, and that of a success clears it.  So the line is kept exactly
if the result is an error or the user had left nothing in it.
-/
theorem input_at_arrival (files : SettingsFiles) (before first rest : List Moment) (m : Moment)
    (a : Attempt) (hLaunched : launched? ((Scene.opening files).play before) m = some a)
    (hFirst : ∀ other ∈ first, other ≠ .event .work)
    (hRest : ∀ other ∈ rest, other ≠ .event .deliver) :
    let sc := (Scene.opening files).play before
    let between := m :: first ++ .event .work :: rest
    let typed := sc.typed sc.window.input between
    let job : Job :=
      ⟨a.line, sc.window.session.ending ⟨(sc.play (m :: first)).files.loaded, a.line⟩⟩
    let arrived := sc.play (between ++ [.event .deliver])
    (sc.play (m :: first)).window.input = sc.typed sc.window.input (m :: first) ∧
    (sc.play between).window.input = typed ∧
    (arrived.window.input =
      match job.outcome with
      | .error _ => typed
      | .ok _ => "") ∧
    (arrived.window.input = typed ↔ (∃ shown, job.outcome = .error shown) ∨ typed = "") := by
  intro sc between typed job arrived
  have hAccounts : Accounts sc.window (book files before).2 := by
    have hBook := accounts_book files before
    rwa [book_fst] at hBook
  obtain ⟨-, -, -, -, hBefore⟩ := hAccounts.play_launched hLaunched hFirst
  obtain ⟨hPending, hTyped⟩ := hAccounts.play_executed hLaunched hFirst hRest
  have hArrived : arrived.window.input =
      match job.outcome with
      | .error _ => typed
      | .ok _ => "" := by
    show (sc.play (between ++ [.event .deliver])).window.input = _
    rw [Scene.play_append]
    show ((sc.play between).next (.event .deliver)).window.input = _
    rw [Scene.next, step_deliver]
    show (sc.play between).window.deliver.1.input = _
    rw [deliver_of_singleton hPending, receive_input]
    exact congrArg (fun line => match job.outcome with
      | .error _ => line
      | .ok _ => "") hTyped
  refine ⟨hBefore, hTyped, hArrived, ?_⟩
  rw [hArrived]
  cases job.outcome with
  | error shown => simp
  | ok response =>
      simp only [reduceCtorEq, exists_false, false_or]
      exact eq_comm

end

attribute [local instance] Elementary.specialArguments

/-- A derivative is wanted before there is an expression; meanwhile the next line is entered and,
too early, wanted as well. -/
theorem input_at_arrival_of_error :
    ∃ a, launched? ((Scene.opening {}).play [.event (.type "DER")]) (.event .run) = some a ∧
      ((Scene.opening {}).play [.event (.type "DER"), .event .run, .event (.type "x ^ 2"),
        .event (.command .eval), .event .work, .event (.paste " 3"), .event .run,
        .event .deliver]).window.input = "EVAL x ^ 2 3" := by
  refine ⟨⟨_, "DER"⟩, rfl, ?_⟩
  have hArrival := input_at_arrival {} [.event (.type "DER")]
    [.event (.type "x ^ 2"), .event (.command .eval)] [.event (.paste " 3"), .event .run]
    (.event .run) ⟨_, "DER"⟩ rfl (by simp) (by simp)
  exact (hArrival.2.2.2.2 (Or.inl ⟨_, rfl⟩)).trans (by decide +kernel)

/-- A line that was typed after the launch of another one is lost when that one succeeds. -/
theorem typed_line_cleared :
    ¬ ∀ (files : SettingsFiles) (before first rest : List Moment) (m : Moment) (a : Attempt),
      launched? ((Scene.opening files).play before) m = some a →
      (∀ other ∈ first, other ≠ .event .work) →
      (∀ other ∈ rest, other ≠ .event .deliver) →
      (((Scene.opening files).play before).play
          (m :: first ++ .event .work :: rest ++ [.event .deliver])).window.input =
        ((Scene.opening files).play before).typed
          ((Scene.opening files).play before).window.input
          (m :: first ++ .event .work :: rest) := by
  intro h
  have hKept := h {} [.event (.type "EXPR x")] [] [.event (.type "DER")] (.event .run)
    ⟨_, "EXPR x"⟩ rfl (by simp) (by simp)
  exact absurd hKept (by decide +kernel)

end DerivCalc.Window
