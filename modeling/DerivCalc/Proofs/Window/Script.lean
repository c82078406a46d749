import DerivCalc.Proofs.Settings
import DerivCalc.Window.Desktop

/-!
# Scripts of the window

The user of the window does one thing after the other, but a worker executes its line when it
gets round to it, results arrive when they like, both also while the settings dialog is open, and
the files of the settings can change at any time.  A script is a list of such moments; the dialog
takes part in it step by step, so that anything that does not come from the user can happen
between two of its steps.

Coarser steps are scripts too: `next_openSettings` takes the settings dialog as a whole apart,
and `ofDesktop_perform` a whole turn of the user.
-/

namespace DerivCalc.Window

/-- The window, its files, and the settings dialog while it is open. -/
structure Scene where
  files : SettingsFiles
  window : Window
  dialog : Option Dialog := none

/-- What can happen at one moment. -/
inductive Moment where
  /-- An event of the window; while the dialog is open, none of the user is one. -/
  | event (event : Event)
  /-- The settings dialog opens. -/
  | openDialog
  /-- The settings dialog is used. -/
  | useDialog (action : DialogAction)
  /-- The settings dialog is closed, unless one of its buttons has done so. -/
  | leaveDialog
  /-- Somebody else changes the files. -/
  | changeFiles (files : SettingsFiles)

/-- The event comes from the user, and not from a worker. -/
def Event.isOfUser : Event → Bool
  | .work => false
  | .deliver => false
  | _ => true

namespace Scene

/-- The event reaches the window: the dialog holds back what comes from the user. -/
def admits (sc : Scene) (event : Event) : Bool := sc.dialog.isNone || !event.isOfUser

/-- The window as it opens. -/
def opening (files : SettingsFiles) : Scene := { files, window := .opening files.load }

/-- The dialog is closed, and the window loads the settings again. -/
def close (sc : Scene) : Scene :=
  { sc with window := sc.window.reload sc.files, dialog := none }

/-- The dialog is used, and closed if a button has settled it. -/
def use (sc : Scene) (d : Dialog) (action : DialogAction) : Scene × Effects :=
  let (files, d, boxes) := d.act sc.files action
  let sc := { sc with files, dialog := some d }
  (if d.verdict.isSome then sc.close else sc, { boxes })

variable [Elementary]

/-- One moment. -/
def step (sc : Scene) : Moment → Scene × Effects
  | .event event =>
    if sc.admits event then
      let (files, window, effects) := sc.window.step sc.files event
      ({ sc with files, window }, effects)
    else (sc, {})
  | .openDialog =>
    match sc.dialog with
    | none => ({ sc with dialog := Dialog.open? sc.files }, {})
    | some _ => (sc, {})
  | .useDialog action =>
    match sc.dialog with
    | none => (sc, {})
    | some d => sc.use d action
  | .leaveDialog =>
    match sc.dialog with
    | none => (sc, {})
    | some _ => (sc.close, {})
  | .changeFiles files => ({ sc with files }, {})

/-- The scene after a moment. -/
def next (sc : Scene) (m : Moment) : Scene := (sc.step m).1

/-- The scene after a script. -/
def play (sc : Scene) (script : List Moment) : Scene := script.foldl next sc

theorem play_cons (sc : Scene) (m : Moment) (script : List Moment) :
    sc.play (m :: script) = (sc.next m).play script := rfl

theorem play_append (sc : Scene) (first second : List Moment) :
    sc.play (first ++ second) = (sc.play first).play second := List.foldl_append

/-! ## The dialog as a whole -/

/-- Without a dialog there is nothing to use or to leave. -/
theorem play_without_dialog (sc : Scene) (h : sc.dialog = none) (actions : List DialogAction) :
    sc.play (actions.map Moment.useDialog ++ [.leaveDialog]) = sc := by
  induction actions with
  | nil =>
      show (sc.step .leaveDialog).1 = sc
      simp only [step, h]
  | cons action rest ih =>
      have hNext : sc.next (.useDialog action) = sc := by
        simp only [next, step, h]
      rw [List.map_cons, List.cons_append, play_cons, hNext]
      exact ih

/-- An open dialog is used until a button or the user closes it. -/
theorem play_dialog (files : SettingsFiles) (w : Window) (d : Dialog) (h : d.verdict = none)
    (actions : List DialogAction) :
    ({ files, window := w, dialog := some d } : Scene).play
        (actions.map Moment.useDialog ++ [.leaveDialog]) =
      { files := (d.run files actions).1, window := w.reload (d.run files actions).1 } := by
  induction actions generalizing files d with
  | nil => rfl
  | cons action rest ih =>
      rw [List.map_cons, List.cons_append, play_cons]
      unfold Dialog.run
      by_cases hVerdict : (d.act files action).2.1.verdict.isSome = true
      · have hNext : next { files, window := w, dialog := some d } (.useDialog action) =
            { files := (d.act files action).1, window := w.reload (d.act files action).1 } := by
          simp only [next, step, use, hVerdict, if_true, close]
        rw [hNext, play_without_dialog _ rfl]
        simp only [hVerdict, if_true]
      · have hNext : next { files, window := w, dialog := some d } (.useDialog action) =
            { files := (d.act files action).1, window := w,
              dialog := some (d.act files action).2.1 } := by
          simp only [next, step, use, hVerdict]
          rfl
        rw [hNext, ih _ _ (by simpa using hVerdict)]
        simp only [hVerdict]
        rfl

omit [Elementary] in
/-- A dialog that opens shows the settings of that moment. -/
theorem eq_opened_of_open? {files : SettingsFiles} {d : Dialog} (h : Dialog.open? files = some d) :
    d = .opened files.load files.loadDescriptions := by
  unfold Dialog.open? at h
  split at h
  · rename_i hSettings hDescriptions
    obtain ⟨-, rfl⟩ := SettingsFiles.loaded_eq_ok_iff.1 hSettings
    obtain ⟨-, rfl⟩ := SettingsFiles.loadedDescriptions_eq_ok_iff.1 hDescriptions
    split at h
    · exact (Option.some.inj h).symm
    · exact absurd h (by simp)
  · exact absurd h (by simp)

/-- The settings dialog from its opening to its end, if nothing comes in between. -/
theorem next_openSettings (sc : Scene) (h : sc.dialog = none) (actions : List DialogAction) :
    sc.next (.event (.openSettings actions)) =
      sc.play (.openDialog :: (actions.map Moment.useDialog ++ [.leaveDialog])) := by
  obtain ⟨files, w, dialog⟩ := sc
  obtain rfl : dialog = none := h
  have hOpen : next { files, window := w } .openDialog =
      { files, window := w, dialog := Dialog.open? files } := rfl
  rw [play_cons, hOpen]
  show (({ files, window := w } : Scene).step (.event (.openSettings actions))).1 = _
  cases hDialog : Dialog.open? files with
  | none =>
      rw [play_without_dialog _ rfl]
      simp [step, admits, Window.step, openSettings, hDialog]
  | some d =>
      rw [play_dialog files w d (by rw [eq_opened_of_open? hDialog]; rfl)]
      simp [step, admits, Window.step, openSettings, hDialog]

/-! ## A turn of the user -/

/-- The scene on a desktop. -/
def ofDesktop (d : Desktop) : Scene := { files := d.files, window := d.window }

theorem ofDesktop_stepAll (d : Desktop) (events : List Event) :
    ofDesktop (d.stepAll events).1 = (ofDesktop d).play (events.map Moment.event) := by
  induction events generalizing d with
  | nil => rfl
  | cons event rest ih => exact ih _

/-- A turn of the user changes the files and clipboard first, and then its events happen. -/
theorem ofDesktop_perform (d : Desktop) (action : Action) :
    ofDesktop (d.perform action).1 =
      (ofDesktop d).play (.changeFiles (d.prepare action).files ::
        (Desktop.events (d.prepare action).clipboard action).map Moment.event) :=
  ofDesktop_stepAll (d.prepare action) _

end Scene

end DerivCalc.Window
