import Mathlib.Data.List.Induction
import DerivCalc.Proofs.Settings
import DerivCalc.Proofs.Settings.Saving
import DerivCalc.Proofs.Window.Script

/-!
# What the settings dialog saves

An accepted OK saves the settings that the dialog holds then.  `Open` tells how a dialog can have
come to be open, with the entries that were shown at each OK that was refused.  Each of these
has left its values in the dialog, up to the first field that could not be read, so the
settings that are saved come from three sources: the entries as they are shown, for a blank field
the latest refused OK that took over its setting, and otherwise the settings at the opening.

`Saved` says what becomes of one setting and `AsShown` of all of them.  The entries and the
opening alone decide what is saved if no refused OK has taken over a setting whose field is blank
at the end; two tries at the same settings are enough for another outcome.
-/

namespace DerivCalc.Window

/-! ## What OK takes over -/

namespace Entry

/-- What OK reads from an entry: a value, nothing from a blank field, or what is wrong with it. -/
def shown (entry : Entry) : Except String (Option Json) :=
  match entry.editor with
  | .checkBox checked => .ok (some (.bool checked))
  | .field _ text =>
    match Text.strip text.toList with
    | [] => .ok none
    | word =>
      match fieldValue entry.key word with
      | .error message => .error message
      | .ok i => .ok (some (.int i))

/-- The key of an entry, and whether its editor is a check box. -/
def kind (entry : Entry) : String × Bool :=
  match entry.editor with
  | .checkBox _ => (entry.key, true)
  | .field _ _ => (entry.key, false)

theorem kind_fst (entry : Entry) : entry.kind.1 = entry.key := by
  unfold kind
  cases entry.editor <;> rfl

end Entry

namespace Dialog

/-- The value that OK takes over for a key; the entries after one that cannot be read are left. -/
def taken? (key : String) : List Entry → Option Json
  | [] => none
  | entry :: rest =>
    match entry.shown with
    | .error _ => none
    | .ok value => (taken? key rest).or (if entry.key = key then value else none)

theorem takeOver_cons (settings : Settings) (entry : Entry) (rest : List Entry) :
    takeOver settings (entry :: rest) =
      match entry.shown with
      | .error message => (settings, some (fieldBox entry.key message))
      | .ok none => takeOver settings rest
      | .ok (some value) => takeOver (settings.put entry.key value) rest := by
  obtain ⟨key, caption, editor⟩ := entry
  cases editor with
  | checkBox checked => rfl
  | field placeholder text =>
      simp only [takeOver, Entry.shown]
      cases Text.strip text.toList with
      | nil => rfl
      | cons c word =>
          simp only
          cases fieldValue key (c :: word) <;> rfl

/-- Taking over changes the values of the settings and leaves their keys and order alone. -/
theorem takeOver_eq_map {settings : Settings} {entries : List Entry}
    (hNodup : settings.keys.Nodup) (hKeys : ∀ entry ∈ entries, entry.key ∈ settings.keys) :
    (takeOver settings entries).1 =
      settings.map fun field => (field.1, (taken? field.1 entries).getD field.2) := by
  induction entries generalizing settings with
  | nil => exact (List.map_id settings).symm
  | cons entry rest ih =>
      obtain ⟨hKey, hRest⟩ := List.forall_mem_cons.1 hKeys
      rw [takeOver_cons]
      simp only [taken?]
      cases entry.shown with
      | error message => exact (List.map_id settings).symm
      | ok value =>
          cases value with
          | none => simpa using ih hNodup hRest
          | some value =>
              have hPut := Json.Fields.put_eq_map hNodup hKey value
              have hSame : (settings.put entry.key value).keys = settings.keys := by
                rw [Json.Fields.keys_put, if_pos hKey]
              show (takeOver (settings.put entry.key value) rest).1 = _
              rw [ih (by rwa [hSame]) (by rwa [hSame]), hPut, List.map_map]
              refine List.map_congr_left fun field _ => ?_
              by_cases hField : field.1 = entry.key
              · cases hTaken : taken? entry.key rest <;> simp [hField, hTaken]
              · have hField' : entry.key ≠ field.1 := fun hEq => hField hEq.symm
                simp [hField, hField']

/-- If no box is shown, all entries could be read. -/
theorem shown_of_takeOver {settings : Settings} {entries : List Entry}
    (h : (takeOver settings entries).2 = none) :
    ∀ entry ∈ entries, ∃ value, entry.shown = .ok value := by
  induction entries generalizing settings with
  | nil => exact fun entry hMem => absurd hMem List.not_mem_nil
  | cons entry rest ih =>
      rw [takeOver_cons] at h
      cases hShown : entry.shown with
      | error message =>
          rw [hShown] at h
          exact absurd h (by simp)
      | ok value =>
          rw [hShown] at h
          refine List.forall_mem_cons.2 ⟨⟨value, hShown⟩, ?_⟩
          cases value with
          | none => exact ih h
          | some value => exact ih h

/-- Nothing is taken over for a key without an entry. -/
theorem taken?_eq_none {key : String} {entries : List Entry}
    (h : ∀ entry ∈ entries, entry.key ≠ key) : taken? key entries = none := by
  induction entries with
  | nil => rfl
  | cons entry rest ih =>
      obtain ⟨hKey, hRest⟩ := List.forall_mem_cons.1 h
      simp only [taken?]
      cases entry.shown with
      | error message => rfl
      | ok value => simp [ih hRest, hKey]

/-- If all entries can be read, what an entry shows is taken over for its key. -/
theorem taken?_of_mem {entries : List Entry} (hNodup : (entries.map Entry.key).Nodup)
    (hShown : ∀ entry ∈ entries, ∃ value, entry.shown = .ok value) {entry : Entry}
    (hMem : entry ∈ entries) {value : Option Json} (hValue : entry.shown = .ok value) :
    taken? entry.key entries = value := by
  induction entries with
  | nil => exact absurd hMem List.not_mem_nil
  | cons first rest ih =>
      obtain ⟨hFirst, hRest⟩ := List.nodup_cons.1 hNodup
      obtain ⟨⟨firstValue, hFirstValue⟩, hRestShown⟩ := List.forall_mem_cons.1 hShown
      simp only [taken?, hFirstValue]
      rcases List.mem_cons.1 hMem with rfl | hMemRest
      · have hNone : taken? entry.key rest = none :=
          taken?_eq_none fun other hOther hEq => hFirst (List.mem_map.2 ⟨other, hOther, hEq⟩)
        rw [hValue] at hFirstValue
        simpa [hNone] using (Except.ok.inj hFirstValue).symm
      · have hNe : first.key ≠ entry.key := fun hEq =>
          hFirst (List.mem_map.2 ⟨entry, hMemRest, hEq.symm⟩)
        simp [ih hRest hRestShown hMemRest, hNe]

/-! ## The open dialog -/

/-- What the latest refused OK left for a key that took it over. -/
def remembered (key : String) (refused : List (List Entry)) : Option Json :=
  refused.reverse.findSome? (taken? key)

/--
The dialog was opened with these settings and is still open.  `refused` are the entries that were
shown when OK was refused, in order; the files may have been changed from one action to the next.
-/
inductive Open (opening : Settings) (descriptions : Json.Fields) :
    List (List Entry) → Dialog → Prop
  | opened : Open opening descriptions [] (.opened opening descriptions)
  | act {refused : List (List Entry)} {d : Dialog} (hOpen : Open opening descriptions refused d)
      (files : SettingsFiles) (action : DialogAction)
      (hStays : (d.act files action).2.1.verdict = none) :
      Open opening descriptions
        (refused ++ if action.press = some .ok then [(d.act files action).2.1.entries] else [])
        (d.act files action).2.1

/-- The kind of entry that a setting has, if it has one. -/
def kind? : String × Json → Option (String × Bool)
  | (key, .bool _) => some (key, true)
  | (key, .int _) => some (key, false)
  | _ => none

/-- The entries are those of the settings. -/
def Fits (opening : Settings) (entries : List Entry) : Prop :=
  entries.map Entry.kind = opening.filterMap kind?

theorem fits_opened (opening : Settings) (descriptions : Json.Fields) :
    Fits opening (opened opening descriptions).entries := by
  unfold Fits opened
  rw [List.map_filterMap]
  refine List.filterMap_congr fun field _ => ?_
  obtain ⟨key, value⟩ := field
  cases value <;> rfl

theorem kind_editEntry (e : Edit) (entry : Entry) : (editEntry e entry).kind = entry.kind := by
  obtain ⟨key, caption, editor⟩ := entry
  cases e <;> cases editor <;> simp only [editEntry] <;> try split
  all_goals rfl

theorem Fits.edit {opening : Settings} {d : Dialog} (h : Fits opening d.entries) (e : Edit) :
    Fits opening (d.edit e).entries := by
  unfold Fits at h ⊢
  rw [← h]
  simp only [Dialog.edit, List.map_map]
  exact List.map_congr_left fun entry _ => kind_editEntry e entry

/-- The user changes entries only, and none of them in kind. -/
theorem foldl_edit {opening : Settings} {d : Dialog} (h : Fits opening d.entries)
    (edits : List Edit) :
    (edits.foldl edit d).settings = d.settings ∧ (edits.foldl edit d).verdict = d.verdict ∧
      Fits opening (edits.foldl edit d).entries := by
  induction edits generalizing d with
  | nil => exact ⟨rfl, rfl, h⟩
  | cons e rest ih => exact ih (h.edit e)

/-- A setting that is true or false has a check box, and an integer has a field. -/
theorem Fits.exists_entry {opening : Settings} {entries : List Entry} (h : Fits opening entries)
    {field : String × Json} (hField : field ∈ opening) {kind : String × Bool}
    (hKind : kind? field = some kind) : ∃ entry ∈ entries, entry.kind = kind := by
  have hMem : kind ∈ opening.filterMap kind? := List.mem_filterMap.2 ⟨field, hField, hKind⟩
  rw [← h] at hMem
  exact List.mem_map.1 hMem

theorem kind?_fst {field : String × Json} {kind : String × Bool} (h : kind? field = some kind) :
    kind.1 = field.1 := by
  obtain ⟨key, value⟩ := field
  cases value <;> simp [kind?] at h <;> rw [← h]

/-- Every entry belongs to a setting. -/
theorem Fits.exists_field {opening : Settings} {entries : List Entry} (h : Fits opening entries)
    {entry : Entry} (hEntry : entry ∈ entries) :
    ∃ field ∈ opening, kind? field = some entry.kind ∧ field.1 = entry.key := by
  have hMem : entry.kind ∈ entries.map Entry.kind := List.mem_map_of_mem hEntry
  rw [h] at hMem
  obtain ⟨field, hField, hKind⟩ := List.mem_filterMap.1 hMem
  exact ⟨field, hField, hKind, by rw [← kind?_fst hKind, entry.kind_fst]⟩

/-- A setting has one entry at most. -/
theorem Fits.nodup {opening : Settings} {entries : List Entry} (h : Fits opening entries)
    (hNodup : opening.keys.Nodup) : (entries.map Entry.key).Nodup := by
  have hKeys : entries.map Entry.key = (opening.filterMap kind?).map Prod.fst := by
    rw [← h, List.map_map]
    exact List.map_congr_left fun entry _ => entry.kind_fst.symm
  rw [hKeys]
  refine List.Pairwise.map _ (fun _ _ => id) ?_
  refine List.Pairwise.filterMap kind? ?_ (List.pairwise_map.1 hNodup)
  intro field other hNe kind hKind otherKind hOther
  rw [kind?_fst hKind, kind?_fst hOther]
  exact hNe

/-- A setting that is neither true nor false nor an integer has no entry. -/
theorem Fits.key_ne {opening : Settings} {entries : List Entry} (h : Fits opening entries)
    (hNodup : opening.keys.Nodup) {field : String × Json} (hField : field ∈ opening)
    (hKind : kind? field = none) : ∀ entry ∈ entries, entry.key ≠ field.1 := by
  intro entry hEntry hKey
  obtain ⟨other, hOther, hOtherKind, hOtherKey⟩ := h.exists_field hEntry
  have hEq : other = field :=
    List.inj_on_of_nodup_map hNodup hOther hField (hOtherKey.trans hKey)
  rw [hEq, hKind] at hOtherKind
  exact absurd hOtherKind (by simp)

/-! ## What is left in the dialog -/

/-- OK leaves the dialog open, with what it has taken over, or writes that to the file. -/
theorem accept_cases (files : SettingsFiles) (d : Dialog) :
    (∃ files' boxes, d.accept files =
      (files', { d with settings := (takeOver d.settings d.entries).1 }, boxes)) ∨
    ((takeOver d.settings d.entries).2 = none ∧ (d.accept files).2.1.verdict = some .accepted ∧
      (d.accept files).2.1.settings = (takeOver d.settings d.entries).1 ∧
      (d.accept files).2.1.entries = d.entries ∧
      (d.accept files).1.settings =
        some (Json.Writer.file (.obj (takeOver d.settings d.entries).1))) := by
  unfold accept
  obtain ⟨settings, box⟩ := takeOver d.settings d.entries
  cases box with
  | some box => exact Or.inl ⟨files, [box], rfl⟩
  | none =>
      unfold SettingsFiles.attemptSave
      cases hDisk : files.disk with
      | takes =>
          have hWritable : files.writable = true := SettingsFiles.writable_iff.2 hDisk
          -- without any setting, what is written looks like the answer for a file that did not open
          cases settings with
          | nil => exact Or.inl ⟨_, _, rfl⟩
          | cons field rest => exact Or.inr (by simp [SettingsFiles.write, hWritable])
      | refuses => exact Or.inl ⟨_, _, rfl⟩
      | faults => exact Or.inl ⟨_, _, rfl⟩
      | breaks kept => exact Or.inl ⟨_, _, rfl⟩

/-- After its edits, an action leaves the dialog, is the OK button or the Cancel button. -/
theorem act_cases (files : SettingsFiles) (d : Dialog) (action : DialogAction) :
    (action.press = none ∧ d.act files action = (files, action.edits.foldl edit d, [])) ∨
    (action.press = some .ok ∧
      d.act files action = (action.edits.foldl edit d).accept files) ∨
    (action.press = some .cancel ∧ (d.act files action).2.1.verdict = some .rejected) := by
  unfold act
  cases action.press with
  | none => exact Or.inl ⟨rfl, rfl⟩
  | some button =>
      cases button with
      | ok => exact Or.inr (Or.inl ⟨rfl, rfl⟩)
      | cancel => exact Or.inr (Or.inr ⟨rfl, rfl⟩)

theorem remembered_concat (key : String) (refused : List (List Entry)) (entries : List Entry) :
    remembered key (refused ++ [entries]) = (taken? key entries).or (remembered key refused) := by
  unfold remembered
  rw [List.reverse_append, List.findSome?_append]
  cases hTaken : taken? key entries <;> simp [hTaken]

/-- What is known of a dialog that is open. -/
structure Remembers (opening : Settings) (refused : List (List Entry)) (d : Dialog) : Prop where
  verdict : d.verdict = none
  settings : d.settings =
    opening.map fun field => (field.1, (remembered field.1 refused).getD field.2)
  fits : Fits opening d.entries
  refused_fit : ∀ entries ∈ refused, Fits opening entries

section

variable {opening : Settings} {refused : List (List Entry)} {d : Dialog}

/-- OK puts what is shown over what is left from before. -/
theorem Remembers.takeOver (h : Remembers opening refused d) (hNodup : opening.keys.Nodup)
    {entries : List Entry} (hFits : Fits opening entries) :
    (Dialog.takeOver d.settings entries).1 = opening.map fun field =>
      (field.1, ((taken? field.1 entries).or (remembered field.1 refused)).getD field.2) := by
  have hKeys : d.settings.keys = opening.keys := by
    rw [h.settings]
    unfold Json.Fields.keys
    rw [List.map_map]
    rfl
  have hEntries : ∀ entry ∈ entries, entry.key ∈ d.settings.keys := by
    intro entry hEntry
    obtain ⟨field, hField, -, hKey⟩ := hFits.exists_field hEntry
    rw [hKeys, ← hKey]
    exact List.mem_map.2 ⟨field, hField, rfl⟩
  rw [takeOver_eq_map (by rwa [hKeys]) hEntries, h.settings, List.map_map]
  refine List.map_congr_left fun field _ => ?_
  cases hTaken : taken? field.1 entries <;> simp [hTaken]

/-- A refused OK is remembered. -/
theorem Remembers.refuse (h : Remembers opening refused d) (hNodup : opening.keys.Nodup) :
    Remembers opening (refused ++ [d.entries])
      { d with settings := (Dialog.takeOver d.settings d.entries).1 } := by
  refine ⟨h.verdict, ?_, h.fits, ?_⟩
  · rw [h.takeOver hNodup h.fits]
    exact List.map_congr_left fun field _ => by rw [remembered_concat]
  · intro entries hMem
    rcases List.mem_append.1 hMem with hOld | hNew
    · exact h.refused_fit entries hOld
    · rw [List.mem_singleton.1 hNew]
      exact h.fits

/-- Edits change what is shown, and nothing that is left. -/
theorem Remembers.edit (h : Remembers opening refused d) (edits : List Edit) :
    Remembers opening refused (edits.foldl Dialog.edit d) := by
  obtain ⟨hSettings, hVerdict, hFits⟩ := foldl_edit h.fits edits
  exact ⟨hVerdict.trans h.verdict, hSettings.trans h.settings, hFits, h.refused_fit⟩

theorem Open.remembers {descriptions : Json.Fields} (h : Open opening descriptions refused d)
    (hNodup : opening.keys.Nodup) : Remembers opening refused d := by
  induction h with
  | opened =>
      refine ⟨rfl, ?_, fits_opened opening descriptions, by simp⟩
      show opening = _
      simp [remembered]
  | @act refused d _ files action hStays ih =>
      have hEdited := ih.edit action.edits
      rcases act_cases files d action with
        ⟨hPress, hAct⟩ | ⟨hPress, hAct⟩ | ⟨-, hRejected⟩
      · rw [hAct, hPress]
        simpa using hEdited
      · rw [hAct, hPress]
        rw [hAct] at hStays
        rcases accept_cases files (action.edits.foldl Dialog.edit d) with
          ⟨files', boxes, hRefused⟩ | ⟨-, hAccepted, -⟩
        · rw [hRefused]
          exact hEdited.refuse hNodup
        · exact absurd (hAccepted.symm.trans hStays) (by simp)
      · exact absurd (hRejected.symm.trans hStays) (by simp)

end

/-! ## How dialogs come to be open -/

/-- Every action in a run of the dialog finds it open, up to the one that closes it. -/
theorem Open.run {opening : Settings} {descriptions : Json.Fields} {refused : List (List Entry)}
    {d : Dialog} (h : Open opening descriptions refused d) (hNodup : opening.keys.Nodup)
    (files : SettingsFiles) (actions : List DialogAction)
    (hAccepted : (d.run files actions).2.1.verdict = some .accepted) :
    ∃ refused' d' files' action, Open opening descriptions refused' d' ∧
      (d.run files actions).1 = (d'.act files' action).1 ∧
      (d.run files actions).2.1 = (d'.act files' action).2.1 := by
  induction actions generalizing refused d files with
  | nil => exact absurd ((h.remembers hNodup).verdict.symm.trans hAccepted) (by simp)
  | cons action rest ih =>
      unfold Dialog.run at hAccepted ⊢
      cases hVerdict : (d.act files action).2.1.verdict with
      | some verdict =>
          simp only [hVerdict, Option.isSome_some, if_true] at hAccepted ⊢
          exact ⟨refused, d, files, action, h, rfl, rfl⟩
      | none =>
          simp only [hVerdict, Option.isSome_none, Bool.false_eq_true, if_false] at hAccepted ⊢
          exact ih (h.act files action hVerdict) _ hAccepted

section

variable [Elementary]

/-- A dialog stays open through everything that happens but its own actions. -/
theorem open_next {sc : Scene} {m : Moment} {d : Dialog} (h : (sc.next m).dialog = some d)
    (hOpen : ∀ d, sc.dialog = some d → ∃ (beginning : SettingsFiles) (refused : List (List Entry)),
      Open beginning.load beginning.loadDescriptions refused d) :
    ∃ (beginning : SettingsFiles) (refused : List (List Entry)),
      Open beginning.load beginning.loadDescriptions refused d := by
  cases m with
  | event event =>
      refine hOpen d ?_
      simp only [Scene.next, Scene.step] at h
      split at h
      · exact h
      · exact h
  | openDialog =>
      simp only [Scene.next, Scene.step] at h
      split at h
      · rw [Scene.eq_opened_of_open? h]
        exact ⟨sc.files, [], .opened⟩
      · exact hOpen d h
  | useDialog action =>
      simp only [Scene.next, Scene.step] at h
      split at h
      · exact hOpen d h
      · rename_i before hBefore
        simp only [Scene.use] at h
        split at h
        · exact absurd h (by simp [Scene.close])
        · rename_i hStays
          obtain rfl := Option.some.inj h
          obtain ⟨beginning, refused, hRefused⟩ := hOpen before hBefore
          exact ⟨beginning, _, hRefused.act sc.files action (by simpa using hStays)⟩
  | leaveDialog =>
      simp only [Scene.next, Scene.step] at h
      split at h
      · exact hOpen d h
      · exact absurd h (by simp [Scene.close])
  | changeFiles files => exact hOpen d h

/-- In every script, a dialog that is open was opened with the settings of that moment. -/
theorem open_of_play (files : SettingsFiles) (script : List Moment) {d : Dialog}
    (h : ((Scene.opening files).play script).dialog = some d) :
    ∃ (beginning : SettingsFiles) (refused : List (List Entry)),
      Open beginning.load beginning.loadDescriptions refused d := by
  induction script using List.reverseRecOn generalizing d with
  | nil => exact absurd h (by simp [Scene.play, Scene.opening])
  | append_singleton script m ih =>
      rw [Scene.play_append] at h
      exact open_next h fun _ => ih

end

/-! ## What is saved -/

/--
What becomes of the value of a setting when the entries are saved; `kept` is what a blank field
stands for.
-/
inductive Saved (entries : List Entry) (kept : String → Json → Json) (key : String) :
    Json → Json → Prop
  | checkBox {caption : String} {checked : Bool} (old : Bool)
      (hShown : ⟨key, caption, .checkBox checked⟩ ∈ entries) :
      Saved entries kept key (.bool old) (.bool checked)
  | field {caption placeholder text : String} {i : Int} (old : Int)
      (hShown : ⟨key, caption, .field placeholder text⟩ ∈ entries)
      (hText : Text.strip text.toList ≠ [])
      (hRead : fieldValue key (Text.strip text.toList) = .ok i) :
      Saved entries kept key (.int old) (.int i)
  | blank {caption placeholder text : String} (old : Int)
      (hShown : ⟨key, caption, .field placeholder text⟩ ∈ entries)
      (hBlank : Text.strip text.toList = []) :
      Saved entries kept key (.int old) (kept key (.int old))
  | hidden (value : Json) (hKind : kind? (key, value) = none) : Saved entries kept key value value

/-- The settings that are written are those at the opening, each as the entries are saved. -/
def AsShown (opening : Settings) (entries : List Entry) (kept : String → Json → Json)
    (written : Settings) : Prop :=
  List.Forall₂ (fun old new => new.1 = old.1 ∧ Saved entries kept old.1 old.2 new.2)
    opening written

/-- The field of the setting is blank. -/
def Blank (entries : List Entry) (key : String) : Prop :=
  ∃ caption placeholder text,
    ⟨key, caption, .field placeholder text⟩ ∈ entries ∧ Text.strip text.toList = []

/-- A setting is saved as the entry of its key shows it, and unchanged if it has none. -/
theorem saved_taken {opening : Settings} {entries : List Entry} {refused : List (List Entry)}
    (hNodup : opening.keys.Nodup) (hFits : Fits opening entries)
    (hRefused : ∀ entries ∈ refused, Fits opening entries)
    (hShown : ∀ entry ∈ entries, ∃ value, entry.shown = .ok value)
    {field : String × Json} (hField : field ∈ opening) :
    Saved entries (fun key value => (remembered key refused).getD value) field.1 field.2
      (((taken? field.1 entries).or (remembered field.1 refused)).getD field.2) := by
  have hTaken {entry : Entry} (hMem : entry ∈ entries) {value : Option Json}
      (hValue : entry.shown = .ok value) : taken? entry.key entries = value :=
    taken?_of_mem (hFits.nodup hNodup) hShown hMem hValue
  cases hKind : kind? field with
  | none =>
      have hNone : remembered field.1 refused = none := by
        refine List.findSome?_eq_none_iff.2 fun entries hMem => ?_
        have hFit := hRefused entries (List.mem_reverse.1 hMem)
        exact taken?_eq_none (hFit.key_ne hNodup hField hKind)
      rw [taken?_eq_none (hFits.key_ne hNodup hField hKind), hNone]
      exact .hidden field.2 hKind
  | some kind =>
      obtain ⟨⟨key, caption, editor⟩, hMem, rfl⟩ := hFits.exists_entry hField hKind
      obtain ⟨fieldKey, value⟩ := field
      obtain rfl : key = fieldKey := (Entry.kind_fst _).symm.trans (kind?_fst hKind)
      obtain ⟨read, hRead⟩ := hShown _ hMem
      rw [hTaken hMem hRead]
      cases editor with
      | checkBox checked =>
          cases value <;> simp [kind?, Entry.kind] at hKind
          obtain rfl := Except.ok.inj hRead
          exact .checkBox _ hMem
      | field placeholder text =>
          cases value <;> simp [kind?, Entry.kind] at hKind
          cases hWord : Text.strip text.toList with
          | nil =>
              simp only [Entry.shown, hWord] at hRead
              obtain rfl := Except.ok.inj hRead
              exact .blank _ hMem hWord
          | cons c word =>
              simp only [Entry.shown, hWord] at hRead
              cases hValue : fieldValue key (c :: word) with
              | error message =>
                  rw [hValue] at hRead
                  exact absurd hRead (by simp)
              | ok i =>
                  rw [hValue] at hRead
                  obtain rfl := Except.ok.inj hRead
                  exact .field _ hMem (by simp [hWord]) (by rw [hWord, hValue])

/-- The entry of a blank field decides what its setting is saved as. -/
theorem Saved.eq_of_blank {opening : Settings} {entries : List Entry}
    {kept : String → Json → Json} (hNodup : opening.keys.Nodup) (hFits : Fits opening entries)
    {field : String × Json} (hField : field ∈ opening) {value : Json}
    (hBlank : Blank entries field.1) (h : Saved entries kept field.1 field.2 value) :
    value = kept field.1 field.2 := by
  obtain ⟨caption, placeholder, text, hMem, hText⟩ := hBlank
  have hUnique {caption' : String} {editor : Editor}
      (hMem' : ⟨field.1, caption', editor⟩ ∈ entries) : editor = .field placeholder text :=
    congrArg Entry.editor (List.inj_on_of_nodup_map (hFits.nodup hNodup) hMem' hMem rfl)
  obtain ⟨key, old⟩ := field
  cases h with
  | checkBox _ hShown => exact absurd (hUnique hShown) (by simp)
  | field _ hShown hNotBlank =>
      obtain ⟨-, rfl⟩ := Editor.field.inj (hUnique hShown)
      exact absurd hText hNotBlank
  | blank => rfl
  | hidden _ hKind => exact absurd rfl (hFits.key_ne hNodup hField hKind _ hMem)

/-- What a blank field stands for matters only where a field is blank. -/
theorem Saved.congr {entries : List Entry} {kept kept' : String → Json → Json} {key : String}
    {old value : Json} (h : Saved entries kept key old value)
    (hKept : Blank entries key → kept key old = kept' key old) :
    Saved entries kept' key old value := by
  cases h with
  | checkBox old hShown => exact .checkBox old hShown
  | field old hShown hText hRead => exact .field old hShown hText hRead
  | blank old hShown hBlank =>
      rw [hKept ⟨_, _, _, hShown, hBlank⟩]
      exact .blank old hShown hBlank
  | hidden _ hKind => exact .hidden _ hKind

theorem asShown_map_iff {opening : Settings} {entries : List Entry}
    {kept : String → Json → Json} (f : String × Json → Json) :
    AsShown opening entries kept (opening.map fun field => (field.1, f field)) ↔
      ∀ field ∈ opening, Saved entries kept field.1 field.2 (f field) := by
  unfold AsShown
  rw [List.forall₂_map_right_iff, List.forall₂_same]
  simp

/-- Looking up a setting that was saved. -/
theorem AsShown.get? {opening written : Settings} {entries : List Entry}
    {kept : String → Json → Json} (h : AsShown opening entries kept written) {key : String}
    {old : Json} (hOld : opening.get? key = some old) :
    ∃ value, written.get? key = some value ∧ Saved entries kept key old value :=
  Json.Fields.get?_of_forall₂ h hOld

/-- An accepted OK. -/
theorem Remembers.accept {opening : Settings} {refused : List (List Entry)} {d : Dialog}
    (h : Remembers opening refused d) (hNodup : opening.keys.Nodup) {files : SettingsFiles}
    {action : DialogAction} (hAccepted : (d.act files action).2.1.verdict = some .accepted) :
    (∀ entry ∈ (d.act files action).2.1.entries, ∃ value, entry.shown = .ok value) ∧
      Fits opening (d.act files action).2.1.entries ∧
      (d.act files action).2.1.settings = (opening.map fun field =>
        (field.1, ((taken? field.1 (d.act files action).2.1.entries).or
          (remembered field.1 refused)).getD field.2)) ∧
      (d.act files action).1.settings =
        some (Json.Writer.file (.obj (d.act files action).2.1.settings)) := by
  have hEdited := h.edit action.edits
  rcases act_cases files d action with ⟨-, hAct⟩ | ⟨-, hAct⟩ | ⟨-, hRejected⟩
  · rw [hAct] at hAccepted
    exact absurd (hEdited.verdict.symm.trans hAccepted) (by simp)
  · rw [hAct] at hAccepted ⊢
    rcases accept_cases files (action.edits.foldl Dialog.edit d) with
      ⟨files', boxes, hRefused⟩ | ⟨hTaken, -, hSettings, hEntries, hFile⟩
    · rw [hRefused] at hAccepted
      exact absurd (hEdited.verdict.symm.trans hAccepted) (by simp)
    · rw [hEntries, hSettings]
      exact ⟨shown_of_takeOver hTaken, hEdited.fits, hEdited.takeOver hNodup hEdited.fits, hFile⟩
  · exact absurd (hRejected.symm.trans hAccepted) (by simp)

/--
What an accepted OK saves.  However the dialog has come to be open, and whatever the files hold
by now, the file gets the settings of the opening with each setting that is true or false as its
check box shows it, each integer as its field shows it, and everything else unchanged; for
a blank field, the value that the latest refused OK took over comes before the one of the opening.

So the opening and the entries alone decide what is saved exactly if the refused OKs have left no
other value where a field is blank now.
-/
theorem saved_by_accepted {beginning : SettingsFiles} {descriptions : Json.Fields}
    {refused : List (List Entry)} {d : Dialog}
    (hOpen : Open beginning.load descriptions refused d) (files : SettingsFiles)
    (action : DialogAction) (hAccepted : (d.act files action).2.1.verdict = some .accepted) :
    (d.act files action).1.settings =
        some (Json.Writer.file (.obj (d.act files action).2.1.settings)) ∧
      ((d.act files action).2.1.entries.map Entry.key).Nodup ∧
      AsShown beginning.load (d.act files action).2.1.entries
        (fun key value => (remembered key refused).getD value)
        (d.act files action).2.1.settings ∧
      (AsShown beginning.load (d.act files action).2.1.entries (fun _ value => value)
          (d.act files action).2.1.settings ↔
        ∀ field ∈ beginning.load, Blank (d.act files action).2.1.entries field.1 →
          (remembered field.1 refused).getD field.2 = field.2) := by
  have hNodup := beginning.nodup_keys_load
  have hRemembers := hOpen.remembers hNodup
  obtain ⟨hShown, hFits, hSettings, hFile⟩ := hRemembers.accept hNodup hAccepted
  have hSaved : ∀ field ∈ beginning.load, Saved (d.act files action).2.1.entries
      (fun key value => (remembered key refused).getD value) field.1 field.2
      (((taken? field.1 (d.act files action).2.1.entries).or
        (remembered field.1 refused)).getD field.2) :=
    fun _ hField => saved_taken hNodup hFits hRemembers.refused_fit hShown hField
  refine ⟨hFile, hFits.nodup hNodup, ?_, ?_⟩
  · rw [hSettings]
    exact (asShown_map_iff _).2 hSaved
  · rw [hSettings, asShown_map_iff]
    constructor
    · intro hKept field hField hBlank
      have hLeft := (hSaved field hField).eq_of_blank hNodup hFits hField hBlank
      have hOpening := (hKept field hField).eq_of_blank hNodup hFits hField hBlank
      exact hLeft.symm.trans hOpening
    · intro hSame field hField
      exact (hSaved field hField).congr (hSame field hField)

/-- Files with six digits and one more setting. -/
def zoomFiles : SettingsFiles := { settings := some "\x7b\"precision\": 6, \"zoom\": 3\x7d" }

/-- Two fields are filled in, the second of them with something that is no integer. -/
def firstTry : DialogAction :=
  { edits := [.fill "precision" "8", .fill "zoom" "x"], press := some .ok }

/-- The first field is cleared again, and the second one gets an integer. -/
def secondTry : DialogAction :=
  { edits := [.fill "precision" "", .fill "zoom" "5"], press := some .ok }

/-- The dialog as it opens. -/
def untried : Dialog := opened zoomFiles.load zoomFiles.loadDescriptions

/-- The dialog after the first try. -/
def triedOnce : Dialog := (untried.act zoomFiles firstTry).2.1

theorem open_triedOnce :
    Open zoomFiles.load zoomFiles.loadDescriptions [triedOnce.entries] triedOnce := by
  have hStays : (untried.act zoomFiles firstTry).2.1.verdict = none := by decide +kernel
  have hUntried : Open zoomFiles.load zoomFiles.loadDescriptions [] untried := .opened
  have hOpen := hUntried.act zoomFiles firstTry hStays
  rw [List.nil_append, if_pos (by decide)] at hOpen
  unfold triedOnce
  exact hOpen

/-- The first try was refused, but the second one saves its eight digits. -/
theorem refused_value_saved :
    Open zoomFiles.load zoomFiles.loadDescriptions [triedOnce.entries] triedOnce ∧
      (triedOnce.act zoomFiles secondTry).2.1.verdict = some .accepted ∧
      AsShown zoomFiles.load (triedOnce.act zoomFiles secondTry).2.1.entries
        (fun key value => (remembered key [triedOnce.entries]).getD value)
        (triedOnce.act zoomFiles secondTry).2.1.settings ∧
      (triedOnce.act zoomFiles secondTry).2.1.settings.precision = .ok 8 := by
  have hAccepted : (triedOnce.act zoomFiles secondTry).2.1.verdict = some .accepted := by
    decide +kernel
  exact ⟨open_triedOnce, hAccepted,
    (saved_by_accepted open_triedOnce zoomFiles secondTry hAccepted).2.2.1, by decide +kernel⟩

/--
So what is saved is not what was shown: the field is blank when the second try is accepted, and at
the opening there were six digits.
-/
theorem refused_value_not_shown :
    Open zoomFiles.load zoomFiles.loadDescriptions [triedOnce.entries] triedOnce ∧
      (triedOnce.act zoomFiles secondTry).2.1.verdict = some .accepted ∧
      Blank (triedOnce.act zoomFiles secondTry).2.1.entries "precision" ∧
      zoomFiles.load.precision = .ok 6 ∧
      (triedOnce.act zoomFiles secondTry).2.1.settings.precision = .ok 8 ∧
      ¬ AsShown zoomFiles.load (triedOnce.act zoomFiles secondTry).2.1.entries
        (fun _ value => value) (triedOnce.act zoomFiles secondTry).2.1.settings := by
  have hBlank : Blank (triedOnce.act zoomFiles secondTry).2.1.entries "precision" :=
    ⟨"Significant digits (min. 1):", "6", "", by decide +kernel, by decide +kernel⟩
  have hAccepted : (triedOnce.act zoomFiles secondTry).2.1.verdict = some .accepted := by
    decide +kernel
  have hOpening : zoomFiles.load.precision = .ok 6 := by decide +kernel
  have hWritten : (triedOnce.act zoomFiles secondTry).2.1.settings.precision = .ok 8 := by
    decide +kernel
  refine ⟨open_triedOnce, hAccepted, hBlank, hOpening, hWritten, fun hShown => ?_⟩
  have hNodup := zoomFiles.nodup_keys_load
  have hFits := ((open_triedOnce.remembers hNodup).accept hNodup hAccepted).2.1
  have hThere : (zoomFiles.load.get? "precision").isSome = true := by decide +kernel
  obtain ⟨old, hOld⟩ := Option.isSome_iff_exists.1 hThere
  obtain ⟨value, hValue, hSaved⟩ := hShown.get? hOld
  have hKept := hSaved.eq_of_blank hNodup hFits (Json.Fields.mem_of_get? hOld) hBlank
  have hSame : (triedOnce.act zoomFiles secondTry).2.1.settings.get? "precision" =
      zoomFiles.load.get? "precision" := by
    rw [hValue, hKept, hOld]
  rw [Settings.precision_congr hSame, hOpening] at hWritten
  exact absurd (Except.ok.inj hWritten) (by decide)

end Dialog

end DerivCalc.Window
