import DerivCalc.Proofs.Json.Limits
import DerivCalc.Proofs.Text.Words
import DerivCalc.Proofs.Window.Dialog

/-!
# The settings dialog leaves settings intact

What a refused OK has taken over stays in the dialog and may be written by a later one, so the
settings in the dialog have to be right at every moment.  `Intact` says what is right: the keys and
their order are those of the opening, truth values stay truth values, integers stay integers and
everything else stays what it is.  A value comes into the dialog only from the entry of its
setting, and an entry gives a value of the type that its setting had at the opening.

Intact settings start with the default keys.  So they are never empty, by which the dialog
recognises that they were written, and once they are written they are what is loaded next.

Between the dialog and the file stands the disk.  It can take the text, or refuse it as the dialog
expects it, which a box tells; it can also fail in ways of which nobody is told.  The file is
damaged in one case only, when writing breaks off.
-/

namespace DerivCalc

/-- The precision is an integer, and at least one. -/
theorem Settings.precision_eq_ok_iff {settings : Settings} {p : ℕ} :
    settings.precision = .ok p ↔
      ∃ i : ℤ, settings.get? "precision" = some (.int i) ∧ 1 ≤ i ∧ i.toNat = p := by
  unfold precision value
  rw [if_neg (by decide)]
  cases hValue : settings.get? "precision" with
  | none => simp
  | some v =>
      cases v with
      | int i =>
          show (if i < 1 then _ else Except.ok i.toNat) = Except.ok p ↔ _
          by_cases hSmall : i < 1
          · rw [if_pos hSmall]
            refine iff_of_false (by simp) ?_
            rintro ⟨j, hSame, hLarge, -⟩
            obtain rfl : i = j := by simpa using hSame
            omega
          · rw [if_neg hSmall]
            constructor
            · intro hOk
              exact ⟨i, rfl, by omega, Except.ok.inj hOk⟩
            · rintro ⟨j, hSame, -, rfl⟩
              obtain rfl : i = j := by simpa using hSame
              rfl
      | _ => simp

namespace Text

/-! ## Integers of words -/

theorem isAsciiDigit_of_mem_digitRunTail {text : List Char} :
    ∀ c ∈ (digitRunTail text).1, isAsciiDigit c = true := by
  fun_induction digitRunTail text with
  | case1 => simp
  | case2 c hDigit => simpa using hDigit
  | case3 c hDigit => simp
  | case4 c d rest hDigit run ih => exact List.forall_mem_cons.2 ⟨hDigit, ih⟩
  | case5 c d rest hDigit hUnderscore run ih =>
      exact List.forall_mem_cons.2 ⟨(Bool.and_eq_true_iff.1 hUnderscore).2, ih⟩
  | case6 c d rest hDigit hUnderscore => simp

theorem isAsciiDigit_of_mem_digitRun {text : List Char} :
    ∀ c ∈ (digitRun text).1, isAsciiDigit c = true := by
  unfold digitRun
  split
  · simp
  · split
    · rename_i hDigit
      exact List.forall_mem_cons.2 ⟨hDigit, isAsciiDigit_of_mem_digitRunTail⟩
    · simp

/-- The integer that a word stands for has no more digits than there may be. -/
theorem natAbs_integerOfWord_lt {word : List Char} {i : ℤ} (h : integerOfWord word = .ok i) :
    i.natAbs < 10 ^ maxIntegerDigits := by
  unfold integerOfWord at h
  generalize splitSign (word.map toAsciiDigit) = split at h
  obtain ⟨negative, body⟩ := split
  have hSize (n : ℕ) : (if negative then -(n : ℤ) else n).natAbs = n := by
    cases negative <;> simp
  simp only at h
  split at h
  · exact absurd h (by simp)
  · split at h
    · exact absurd h (by simp)
    · rename_i hLength
      split at h
      · exact absurd h (by simp)
      · rw [← Except.ok.inj h, hSize]
        exact (Decimal.digitsValue_lt isAsciiDigit_of_mem_digitRun).trans_le
          (Nat.pow_le_pow_right (by decide) (not_lt.1 hLength))

/-- A word of ones is an integer that may be too long. -/
theorem integerOfWord_ones {count : ℕ} (h : maxIntegerDigits < count) :
    integerOfWord (List.replicate count '1') = .error (.tooLong count) := by
  obtain ⟨more, rfl⟩ : ∃ more, count = more + 1 := ⟨count - 1, by omega⟩
  have hTail (n : ℕ) : digitRunTail (List.replicate n '1') = (List.replicate n '1', []) := by
    induction n with
    | zero => rfl
    | succ n ih =>
        cases n with
        | zero => rfl
        | succ n =>
            show ('1' :: (digitRunTail (List.replicate (n + 1) '1')).1,
              (digitRunTail (List.replicate (n + 1) '1')).2) = _
            rw [ih]
            rfl
  have hRun : digitRun (List.replicate (more + 1) '1') = (List.replicate (more + 1) '1', []) := by
    show ('1' :: (digitRunTail (List.replicate more '1')).1,
      (digitRunTail (List.replicate more '1')).2) = _
    rw [hTail]
    rfl
  have hSign : splitSign ((List.replicate (more + 1) '1').map toAsciiDigit) =
      (false, List.replicate (more + 1) '1') := by
    rw [List.map_replicate, show toAsciiDigit '1' = '1' by decide]
    rfl
  unfold integerOfWord
  rw [hSign]
  simp only [hRun]
  rw [if_neg (by simp), List.length_replicate, if_pos h]

end Text

namespace Window

/-! ## Entries that can be read -/

theorem fieldValue_eq_ok_iff {key : String} {word : List Char} {i : ℤ} :
    fieldValue key word = .ok i ↔
      Text.integerOfWord word = .ok i ∧ (key = "precision" → 1 ≤ i) := by
  unfold fieldValue
  cases Text.integerOfWord word with
  | error fault => simp
  | ok j =>
      show (if (key = "precision" && decide (j < 1)) = true then _ else Except.ok j) =
        Except.ok i ↔ _
      by_cases hSmall : key = "precision" ∧ j < 1
      · rw [if_pos (by simpa using hSmall)]
        refine iff_of_false (by simp) ?_
        rintro ⟨hSame, hLarge⟩
        obtain rfl := Except.ok.inj hSame
        have hLow := hLarge hSmall.1
        omega
      · rw [if_neg (by simpa using hSmall)]
        constructor
        · intro hOk
          obtain rfl := Except.ok.inj hOk
          exact ⟨rfl, fun hKey => by
            have hNot : ¬ j < 1 := fun hLess => hSmall ⟨hKey, hLess⟩
            omega⟩
        · rintro ⟨hSame, -⟩
          exact congrArg Except.ok (Except.ok.inj hSame)

namespace Entry

/-- A check box can always be read, and a field if it is blank or an integer, for the precision at least one. -/
def Readable (entry : Entry) : Prop :=
  match entry.editor with
  | .checkBox _ => True
  | .field _ text =>
    Text.strip text.toList = [] ∨
      ∃ i, Text.integerOfWord (Text.strip text.toList) = .ok i ∧
        (entry.key = "precision" → 1 ≤ i)

theorem readable_iff {entry : Entry} : entry.Readable ↔ ∃ value, entry.shown = .ok value := by
  obtain ⟨key, caption, editor⟩ := entry
  cases editor with
  | checkBox checked => exact iff_of_true trivial ⟨_, rfl⟩
  | field placeholder text =>
      show (Text.strip text.toList = [] ∨ _) ↔ _
      cases hWord : Text.strip text.toList with
      | nil => simp [shown, hWord]
      | cons c word =>
          simp only [shown, hWord, reduceCtorEq, false_or, ← fieldValue_eq_ok_iff]
          cases fieldValue key (c :: word) <;> simp

instance (entry : Entry) : Decidable entry.Readable :=
  decidable_of_iff (entry.shown.toOption.isSome = true) (by
    rw [readable_iff]
    cases entry.shown <;> simp [Except.toOption])

/-- A field with too many ones cannot be read. -/
theorem not_readable_ones {key caption placeholder : String} {count : ℕ}
    (h : Text.maxIntegerDigits < count) :
    ¬ Readable ⟨key, caption, .field placeholder (String.ofList (List.replicate count '1'))⟩ := by
  have hNe : List.replicate count '1' ≠ [] := by
    intro hNil
    have hZero : count = 0 := by simpa using hNil
    rw [hZero] at h
    exact absurd h (Nat.not_lt_zero _)
  have hWord : Text.IsWord (List.replicate count '1') := by
    refine ⟨hNe, fun c hMem => ?_⟩
    rw [List.eq_of_mem_replicate hMem]
    decide
  have hNone : Text.Blank [] := fun c hMem => absurd hMem List.not_mem_nil
  have hStrip : Text.strip (List.replicate count '1') = List.replicate count '1' := by
    have hAppend := Text.strip_append hNone hNone hWord.trimmed
    rwa [List.nil_append, List.append_nil] at hAppend
  unfold Readable
  simp only [String.toList_ofList, hStrip, Text.integerOfWord_ones h]
  rintro (hNil | ⟨i, hOk, -⟩)
  · exact hNe hNil
  · exact absurd hOk (by simp)

end Entry

namespace Dialog

/-- No box is shown exactly if all entries can be read. -/
theorem takeOver_snd_eq_none_iff {settings : Settings} {entries : List Entry} :
    (takeOver settings entries).2 = none ↔ ∀ entry ∈ entries, entry.Readable := by
  simp only [Entry.readable_iff]
  refine ⟨shown_of_takeOver, fun h => ?_⟩
  induction entries generalizing settings with
  | nil => rfl
  | cons entry rest ih =>
      obtain ⟨⟨value, hShown⟩, hRest⟩ := List.forall_mem_cons.1 h
      rw [takeOver_cons, hShown]
      cases value with
      | none => exact ih hRest
      | some value => exact ih hRest

/-- What is taken over for a key is what an entry for it shows. -/
theorem mem_of_taken? {key : String} {entries : List Entry} {value : Json}
    (h : taken? key entries = some value) :
    ∃ entry ∈ entries, entry.key = key ∧ entry.shown = .ok (some value) := by
  induction entries with
  | nil => exact absurd h (by simp [taken?])
  | cons entry rest ih =>
      simp only [taken?] at h
      cases hShown : entry.shown with
      | error message =>
          rw [hShown] at h
          exact absurd h (by simp)
      | ok shown =>
          rw [hShown] at h
          rcases Option.or_eq_some_iff.1 h with hRest | ⟨-, hFirst⟩
          · obtain ⟨other, hMem, hOther⟩ := ih hRest
            exact ⟨other, List.mem_cons_of_mem _ hMem, hOther⟩
          · split at hFirst
            · rename_i hKey
              exact ⟨entry, List.mem_cons_self, hKey, hFirst ▸ hShown⟩
            · exact absurd hFirst (by simp)

/-! ## What a setting may become -/

/-- A setting may become one of the same type: another integer has not too many digits, and it is
no precision that is too small. -/
inductive Keeps (key : String) : Json → Json → Prop
  | bool (old new : Bool) : Keeps key (.bool old) (.bool new)
  | int (old : ℤ) {new : ℤ} (hSize : new = old ∨
      (key = "precision" → 1 ≤ new) ∧ new.natAbs < 10 ^ Text.maxIntegerDigits) :
      Keeps key (.int old) (.int new)
  | other {value : Json} (hKind : kind? (key, value) = none) : Keeps key value value

theorem Keeps.refl (key : String) (value : Json) : Keeps key value value := by
  cases value with
  | bool b => exact .bool b b
  | int i => exact .int i (Or.inl rfl)
  | _ => exact .other rfl

theorem Keeps.distinctKeys {key : String} {old new : Json} (h : Keeps key old new)
    (hOld : old.DistinctKeys) : new.DistinctKeys := by
  cases h with
  | bool old new => exact .bool new
  | int old hSize => exact .int _
  | other hKind => exact hOld

theorem Keeps.within {key : String} {old new : Json} (h : Keeps key old new) {levels : ℕ}
    (hOld : old.Within levels) : new.Within levels := by
  cases h with
  | bool old new => exact .bool levels new
  | int old hSize =>
      rcases hSize with rfl | ⟨-, hLength⟩
      · exact hOld
      · exact .int levels hLength
  | other hKind => exact hOld

/-- An entry shows a value that its setting may become. -/
theorem Fits.keeps {opening : Settings} {entries : List Entry} (h : Fits opening entries)
    (hNodup : opening.keys.Nodup) {field : String × Json} (hField : field ∈ opening)
    {entry : Entry} (hEntry : entry ∈ entries) (hKey : entry.key = field.1) {value : Json}
    (hShown : entry.shown = .ok (some value)) : Keeps field.1 field.2 value := by
  obtain ⟨other, hOther, hKind, hOtherKey⟩ := h.exists_field hEntry
  obtain rfl : other = field :=
    List.inj_on_of_nodup_map hNodup hOther hField (hOtherKey.trans hKey)
  obtain ⟨key, old⟩ := other
  obtain ⟨entryKey, caption, editor⟩ := entry
  obtain rfl : entryKey = key := hKey
  cases editor with
  | checkBox checked =>
      obtain rfl : Json.bool checked = value := by simpa [Entry.shown] using hShown
      cases old with
      | bool b => exact .bool b checked
      | _ => simp [kind?, Entry.kind] at hKind
  | field placeholder text =>
      cases old with
      | int i =>
          cases hWord : Text.strip text.toList with
          | nil => simp [Entry.shown, hWord] at hShown
          | cons c word =>
              simp only [Entry.shown, hWord] at hShown
              cases hValue : fieldValue entryKey (c :: word) with
              | error message => simp [hValue] at hShown
              | ok new =>
                  obtain rfl : Json.int new = value := by simpa [hValue] using hShown
                  obtain ⟨hInteger, hLow⟩ := fieldValue_eq_ok_iff.1 hValue
                  exact .int i (Or.inr ⟨hLow, Text.natAbs_integerOfWord_lt hInteger⟩)
      | _ => simp [kind?, Entry.kind] at hKind

/-! ## Intact settings -/

/-- The settings have the keys of the opening in their order, with values that these may become. -/
def Intact (opening settings : Settings) : Prop :=
  List.Forall₂ (fun old new => new.1 = old.1 ∧ Keeps old.1 old.2 new.2) opening settings

section

variable {opening settings : Settings}

theorem intact_map {f : String × Json → Json}
    (h : ∀ field ∈ opening, Keeps field.1 field.2 (f field)) :
    Intact opening (opening.map fun field => (field.1, f field)) := by
  unfold Intact
  rw [List.forall₂_map_right_iff, List.forall₂_same]
  exact fun field hMem => ⟨rfl, h field hMem⟩

theorem Intact.keys (h : Intact opening settings) : settings.keys = opening.keys := by
  induction h with
  | nil => rfl
  | cons hField _ ih => rw [Json.Fields.keys_cons, Json.Fields.keys_cons, hField.1, ih]

theorem Intact.distinctKeys (h : Intact opening settings)
    (hOpening : (Json.obj opening).DistinctKeys) : (Json.obj settings).DistinctKeys := by
  cases hOpening with
  | obj hNodup hAll =>
      refine .obj (by rwa [h.keys]) ?_
      clear hNodup
      induction h with
      | nil => simp
      | cons hField _ ih =>
          obtain ⟨hOld, hRest⟩ := List.forall_mem_cons.1 hAll
          exact List.forall_mem_cons.2 ⟨hField.2.distinctKeys hOld, ih hRest⟩

theorem Intact.within (h : Intact opening settings) {levels : ℕ}
    (hOpening : (Json.obj opening).Within levels) : (Json.obj settings).Within levels := by
  cases hOpening with
  | obj hAll =>
      refine .obj ?_
      induction h with
      | nil => simp
      | cons hField _ ih =>
          obtain ⟨hOld, hRest⟩ := List.forall_mem_cons.1 hAll
          exact List.forall_mem_cons.2 ⟨hField.2.within hOld, ih hRest⟩

/-- A precision that is valid at the opening stays so. -/
theorem Intact.precision (h : Intact opening settings) {p : ℕ}
    (hPrecision : opening.precision = .ok p) : ∃ p', settings.precision = .ok p' := by
  obtain ⟨i, hOld, hLow, -⟩ := Settings.precision_eq_ok_iff.1 hPrecision
  obtain ⟨value, hNew, hKeeps⟩ := Json.Fields.get?_of_forall₂ h hOld
  cases hKeeps with
  | int _ hSize =>
      refine ⟨_, Settings.precision_eq_ok_iff.2 ⟨_, hNew, ?_, rfl⟩⟩
      rcases hSize with rfl | ⟨hHigh, -⟩
      · exact hLow
      · exact hHigh rfl
  | other hKind => exact absurd hKind (by simp [kind?])

end

section

variable {opening : Settings} {refused : List (List Entry)} {d : Dialog}

/-- What was taken over at any time is what its setting may become. -/
theorem Remembers.intact_takeOver (h : Remembers opening refused d)
    (hNodup : opening.keys.Nodup) :
    Intact opening (Dialog.takeOver d.settings d.entries).1 := by
  have hTaken {entries : List Entry} (hFits : Fits opening entries) {field : String × Json}
      (hField : field ∈ opening) {value : Json} (hValue : taken? field.1 entries = some value) :
      Keeps field.1 field.2 value := by
    obtain ⟨entry, hEntry, hKey, hShown⟩ := mem_of_taken? hValue
    exact hFits.keeps hNodup hField hEntry hKey hShown
  rw [h.takeOver hNodup h.fits]
  refine intact_map fun field hField => ?_
  cases hValue : (taken? field.1 d.entries).or (remembered field.1 refused) with
  | none => exact .refl field.1 field.2
  | some value =>
      rw [Option.getD_some]
      rcases Option.or_eq_some_iff.1 hValue with hNow | ⟨-, hBefore⟩
      · exact hTaken h.fits hField hNow
      · obtain ⟨entries, hMem, hThen⟩ := List.exists_of_findSome?_eq_some hBefore
        exact hTaken (h.refused_fit entries (List.mem_reverse.1 hMem)) hField hThen

end

/-! ## What the buttons do -/

/-- The file holds these settings now, and nothing else is changed. -/
structure Stored (beginning files files' : SettingsFiles) (settings : Settings) : Prop where
  file : files' = { files with settings := some (Json.Writer.file (.obj settings)) }
  load : files'.load = settings
  /-- If there was no fault in loading the settings of the opening, there is none in these. -/
  loaded : beginning.loaded = .ok beginning.load → files'.loaded = .ok settings
  intact : Intact beginning.load settings

/-- Writing settings broke off: the file holds the beginning of their text. -/
structure Torn (beginning files files' : SettingsFiles) (settings : Settings) : Prop where
  file : ∃ kept, files' = { files with
    settings := some (String.ofList ((Json.Writer.file (.obj settings)).toList.take kept)) }
  intact : Intact beginning.load settings

theorem Intact.ne_nil {beginning : SettingsFiles} {settings : Settings}
    (h : Intact beginning.load settings) : settings ≠ [] := by
  rintro rfl
  obtain ⟨others, hOthers⟩ := beginning.exists_keys_load
  have hKeys := h.keys.trans hOthers
  exact absurd hKeys (by simp [Settings.defaults, Json.Fields.keys])

/-- Saving intact settings. -/
theorem stored_save {beginning files : SettingsFiles} {settings : Settings}
    (h : Intact beginning.load settings) (hWritable : files.writable = true) :
    Stored beginning files (files.save (.obj settings)).1 settings := by
  have hDistinct := h.distinctKeys beginning.distinctKeys_load
  have hLoad := SettingsFiles.load_save_of_keys hWritable hDistinct h.keys
  refine ⟨?_, hLoad, fun hLoaded => ?_, h⟩
  · rw [SettingsFiles.save_of_writable hWritable]
  · have hWithin := h.within (SettingsFiles.within_of_loaded hLoaded)
    rw [SettingsFiles.loaded_save hWritable hDistinct hWithin, hLoad]

/-- The answer of saving is empty exactly if the file does not open as the dialog expects it. -/
theorem attemptSave_eq_empty_iff {beginning : SettingsFiles} {settings : Settings}
    (h : Intact beginning.load settings) (files : SettingsFiles) :
    (files.attemptSave (.obj settings)).2 = some (.obj []) ↔ files.disk = .refuses := by
  unfold SettingsFiles.attemptSave
  cases files.disk <;> simp [h.ne_nil]

/-- If all entries can be read, the disk decides what comes of OK. -/
theorem accept_of_readable {d : Dialog} (files : SettingsFiles)
    (hReadable : ∀ entry ∈ d.entries, entry.Readable)
    (hNe : (takeOver d.settings d.entries).1 ≠ []) :
    d.accept files =
      let settings := (takeOver d.settings d.entries).1
      match files.disk with
      | .takes =>
        ((files.save (.obj settings)).1,
          { d with
            settings
            style := Style.dialog settings.darkmode
            saved := d.saved + 1
            verdict := some .accepted }, [])
      | .refuses => (files, { d with settings }, [unsavedBox])
      | .faults => (files, { d with settings }, [])
      | .breaks _ => ((files.save (.obj settings)).1, { d with settings }, []) := by
  have hTaken : (takeOver d.settings d.entries).2 = none := takeOver_snd_eq_none_iff.2 hReadable
  unfold accept SettingsFiles.save SettingsFiles.attemptSave
  cases hPair : takeOver d.settings d.entries with
  | mk settings box =>
      rw [hPair] at hTaken hNe
      obtain rfl : box = none := hTaken
      cases hDisk : files.disk with
      | takes =>
          cases settings with
          | nil => exact absurd rfl hNe
          | cons field rest => rfl
      | refuses => rfl
      | faults => rfl
      | breaks kept => rfl

/-- If an entry cannot be read, OK shows a box and leaves the file alone. -/
theorem accept_of_not_readable {d : Dialog} (files : SettingsFiles)
    (h : ¬ ∀ entry ∈ d.entries, entry.Readable) :
    ∃ box, d.accept files =
      (files, { d with settings := (takeOver d.settings d.entries).1 }, [box]) := by
  have hNot : (takeOver d.settings d.entries).2 ≠ none := mt takeOver_snd_eq_none_iff.1 h
  unfold accept
  cases hPair : takeOver d.settings d.entries with
  | mk settings box =>
      rw [hPair] at hNot
      cases box with
      | none => exact absurd rfl hNot
      | some box => exact ⟨box, rfl⟩

theorem act_of_ok {d : Dialog} {files : SettingsFiles} {action : DialogAction}
    (h : action.press = some .ok) :
    d.act files action = (action.edits.foldl edit d).accept files := by
  unfold act
  rw [h]
  rfl

section

variable {beginning : SettingsFiles} {descriptions : Json.Fields} {refused : List (List Entry)}
  {d : Dialog} {files : SettingsFiles} {action : DialogAction}

/-- What OK would write is intact. -/
theorem Open.intact (h : Open beginning.load descriptions refused d) (edits : List Edit) :
    Intact beginning.load
      (takeOver (edits.foldl edit d).settings (edits.foldl edit d).entries).1 :=
  ((h.remembers beginning.nodup_keys_load).edit edits).intact_takeOver beginning.nodup_keys_load

/-- Edits leave the dialog open. -/
theorem Open.verdict_edit (h : Open beginning.load descriptions refused d) (edits : List Edit) :
    (edits.foldl edit d).verdict = none :=
  ((h.remembers beginning.nodup_keys_load).edit edits).verdict

/-- What comes of OK if all entries can be read. -/
theorem Open.act_of_readable (h : Open beginning.load descriptions refused d)
    (files : SettingsFiles) (hPress : action.press = some .ok)
    (hReadable : ∀ entry ∈ (action.edits.foldl edit d).entries, entry.Readable) :
    (files.disk = .takes →
      (d.act files action).2.1.verdict = some .accepted ∧ (d.act files action).2.2 = [] ∧
        Stored beginning files (d.act files action).1 (d.act files action).2.1.settings) ∧
    (files.disk = .refuses →
      (d.act files action).2.1.verdict = none ∧ (d.act files action).2.2 = [unsavedBox] ∧
        (d.act files action).1 = files) ∧
    (files.disk = .faults →
      (d.act files action).2.1.verdict = none ∧ (d.act files action).2.2 = [] ∧
        (d.act files action).1 = files) ∧
    ∀ kept, files.disk = .breaks kept →
      (d.act files action).2.1.verdict = none ∧ (d.act files action).2.2 = [] ∧
        Torn beginning files (d.act files action).1 (d.act files action).2.1.settings := by
  have hIntact := h.intact action.edits
  have hOpen := h.verdict_edit action.edits
  rw [act_of_ok hPress, accept_of_readable files hReadable hIntact.ne_nil]
  refine ⟨fun hDisk => ?_, fun hDisk => ?_, fun hDisk => ?_, fun kept hDisk => ?_⟩
  · rw [hDisk]
    exact ⟨rfl, rfl, stored_save hIntact (SettingsFiles.writable_iff.2 hDisk)⟩
  · rw [hDisk]
    exact ⟨hOpen, rfl, rfl⟩
  · rw [hDisk]
    exact ⟨hOpen, rfl, rfl⟩
  · rw [hDisk]
    refine ⟨hOpen, rfl, ⟨kept, ?_⟩, hIntact⟩
    unfold SettingsFiles.save SettingsFiles.attemptSave
    rw [hDisk]

/-- If an entry cannot be read, OK shows a box and leaves the file alone. -/
theorem Open.act_of_not_readable (h : Open beginning.load descriptions refused d)
    (hPress : action.press = some .ok)
    (hNot : ¬ ∀ entry ∈ (action.edits.foldl edit d).entries, entry.Readable) :
    (d.act files action).2.1.verdict = none ∧ (∃ box, (d.act files action).2.2 = [box]) ∧
      (d.act files action).1 = files := by
  obtain ⟨box, hAccept⟩ := accept_of_not_readable files hNot
  rw [act_of_ok hPress, hAccept]
  exact ⟨h.verdict_edit action.edits, ⟨box, rfl⟩, rfl⟩

/-- Cancel closes the dialog, and edits alone leave it open; neither touches the file. -/
theorem Open.act_of_ne_ok (h : Open beginning.load descriptions refused d)
    (hPress : action.press ≠ some .ok) :
    (d.act files action).1 = files ∧ (d.act files action).2.2 = [] ∧
      (d.act files action).2.1.verdict =
        if action.press = some .cancel then some .rejected else none := by
  have hOpen := h.verdict_edit action.edits
  unfold Dialog.act
  cases hButton : action.press with
  | none => exact ⟨rfl, rfl, hOpen⟩
  | some button =>
      cases button with
      | ok => exact absurd hButton hPress
      | cancel => exact ⟨rfl, rfl, rfl⟩

/-- Unless writing breaks off, an action leaves the file alone, or it stores the settings and
closes the dialog. -/
theorem Open.act_cases (h : Open beginning.load descriptions refused d)
    (hDisk : ∀ kept, files.disk ≠ .breaks kept) (action : DialogAction) :
    (d.act files action).1 = files ∨
      (d.act files action).2.1.verdict = some .accepted ∧
        Stored beginning files (d.act files action).1 (d.act files action).2.1.settings := by
  by_cases hPress : action.press = some .ok
  · by_cases hReadable : ∀ entry ∈ (action.edits.foldl edit d).entries, entry.Readable
    · obtain ⟨hTakes, hRefuses, hFaults, -⟩ := h.act_of_readable files hPress hReadable
      cases hCase : files.disk with
      | takes =>
          obtain ⟨hVerdict, -, hStored⟩ := hTakes hCase
          exact Or.inr ⟨hVerdict, hStored⟩
      | refuses => exact Or.inl (hRefuses hCase).2.2
      | faults => exact Or.inl (hFaults hCase).2.2
      | breaks kept => exact absurd hCase (hDisk kept)
    · exact Or.inl (h.act_of_not_readable hPress hReadable).2.2
  · exact Or.inl (h.act_of_ne_ok hPress).1

/-- Over any number of actions the file is left alone, or it is written by the one that closes the
dialog. -/
theorem Open.run_cases (h : Open beginning.load descriptions refused d)
    (hDisk : ∀ kept, files.disk ≠ .breaks kept) (actions : List DialogAction) :
    (d.run files actions).1 = files ∨
      (d.run files actions).2.1.verdict = some .accepted ∧
        Stored beginning files (d.run files actions).1 (d.run files actions).2.1.settings := by
  induction actions generalizing refused d with
  | nil => exact Or.inl rfl
  | cons action rest ih =>
      unfold Dialog.run
      rcases h.act_cases hDisk action with hSame | ⟨hVerdict, hStored⟩
      · cases hVerdict : (d.act files action).2.1.verdict with
        | some verdict =>
            simp only [hVerdict, Option.isSome_some, if_true]
            exact Or.inl hSame
        | none =>
            simp only [hVerdict, Option.isSome_none, Bool.false_eq_true, if_false]
            rw [hSame]
            exact ih (h.act files action hVerdict)
      · simp only [hVerdict, Option.isSome_some, if_true]
        exact Or.inr ⟨trivial, hStored⟩

end

/--
What the dialog does to the settings.

However the dialog has come to be open, OK writes the file and closes it if every entry can be read
and the disk takes the text.  If an entry cannot be read, or the disk refuses the file, it shows one
box and leaves the file alone.  If the file does not open for another reason, the file is left alone
too and the dialog stays open, but without a box; and if writing breaks off, the file has lost its
old text.  Cancel closes the dialog, edits do not, and neither touches the file.  What is written is
intact, and it is what is loaded next; it is never empty, which is how the dialog knows that the
file did open.

Unless writing breaks off, the file is left alone over any actions from the opening, or it holds
intact settings when the dialog has been closed by OK.  A precision that was loaded and was valid
before is loaded and is valid afterwards.
-/
theorem dialog_keeps_settings :
    (∀ (beginning : SettingsFiles) (descriptions : Json.Fields) (refused : List (List Entry))
        (d : Dialog), Open beginning.load descriptions refused d →
      ∀ (files : SettingsFiles) (action : DialogAction),
        (action.press = some .ok →
          (∀ entry ∈ (action.edits.foldl edit d).entries, entry.Readable) →
          (files.disk = .takes →
            (d.act files action).2.1.verdict = some .accepted ∧ (d.act files action).2.2 = [] ∧
              Stored beginning files (d.act files action).1
                (d.act files action).2.1.settings) ∧
          (files.disk = .refuses →
            (d.act files action).2.1.verdict = none ∧ (d.act files action).2.2 = [unsavedBox] ∧
              (d.act files action).1 = files) ∧
          (files.disk = .faults →
            (d.act files action).2.1.verdict = none ∧ (d.act files action).2.2 = [] ∧
              (d.act files action).1 = files) ∧
          ∀ kept, files.disk = .breaks kept →
            (d.act files action).2.1.verdict = none ∧ (d.act files action).2.2 = [] ∧
              Torn beginning files (d.act files action).1 (d.act files action).2.1.settings) ∧
        (action.press = some .ok →
          (¬ ∀ entry ∈ (action.edits.foldl edit d).entries, entry.Readable) →
          (d.act files action).2.1.verdict = none ∧ (∃ box, (d.act files action).2.2 = [box]) ∧
            (d.act files action).1 = files) ∧
        (action.press ≠ some .ok →
          (d.act files action).1 = files ∧ (d.act files action).2.2 = [] ∧
            (d.act files action).2.1.verdict =
              if action.press = some .cancel then some .rejected else none)) ∧
    (∀ (beginning : SettingsFiles) (settings : Settings), Intact beginning.load settings →
      ∀ files : SettingsFiles,
        (files.attemptSave (.obj settings)).2 = some (.obj []) ↔ files.disk = .refuses) ∧
    ∀ (files : SettingsFiles) (actions : List DialogAction),
      (∀ kept, files.disk ≠ .breaks kept) →
      (((opened files.load files.loadDescriptions).run files actions).1 = files ∨
        ((opened files.load files.loadDescriptions).run files actions).2.1.verdict =
            some .accepted ∧
          Stored files files
            ((opened files.load files.loadDescriptions).run files actions).1
            ((opened files.load files.loadDescriptions).run files actions).2.1.settings) ∧
      ∀ settings p, files.loaded = .ok settings → settings.precision = .ok p →
        ∃ settings' p', settings'.precision = .ok p' ∧
          ((opened files.load files.loadDescriptions).run files actions).1.loaded =
            .ok settings' := by
  refine ⟨fun beginning descriptions refused d hOpen files action =>
    ⟨hOpen.act_of_readable files, hOpen.act_of_not_readable, hOpen.act_of_ne_ok⟩,
    fun beginning settings hIntact => attemptSave_eq_empty_iff hIntact,
    fun files actions hDisk => ?_⟩
  have hOpen : Open files.load files.loadDescriptions []
      (opened files.load files.loadDescriptions) := .opened
  have hRun := hOpen.run_cases hDisk actions
  refine ⟨hRun, fun settings p hLoaded hPrecision => ?_⟩
  rcases hRun with hSame | ⟨-, hStored⟩
  · exact ⟨settings, p, hPrecision, hSame.symm ▸ hLoaded⟩
  · obtain ⟨-, rfl⟩ := SettingsFiles.loaded_eq_ok_iff.1 hLoaded
    obtain ⟨p', hPrecision'⟩ := hStored.intact.precision hPrecision
    exact ⟨_, p', hPrecision', hStored.loaded hLoaded⟩

/-- The first try is refused, the second one stores the settings, and both keep the precision valid. -/
theorem stored_secondTry :
    (untried.act zoomFiles firstTry).1 = zoomFiles ∧
      (∃ box, (untried.act zoomFiles firstTry).2.2 = [box]) ∧
      Stored zoomFiles zoomFiles (triedOnce.act zoomFiles secondTry).1
        (triedOnce.act zoomFiles secondTry).2.1.settings ∧
      (untried.act zoomFiles { press := some .cancel }).1 = zoomFiles ∧
      (zoomFiles.attemptSave (.obj zoomFiles.load)).2 ≠ some (.obj []) ∧
      ∃ settings p', Settings.precision settings = .ok p' ∧
        (untried.run zoomFiles [firstTry, secondTry]).1.loaded = .ok settings := by
  obtain ⟨hAct, hAnswer, hRun⟩ := dialog_keeps_settings
  have hUntried : Open zoomFiles.load zoomFiles.loadDescriptions [] untried := .opened
  obtain ⟨-, hRefused, -⟩ := hAct zoomFiles _ [] untried hUntried zoomFiles firstTry
  obtain ⟨-, hBox, hSame⟩ := hRefused rfl (by decide +kernel)
  obtain ⟨hStores, -⟩ := hAct zoomFiles _ _ triedOnce open_triedOnce zoomFiles secondTry
  obtain ⟨-, -, hStored⟩ := (hStores rfl (by decide +kernel)).1 rfl
  obtain ⟨-, -, hCancel⟩ :=
    hAct zoomFiles _ [] untried hUntried zoomFiles { press := some .cancel }
  have hIntact : Intact zoomFiles.load zoomFiles.load :=
    List.forall₂_same.2 fun field _ => ⟨rfl, .refl field.1 field.2⟩
  have hWritten := mt (hAnswer zoomFiles zoomFiles.load hIntact zoomFiles).1 (by decide)
  have hDisk : ∀ kept, zoomFiles.disk ≠ .breaks kept := fun kept hBreaks => Disk.noConfusion hBreaks
  have hLoaded : zoomFiles.loaded = .ok zoomFiles.load :=
    SettingsFiles.loaded_eq_ok_iff.2 ⟨by decide +kernel, rfl⟩
  exact ⟨hSame, hBox, hStored, (hCancel (by decide)).1, hWritten,
    (hRun zoomFiles [firstTry, secondTry] hDisk).2 _ 6 hLoaded (by decide +kernel)⟩

/-- A field is filled in with an integer of so many ones. -/
def onesTry (count : ℕ) : DialogAction :=
  { edits := [.fill "zoom" (String.ofList (List.replicate count '1'))], press := some .ok }

/-- The field shows them. -/
theorem mem_entries_onesTry (count : ℕ) :
    (⟨"zoom", "zoom (min. 1):", .field "3" (String.ofList (List.replicate count '1'))⟩ : Entry) ∈
      ((onesTry count).edits.foldl edit untried).entries := by
  have hShown : (⟨"zoom", "zoom (min. 1):", .field "3" ""⟩ : Entry) ∈ untried.entries := by
    decide +kernel
  simp only [onesTry, List.foldl_cons, List.foldl_nil, edit]
  exact List.mem_map_of_mem (f := editEntry (.fill "zoom" _)) hShown

/-- If there are too many of them, OK is refused although the file can be written. -/
theorem refused_onesTry {count : ℕ} (h : Text.maxIntegerDigits < count) :
    (untried.act zoomFiles (onesTry count)).2.1.verdict = none ∧
      (∃ box, (untried.act zoomFiles (onesTry count)).2.2 = [box]) ∧
      (untried.act zoomFiles (onesTry count)).1 = zoomFiles := by
  have hUntried : Open zoomFiles.load zoomFiles.loadDescriptions [] untried := .opened
  have hPress : (onesTry count).press = some .ok := rfl
  refine hUntried.act_of_not_readable hPress fun hAll => ?_
  exact Entry.not_readable_ones h (hAll _ (mem_entries_onesTry count))

/--
The dialog does not always write the file when all fields hold integers and the file can be opened,
and it does not always tell what else has happened: an integer of 4301 digits is refused, nothing is
told if the file does not open for another reason than the dialog expects, and if writing breaks
off, the file is no longer JSON.
-/
theorem not_always_stored_or_told :
    (zoomFiles.disk = .takes ∧
      (untried.act zoomFiles (onesTry 4301)).2.1.verdict = none ∧
      (∃ box, (untried.act zoomFiles (onesTry 4301)).2.2 = [box]) ∧
      (untried.act zoomFiles (onesTry 4301)).1 = zoomFiles) ∧
    ((untried.act { zoomFiles with disk := .faults } secondTry).2.1.verdict = none ∧
      (untried.act { zoomFiles with disk := .faults } secondTry).2.2 = [] ∧
      (untried.act { zoomFiles with disk := .faults } secondTry).1.settings =
        zoomFiles.settings) ∧
    ((untried.act { zoomFiles with disk := .breaks 1 } secondTry).2.2 = [] ∧
      (untried.act { zoomFiles with disk := .breaks 1 } secondTry).1.settings = some "\x7b" ∧
      (Json.Reader.read "\x7b".toList).isNone = true) := by
  have hRefused := refused_onesTry (by decide : Text.maxIntegerDigits < 4301)
  exact ⟨⟨rfl, hRefused⟩, by decide +kernel, by decide +kernel⟩

end Dialog

end Window

end DerivCalc
