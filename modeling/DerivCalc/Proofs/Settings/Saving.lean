import DerivCalc.Proofs.Json.RoundTrip

/-!
# Saved settings are loaded again

What is saved is written as text and read from that text at the next use.  Since the text of
a value is read as that value, the settings after saving are the defaults overridden by what
was saved, and nothing of the file before it is left.
-/

namespace DerivCalc

namespace SettingsFiles

theorem writable_iff {files : SettingsFiles} : files.writable = true ↔ files.disk = .takes :=
  beq_iff_eq

/-- The whole text is in the file, and the settings are the answer. -/
theorem attemptSave_of_writable {files : SettingsFiles} (h : files.writable = true)
    (settings : Json) :
    files.attemptSave settings =
      ({ files with settings := some (Json.Writer.file settings) }, some settings) := by
  unfold attemptSave write
  rw [writable_iff.1 h, h]
  rfl

theorem save_of_writable {files : SettingsFiles} (h : files.writable = true) (settings : Json) :
    files.save settings =
      ({ files with settings := some (Json.Writer.file settings) }, settings) := by
  unfold save
  rw [attemptSave_of_writable h]
  rfl

/-- After saving, the settings are the defaults overridden by what was saved. -/
theorem load_save {files : SettingsFiles} {saved : Settings} (hWritable : files.writable = true)
    (hDistinct : (Json.obj saved).DistinctKeys) :
    (files.save (.obj saved)).1.load = Settings.defaults.override saved := by
  have hRead := Json.Reader.read_file hDistinct
  rw [save_of_writable hWritable]
  unfold load Settings.ofFile Settings.fieldsOfFile
  rw [Option.bind_some, hRead]

end SettingsFiles

namespace Settings

theorem value_of_get? {fields : Json.Fields} {key : String} {v : Json} (hKey : key ≠ "all")
    (h : fields.get? key = some v) : value fields key = v := by
  rw [value, if_neg hKey, h, Option.getD_some]

/--
Loading undoes saving.

If the file can be written, the settings after saving an object are the defaults overridden
by it: the default keys come first, then the other keys of the object in its order, every key
of the object has the value that was saved, whatever is nested in it, and every other key has
its default.
-/
theorem loading_undoes_saving (files : SettingsFiles) (saved : Settings)
    (hWritable : files.writable = true) (hDistinct : (Json.obj saved).DistinctKeys) :
    value (files.save (.obj saved)).1.load "all" = .obj (defaults.override saved) ∧
    (files.save (.obj saved)).1.load.keys =
      defaults.keys ++ saved.keys.filter (fun key => key ∉ defaults.keys) ∧
    (∀ key, (files.save (.obj saved)).1.load.get? key =
      (saved.get? key).or (defaults.get? key)) ∧
    ∀ key v, (key, v) ∈ saved → key ≠ "all" →
      value (files.save (.obj saved)).1.load key = v := by
  have hNodup : saved.keys.Nodup := by
    cases hDistinct with
    | obj hNodup _ => exact hNodup
  rw [SettingsFiles.load_save hWritable hDistinct]
  refine ⟨rfl, Json.Fields.keys_override defaults hNodup,
    Json.Fields.get?_override defaults hNodup, ?_⟩
  intro key v hMem hKey
  apply value_of_get? hKey
  rw [Json.Fields.get?_override defaults hNodup, Json.Fields.get?_of_mem hNodup hMem,
    Option.some_or]

/-- Settings with a character outside the basic plane, exceptional numbers and empty lists. -/
def nestedSettings : Settings :=
  [("😀 \"\n", .arr [.arr [], .obj [], .float (0 / 0), .float (-0), .int (-12)]),
   ("darkmode", .obj [("all", .float 1e300), ("é", .null)]),
   ("all", .bool true)]

theorem distinctKeys_nestedSettings : (Json.obj nestedSettings).DistinctKeys := by
  have hList : (Json.arr [.arr [], .obj [], .float (0 / 0), .float (-0), .int (-12)]).DistinctKeys := by
    refine .arr fun e hMem => ?_
    simp only [List.mem_cons, List.not_mem_nil, or_false] at hMem
    rcases hMem with rfl | rfl | rfl | rfl | rfl
    · exact .arr (by simp)
    · exact .obj (by simp) (by simp)
    · exact .float _
    · exact .float _
    · exact .int _
  have hObject : (Json.obj [("all", .float 1e300), ("é", .null)]).DistinctKeys := by
    refine .obj (by decide) fun field hMem => ?_
    simp only [List.mem_cons, List.not_mem_nil, or_false] at hMem
    rcases hMem with rfl | rfl
    · exact .float _
    · exact .null
  refine .obj (by decide) fun field hMem => ?_
  simp only [nestedSettings, List.mem_cons, List.not_mem_nil, or_false] at hMem
  rcases hMem with rfl | rfl | rfl
  · exact hList
  · exact hObject
  · exact .bool _

/-- The nested settings after they were saved: a default is replaced, two keys are new. -/
theorem load_nestedSettings :
    (({} : SettingsFiles).save (.obj nestedSettings)).1.load.keys =
        ["precision", "debug", "darkmode", "after_paste_enter", "😀 \"\n", "all"] ∧
      value (({} : SettingsFiles).save (.obj nestedSettings)).1.load "darkmode" =
        .obj [("all", .float 1e300), ("é", .null)] := by
  obtain ⟨-, hKeys, -, hValue⟩ :=
    loading_undoes_saving {} nestedSettings rfl distinctKeys_nestedSettings
  exact ⟨hKeys.trans (by decide),
    hValue "darkmode" _ (by simp [nestedSettings]) (by decide)⟩

end Settings

end DerivCalc
