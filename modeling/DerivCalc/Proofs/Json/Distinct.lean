import DerivCalc.Proofs.Settings.Saving

/-!
# Loaded settings are saved and loaded unchanged

Whatever a file holds, the reader gives values in which all keys of an object are different: a
key that is written twice takes its last value in its first place.  So loaded settings can be
written and read back.  They already have all default keys, and have them first, so that overriding
the defaults by them gives just them.
-/

namespace DerivCalc.Json

/-! ## Keys of values that are read -/

namespace Fields

/-- A field after setting one is that one or was there. -/
theorem mem_put {fields : Fields} {key : String} {value : Json} {field : String × Json}
    (h : field ∈ fields.put key value) : field = (key, value) ∨ field ∈ fields := by
  induction fields with
  | nil => exact Or.inl (List.mem_singleton.1 h)
  | cons first rest ih =>
      obtain ⟨k, v⟩ := first
      simp only [put] at h
      split at h
      · rename_i hKey
        rcases List.mem_cons.1 h with rfl | hRest
        · exact Or.inl (by rw [hKey])
        · exact Or.inr (List.mem_cons_of_mem _ hRest)
      · rcases List.mem_cons.1 h with rfl | hRest
        · exact Or.inr List.mem_cons_self
        · exact (ih hRest).imp_right (List.mem_cons_of_mem _)

/-- A field after setting several comes from either side. -/
theorem mem_override {fields updates : Fields} {field : String × Json}
    (h : field ∈ fields.override updates) : field ∈ fields ∨ field ∈ updates := by
  induction updates generalizing fields with
  | nil => exact Or.inl h
  | cons update rest ih =>
      have hRest : field ∈ (fields.put update.1 update.2).override rest := h
      rcases ih hRest with hPut | hMem
      · rcases mem_put hPut with rfl | hOld
        · exact Or.inr List.mem_cons_self
        · exact Or.inl hOld
      · exact Or.inr (List.mem_cons_of_mem _ hMem)

end Fields

/-- Fields of values with different keys, one set over the other, are again an object with such. -/
theorem DistinctKeys.override {fields updates : Fields} (hNodup : fields.keys.Nodup)
    (hFields : ∀ field ∈ fields, field.2.DistinctKeys)
    (hUpdates : ∀ field ∈ updates, field.2.DistinctKeys) :
    (Json.obj (fields.override updates)).DistinctKeys := by
  refine .obj (Fields.nodup_keys_override hNodup updates) fun field hMem => ?_
  rcases Fields.mem_override hMem with hOld | hNew
  · exact hFields field hOld
  · exact hUpdates field hNew

namespace Reader

theorem distinctKeys_number {text rest : List Char} {v : Json}
    (h : number text = some (v, rest)) : v.DistinctKeys := by
  have hUnsigned {negative : Bool} {text : List Char}
      (hRead : unsigned negative text = some (v, rest)) : v.DistinctKeys := by
    unfold unsigned at hRead
    obtain ⟨⟨whole, afterWhole⟩, -, hRead⟩ := Option.bind_eq_some_iff.1 hRead
    obtain ⟨rfl, -⟩ := Prod.mk.inj (Option.some.inj hRead)
    unfold numberOfParts
    split
    · exact .int _
    · exact .float _
  unfold number at h
  split at h
  · exact hUnsigned h
  · exact hUnsigned h

theorem distinctKeys_scalar {text rest : List Char} {v : Json}
    (h : scalar text = some (v, rest)) : v.DistinctKeys := by
  unfold scalar at h
  split at h
  · rename_i result hWord
    obtain ⟨⟨word, v'⟩, hMem, hFound⟩ := List.exists_of_findSome?_eq_some hWord
    obtain ⟨after, -, hResult⟩ := Option.map_eq_some_iff.1 hFound
    rw [← hResult] at h
    obtain ⟨rfl, -⟩ := Prod.mk.inj (Option.some.inj h)
    simp only [words, List.mem_cons, List.not_mem_nil, or_false, Prod.mk.injEq] at hMem
    rcases hMem with ⟨-, rfl⟩ | ⟨-, rfl⟩ | ⟨-, rfl⟩ | ⟨-, rfl⟩ | ⟨-, rfl⟩ | ⟨-, rfl⟩
    · exact .null
    · exact .bool _
    · exact .bool _
    · exact .float _
    · exact .float _
    · exact .float _
  · exact distinctKeys_number h

/-- What the four readers give with some fuel has different keys. -/
structure Distinct (fuel : ℕ) : Prop where
  value : ∀ {text rest v}, value fuel text = some (v, rest) → v.DistinctKeys
  elements : ∀ {text rest list}, elements fuel text = some (list, rest) →
    ∀ e ∈ list, e.DistinctKeys
  members : ∀ {text rest list}, members fuel text = some (list, rest) →
    ∀ field ∈ list, field.2.DistinctKeys
  field : ∀ {text rest key v}, field fuel text = some (key, v, rest) → v.DistinctKeys

theorem Distinct.value_succ {fuel : ℕ} (h : Distinct fuel) {text rest : List Char} {v : Json}
    (hRead : Reader.value (fuel + 1) text = some (v, rest)) : v.DistinctKeys := by
  unfold Reader.value at hRead
  split at hRead
  · obtain ⟨result, -, hResult⟩ := Option.map_eq_some_iff.1 hRead
    obtain ⟨rfl, -⟩ := Prod.mk.inj hResult
    exact .str _
  · split at hRead
    · obtain ⟨rfl, -⟩ := Prod.mk.inj (Option.some.inj hRead)
      exact .arr (by simp)
    · obtain ⟨⟨list, after⟩, hList, hResult⟩ := Option.map_eq_some_iff.1 hRead
      obtain ⟨rfl, -⟩ := Prod.mk.inj hResult
      exact .arr (h.elements hList)
  · split at hRead
    · obtain ⟨rfl, -⟩ := Prod.mk.inj (Option.some.inj hRead)
      exact .obj (by simp) (by simp)
    · obtain ⟨⟨list, after⟩, hList, hResult⟩ := Option.map_eq_some_iff.1 hRead
      obtain ⟨rfl, -⟩ := Prod.mk.inj hResult
      exact .override (by simp) (by simp) (h.members hList)
  · exact distinctKeys_scalar hRead

theorem Distinct.elements_succ {fuel : ℕ} (h : Distinct fuel) {text rest : List Char}
    {list : List Json} (hRead : Reader.elements (fuel + 1) text = some (list, rest)) :
    ∀ e ∈ list, e.DistinctKeys := by
  unfold Reader.elements at hRead
  obtain ⟨⟨first, after⟩, hFirst, hRead⟩ := Option.bind_eq_some_iff.1 hRead
  simp only at hRead
  split at hRead
  · obtain ⟨rfl, -⟩ := Prod.mk.inj (Option.some.inj hRead)
    intro e hMem
    rw [List.mem_singleton.1 hMem]
    exact h.value hFirst
  · obtain ⟨⟨others, last⟩, hOthers, hRead⟩ := Option.bind_eq_some_iff.1 hRead
    obtain ⟨rfl, -⟩ := Prod.mk.inj (Option.some.inj hRead)
    exact List.forall_mem_cons.2 ⟨h.value hFirst, h.elements hOthers⟩
  · exact absurd hRead (by simp)

theorem Distinct.members_succ {fuel : ℕ} (h : Distinct fuel) {text rest : List Char}
    {list : Fields} (hRead : Reader.members (fuel + 1) text = some (list, rest)) :
    ∀ field ∈ list, field.2.DistinctKeys := by
  unfold Reader.members at hRead
  obtain ⟨⟨key, first, after⟩, hFirst, hRead⟩ := Option.bind_eq_some_iff.1 hRead
  simp only at hRead
  split at hRead
  · obtain ⟨rfl, -⟩ := Prod.mk.inj (Option.some.inj hRead)
    intro field hMem
    rw [List.mem_singleton.1 hMem]
    exact h.field hFirst
  · obtain ⟨⟨others, last⟩, hOthers, hRead⟩ := Option.bind_eq_some_iff.1 hRead
    obtain ⟨rfl, -⟩ := Prod.mk.inj (Option.some.inj hRead)
    exact List.forall_mem_cons.2 ⟨h.field hFirst, h.members hOthers⟩
  · exact absurd hRead (by simp)

theorem Distinct.field_succ {fuel : ℕ} (h : Distinct fuel) {text rest : List Char}
    {key : String} {v : Json} (hRead : Reader.field (fuel + 1) text = some (key, v, rest)) :
    v.DistinctKeys := by
  unfold Reader.field at hRead
  split at hRead
  · obtain ⟨⟨chars, after⟩, -, hRead⟩ := Option.bind_eq_some_iff.1 hRead
    simp only at hRead
    split at hRead
    · obtain ⟨⟨v', last⟩, hValue, hRead⟩ := Option.bind_eq_some_iff.1 hRead
      obtain ⟨-, hPair⟩ := Prod.mk.inj (Option.some.inj hRead)
      obtain ⟨rfl, -⟩ := Prod.mk.inj hPair
      exact h.value hValue
    · exact absurd hRead (by simp)
  · exact absurd hRead (by simp)

theorem distinct (fuel : ℕ) : Distinct fuel := by
  induction fuel with
  | zero =>
      constructor
      · intro text rest v hRead
        exact absurd hRead (by simp [Reader.value])
      · intro text rest list hRead
        exact absurd hRead (by simp [Reader.elements])
      · intro text rest list hRead
        exact absurd hRead (by simp [Reader.members])
      · intro text rest key v hRead
        exact absurd hRead (by simp [Reader.field])
  | succ fuel ih => exact ⟨ih.value_succ, ih.elements_succ, ih.members_succ, ih.field_succ⟩

/-- A key occurs once in every object that is read. -/
theorem distinctKeys_of_read {text : List Char} {v : Json} (h : read text = some v) :
    v.DistinctKeys := by
  unfold read at h
  obtain ⟨⟨result, rest⟩, hValue, h⟩ := Option.bind_eq_some_iff.1 h
  simp only at h
  split at h
  · rw [← Option.some.inj h]
    exact (distinct _).value hValue
  · exact absurd h (by simp)

end Reader

/-! ## Overriding by fields with the same keys -/

namespace Fields

theorem get?_of_notMem {fields : Fields} {key : String} (h : key ∉ fields.keys) :
    fields.get? key = none := by
  cases hFound : fields.get? key with
  | none => rfl
  | some value => exact absurd (List.mem_map.2 ⟨_, mem_of_get? hFound, rfl⟩) h

/-- Fields with the same keys in the same order are the same if their values are. -/
theorem ext_of_get? {fields others : Fields} (hKeys : fields.keys = others.keys)
    (hNodup : fields.keys.Nodup) (hValues : ∀ key, fields.get? key = others.get? key) :
    fields = others := by
  induction fields generalizing others with
  | nil =>
      cases others with
      | nil => rfl
      | cons other rest => exact absurd hKeys (by simp)
  | cons field rest ih =>
      cases others with
      | nil => exact absurd hKeys (by simp)
      | cons other others =>
          obtain ⟨key, value⟩ := field
          obtain ⟨key', value'⟩ := other
          rw [keys_cons, keys_cons] at hKeys
          obtain ⟨hKey, hRest⟩ := List.cons.inj hKeys
          obtain rfl : key = key' := hKey
          obtain ⟨hFirst, hNodupRest⟩ := List.nodup_cons.1 hNodup
          have hFirst' : key ∉ keys others := hRest ▸ hFirst
          have hValue : value = value' := by
            have hSame := hValues key
            simpa [get?] using hSame
          have hOthers : ∀ other, get? rest other = get? others other := by
            intro other
            by_cases hOther : other = key
            · rw [hOther, get?_of_notMem hFirst, get?_of_notMem hFirst']
            · have hNe : (other == key) = false := beq_eq_false_iff_ne.2 hOther
              have hSame := hValues other
              simpa [get?, List.lookup_cons, hNe] using hSame
          rw [hValue, ih hRest hNodupRest hOthers]

/-- Nothing is left of fields that are overridden by fields with their keys in front. -/
theorem override_eq_self {fields updates : Fields} {others : List String}
    (hNodup : updates.keys.Nodup) (hKeys : updates.keys = fields.keys ++ others) :
    fields.override updates = updates := by
  have hSplit := hNodup
  rw [hKeys, List.nodup_append'] at hSplit
  obtain ⟨hFields, -, hApart⟩ := hSplit
  have hNew : (updates.keys.filter fun key => key ∉ fields.keys) = others := by
    have hOld : (fields.keys.filter fun key => decide (key ∉ fields.keys)) = [] := by
      rw [List.filter_eq_nil_iff]
      intro key hMem
      simp [hMem]
    have hOthers : (others.filter fun key => decide (key ∉ fields.keys)) = others := by
      rw [List.filter_eq_self]
      intro key hMem
      simpa using fun hOld => hApart hOld hMem
    rw [hKeys, List.filter_append, hOld, hOthers, List.nil_append]
  have hSame : (fields.override updates).keys = updates.keys := by
    rw [keys_override fields hNodup, hNew, hKeys]
  refine ext_of_get? hSame (by rwa [hSame]) fun key => ?_
  rw [get?_override fields hNodup]
  by_cases hMem : key ∈ updates.keys
  · obtain ⟨field, hField, rfl⟩ := List.mem_map.1 hMem
    rw [get?_of_mem hNodup hField, Option.some_or]
  · have hOld : key ∉ fields.keys := fun hOld => hMem (hKeys ▸ List.mem_append_left _ hOld)
    rw [get?_of_notMem hMem, get?_of_notMem hOld, Option.none_or]

end Fields

end DerivCalc.Json

namespace DerivCalc

/-! ## Settings of a file -/

namespace Settings

theorem distinctKeys_fieldsOfFile (content : Option String) :
    (Json.obj (fieldsOfFile content)).DistinctKeys := by
  unfold fieldsOfFile
  split
  · rename_i fields hFields
    obtain ⟨text, -, hRead⟩ := Option.bind_eq_some_iff.1 hFields
    exact Json.Reader.distinctKeys_of_read hRead
  · exact .obj (by simp) (by simp)

end Settings

namespace SettingsFiles

/-- In the settings of a file no object has a key twice. -/
theorem distinctKeys_load (files : SettingsFiles) : (Json.obj files.load).DistinctKeys := by
  refine .override (by decide) ?_ ?_
  · intro field hMem
    simp only [Settings.defaults, List.mem_cons, List.not_mem_nil, or_false] at hMem
    rcases hMem with rfl | rfl | rfl | rfl
    · exact .int _
    · exact .bool _
    · exact .bool _
    · exact .bool _
  · cases Settings.distinctKeys_fieldsOfFile files.settings with
    | obj _ hAll => exact hAll

/-- The default keys come first. -/
theorem exists_keys_load (files : SettingsFiles) :
    ∃ others, files.load.keys = Settings.defaults.keys ++ others := by
  cases Settings.distinctKeys_fieldsOfFile files.settings with
  | obj hNodup _ => exact ⟨_, Json.Fields.keys_override Settings.defaults hNodup⟩

/-- Saved settings with the keys of loaded ones are what is loaded next. -/
theorem load_save_of_keys {files beginning : SettingsFiles} {saved : Settings}
    (hWritable : files.writable = true) (hDistinct : (Json.obj saved).DistinctKeys)
    (hKeys : saved.keys = beginning.load.keys) :
    (files.save (.obj saved)).1.load = saved := by
  obtain ⟨others, hOthers⟩ := beginning.exists_keys_load
  rw [load_save hWritable hDistinct]
  refine Json.Fields.override_eq_self ?_ (hKeys.trans hOthers)
  rw [hKeys]
  exact beginning.nodup_keys_load

end SettingsFiles

end DerivCalc
