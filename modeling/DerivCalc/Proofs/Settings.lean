import Mathlib.Data.List.Nodup
import DerivCalc.Settings

/-!
# Settings by key

A key occurs once in the settings that a file stands for, so changing the value of a key that is
there is a map over the fields.
-/

namespace DerivCalc

namespace Json.Fields

/-- The keys in order. -/
def keys (fields : Fields) : List String := fields.map Prod.fst

@[simp] theorem keys_nil : keys [] = [] := rfl

@[simp] theorem keys_cons (field : String × Json) (rest : Fields) :
    keys (field :: rest) = field.1 :: keys rest := rfl

/-- A key that is there stays in its place, and another one comes to the end. -/
theorem keys_put (fields : Fields) (key : String) (value : Json) :
    (fields.put key value).keys =
      if key ∈ fields.keys then fields.keys else fields.keys ++ [key] := by
  induction fields with
  | nil => rfl
  | cons field rest ih =>
      obtain ⟨k, v⟩ := field
      simp only [put]
      by_cases hKey : k = key
      · simp [hKey]
      · have hKey' : key ≠ k := fun h => hKey h.symm
        by_cases hMem : key ∈ keys rest <;> simp [hKey, hKey', ih, hMem]

theorem nodup_keys_put {fields : Fields} (h : fields.keys.Nodup) (key : String) (value : Json) :
    (fields.put key value).keys.Nodup := by
  rw [keys_put]
  split
  · exact h
  · rename_i hMem
    exact h.append (List.nodup_singleton key) (by simpa using hMem)

theorem nodup_keys_override {fields : Fields} (h : fields.keys.Nodup) (updates : Fields) :
    (fields.override updates).keys.Nodup := by
  induction updates generalizing fields with
  | nil => exact h
  | cons update rest ih => exact ih (nodup_keys_put h update.1 update.2)

/-- What looking a key up gives is a field. -/
theorem mem_of_get? {fields : Fields} {key : String} {value : Json}
    (h : fields.get? key = some value) : (key, value) ∈ fields := by
  induction fields with
  | nil => simp [get?] at h
  | cons field rest ih =>
      obtain ⟨k, v⟩ := field
      simp only [get?, List.lookup_cons] at h
      cases hKey : key == k with
      | true =>
          rw [hKey] at h
          rw [eq_of_beq hKey, Option.some.inj h]
          exact List.mem_cons_self
      | false =>
          rw [hKey] at h
          exact List.mem_cons_of_mem _ (ih h)

/-- A field is what looking its key up gives, if the keys are different. -/
theorem get?_of_mem {fields : Fields} (hNodup : fields.keys.Nodup) {key : String} {value : Json}
    (h : (key, value) ∈ fields) : fields.get? key = some value := by
  induction fields with
  | nil => exact absurd h List.not_mem_nil
  | cons field rest ih =>
      obtain ⟨hFirst, hRest⟩ := List.nodup_cons.1 hNodup
      rcases List.mem_cons.1 h with rfl | hMem
      · simp [get?]
      · have hNe : (key == field.1) = false := by
          apply beq_eq_false_iff_ne.2
          rintro rfl
          exact hFirst (List.mem_map.2 ⟨_, hMem, rfl⟩)
        rw [get?, List.lookup_cons, hNe]
        exact ih hRest hMem

/-- What holds of the fields pair by pair holds of the values of each key. -/
theorem get?_of_forall₂ {R : String → Json → Json → Prop} {fields others : Fields}
    (h : List.Forall₂ (fun old new => new.1 = old.1 ∧ R old.1 old.2 new.2) fields others)
    {key : String} {old : Json} (hOld : fields.get? key = some old) :
    ∃ value, others.get? key = some value ∧ R key old value := by
  induction h with
  | nil => exact absurd hOld (by simp [get?])
  | @cons field new _ _ hField _ ih =>
      obtain ⟨k, v⟩ := field
      obtain ⟨newKey, newValue⟩ := new
      obtain ⟨rfl, hPair⟩ := hField
      simp only [get?, List.lookup_cons] at hOld ih ⊢
      cases hKey : key == newKey with
      | true =>
          rw [hKey] at hOld
          obtain rfl := eq_of_beq hKey
          obtain rfl := Option.some.inj hOld
          exact ⟨newValue, rfl, hPair⟩
      | false =>
          rw [hKey] at hOld
          exact ih hOld

/-- A new key is put at the end. -/
theorem put_of_notMem {fields : Fields} {key : String} (h : key ∉ fields.keys) (value : Json) :
    fields.put key value = fields ++ [(key, value)] := by
  induction fields with
  | nil => rfl
  | cons field rest ih =>
      obtain ⟨k, v⟩ := field
      obtain ⟨hHead, hRest⟩ := not_or.1 (mt List.mem_cons.2 h)
      simp [put, Ne.symm hHead, ih hRest]

/-- Fields with new and different keys are put at the end in their order. -/
theorem override_eq_append {fields updates : Fields} (hNodup : updates.keys.Nodup)
    (hNew : ∀ key ∈ updates.keys, key ∉ fields.keys) :
    fields.override updates = fields ++ updates := by
  induction updates generalizing fields with
  | nil => exact (List.append_nil fields).symm
  | cons update rest ih =>
      obtain ⟨hFirst, hRest⟩ := List.nodup_cons.1 hNodup
      have hPut := put_of_notMem (hNew update.1 List.mem_cons_self) update.2
      have hStill : ∀ key ∈ keys rest, key ∉ keys (fields ++ [update]) := by
        intro key hMem hOld
        rw [keys, List.map_append, List.mem_append] at hOld
        rcases hOld with hOld | hOld
        · exact hNew key (List.mem_cons_of_mem _ hMem) hOld
        · rw [List.mem_singleton.1 hOld] at hMem
          exact hFirst hMem
      show (fields.put update.1 update.2).override rest = _
      rw [hPut, ih hRest hStill, List.append_assoc]
      rfl

/-- The old keys stay in their places, and the new ones follow in their order. -/
theorem keys_override (fields : Fields) {updates : Fields} (hNodup : updates.keys.Nodup) :
    (fields.override updates).keys =
      fields.keys ++ updates.keys.filter fun key => key ∉ fields.keys := by
  induction updates generalizing fields with
  | nil => exact (List.append_nil _).symm
  | cons update rest ih =>
      obtain ⟨hFirst, hRest⟩ := List.nodup_cons.1 hNodup
      show ((fields.put update.1 update.2).override rest).keys = _
      rw [ih (fields.put update.1 update.2) hRest, keys_put, keys_cons]
      by_cases hOld : update.1 ∈ fields.keys
      · simp [hOld]
      · have hOthers : (keys rest).filter (fun key => key ∉ fields.keys ++ [update.1]) =
            (keys rest).filter (fun key => key ∉ fields.keys) := by
          refine List.filter_congr fun key hMem => ?_
          have hNe : key ≠ update.1 := by
            rintro rfl
            exact hFirst hMem
          simp [hNe]
        simp only [hOld, if_false, hOthers, List.append_assoc]
        simp [hOld]

/-- A key that is set anew has its new value, and any other key its old one. -/
theorem get?_override (fields : Fields) {updates : Fields} (hNodup : updates.keys.Nodup)
    (key : String) :
    (fields.override updates).get? key = (updates.get? key).or (fields.get? key) := by
  induction updates generalizing fields with
  | nil => rfl
  | cons update rest ih =>
      obtain ⟨k, v⟩ := update
      obtain ⟨hFirst, hRest⟩ := List.nodup_cons.1 hNodup
      show ((fields.put k v).override rest).get? key = _
      rw [ih (fields.put k v) hRest]
      by_cases hKey : key = k
      · subst hKey
        have hOnce : get? rest key = none := by
          cases hFound : get? rest key with
          | none => rfl
          | some value =>
              exact absurd (List.mem_map.2 ⟨_, mem_of_get? hFound, rfl⟩) hFirst
        rw [hOnce, get?_put_self]
        simp [get?]
      · have hOther : (key == k) = false := beq_eq_false_iff_ne.2 hKey
        rw [get?_put_of_ne fields v hKey]
        simp [get?, List.lookup_cons, hOther]

/-- Changing the value of a key that occurs once changes the field with that key. -/
theorem put_eq_map {fields : Fields} {key : String} (hNodup : fields.keys.Nodup)
    (hMem : key ∈ fields.keys) (value : Json) :
    fields.put key value =
      fields.map fun field => (field.1, if field.1 = key then value else field.2) := by
  induction fields with
  | nil => exact absurd hMem List.not_mem_nil
  | cons field rest ih =>
      obtain ⟨k, v⟩ := field
      obtain ⟨hNotMem, hRest⟩ := List.nodup_cons.1 hNodup
      simp only [put, List.map_cons]
      by_cases hKey : k = key
      · subst hKey
        have hOthers : rest.map (fun field => (field.1, if field.1 = k then value else field.2)) =
            rest := by
          refine (List.map_congr_left fun field hField => ?_).trans (List.map_id rest)
          have hNe : field.1 ≠ k := fun hEq => hNotMem (List.mem_map.2 ⟨field, hField, hEq⟩)
          simp [hNe]
        simp [hOthers]
      · have hMemRest : key ∈ keys rest := by
          rcases List.mem_cons.1 hMem with hEq | hMemRest
          · exact absurd hEq.symm hKey
          · exact hMemRest
        simp [hKey, ih hRest hMemRest]

end Json.Fields

/-- The settings have the same digits if they have the same value for them. -/
theorem Settings.precision_congr {settings settings' : Settings}
    (h : settings.get? "precision" = settings'.get? "precision") :
    settings.precision = settings'.precision := by
  unfold precision value
  rw [if_neg (by decide), if_neg (by decide), h]

/-- Settings are loaded unless the reader of the file ends in a fault. -/
theorem SettingsFiles.loaded_eq_ok_iff {files : SettingsFiles} {settings : Settings} :
    files.loaded = .ok settings ↔
      Settings.faultOfFile files.settings = none ∧ files.load = settings := by
  unfold loaded Settings.loadFile load
  cases Settings.faultOfFile files.settings <;> simp

theorem SettingsFiles.loadedDescriptions_eq_ok_iff {files : SettingsFiles}
    {descriptions : Json.Fields} :
    files.loadedDescriptions = .ok descriptions ↔
      Settings.faultOfFile files.descriptions = none ∧ files.loadDescriptions = descriptions := by
  unfold loadedDescriptions
  cases Settings.faultOfFile files.descriptions <;> simp

/-- A key occurs once in the settings of a file. -/
theorem SettingsFiles.nodup_keys_load (files : SettingsFiles) : files.load.keys.Nodup :=
  Json.Fields.nodup_keys_override (by decide) _

end DerivCalc
