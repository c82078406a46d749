import DerivCalc.Proofs.Json.Number
import DerivCalc.Proofs.Json.Text
import DerivCalc.Proofs.Settings

/-!
# A written value is read back

The reader takes the text of a value off the front of a longer text and leaves the rest, if
that rest is one that can follow a value.  The fuel that it needs is bounded by the length of
the text: two levels of the reader are entered for each character at most.

A reader does not tell an object from one with a key written twice, so all keys of an object
have to be different: `DistinctKeys`, for the objects inside it too.
-/

namespace DerivCalc.Json

/-- The keys of an object are different, and so are those of every object inside the value. -/
inductive DistinctKeys : Json → Prop
  | null : DistinctKeys .null
  | bool (b : Bool) : DistinctKeys (.bool b)
  | int (i : ℤ) : DistinctKeys (.int i)
  | float (v : Float) : DistinctKeys (.float v)
  | str (s : String) : DistinctKeys (.str s)
  | arr {list : List Json} : (∀ e ∈ list, DistinctKeys e) → DistinctKeys (.arr list)
  | obj {fields : Fields} : fields.keys.Nodup → (∀ field ∈ fields, DistinctKeys field.2) →
      DistinctKeys (.obj fields)

namespace Reader

open Writer (pretty prettyElements prettyFields newLine)

/-! ## Blanks -/

/-- The blanks that a value may have around it. -/
def isLayout (c : Char) : Bool := c == ' ' || c == '\t' || c == '\n' || c == '\r'

theorem skipBlanks_cons {c : Char} (h : isLayout c = false) (rest : List Char) :
    skipBlanks (c :: rest) = c :: rest :=
  List.dropWhile_cons_of_neg (Bool.eq_false_iff.1 h)

theorem skipBlanks_newLine (level : ℕ) {c : Char} (h : isLayout c = false) (rest : List Char) :
    skipBlanks (newLine level ++ c :: rest) = c :: rest := by
  have hBlanks : ∀ d ∈ newLine level, isLayout d = true := by
    intro d hMem
    rcases List.mem_cons.1 hMem with rfl | hMem
    · rfl
    · rw [List.eq_of_mem_replicate hMem]
      rfl
  show (newLine level ++ c :: rest).dropWhile isLayout = c :: rest
  rw [List.dropWhile_append_of_pos hBlanks]
  exact skipBlanks_cons h rest

theorem ends_newLine (level : ℕ) (rest : List Char) : Ends (newLine level ++ rest) :=
  ends_cons (Or.inr rfl) _

/-! ## How values start -/

/-- The text starts like a value, and neither with a blank nor with the end of a list. -/
def StartsValue (text : List Char) : Prop :=
  ∃ c tail, text = c :: tail ∧ isLayout c = false ∧ c ≠ ']'

theorem StartsValue.append {text : List Char} (h : StartsValue text) (rest : List Char) :
    StartsValue (text ++ rest) := by
  obtain ⟨c, tail, rfl, hC⟩ := h
  exact ⟨c, tail ++ rest, rfl, hC⟩

theorem StartsValue.skipBlanks {text : List Char} (h : StartsValue text) :
    skipBlanks text = text := by
  obtain ⟨c, tail, rfl, hBlank, -⟩ := h
  exact skipBlanks_cons hBlank tail

theorem StartsValue.skipBlanks_newLine {text : List Char} (h : StartsValue text) (level : ℕ) :
    Reader.skipBlanks (newLine level ++ text) = text := by
  obtain ⟨c, tail, rfl, hBlank, -⟩ := h
  exact Reader.skipBlanks_newLine level hBlank tail

/-- No word and no number starts with a blank, a bracket or a quote. -/
theorem exists_of_scalar {text : List Char} {result : Json × List Char}
    (h : scalar text = some result) : ∃ c tail, text = c :: tail ∧
      c ∉ [' ', '\t', '\n', '\r', '"', '[', '{', ']'] := by
  have hNone : ∀ c ∈ [' ', '\t', '\n', '\r', '"', '[', '{', ']'],
      ∀ tail, scalar (c :: tail) = none := by
    intro c hMem tail
    simp only [List.mem_cons, List.not_mem_nil, or_false] at hMem
    rcases hMem with rfl | rfl | rfl | rfl | rfl | rfl | rfl | rfl <;> rfl
  cases text with
  | nil =>
      have hEmpty : scalar [] = none := rfl
      rw [hEmpty] at h
      exact absurd h (by simp)
  | cons c tail =>
      refine ⟨c, tail, rfl, ?_⟩
      intro hMem
      rw [hNone c hMem tail] at h
      exact absurd h (by simp)

theorem startsValue_of_scalar {text : List Char} {result : Json × List Char}
    (h : scalar text = some result) : StartsValue text := by
  obtain ⟨c, tail, hText, hStart⟩ := exists_of_scalar h
  simp only [List.mem_cons, List.not_mem_nil, or_false, not_or] at hStart
  exact ⟨c, tail, hText, by simp [isLayout, hStart], hStart.2.2.2.2.2.2.2⟩

/-- A text that does not start with a quote or a bracket is a word or a number. -/
theorem value_of_scalar {text : List Char} {result : Json × List Char}
    (h : scalar text = some result) (fuel : ℕ) : value (fuel + 1) text = some result := by
  obtain ⟨c, tail, rfl, hStart⟩ := exists_of_scalar h
  simp only [List.mem_cons, List.not_mem_nil, or_false, not_or] at hStart
  obtain ⟨-, -, -, -, hQuote, hArray, hObject, -⟩ := hStart
  rw [value.eq_def]
  simp only
  split
  · exact absurd (List.cons.inj ‹_›).1 hQuote
  · exact absurd (List.cons.inj ‹_›).1 hArray
  · exact absurd (List.cons.inj ‹_›).1 hObject
  · exact h

/-- The scalars: what is written as a word or a number is read back. -/
theorem scalar_pretty (level : ℕ) {v : Json} {rest : List Char} (hRest : Ends rest)
    (hScalar : v = .null ∨ (∃ b, v = .bool b) ∨ (∃ i, v = .int i) ∨ ∃ d, v = .float d) :
    scalar (pretty level v ++ rest) = some (v, rest) := by
  rcases hScalar with rfl | ⟨b, rfl⟩ | ⟨i, rfl⟩ | ⟨d, rfl⟩
  · exact scalar_word rest ("null", .null) (by simp [words])
  · cases b with
    | true => exact scalar_word rest ("true", .bool true) (by simp [words])
    | false => exact scalar_word rest ("false", .bool false) (by simp [words])
  · exact scalar_integer i hRest
  · exact scalar_double d hRest

/-- A written value starts like one. -/
theorem startsValue_pretty (level : ℕ) (v : Json) : StartsValue (pretty level v) := by
  have hScalar (h : v = .null ∨ (∃ b, v = .bool b) ∨ (∃ i, v = .int i) ∨ ∃ d, v = .float d) :
      StartsValue (pretty level v) := by
    have hRead := scalar_pretty level ends_nil h
    rw [List.append_nil] at hRead
    exact startsValue_of_scalar hRead
  cases v with
  | null => exact hScalar (by simp)
  | bool b => exact hScalar (by simp)
  | int i => exact hScalar (by simp)
  | float d => exact hScalar (by simp)
  | str s => exact ⟨'"', _, rfl, by decide, by decide⟩
  | arr list => cases list <;> exact ⟨'[', _, rfl, by decide, by decide⟩
  | obj fields => cases fields <;> exact ⟨'{', _, rfl, by decide, by decide⟩

/-! ## Lists of values -/

/-- The value is read off the front of a text, with two units of fuel for each character. -/
def ReadsBack (v : Json) : Prop :=
  ∀ (level fuel : ℕ) (rest : List Char), 2 * (pretty level v).length ≤ fuel → Ends rest →
    value fuel (pretty level v ++ rest) = some (v, rest)

theorem ends_prettyElements (level n : ℕ) (list : List Json) (rest : List Char) :
    Ends (prettyElements level list ++ (newLine n ++ rest)) := by
  cases list with
  | nil => exact ends_newLine n rest
  | cons e list => exact ends_cons (Or.inl rfl) _

theorem ends_prettyFields (level n : ℕ) (fields : Fields) (rest : List Char) :
    Ends (prettyFields level fields ++ (newLine n ++ rest)) := by
  cases fields with
  | nil => exact ends_newLine n rest
  | cons field fields => exact ends_cons (Or.inl rfl) _

/-- The elements of an array are read up to its closing bracket. -/
theorem elements_pretty (level n : ℕ) (after : List Char) (list : List Json) :
    ∀ (e : Json) (fuel : ℕ), (∀ e' ∈ e :: list, ReadsBack e') →
      2 * ((pretty level e).length + (prettyElements level list).length) ≤ fuel →
      elements (fuel + 1)
          (pretty level e ++ (prettyElements level list ++ (newLine n ++ ']' :: after))) =
        some (e :: list, after) := by
  induction list with
  | nil =>
      intro e fuel hAll hFuel
      have hFirst := hAll e List.mem_cons_self level fuel _ (by omega)
        (ends_prettyElements level n [] (']' :: after))
      have hClose := skipBlanks_newLine n (by decide : isLayout ']' = false) after
      rw [elements, hFirst]
      simp only [bind, Option.bind, prettyElements, List.nil_append, hClose]
      rfl
  | cons e' list ih =>
      intro e fuel hAll hFuel
      have hFirst := hAll e List.mem_cons_self level fuel _ (by omega)
        (ends_prettyElements level n (e' :: list) (']' :: after))
      simp only [prettyElements, List.length_append, List.length_cons] at hFuel
      obtain ⟨fuel, rfl⟩ := Nat.exists_eq_add_of_le' (by omega : 1 ≤ fuel)
      have hRest := ih e' fuel (fun e₀ hMem => hAll e₀ (List.mem_cons_of_mem e hMem)) (by omega)
      have hNext := ((startsValue_pretty level e').append
        (prettyElements level list ++ (newLine n ++ ']' :: after))).skipBlanks_newLine level
      have hComma := skipBlanks_cons (by decide : isLayout ',' = false) (newLine level ++
        (pretty level e' ++ (prettyElements level list ++ (newLine n ++ ']' :: after))))
      rw [elements, hFirst]
      simp only [bind, Option.bind, prettyElements, List.cons_append, List.append_assoc, hComma,
        hNext, hRest]
      rfl

/-! ## Fields -/

/-- The quote of a key is no blank. -/
theorem skipBlanks_newLine_encode (level : ℕ) (key : String) (rest : List Char) :
    skipBlanks (newLine level ++ (Text.encode key.toList ++ rest)) =
      Text.encode key.toList ++ rest :=
  skipBlanks_newLine level (by decide : isLayout '"' = false) _

/-- A key and its value are read. -/
theorem field_pretty {e : Json} (h : ReadsBack e) (key : String) (level : ℕ) {fuel : ℕ}
    {rest : List Char} (hFuel : 2 * (pretty level e).length ≤ fuel) (hRest : Ends rest) :
    field (fuel + 1) (Text.encode key.toList ++ (':' :: ' ' :: (pretty level e ++ rest))) =
      some (key, e, rest) := by
  have hKey := Text.decode_written key.toList (':' :: ' ' :: (pretty level e ++ rest))
  have hColon := skipBlanks_cons (by decide : isLayout ':' = false)
    (' ' :: (pretty level e ++ rest))
  have hValue : skipBlanks (' ' :: (pretty level e ++ rest)) = pretty level e ++ rest :=
    ((startsValue_pretty level e).append rest).skipBlanks
  have hText : Text.encode key.toList ++ (':' :: ' ' :: (pretty level e ++ rest)) =
      '"' :: (key.toList.flatMap Text.encodeChar ++
        '"' :: (':' :: ' ' :: (pretty level e ++ rest))) := by
    simp [Text.encode]
  rw [hText, field]
  simp only [bind, Option.bind, hKey, hColon, hValue, h level fuel rest hFuel hRest,
    String.ofList_toList]
  rfl

/-- The fields of an object are read up to its closing brace. -/
theorem members_pretty (level n : ℕ) (after : List Char) (fields : Fields) :
    ∀ (key : String) (e : Json) (fuel : ℕ), (∀ field ∈ (key, e) :: fields, ReadsBack field.2) →
      2 * ((pretty level e).length + (prettyFields level fields).length) ≤ fuel →
      members (fuel + 2) (Text.encode key.toList ++ (':' :: ' ' :: (pretty level e ++
          (prettyFields level fields ++ (newLine n ++ '}' :: after))))) =
        some ((key, e) :: fields, after) := by
  induction fields with
  | nil =>
      intro key e fuel hAll hFuel
      have hE : ReadsBack e := hAll (key, e) List.mem_cons_self
      have hFirst := field_pretty hE key level (by omega : 2 * (pretty level e).length ≤ fuel)
        (ends_prettyFields level n [] ('}' :: after))
      have hClose := skipBlanks_newLine n (by decide : isLayout '}' = false) after
      rw [members, hFirst]
      simp only [bind, Option.bind, prettyFields, List.nil_append, hClose]
      rfl
  | cons field fields ih =>
      intro key e fuel hAll hFuel
      obtain ⟨key', e'⟩ := field
      have hE : ReadsBack e := hAll (key, e) List.mem_cons_self
      have hFirst := field_pretty hE key level (by omega : 2 * (pretty level e).length ≤ fuel)
        (ends_prettyFields level n ((key', e') :: fields) ('}' :: after))
      simp only [prettyFields, List.length_append, List.length_cons] at hFuel
      obtain ⟨fuel, rfl⟩ := Nat.exists_eq_add_of_le' (by omega : 1 ≤ fuel)
      have hRest := ih key' e' fuel (fun field hMem => hAll field (List.mem_cons_of_mem _ hMem))
        (by omega)
      have hComma (rest : List Char) : skipBlanks (',' :: rest) = ',' :: rest :=
        skipBlanks_cons (by decide) rest
      rw [members, hFirst]
      simp only [bind, Option.bind, prettyFields, List.cons_append, List.append_assoc, hComma,
        skipBlanks_newLine_encode, hRest]
      rfl

/-! ## Values -/

theorem readsBack_of_scalar {v : Json}
    (h : v = .null ∨ (∃ b, v = .bool b) ∨ (∃ i, v = .int i) ∨ ∃ d, v = .float d) :
    ReadsBack v := by
  intro level fuel rest hFuel hRest
  obtain ⟨c, tail, hText, -⟩ := startsValue_pretty level v
  rw [hText, List.length_cons] at hFuel
  obtain ⟨fuel, rfl⟩ := Nat.exists_eq_add_of_le' (by omega : 1 ≤ fuel)
  exact value_of_scalar (scalar_pretty level hRest h) fuel

theorem readsBack_str (s : String) : ReadsBack (.str s) := by
  intro level fuel rest hFuel hRest
  simp only [pretty, Text.encode, List.length_append, List.length_cons] at hFuel
  obtain ⟨fuel, rfl⟩ := Nat.exists_eq_add_of_le' (by omega : 1 ≤ fuel)
  have hText : pretty level (.str s) ++ rest =
      '"' :: (s.toList.flatMap Text.encodeChar ++ '"' :: rest) := by
    simp [pretty, Text.encode]
  rw [hText, value]
  simp only [Text.decode_written, Option.map_some, String.ofList_toList]

/-- The text of an array and what follows it. -/
theorem pretty_arr_append (level : ℕ) (e : Json) (list : List Json) (rest : List Char) :
    pretty level (.arr (e :: list)) ++ rest =
      '[' :: (newLine (level + 1) ++ (pretty (level + 1) e ++
        (prettyElements (level + 1) list ++ (newLine level ++ ']' :: rest)))) := by
  simp only [pretty, List.cons_append, List.append_assoc, List.nil_append]

/-- The text of an object and what follows it. -/
theorem pretty_obj_append (level : ℕ) (key : String) (e : Json) (fields : Fields)
    (rest : List Char) :
    pretty level (.obj ((key, e) :: fields)) ++ rest =
      '{' :: (newLine (level + 1) ++ (Text.encode key.toList ++ (':' :: ' ' ::
        (pretty (level + 1) e ++
          (prettyFields (level + 1) fields ++ (newLine level ++ '}' :: rest)))))) := by
  simp only [pretty, List.cons_append, List.append_assoc, List.nil_append]

theorem readsBack_arr {list : List Json} (h : ∀ e ∈ list, ReadsBack e) :
    ReadsBack (.arr list) := by
  intro level fuel rest hFuel hRest
  cases list with
  | nil =>
      simp only [pretty, List.length_cons] at hFuel
      obtain ⟨fuel, rfl⟩ := Nat.exists_eq_add_of_le' (by omega : 1 ≤ fuel)
      show value (fuel + 1) ('[' :: ']' :: rest) = _
      rw [value]
      simp only [skipBlanks_cons (by decide : isLayout ']' = false)]
  | cons e list =>
      simp only [pretty, List.length_append, List.length_cons] at hFuel
      obtain ⟨fuel, rfl⟩ := Nat.exists_eq_add_of_le' (by omega : 2 ≤ fuel)
      have hElements := elements_pretty (level + 1) level rest list e fuel h (by omega)
      have hStart := (startsValue_pretty (level + 1) e).append
        (prettyElements (level + 1) list ++ (newLine level ++ ']' :: rest))
      rw [pretty_arr_append, value]
      simp only
      rw [hStart.skipBlanks_newLine (level + 1)]
      obtain ⟨c, tail, hC, -, hBracket⟩ := hStart
      rw [hC] at hElements ⊢
      split
      · exact absurd (List.cons.inj ‹_›).1 hBracket
      · rw [hElements]
        rfl

theorem readsBack_obj {fields : Fields} (hNodup : fields.keys.Nodup)
    (h : ∀ field ∈ fields, ReadsBack field.2) : ReadsBack (.obj fields) := by
  intro level fuel rest hFuel hRest
  cases fields with
  | nil =>
      simp only [pretty, List.length_cons] at hFuel
      obtain ⟨fuel, rfl⟩ := Nat.exists_eq_add_of_le' (by omega : 1 ≤ fuel)
      show value (fuel + 1) ('{' :: '}' :: rest) = _
      rw [value]
      simp only [skipBlanks_cons (by decide : isLayout '}' = false)]
  | cons field fields =>
      obtain ⟨key, e⟩ := field
      simp only [pretty, List.length_append, List.length_cons] at hFuel
      obtain ⟨fuel, rfl⟩ := Nat.exists_eq_add_of_le' (by omega : 3 ≤ fuel)
      have hMembers := members_pretty (level + 1) level rest fields key e fuel h (by omega)
      have hText := pretty_obj_append level key e fields rest
      have hFields : Fields.override [] ((key, e) :: fields) = (key, e) :: fields :=
        Fields.override_eq_append hNodup (fun _ _ => List.not_mem_nil)
      obtain ⟨body, hBody⟩ : ∃ body, Text.encode key.toList ++ (':' :: ' ' ::
          (pretty (level + 1) e ++ (prettyFields (level + 1) fields ++
            (newLine level ++ '}' :: rest)))) = '"' :: body := ⟨_, rfl⟩
      rw [hBody] at hMembers hText
      rw [hText, value]
      simp only
      rw [skipBlanks_newLine (level + 1) (by decide : isLayout '"' = false)]
      show (members (fuel + 2) ('"' :: body)).map _ = _
      rw [hMembers, Option.map_some, hFields]

/-- Every value with different keys is read back. -/
theorem readsBack_of_distinctKeys {v : Json} (h : v.DistinctKeys) : ReadsBack v := by
  induction h with
  | null => exact readsBack_of_scalar (by simp)
  | bool b => exact readsBack_of_scalar (by simp)
  | int i => exact readsBack_of_scalar (by simp)
  | float d => exact readsBack_of_scalar (by simp)
  | str s => exact readsBack_str s
  | arr _ ih => exact readsBack_arr ih
  | obj hNodup _ ih => exact readsBack_obj hNodup ih

/-- The content of a file is read as the value that was written to it. -/
theorem read_file {v : Json} (h : v.DistinctKeys) : read (Writer.file v).toList = some v := by
  have hRead := readsBack_of_distinctKeys h 0 (3 * (pretty 0 v).length + 1) [] (by omega) ends_nil
  have hStart := (startsValue_pretty 0 v).skipBlanks
  have hEnd : (skipBlanks []).isEmpty = true := rfl
  rw [List.append_nil] at hRead
  rw [Writer.file, String.toList_ofList, read, hStart, hRead]
  simp only [bind, Option.bind, hEnd, if_true]
  rfl

end Reader

end DerivCalc.Json
