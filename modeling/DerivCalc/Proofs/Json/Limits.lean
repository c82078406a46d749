import DerivCalc.Json.Limits
import DerivCalc.Proofs.Json.Distinct

/-!
# Where the JSON reader ends in a fault

`Within` says that a value is no more than the reader takes: its arrays and objects are nested in so
many levels at most, and its integers have no more digits than the reader turns into a number.
What the reader gives without a fault is within its limits, and the text of a value within the
limits is read without a fault.  So a value that was once read can be written and read again.
-/

namespace DerivCalc.Json

/-- The value has so many levels of arrays and objects at most, and no integer in it is too long. -/
inductive Within : ℕ → Json → Prop
  | null (levels : ℕ) : Within levels .null
  | bool (levels : ℕ) (b : Bool) : Within levels (.bool b)
  | int (levels : ℕ) {i : ℤ} (h : i.natAbs < 10 ^ Text.maxIntegerDigits) : Within levels (.int i)
  | float (levels : ℕ) (v : Float) : Within levels (.float v)
  | str (levels : ℕ) (s : String) : Within levels (.str s)
  | arr {levels : ℕ} {list : List Json} (h : ∀ e ∈ list, Within levels e) :
      Within (levels + 1) (.arr list)
  | obj {levels : ℕ} {fields : Fields} (h : ∀ field ∈ fields, Within levels field.2) :
      Within (levels + 1) (.obj fields)

/-- Fields set over others are within the limits if both are. -/
theorem Within.override {levels : ℕ} {fields updates : Fields}
    (hFields : (Json.obj fields).Within levels) (hUpdates : (Json.obj updates).Within levels) :
    (Json.obj (fields.override updates)).Within levels := by
  cases hFields with
  | obj hOld =>
      cases hUpdates with
      | obj hNew =>
          refine .obj fun field hMem => ?_
          rcases Fields.mem_override hMem with hMemOld | hMemNew
          · exact hOld field hMemOld
          · exact hNew field hMemNew

namespace Reader

open DerivCalc.Text
open Writer (pretty prettyElements prettyFields newLine)

/-! ## Words and numbers -/

/-- The digits before a fraction are digits without a superfluous zero. -/
theorem splitWhole_digits {text whole rest : List Char}
    (h : splitWhole text = some (whole, rest)) :
    whole = ['0'] ∨ ∃ c digits, whole = c :: digits ∧ c ≠ '0' ∧
      ∀ d ∈ c :: digits, isAsciiDigit d = true := by
  rw [splitWhole.eq_def] at h
  split at h
  · exact Or.inl (Prod.mk.inj (Option.some.inj h)).1.symm
  · rename_i c tail hZero
    split at h
    · rename_i hDigit
      obtain ⟨rfl, -⟩ := Prod.mk.inj (Option.some.inj h)
      rw [List.takeWhile_cons_of_pos hDigit]
      refine Or.inr ⟨c, _, rfl, hZero, ?_⟩
      rw [← List.takeWhile_cons_of_pos hDigit]
      exact fun d hMem => List.mem_takeWhile_imp hMem
    · exact absurd h (by simp)
  · exact absurd h (by simp)

/-- The count of such digits is limited exactly if their value is. -/
theorem length_le_iff {text whole rest : List Char} (h : splitWhole text = some (whole, rest)) :
    whole.length ≤ maxIntegerDigits ↔ digitsValue whole < 10 ^ maxIntegerDigits := by
  rcases splitWhole_digits h with rfl | ⟨c, digits, rfl, hZero, hDigits⟩
  · refine iff_of_true (by decide) ?_
    exact Nat.pow_pos (by decide)
  · constructor
    · intro hLength
      exact (Decimal.digitsValue_lt hDigits).trans_le (Nat.pow_le_pow_right (by decide) hLength)
    · intro hValue
      have hLow := Decimal.le_digitsValue digits (hDigits c List.mem_cons_self) hZero
      exact (Nat.pow_lt_pow_iff_right (by decide)).1 (hLow.trans_lt hValue)

/-- A number is read without a fault exactly if it is no integer that is too long. -/
theorem unsignedFault?_eq_none_iff {negative : Bool} {text rest : List Char} {v : Json}
    (levels : ℕ) (h : unsigned negative text = some (v, rest)) :
    unsignedFault? text = none ↔ v.Within levels := by
  unfold unsigned at h
  obtain ⟨⟨whole, afterWhole⟩, hWhole, h⟩ := Option.bind_eq_some_iff.1 h
  unfold unsignedFault?
  rw [hWhole]
  simp only [bind, Option.bind] at h ⊢
  generalize splitFraction afterWhole = fractionSplit at h ⊢
  obtain ⟨fraction, afterFraction⟩ := fractionSplit
  generalize splitExponent afterFraction = exponentSplit at h ⊢
  obtain ⟨exponent, after⟩ := exponentSplit
  obtain ⟨rfl, -⟩ := Prod.mk.inj (Option.some.inj h)
  cases fraction with
  | some fraction => exact iff_of_true rfl (.float _ _)
  | none =>
      cases exponent with
      | some exponent => exact iff_of_true rfl (.float _ _)
      | none =>
          have hSize : (if negative then -(digitsValue whole : ℤ) else digitsValue whole).natAbs =
              digitsValue whole := by
            cases negative <;> simp
          have hInt : (numberOfParts negative whole none none).Within levels ↔
              digitsValue whole < 10 ^ maxIntegerDigits := by
            constructor
            · intro hWithin
              cases hWithin with
              | int _ hLow => rwa [hSize] at hLow
            · exact fun hLow => .int levels (hSize.symm ▸ hLow)
          rw [hInt, ← length_le_iff hWhole]
          simp

/-- A word or number is read without a fault exactly if it is no integer that is too long. -/
theorem scalarFault?_eq_none_iff {text rest : List Char} {v : Json} (levels : ℕ)
    (h : scalar text = some (v, rest)) :
    scalarFault? text = none ↔ v.Within levels := by
  unfold scalar at h
  unfold scalarFault?
  split at h
  case h_1 result hWord =>
    obtain ⟨⟨word, v'⟩, hMem, hFound⟩ := List.exists_of_findSome?_eq_some hWord
    obtain ⟨after, hAfter, rfl⟩ := Option.map_eq_some_iff.1 hFound
    obtain ⟨rfl, -⟩ := Prod.mk.inj (Option.some.inj h)
    rw [if_pos]
    · refine iff_of_true rfl ?_
      simp only [words, List.mem_cons, List.not_mem_nil, or_false, Prod.mk.injEq] at hMem
      rcases hMem with ⟨-, rfl⟩ | ⟨-, rfl⟩ | ⟨-, rfl⟩ | ⟨-, rfl⟩ | ⟨-, rfl⟩ | ⟨-, rfl⟩
      · exact .null levels
      · exact .bool levels _
      · exact .bool levels _
      · exact .float levels _
      · exact .float levels _
      · exact .float levels _
    · exact List.any_eq_true.2 ⟨_, hMem, Option.isSome_iff_exists.2 ⟨after, hAfter⟩⟩
  case h_2 hWord =>
    rw [if_neg]
    · -- `number` stays folded while the goal is split: both match on the same text
      clear hWord
      split
      · exact unsignedFault?_eq_none_iff levels h
      · rename_i hMinus
        unfold number at h
        split at h
        · exact absurd rfl (hMinus _)
        · exact unsignedFault?_eq_none_iff levels h
    · intro hAny
      obtain ⟨⟨word, v'⟩, hMem, hSome⟩ := List.any_eq_true.1 hAny
      obtain ⟨after, hAfter⟩ := Option.isSome_iff_exists.1 hSome
      have hNone := List.findSome?_eq_none_iff.1 hWord _ hMem
      simp only [hAfter] at hNone
      exact absurd hNone (by simp)

/-! ## Brackets -/

/-- An opening bracket takes one level, and the elements have the others. -/
theorem valueFault?_arr {levels fuel : ℕ} {rest : List Char}
    (h : ∀ tail, skipBlanks rest ≠ ']' :: tail) :
    valueFault? (levels + 1) (fuel + 1) ('[' :: rest) =
      elementsFault? levels fuel (skipBlanks rest) := by
  rw [valueFault?.eq_def]
  simp only

/-- An opening brace takes one level, and the members have the others. -/
theorem valueFault?_obj {levels fuel : ℕ} {rest : List Char}
    (h : ∀ tail, skipBlanks rest ≠ '\x7d' :: tail) :
    valueFault? (levels + 1) (fuel + 1) ('\x7b' :: rest) =
      membersFault? levels fuel (skipBlanks rest) := by
  rw [valueFault?.eq_def]
  simp only

/-! ## What is read is within the limits -/

/-- What the four readers give with some fuel and without a fault is within the limits. -/
structure Limited (fuel : ℕ) : Prop where
  value : ∀ {levels text rest v}, value fuel text = some (v, rest) →
    valueFault? levels fuel text = none → v.Within levels
  elements : ∀ {levels text rest list}, elements fuel text = some (list, rest) →
    elementsFault? levels fuel text = none → ∀ e ∈ list, e.Within levels
  members : ∀ {levels text rest list}, members fuel text = some (list, rest) →
    membersFault? levels fuel text = none → ∀ field ∈ list, field.2.Within levels
  field : ∀ {levels text rest key v}, field fuel text = some (key, v, rest) →
    fieldFault? levels fuel text = none → v.Within levels

theorem Limited.elements_succ {fuel : ℕ} (h : Limited fuel) {levels : ℕ} {text rest : List Char}
    {list : List Json} (hRead : Reader.elements (fuel + 1) text = some (list, rest))
    (hFault : elementsFault? levels (fuel + 1) text = none) : ∀ e ∈ list, e.Within levels := by
  unfold Reader.elements at hRead
  unfold elementsFault? at hFault
  obtain ⟨⟨first, after⟩, hFirst, hRead⟩ := Option.bind_eq_some_iff.1 hRead
  cases hFirstFault : valueFault? levels fuel text with
  | some fault =>
      rw [hFirstFault] at hFault
      exact absurd hFault (by simp)
  | none =>
      simp only [hFirstFault, hFirst, Option.map_some] at hFault
      have hWithin : first.Within levels := h.value hFirst hFirstFault
      simp only at hRead
      split at hRead
      · obtain ⟨rfl, -⟩ := Prod.mk.inj (Option.some.inj hRead)
        exact List.forall_mem_singleton.2 hWithin
      · rename_i next hComma
        obtain ⟨⟨others, last⟩, hOthers, hRead⟩ := Option.bind_eq_some_iff.1 hRead
        obtain ⟨rfl, -⟩ := Prod.mk.inj (Option.some.inj hRead)
        simp only [hComma] at hFault
        exact List.forall_mem_cons.2 ⟨hWithin, h.elements hOthers hFault⟩
      · exact absurd hRead (by simp)

theorem Limited.members_succ {fuel : ℕ} (h : Limited fuel) {levels : ℕ} {text rest : List Char}
    {list : Fields} (hRead : Reader.members (fuel + 1) text = some (list, rest))
    (hFault : membersFault? levels (fuel + 1) text = none) :
    ∀ field ∈ list, field.2.Within levels := by
  unfold Reader.members at hRead
  unfold membersFault? at hFault
  obtain ⟨⟨key, first, after⟩, hFirst, hRead⟩ := Option.bind_eq_some_iff.1 hRead
  cases hFirstFault : fieldFault? levels fuel text with
  | some fault =>
      rw [hFirstFault] at hFault
      exact absurd hFault (by simp)
  | none =>
      simp only [hFirstFault, hFirst, Option.map_some] at hFault
      have hWithin : first.Within levels := h.field hFirst hFirstFault
      simp only at hRead
      split at hRead
      · obtain ⟨rfl, -⟩ := Prod.mk.inj (Option.some.inj hRead)
        exact List.forall_mem_singleton.2 hWithin
      · rename_i next hComma
        obtain ⟨⟨others, last⟩, hOthers, hRead⟩ := Option.bind_eq_some_iff.1 hRead
        obtain ⟨rfl, -⟩ := Prod.mk.inj (Option.some.inj hRead)
        simp only [hComma] at hFault
        exact List.forall_mem_cons.2 ⟨hWithin, h.members hOthers hFault⟩
      · exact absurd hRead (by simp)

theorem Limited.field_succ {fuel : ℕ} (h : Limited fuel) {levels : ℕ} {text rest : List Char}
    {key : String} {v : Json} (hRead : Reader.field (fuel + 1) text = some (key, v, rest))
    (hFault : fieldFault? levels (fuel + 1) text = none) : v.Within levels := by
  unfold Reader.field at hRead
  split at hRead
  · unfold fieldFault? at hFault
    obtain ⟨⟨chars, after⟩, hKey, hRead⟩ := Option.bind_eq_some_iff.1 hRead
    simp only [hKey, Option.map_some] at hFault
    simp only at hRead
    split at hRead
    · rename_i next hColon
      obtain ⟨⟨v', last⟩, hValue, hRead⟩ := Option.bind_eq_some_iff.1 hRead
      obtain ⟨-, hPair⟩ := Prod.mk.inj (Option.some.inj hRead)
      obtain ⟨rfl, -⟩ := Prod.mk.inj hPair
      simp only [hColon] at hFault
      exact h.value hValue hFault
    · exact absurd hRead (by simp)
  · exact absurd hRead (by simp)

theorem Limited.value_succ {fuel : ℕ} (h : Limited fuel) {levels : ℕ} {text rest : List Char}
    {v : Json} (hRead : Reader.value (fuel + 1) text = some (v, rest))
    (hFault : valueFault? levels (fuel + 1) text = none) : v.Within levels := by
  unfold Reader.value at hRead
  split at hRead
  · obtain ⟨result, -, hResult⟩ := Option.map_eq_some_iff.1 hRead
    obtain ⟨rfl, -⟩ := Prod.mk.inj hResult
    exact .str levels _
  · obtain ⟨levels, rfl⟩ : ∃ fewer, levels = fewer + 1 := by
      cases levels with
      | zero => exact absurd hFault (by simp [valueFault?])
      | succ fewer => exact ⟨fewer, rfl⟩
    split at hRead
    · obtain ⟨rfl, -⟩ := Prod.mk.inj (Option.some.inj hRead)
      exact .arr (by simp)
    · rename_i hBracket
      obtain ⟨⟨list, after⟩, hList, hResult⟩ := Option.map_eq_some_iff.1 hRead
      obtain ⟨rfl, -⟩ := Prod.mk.inj hResult
      rw [valueFault?_arr hBracket] at hFault
      exact .arr (h.elements hList hFault)
  · obtain ⟨levels, rfl⟩ : ∃ fewer, levels = fewer + 1 := by
      cases levels with
      | zero => exact absurd hFault (by simp [valueFault?])
      | succ fewer => exact ⟨fewer, rfl⟩
    split at hRead
    · obtain ⟨rfl, -⟩ := Prod.mk.inj (Option.some.inj hRead)
      exact .obj (by simp)
    · rename_i hBrace
      obtain ⟨⟨list, after⟩, hList, hResult⟩ := Option.map_eq_some_iff.1 hRead
      obtain ⟨rfl, -⟩ := Prod.mk.inj hResult
      rw [valueFault?_obj hBrace] at hFault
      have hMembers := h.members hList hFault
      refine .obj fun field hMem => ?_
      -- of several members with one key the object has the last one
      rcases Fields.mem_override hMem with hOld | hNew
      · exact absurd hOld List.not_mem_nil
      · exact hMembers field hNew
  · rename_i hQuote hArray hObject
    refine (scalarFault?_eq_none_iff levels hRead).1 ?_
    rw [valueFault?.eq_def] at hFault
    simp only at hFault
    exact hFault

theorem limited (fuel : ℕ) : Limited fuel := by
  induction fuel with
  | zero =>
      constructor
      · intro levels text rest v hRead
        exact absurd hRead (by simp [Reader.value])
      · intro levels text rest list hRead
        exact absurd hRead (by simp [Reader.elements])
      · intro levels text rest list hRead
        exact absurd hRead (by simp [Reader.members])
      · intro levels text rest key v hRead
        exact absurd hRead (by simp [Reader.field])
  | succ fuel ih => exact ⟨ih.value_succ, ih.elements_succ, ih.members_succ, ih.field_succ⟩

/-- What is read without a fault is within the limits. -/
theorem within_of_read {text : List Char} {v : Json} (h : read text = some v)
    (hFault : fault? text = none) : v.Within maxNesting := by
  unfold read at h
  obtain ⟨⟨result, rest⟩, hValue, h⟩ := Option.bind_eq_some_iff.1 h
  simp only at h
  split at h
  · rw [← Option.some.inj h]
    exact (limited _).value hValue hFault
  · exact absurd h (by simp)

/-! ## What is within the limits is read -/

/-- The text of the value is read without a fault, with two units of fuel for each character. -/
def ReadsWithin (levels : ℕ) (v : Json) : Prop :=
  ∀ (level fuel : ℕ) (rest : List Char), 2 * (pretty level v).length ≤ fuel → Ends rest →
    valueFault? levels fuel (pretty level v ++ rest) = none

theorem elementsFault?_pretty (levels level n : ℕ) (after : List Char) (list : List Json) :
    ∀ (e : Json) (fuel : ℕ), (∀ e' ∈ e :: list, ReadsBack e' ∧ ReadsWithin levels e') →
      2 * ((pretty level e).length + (prettyElements level list).length) ≤ fuel →
      elementsFault? levels (fuel + 1)
        (pretty level e ++ (prettyElements level list ++ (newLine n ++ ']' :: after))) = none := by
  induction list with
  | nil =>
      intro e fuel hAll hFuel
      obtain ⟨hBack, hWithin⟩ := hAll e List.mem_cons_self
      have hEnds := ends_prettyElements level n [] (']' :: after)
      have hClose := skipBlanks_newLine n (by decide : isLayout ']' = false) after
      rw [elementsFault?, hWithin level fuel _ (by omega) hEnds,
        hBack level fuel _ (by omega) hEnds]
      simp only [Option.map_some, prettyElements, List.nil_append, hClose]
      rfl
  | cons e' list ih =>
      intro e fuel hAll hFuel
      obtain ⟨hBack, hWithin⟩ := hAll e List.mem_cons_self
      have hEnds := ends_prettyElements level n (e' :: list) (']' :: after)
      simp only [prettyElements, List.length_append, List.length_cons] at hFuel
      have hFirst := hWithin level fuel _ (by omega) hEnds
      have hValue := hBack level fuel _ (by omega) hEnds
      obtain ⟨fuel, rfl⟩ := Nat.exists_eq_add_of_le' (by omega : 1 ≤ fuel)
      have hRest := ih e' fuel (fun e₀ hMem => hAll e₀ (List.mem_cons_of_mem e hMem)) (by omega)
      have hNext := ((startsValue_pretty level e').append
        (prettyElements level list ++ (newLine n ++ ']' :: after))).skipBlanks_newLine level
      have hComma := skipBlanks_cons (by decide : isLayout ',' = false) (newLine level ++
        (pretty level e' ++ (prettyElements level list ++ (newLine n ++ ']' :: after))))
      rw [elementsFault?, hFirst, hValue]
      simp only [Option.map_some, prettyElements, List.cons_append, List.append_assoc, hComma,
        hNext, hRest]

theorem fieldFault?_pretty {levels : ℕ} {e : Json} (h : ReadsWithin levels e) (key : String)
    (level : ℕ) {fuel : ℕ} {rest : List Char} (hFuel : 2 * (pretty level e).length ≤ fuel)
    (hRest : Ends rest) :
    fieldFault? levels (fuel + 1)
      (Text.encode key.toList ++ (':' :: ' ' :: (pretty level e ++ rest))) = none := by
  have hKey := Text.decode_written key.toList (':' :: ' ' :: (pretty level e ++ rest))
  have hColon := skipBlanks_cons (by decide : isLayout ':' = false)
    (' ' :: (pretty level e ++ rest))
  have hValue : skipBlanks (' ' :: (pretty level e ++ rest)) = pretty level e ++ rest :=
    ((startsValue_pretty level e).append rest).skipBlanks
  have hText : Text.encode key.toList ++ (':' :: ' ' :: (pretty level e ++ rest)) =
      '"' :: (key.toList.flatMap Text.encodeChar ++
        '"' :: (':' :: ' ' :: (pretty level e ++ rest))) := by
    simp [Text.encode]
  rw [hText, fieldFault?]
  simp only [hKey, Option.map_some, hColon, hValue, h level fuel rest hFuel hRest]

theorem membersFault?_pretty (levels level n : ℕ) (after : List Char) (fields : Fields) :
    ∀ (key : String) (e : Json) (fuel : ℕ),
      (∀ field ∈ (key, e) :: fields, ReadsBack field.2 ∧ ReadsWithin levels field.2) →
      2 * ((pretty level e).length + (prettyFields level fields).length) ≤ fuel →
      membersFault? levels (fuel + 2) (Text.encode key.toList ++ (':' :: ' ' :: (pretty level e ++
        (prettyFields level fields ++ (newLine n ++ '\x7d' :: after))))) = none := by
  induction fields with
  | nil =>
      intro key e fuel hAll hFuel
      obtain ⟨hBack, hWithin⟩ := hAll (key, e) List.mem_cons_self
      have hEnds := ends_prettyFields level n [] ('\x7d' :: after)
      have hSize : 2 * (pretty level e).length ≤ fuel := by omega
      have hClose := skipBlanks_newLine n (by decide : isLayout '\x7d' = false) after
      rw [membersFault?, fieldFault?_pretty hWithin key level hSize hEnds,
        field_pretty hBack key level hSize hEnds]
      simp only [Option.map_some, prettyFields, List.nil_append, hClose]
      rfl
  | cons field fields ih =>
      intro key e fuel hAll hFuel
      obtain ⟨key', e'⟩ := field
      obtain ⟨hBack, hWithin⟩ := hAll (key, e) List.mem_cons_self
      have hEnds := ends_prettyFields level n ((key', e') :: fields) ('\x7d' :: after)
      have hSize : 2 * (pretty level e).length ≤ fuel := by omega
      have hFirst := fieldFault?_pretty hWithin key level hSize hEnds
      have hField := field_pretty hBack key level hSize hEnds
      simp only [prettyFields, List.length_append, List.length_cons] at hFuel
      obtain ⟨fuel, rfl⟩ := Nat.exists_eq_add_of_le' (by omega : 1 ≤ fuel)
      have hRest := ih key' e' fuel (fun field hMem => hAll field (List.mem_cons_of_mem _ hMem))
        (by omega)
      have hComma (rest : List Char) : skipBlanks (',' :: rest) = ',' :: rest :=
        skipBlanks_cons (by decide) rest
      rw [membersFault?, hFirst, hField]
      simp only [Option.map_some, prettyFields, List.cons_append, List.append_assoc, hComma,
        skipBlanks_newLine_encode, hRest]

theorem readsWithin_of_scalar {levels : ℕ} {v : Json}
    (h : v = .null ∨ (∃ b, v = .bool b) ∨ (∃ i, v = .int i) ∨ ∃ d, v = .float d)
    (hWithin : v.Within levels) : ReadsWithin levels v := by
  intro level fuel rest hFuel hRest
  have hRead := scalar_pretty level hRest h
  have hNone := (scalarFault?_eq_none_iff levels hRead).2 hWithin
  obtain ⟨c, tail, hText, hStart⟩ := exists_of_scalar hRead
  simp only [List.mem_cons, List.not_mem_nil, or_false, not_or] at hStart
  obtain ⟨-, -, -, -, hQuote, hArray, hObject, -⟩ := hStart
  cases fuel with
  | zero => rfl
  | succ fuel =>
      rw [hText] at hNone ⊢
      rw [valueFault?.eq_def]
      simp only
      split
      · exact absurd (List.cons.inj ‹_›).1 hQuote
      · exact absurd (List.cons.inj ‹_›).1 hArray
      · exact absurd (List.cons.inj ‹_›).1 hObject
      · exact hNone

theorem readsWithin_arr {levels : ℕ} {list : List Json}
    (h : ∀ e ∈ list, ReadsBack e ∧ ReadsWithin levels e) :
    ReadsWithin (levels + 1) (.arr list) := by
  intro level fuel rest hFuel hRest
  cases list with
  | nil =>
      cases fuel with
      | zero => rfl
      | succ fuel =>
          show valueFault? (levels + 1) (fuel + 1) ('[' :: ']' :: rest) = none
          rw [valueFault?.eq_def]
          simp only [skipBlanks_cons (by decide : isLayout ']' = false)]
  | cons e list =>
      simp only [pretty, List.length_append, List.length_cons] at hFuel
      obtain ⟨fuel, rfl⟩ := Nat.exists_eq_add_of_le' (by omega : 2 ≤ fuel)
      have hElements := elementsFault?_pretty levels (level + 1) level rest list e fuel h (by omega)
      have hStart := (startsValue_pretty (level + 1) e).append
        (prettyElements (level + 1) list ++ (newLine level ++ ']' :: rest))
      have hInner := hStart.skipBlanks_newLine (level + 1)
      obtain ⟨c, tail, hC, -, hBracket⟩ := hStart
      rw [pretty_arr_append, valueFault?_arr, hInner]
      · exact hElements
      · intro other hOther
        rw [hInner, hC] at hOther
        exact hBracket (List.cons.inj hOther).1

theorem readsWithin_obj {levels : ℕ} {fields : Fields}
    (h : ∀ field ∈ fields, ReadsBack field.2 ∧ ReadsWithin levels field.2) :
    ReadsWithin (levels + 1) (.obj fields) := by
  intro level fuel rest hFuel hRest
  cases fields with
  | nil =>
      cases fuel with
      | zero => rfl
      | succ fuel =>
          show valueFault? (levels + 1) (fuel + 1) ('\x7b' :: '\x7d' :: rest) = none
          rw [valueFault?.eq_def]
          simp only [skipBlanks_cons (by decide : isLayout '\x7d' = false)]
  | cons field fields =>
      obtain ⟨key, e⟩ := field
      simp only [pretty, List.length_append, List.length_cons] at hFuel
      obtain ⟨fuel, rfl⟩ := Nat.exists_eq_add_of_le' (by omega : 3 ≤ fuel)
      have hMembers :=
        membersFault?_pretty levels (level + 1) level rest fields key e fuel h (by omega)
      rw [pretty_obj_append, valueFault?_obj, skipBlanks_newLine_encode]
      · exact hMembers
      · intro other hOther
        rw [skipBlanks_newLine_encode] at hOther
        have hQuote : '"' = '\x7d' := (List.cons.inj hOther).1
        exact absurd hQuote (by decide)

theorem readsWithin_of_within {v : Json} (hDistinct : v.DistinctKeys) :
    ∀ levels, v.Within levels → ReadsWithin levels v := by
  induction hDistinct with
  | null => exact fun levels hWithin => readsWithin_of_scalar (by simp) hWithin
  | bool b => exact fun levels hWithin => readsWithin_of_scalar (by simp) hWithin
  | int i => exact fun levels hWithin => readsWithin_of_scalar (by simp) hWithin
  | float d => exact fun levels hWithin => readsWithin_of_scalar (by simp) hWithin
  | str s =>
      intro levels _ level fuel rest _ _
      cases fuel <;> rfl
  | arr hAll ih =>
      intro levels hWithin
      cases hWithin with
      | arr h =>
          exact readsWithin_arr fun e hMem =>
            ⟨readsBack_of_distinctKeys (hAll e hMem), ih e hMem _ (h e hMem)⟩
  | obj hNodup hAll ih =>
      intro levels hWithin
      cases hWithin with
      | obj h =>
          exact readsWithin_obj fun field hMem =>
            ⟨readsBack_of_distinctKeys (hAll field hMem), ih field hMem _ (h field hMem)⟩

/-- The content of a file that holds a value within the limits is read without a fault. -/
theorem fault?_file {v : Json} (hDistinct : v.DistinctKeys) (hWithin : v.Within maxNesting) :
    fault? (Writer.file v).toList = none := by
  have hStart := (startsValue_pretty 0 v).skipBlanks
  have hRead := readsWithin_of_within hDistinct maxNesting hWithin 0
    (3 * (pretty 0 v).length + 1) [] (by omega) ends_nil
  rw [List.append_nil] at hRead
  rw [Writer.file, String.toList_ofList, fault?, hStart, hRead]

/-! ## A long integer -/

/-- The text of an object with one integer, of so many digits. -/
def longInteger (count : Nat) : List Char :=
  ['\x7b', '"', 'n', '"', ':', ' '] ++ (List.replicate count '1' ++ ['\x7d'])

theorem splitWhole_ones (count : Nat) :
    splitWhole (List.replicate (count + 1) '1' ++ ['\x7d']) =
      some (List.replicate (count + 1) '1', ['\x7d']) := by
  have hOnes : ∀ c ∈ List.replicate (count + 1) '1', isAsciiDigit c = true := by
    intro c hMem
    rw [List.eq_of_mem_replicate hMem]
    rfl
  have hTake : (List.replicate (count + 1) '1' ++ ['\x7d']).takeWhile isAsciiDigit = _ :=
    List.takeWhile_append_of_pos hOnes
  have hDrop : (List.replicate (count + 1) '1' ++ ['\x7d']).dropWhile isAsciiDigit = _ :=
    List.dropWhile_append_of_pos hOnes
  show some (List.takeWhile isAsciiDigit _, List.dropWhile isAsciiDigit _) = _
  rw [hTake, hDrop]
  exact congrArg some (Prod.ext (List.append_nil _) rfl)

theorem scalarFault?_ones {count : Nat} (h : maxIntegerDigits < count + 1) :
    scalarFault? (List.replicate (count + 1) '1' ++ ['\x7d']) =
      some (.longInteger (count + 1)) := by
  show unsignedFault? (List.replicate (count + 1) '1' ++ ['\x7d']) = _
  unfold unsignedFault?
  rw [splitWhole_ones]
  show (if (true && decide (maxIntegerDigits < (List.replicate (count + 1) '1').length)) = true then
    some (Fault.longInteger (List.replicate (count + 1) '1').length) else none) = _
  rw [List.length_replicate, if_pos (by simpa using h)]

/-- The reader ends at the integer. -/
theorem fault?_longInteger {count : Nat} (h : maxIntegerDigits < count) :
    fault? (longInteger count) = some (.longInteger count) := by
  obtain ⟨more, rfl⟩ : ∃ more, count = more + 1 := ⟨count - 1, by omega⟩
  have hValue (levels fuel : Nat) : valueFault? levels (fuel + 1)
      (List.replicate (more + 1) '1' ++ ['\x7d']) = some (.longInteger (more + 1)) :=
    scalarFault?_ones h
  have hField (levels fuel : Nat) : fieldFault? levels (fuel + 2)
      (['"', 'n', '"', ':', ' '] ++ (List.replicate (more + 1) '1' ++ ['\x7d'])) =
      some (.longInteger (more + 1)) := hValue levels fuel
  have hMembers (levels fuel : Nat) : membersFault? levels (fuel + 3)
      (['"', 'n', '"', ':', ' '] ++ (List.replicate (more + 1) '1' ++ ['\x7d'])) =
      some (.longInteger (more + 1)) := by
    unfold membersFault?
    rw [hField]
  have hObject (levels fuel : Nat) : valueFault? (levels + 1) (fuel + 4) (longInteger (more + 1)) =
      some (.longInteger (more + 1)) := hMembers levels fuel
  have hLength : 3 * (longInteger (more + 1)).length + 1 = (3 * more + 21) + 4 := by
    simp [longInteger]
    omega
  unfold fault?
  rw [hLength]
  exact hObject _ (3 * more + 21)

/-- Without its limit the reader would take the integer. -/
theorem read_longInteger (count : Nat) :
    read (longInteger (count + 1)) =
      some (.obj [("n", .int (digitsValue (List.replicate (count + 1) '1')))]) := by
  have hScalar : scalar (List.replicate (count + 1) '1' ++ ['\x7d']) =
      some (.int (digitsValue (List.replicate (count + 1) '1')), ['\x7d']) := by
    show unsigned false (List.replicate (count + 1) '1' ++ ['\x7d']) = _
    unfold unsigned
    rw [splitWhole_ones]
    rfl
  have hValue (fuel : Nat) : value (fuel + 1) (List.replicate (count + 1) '1' ++ ['\x7d']) =
      some (.int (digitsValue (List.replicate (count + 1) '1')), ['\x7d']) := hScalar
  have hField (fuel : Nat) : field (fuel + 2)
      (['"', 'n', '"', ':', ' '] ++ (List.replicate (count + 1) '1' ++ ['\x7d'])) =
      some ("n", .int (digitsValue (List.replicate (count + 1) '1')), ['\x7d']) := by
    have hKey : field (fuel + 2)
        (['"', 'n', '"', ':', ' '] ++ (List.replicate (count + 1) '1' ++ ['\x7d'])) =
        (value (fuel + 1) (List.replicate (count + 1) '1' ++ ['\x7d'])).bind
          fun read => some (String.ofList ['n'], read) := rfl
    rw [hKey, hValue]
    rfl
  have hMembers (fuel : Nat) : members (fuel + 3)
      (['"', 'n', '"', ':', ' '] ++ (List.replicate (count + 1) '1' ++ ['\x7d'])) =
      some ([("n", .int (digitsValue (List.replicate (count + 1) '1')))], []) := by
    unfold members
    rw [hField]
    rfl
  have hObject (fuel : Nat) : value (fuel + 4) (longInteger (count + 1)) =
      some (.obj [("n", .int (digitsValue (List.replicate (count + 1) '1')))], []) := by
    show (members (fuel + 3)
      (['"', 'n', '"', ':', ' '] ++ (List.replicate (count + 1) '1' ++ ['\x7d']))).map _ = _
    rw [hMembers]
    rfl
  have hLength : 3 * (longInteger (count + 1)).length + 1 = (3 * count + 21) + 4 := by
    simp [longInteger]
    omega
  unfold read
  rw [hLength]
  show (value (3 * count + 21 + 4) (longInteger (count + 1)) >>= _) = _
  rw [hObject]
  rfl

end Reader

end DerivCalc.Json

namespace DerivCalc.SettingsFiles

open Json.Reader (maxNesting)

/-! ## Settings of a file -/

/-- Settings that were loaded are within the limits. -/
theorem within_of_loaded {files : SettingsFiles} {settings : Settings}
    (h : files.loaded = .ok settings) : (Json.obj settings).Within maxNesting := by
  obtain ⟨hFault, rfl⟩ := loaded_eq_ok_iff.1 h
  have hEmpty : (Json.obj []).Within maxNesting := .obj (by simp)
  have hDefaults : (Json.obj Settings.defaults).Within maxNesting := by
    refine .obj fun field hMem => ?_
    simp only [Settings.defaults, List.mem_cons, List.not_mem_nil, or_false] at hMem
    rcases hMem with rfl | rfl | rfl | rfl
    · exact .int _ ((by decide : 6 ≤ Text.maxIntegerDigits).trans_lt (Nat.lt_pow_self (by decide)))
    · exact .bool _ _
    · exact .bool _ _
    · exact .bool _ _
  refine Json.Within.override hDefaults ?_
  unfold Settings.fieldsOfFile
  split
  · rename_i fields hFields
    obtain ⟨text, hText, hRead⟩ := Option.bind_eq_some_iff.1 hFields
    rw [hText] at hFault
    exact Json.Reader.within_of_read hRead hFault
  · exact hEmpty

/-- Settings within the limits are loaded again without a fault once they are saved. -/
theorem loaded_save {files : SettingsFiles} {saved : Settings} (hWritable : files.writable = true)
    (hDistinct : (Json.obj saved).DistinctKeys) (hWithin : (Json.obj saved).Within maxNesting) :
    (files.save (.obj saved)).1.loaded = .ok (files.save (.obj saved)).1.load := by
  refine loaded_eq_ok_iff.2 ⟨?_, rfl⟩
  rw [save_of_writable hWritable]
  exact Json.Reader.fault?_file hDistinct hWithin

end DerivCalc.SettingsFiles
