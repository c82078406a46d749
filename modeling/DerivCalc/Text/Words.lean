import DerivCalc.Text.Blank

/-!
# Words of a text

Words are the longest runs of characters without a blank.
-/

namespace DerivCalc.Text

/-- The text without the blanks at its start. -/
def stripLeft (text : List Char) : List Char := text.dropWhile isBlank

/-- The text without the blanks at its start and its end. -/
def strip (text : List Char) : List Char :=
  (stripLeft (stripLeft text).reverse).reverse

/-- The first word of a text that starts with one, and the rest of the text. -/
def splitWord (text : List Char) : List Char × List Char :=
  (text.takeWhile (!isBlank ·), text.dropWhile (!isBlank ·))

/-- The first word of a text and what follows it, both without blanks around them; nothing for a blank text. -/
def firstWord? (text : List Char) : Option (List Char × List Char) :=
  match strip text with
  | [] => none
  | body => some ((splitWord body).1, stripLeft (splitWord body).2)

/-- Puts a character in front of the first word. -/
def extendFirst (c : Char) : List (List Char) → List (List Char)
  | [] => [[c]]
  | word :: rest => (c :: word) :: rest

/-- The words of a text, in order. -/
def words : List Char → List (List Char)
  | [] => []
  | c :: rest =>
    if isBlank c then words rest
    else if rest.head?.all isBlank then [c] :: words rest
    else extendFirst c (words rest)

/-! ## What words consist of -/

theorem stripLeft_cons_of_not_blank {c : Char} (rest : List Char) (h : isBlank c = false) :
    stripLeft (c :: rest) = c :: rest := by
  simp [stripLeft, h]

theorem mem_extendFirst {c : Char} {list : List (List Char)} {word : List Char}
    (h : word ∈ extendFirst c list) : (∃ tail, word = c :: tail ∧ (tail = [] ∨ tail ∈ list)) ∨
      word ∈ list := by
  cases list with
  | nil =>
      simp only [extendFirst, List.mem_singleton] at h
      exact Or.inl ⟨[], h, Or.inl rfl⟩
  | cons first rest =>
      simp only [extendFirst, List.mem_cons] at h
      cases h with
      | inl hFirst => exact Or.inl ⟨first, hFirst, Or.inr (by simp)⟩
      | inr hRest => exact Or.inr (by simp [hRest])

/-- No character of a word is blank. -/
theorem not_isBlank_of_mem_words {text word : List Char} (h : word ∈ words text) :
    ∀ c ∈ word, isBlank c = false := by
  induction text generalizing word with
  | nil => simp [words] at h
  | cons c rest ih =>
      simp only [words] at h
      split at h
      · exact ih h
      · rename_i hBlank
        have hHead : isBlank c = false := by simpa using hBlank
        split at h
        · cases List.mem_cons.mp h with
          | inl hWord => simp [hWord, hHead]
          | inr hRest => exact ih hRest
        · cases mem_extendFirst h with
          | inl hWord =>
              obtain ⟨tail, hEq, hTail⟩ := hWord
              subst hEq
              intro d hd
              cases List.mem_cons.mp hd with
              | inl hEq => rw [hEq]; exact hHead
              | inr hMem =>
                  cases hTail with
                  | inl hNil => simp [hNil] at hMem
                  | inr hIn => exact ih hIn d hMem
          | inr hRest => exact ih hRest

end DerivCalc.Text
