import DerivCalc.Window
import DerivCalc.Proofs.Text.Words

/-!
# The command buttons

A button puts its command word in front of the arguments in the input line.  What counts as the
arguments is what follows a command word, or else the whole text, each without blanks around it.
The word that a button writes is a command word again, so the next button finds the same
arguments: however many buttons are used, the line is the one that the last of them alone writes.
-/

namespace DerivCalc.Window

open Text (IsWord Trimmed Opens)

/-! ## Command words -/

theorem isWord_word (button : CommandButton) : IsWord button.word.toList := by
  cases button <;> decide +kernel

theorem isCommandWord_word (button : CommandButton) :
    isCommandWord button.word.toList = true := by
  cases button <;> decide +kernel

/-- A word counts as a command word if it is EXPR or the word of a button, in small or capital
letters. -/
theorem isCommandWord_iff {word : List Char} : isCommandWord word = true ↔
    Command.capitals word = "EXPR" ∨
      ∃ button : CommandButton, Command.capitals word = button.word := by
  constructor
  · intro h
    rcases List.mem_cons.1 (List.contains_iff_mem.1 h) with hExpr | hButton
    · exact Or.inl hExpr
    · obtain ⟨button, -, hWord⟩ := List.mem_map.1 hButton
      exact Or.inr ⟨button, hWord.symm⟩
  · rintro (hExpr | ⟨button, hWord⟩)
    · rw [isCommandWord, hExpr]
      rfl
    · rw [isCommandWord, hWord]
      cases button <;> rfl

/-! ## The arguments -/

/-- Behind a command word the arguments are what follows it. -/
theorem withoutCommandWord_of_opens {word arguments text : List Char}
    (hOpens : Opens word arguments text) (hWord : isCommandWord word = true) :
    withoutCommandWord text = arguments := by
  rw [withoutCommandWord, hOpens.firstWord?_eq]
  exact if_pos hWord

/-- A text that does not start with a command word is the arguments as a whole. -/
theorem withoutCommandWord_of_not {text : List Char}
    (h : ∀ word, (Text.words text).head? = some word → isCommandWord word = false) :
    withoutCommandWord text = Text.strip text := by
  rw [withoutCommandWord]
  split
  · rename_i word rest hFirst
    have hWords := (Text.opens_of_firstWord? hFirst).words_eq
    exact if_neg (by simp [h word (by rw [hWords]; rfl)])
  · rename_i hNone
    exact (Text.firstWord?_eq_none hNone).1.symm

theorem trimmed_withoutCommandWord (text : List Char) : Trimmed (withoutCommandWord text) := by
  rw [withoutCommandWord]
  split
  · rename_i word rest hFirst
    split
    · exact (Text.opens_of_firstWord? hFirst).2.1
    · exact (Text.exists_append_strip text).1
  · exact ⟨nofun, nofun⟩

/-- The line that a button writes opens with its word, and the arguments follow. -/
theorem opens_insertCommand (text : String) (button : CommandButton) :
    Opens button.word.toList (withoutCommandWord text.toList)
      (insertCommand text button).toList := by
  have hLine : (insertCommand text button).toList =
      button.word.toList ++ ' ' :: withoutCommandWord text.toList := by
    simp [insertCommand]
  have hTrimmed := trimmed_withoutCommandWord text.toList
  rw [hLine]
  generalize withoutCommandWord text.toList = arguments at hTrimmed
  -- without arguments the blank behind the word is the end of the line
  by_cases hNil : arguments = []
  · exact ⟨isWord_word button, hTrimmed, [], [], [' '], nofun, nofun, Text.blank_space,
      by simp [hNil], by simp [hNil]⟩
  · exact ⟨isWord_word button, hTrimmed, [], [' '], [], nofun, Text.blank_space, nofun,
      by simp [hNil], by simp⟩

/-- A button leaves the arguments as they are. -/
theorem withoutCommandWord_insertCommand (text : String) (button : CommandButton) :
    withoutCommandWord (insertCommand text button).toList = withoutCommandWord text.toList :=
  withoutCommandWord_of_opens (opens_insertCommand text button) (isCommandWord_word button)

theorem withoutCommandWord_clicks (clicks : List CommandButton) (text : String) :
    withoutCommandWord (clicks.foldl insertCommand text).toList =
      withoutCommandWord text.toList := by
  induction clicks generalizing text with
  | nil => rfl
  | cons button clicks ih =>
      rw [List.foldl_cons, ih, withoutCommandWord_insertCommand]

/--
The buttons absorb each other: after any buttons a further one writes the line that it writes
without them.  The arguments behind a command word are kept as they are, and a text that starts
with no command word is kept as a whole, up to the blanks around it.
-/
theorem buttons_absorb_each_other (text : String) (button : CommandButton) :
    (∀ clicks : List CommandButton,
      insertCommand (clicks.foldl insertCommand text) button = insertCommand text button) ∧
    (∀ word, (Text.words text.toList).head? = some word →
      (Command.capitals word = "EXPR" ∨
        ∃ other : CommandButton, Command.capitals word = other.word) →
      ∃ arguments, Opens word arguments text.toList ∧
        insertCommand text button = button.word ++ " " ++ String.ofList arguments) ∧
    ((∀ word, (Text.words text.toList).head? = some word →
        Command.capitals word ≠ "EXPR" ∧
          ∀ other : CommandButton, Command.capitals word ≠ other.word) →
      insertCommand text button =
        button.word ++ " " ++ String.ofList (Text.strip text.toList)) := by
  refine ⟨fun clicks => ?_, fun word hHead hCommand => ?_, fun hNone => ?_⟩
  · rw [insertCommand, insertCommand, withoutCommandWord_clicks]
  · cases hFirst : Text.firstWord? text.toList with
    | none =>
        rw [(Text.firstWord?_eq_none hFirst).2] at hHead
        exact nomatch hHead
    | some found =>
        obtain ⟨first, arguments⟩ := found
        have hOpens := Text.opens_of_firstWord? hFirst
        rw [hOpens.words_eq] at hHead
        obtain rfl := Option.some.inj hHead
        refine ⟨arguments, hOpens, ?_⟩
        rw [insertCommand, withoutCommandWord_of_opens hOpens (isCommandWord_iff.2 hCommand)]
  · rw [insertCommand, withoutCommandWord_of_not]
    intro word hHead
    obtain ⟨hExpr, hButton⟩ := hNone word hHead
    rw [Bool.eq_false_iff]
    intro hCommand
    rcases isCommandWord_iff.1 hCommand with hIs | ⟨other, hIs⟩
    · exact hExpr hIs
    · exact hButton other hIs

/-- A command word may be an argument, and then it stays. -/
theorem insertCommand_derOfEval :
    insertCommand ([CommandButton.print, .save].foldl insertCommand " der  EVAL 2 ") .eval =
        "EVAL EVAL 2" ∧
      insertCommand " DERIVE  2 " .eval = "EVAL DERIVE  2" := by
  obtain ⟨hClicks, hCommand, -⟩ := buttons_absorb_each_other " der  EVAL 2 " .eval
  obtain ⟨-, -, hPlain⟩ := buttons_absorb_each_other " DERIVE  2 " .eval
  constructor
  · obtain ⟨arguments, hOpens, hLine⟩ :=
      hCommand "der".toList (by decide +kernel) (Or.inr ⟨.der, by decide +kernel⟩)
    have hFirst : Text.firstWord? " der  EVAL 2 ".toList =
        some ("der".toList, "EVAL 2".toList) := by decide +kernel
    rw [hOpens.firstWord?_eq] at hFirst
    obtain ⟨-, rfl⟩ := Prod.mk.inj (Option.some.inj hFirst)
    rw [hClicks, hLine]
    decide +kernel
  · rw [hPlain fun word hHead => ?_]
    · decide +kernel
    · have hWord : "DERIVE".toList = word := Option.some.inj hHead
      subst hWord
      exact ⟨by decide +kernel, fun other => by cases other <;> decide +kernel⟩

end DerivCalc.Window
