import DerivCalc.Session.Command
import Mathlib.Data.List.Basic
import Mathlib.Data.List.TakeWhile

/-!
# Taking a text apart into words

A text opens with its first word: blanks, the word, a gap, what follows, and blanks again.  The
first word is found where it stands, and it is the first of the words of the text.

Words with one blank between them are the words of the text that they make up.  So every list of
words can be typed as a line.
-/

namespace DerivCalc.Text

/-- The characters are a word: there are some, and none is blank. -/
def IsWord (chars : List Char) : Prop := chars ≠ [] ∧ ∀ c ∈ chars, isBlank c = false

instance (chars : List Char) : Decidable (IsWord chars) :=
  decidable_of_iff (chars ≠ [] ∧ chars.all (!isBlank ·) = true) (by simp [IsWord])

theorem IsWord.head {word : List Char} (h : IsWord word) {rest : List Char} {c : Char}
    (hHead : (word ++ rest).head? = some c) : isBlank c = false := by
  obtain ⟨d, tail, rfl⟩ := List.exists_cons_of_ne_nil h.1
  obtain rfl := Option.some.inj hHead
  exact h.2 d List.mem_cons_self

/-- No blank stands at the start or at the end. -/
def Trimmed (text : List Char) : Prop :=
  (∀ c, text.head? = some c → isBlank c = false) ∧
    ∀ c, text.getLast? = some c → isBlank c = false

theorem IsWord.trimmed {word : List Char} (h : IsWord word) : Trimmed word :=
  ⟨fun c hHead => h.2 c (List.mem_of_mem_head? hHead),
    fun c hLast => h.2 c (List.mem_of_getLast? hLast)⟩

/-- A word in front and a trimmed text at the end make a trimmed text, whatever is between. -/
theorem IsWord.trimmed_append {word rest : List Char} (h : IsWord word) (hRest : Trimmed rest)
    (hNe : rest ≠ []) (gap : List Char) : Trimmed (word ++ (gap ++ rest)) := by
  refine ⟨fun c => h.head, fun c hLast => hRest.2 c ?_⟩
  rwa [← List.append_assoc, List.getLast?_append_of_ne_nil _ hNe] at hLast

/-- There are only blanks. -/
def Blank (text : List Char) : Prop := ∀ c ∈ text, isBlank c = true

theorem blank_space : Blank [' '] := by
  intro c hMem
  obtain rfl := List.mem_singleton.1 hMem
  rfl

theorem Blank.head {blanks : List Char} (h : Blank blanks) : blanks.head?.all isBlank = true := by
  cases blanks with
  | nil => rfl
  | cons c tail => exact h c List.mem_cons_self

/-! ## Words between blanks -/

/-- A word is found before a blank or the end of the text. -/
theorem words_append {word rest : List Char} (h : IsWord word)
    (hRest : rest.head?.all isBlank = true) : words (word ++ rest) = word :: words rest := by
  obtain ⟨hNe, hAll⟩ := h
  induction word with
  | nil => exact absurd rfl hNe
  | cons c tail ih =>
      have hFirst : isBlank c = false := hAll c List.mem_cons_self
      cases tail with
      | nil =>
          show (if isBlank c then _ else if rest.head?.all isBlank then _ else _) = _
          rw [if_neg (by simp [hFirst]), if_pos hRest]
          rfl
      | cons d tail =>
          have hNext : isBlank d = false := hAll d (by simp)
          have hTail := ih (by simp) fun b hMem => hAll b (List.mem_cons_of_mem c hMem)
          show (if isBlank c then _ else if ((d :: tail) ++ rest).head?.all isBlank then _
            else extendFirst c (words ((d :: tail) ++ rest))) = _
          rw [if_neg (by simp [hFirst]), if_neg (by simp [hNext]), hTail]
          rfl

/-- Blanks before a text do not count. -/
theorem words_blank_append {lead : List Char} (h : Blank lead) (text : List Char) :
    words (lead ++ text) = words text := by
  induction lead with
  | nil => rfl
  | cons c lead ih =>
      have hBlank : isBlank c = true := h c List.mem_cons_self
      rw [List.cons_append, words, if_pos hBlank]
      exact ih fun d hMem => h d (List.mem_cons_of_mem c hMem)

/-- Blanks after a text do not count. -/
theorem words_append_blank (text : List Char) {trail : List Char} (h : Blank trail) :
    words (text ++ trail) = words text := by
  induction text with
  | nil => rw [List.nil_append, ← List.append_nil trail, words_blank_append h]
  | cons c rest ih =>
      have hHead : (rest ++ trail).head?.all isBlank = rest.head?.all isBlank := by
        cases rest with
        | nil => exact h.head
        | cons d rest => rfl
      rw [List.cons_append, words, words, hHead, ih]

theorem splitWord_append {word rest : List Char} (h : IsWord word)
    (hRest : rest.head?.all isBlank = true) : splitWord (word ++ rest) = (word, rest) := by
  have hAll : ∀ c ∈ word, (!isBlank c) = true := fun c hMem => by simp [h.2 c hMem]
  unfold splitWord
  rw [List.takeWhile_append_of_pos hAll, List.dropWhile_append_of_pos hAll]
  cases rest with
  | nil => simp
  | cons c rest =>
      have hBlank : isBlank c = true := hRest
      simp [hBlank]

/-! ## Blanks at the ends -/

theorem stripLeft_of_head {text : List Char} (h : ∀ c, text.head? = some c → isBlank c = false) :
    stripLeft text = text := by
  cases text with
  | nil => rfl
  | cons c tail => exact stripLeft_cons_of_not_blank tail (h c rfl)

theorem stripLeft_append {blanks : List Char} (h : Blank blanks) (text : List Char) :
    stripLeft (blanks ++ text) = stripLeft text :=
  List.dropWhile_append_of_pos h

/-- What is taken off the left is blank. -/
theorem exists_append_stripLeft (text : List Char) :
    ∃ lead, Blank lead ∧ text = lead ++ stripLeft text :=
  ⟨text.takeWhile isBlank, fun _ hMem => List.mem_takeWhile_imp hMem,
    List.takeWhile_append_dropWhile.symm⟩

theorem head_stripLeft {text : List Char} {c : Char} (h : (stripLeft text).head? = some c) :
    isBlank c = false := by
  have hHead := List.head?_dropWhile_not isBlank text
  rw [stripLeft] at h
  rw [h] at hHead
  exact hHead

/-- What is taken off on both sides is blank, and no blank stands at the ends of the rest. -/
theorem exists_append_strip (text : List Char) :
    Trimmed (strip text) ∧
      ∃ lead trail, Blank lead ∧ Blank trail ∧ text = lead ++ strip text ++ trail := by
  obtain ⟨lead, hLead, hText⟩ := exists_append_stripLeft text
  obtain ⟨trail, hTrail, hBody⟩ := exists_append_stripLeft (stripLeft text).reverse
  have hStrip : stripLeft text = strip text ++ trail.reverse := by
    rw [← List.reverse_reverse (stripLeft text), hBody, List.reverse_append]
    rfl
  refine ⟨⟨fun c hHead => ?_, fun c hLast => ?_⟩, lead, trail.reverse, hLead,
    fun c hMem => hTrail c (List.mem_reverse.1 hMem), ?_⟩
  · refine head_stripLeft (?_ : (stripLeft text).head? = some c)
    rw [hStrip, List.head?_append, hHead]
    rfl
  · rw [strip, List.getLast?_reverse] at hLast
    exact head_stripLeft hLast
  · rw [List.append_assoc, ← hStrip, ← hText]

/-- Blanks around a text without blanks at its ends are taken off. -/
theorem strip_append {text lead trail : List Char} (hLead : Blank lead) (hTrail : Blank trail)
    (h : Trimmed text) : strip (lead ++ text ++ trail) = text := by
  have hReverse : Blank trail.reverse := fun c hMem => hTrail c (List.mem_reverse.1 hMem)
  cases text with
  | nil =>
      have hBlank : stripLeft (lead ++ [] ++ trail) = [] := by
        rw [List.append_nil, stripLeft_append hLead, ← List.append_nil trail,
          stripLeft_append hTrail]
        rfl
      rw [strip, hBlank]
      rfl
  | cons c tail =>
      have hFirst : stripLeft (lead ++ (c :: tail) ++ trail) = c :: tail ++ trail := by
        rw [List.append_assoc, stripLeft_append hLead]
        exact stripLeft_cons_of_not_blank _ (h.1 c rfl)
      have hLast : ∀ d, (c :: tail).reverse.head? = some d → isBlank d = false := by
        intro d hHead
        rw [List.head?_reverse] at hHead
        exact h.2 d hHead
      rw [strip, hFirst, List.reverse_append, stripLeft_append hReverse, stripLeft_of_head hLast,
        List.reverse_reverse]

/-! ## Where the first word stands -/

/-- The text is a word and what follows it, with blanks around and between them. -/
def Opens (word rest text : List Char) : Prop :=
  IsWord word ∧ Trimmed rest ∧ ∃ lead gap trail, Blank lead ∧ Blank gap ∧ Blank trail ∧
    (gap = [] ↔ rest = []) ∧ text = lead ++ (word ++ (gap ++ rest)) ++ trail

/-- A gap and what follows it start with a blank, if with anything. -/
theorem head_gap {gap rest : List Char} (hGap : Blank gap) (hEnd : gap = [] → rest = []) :
    (gap ++ rest).head?.all isBlank = true := by
  cases gap with
  | nil =>
      rw [hEnd rfl]
      rfl
  | cons c gap => exact hGap c List.mem_cons_self

theorem Opens.words_eq {word rest text : List Char} (h : Opens word rest text) :
    words text = word :: words rest := by
  obtain ⟨hWord, -, lead, gap, trail, hLead, hGap, hTrail, hEnd, rfl⟩ := h
  rw [words_append_blank _ hTrail, words_blank_append hLead,
    words_append hWord (head_gap hGap hEnd.1), words_blank_append hGap]

theorem Opens.firstWord?_eq {word rest text : List Char} (h : Opens word rest text) :
    firstWord? text = some (word, rest) := by
  obtain ⟨hWord, hRest, lead, gap, trail, hLead, hGap, hTrail, hEnd, rfl⟩ := h
  have hTrimmed : Trimmed (word ++ (gap ++ rest)) := by
    by_cases hNil : rest = []
    · rw [hEnd.2 hNil, hNil, List.append_nil, List.append_nil]
      exact hWord.trimmed
    · exact hWord.trimmed_append hRest hNil gap
  have hSplit := splitWord_append hWord (head_gap hGap hEnd.1)
  have hArguments : stripLeft (gap ++ rest) = rest := by
    rw [stripLeft_append hGap, stripLeft_of_head hRest.1]
  rw [firstWord?, strip_append hLead hTrail hTrimmed]
  cases hText : word ++ (gap ++ rest) with
  | nil => exact absurd (List.append_eq_nil_iff.1 hText).1 hWord.1
  | cons c tail =>
      show some ((splitWord (c :: tail)).1, stripLeft (splitWord (c :: tail)).2) = _
      rw [← hText, hSplit, hArguments]

theorem head_splitWord {text : List Char} {c : Char} (h : (splitWord text).2.head? = some c) :
    isBlank c = true := by
  have hHead := List.head?_dropWhile_not (!isBlank ·) text
  rw [splitWord] at h
  rw [h] at hHead
  simpa using hHead

theorem isWord_splitWord {text : List Char} (h : Trimmed text) (hNe : text ≠ []) :
    IsWord (splitWord text).1 := by
  obtain ⟨c, tail, rfl⟩ := List.exists_cons_of_ne_nil hNe
  have hFirst : isBlank c = false := h.1 c rfl
  refine ⟨by simp [splitWord, hFirst], fun d hMem => ?_⟩
  simpa using List.mem_takeWhile_imp hMem

theorem Trimmed.last_of_suffix {text back : List Char} (h : Trimmed text) (hBack : back <:+ text)
    {c : Char} (hLast : back.getLast? = some c) : isBlank c = false := by
  obtain ⟨front, rfl⟩ := hBack
  apply h.2
  rw [List.getLast?_append, hLast]
  rfl

/-- A text without blanks at its ends is taken apart at its first blank. -/
theorem opens_of_trimmed {text : List Char} (h : Trimmed text) (hNe : text ≠ [])
    {lead trail : List Char} (hLead : Blank lead) (hTrail : Blank trail) :
    Opens (splitWord text).1 (stripLeft (splitWord text).2) (lead ++ text ++ trail) := by
  obtain ⟨gap, hGap, hRest⟩ := exists_append_stripLeft (splitWord text).2
  have hText : (splitWord text).1 ++ (splitWord text).2 = text :=
    List.takeWhile_append_dropWhile
  have hSuffix : (splitWord text).2 <:+ text := ⟨_, hText⟩
  have hEnd : stripLeft (splitWord text).2 <:+ text := (List.dropWhile_suffix _).trans hSuffix
  refine ⟨isWord_splitWord h hNe, ⟨fun c => head_stripLeft, fun c => h.last_of_suffix hEnd⟩,
    lead, gap, trail, hLead, hGap, hTrail, ⟨fun hNil => ?_, fun hNil => ?_⟩,
    by rw [← hRest, hText]⟩
  · -- without a gap the rest would have to start with a blank, and it does not
    rw [hNil, List.nil_append] at hRest
    cases hTail : stripLeft (splitWord text).2 with
    | nil => rfl
    | cons c tail =>
        have hBlank : isBlank c = true := head_splitWord (by rw [hRest, hTail]; rfl)
        have hNot : isBlank c = false := head_stripLeft (by rw [hTail]; rfl)
        rw [hNot] at hBlank
        exact nomatch hBlank
  · -- a gap without a rest would end the text with a blank
    rw [hNil, List.append_nil] at hRest
    rw [hRest] at hSuffix
    by_contra hGapNe
    have hBlank := hGap _ (List.getLast_mem hGapNe)
    rw [h.last_of_suffix hSuffix (List.getLast?_eq_some_getLast hGapNe)] at hBlank
    exact nomatch hBlank

/-- The first word of a text and what follows it are found where they stand. -/
theorem opens_of_firstWord? {word rest text : List Char}
    (h : firstWord? text = some (word, rest)) : Opens word rest text := by
  obtain ⟨hTrimmed, lead, trail, hLead, hTrail, hText⟩ := exists_append_strip text
  rw [firstWord?] at h
  split at h
  · exact nomatch h
  · rename_i hNe
    obtain ⟨rfl, rfl⟩ := Prod.mk.inj (Option.some.inj h)
    have hOpens := opens_of_trimmed hTrimmed hNe hLead hTrail
    rwa [← hText] at hOpens

/-- A text without a first word has no words. -/
theorem firstWord?_eq_none {text : List Char} (h : firstWord? text = none) :
    strip text = [] ∧ words text = [] := by
  obtain ⟨-, lead, trail, hLead, hTrail, hText⟩ := exists_append_strip text
  rw [firstWord?] at h
  split at h
  · rename_i hNil
    refine ⟨hNil, ?_⟩
    rw [hText, hNil, words_append_blank _ hTrail, words_blank_append hLead]
    rfl
  · exact nomatch h

/-! ## Words that are joined by blanks -/

/-- Joined words are found again. -/
theorem words_intercalate {list : List (List Char)} (h : ∀ word ∈ list, IsWord word) :
    words ([' '].intercalate list) = list := by
  induction list with
  | nil => rfl
  | cons word rest ih =>
      have hWord := h word List.mem_cons_self
      have hRest := ih fun other hMem => h other (List.mem_cons_of_mem word hMem)
      cases rest with
      | nil =>
          rw [List.intercalate_singleton, ← List.append_nil word, words_append hWord rfl,
            List.append_nil]
          rfl
      | cons other rest =>
          rw [List.intercalate_cons_cons, List.append_assoc, List.singleton_append,
            words_append hWord rfl]
          show word :: words ([' '].intercalate (other :: rest)) = _
          rw [hRest]

theorem intercalate_ne_nil {list : List (List Char)} (h : ∀ word ∈ list, IsWord word)
    (hNe : list ≠ []) : [' '].intercalate list ≠ [] := by
  obtain ⟨word, rest, rfl⟩ := List.exists_cons_of_ne_nil hNe
  have hWord := (h word List.mem_cons_self).1
  cases rest <;> simp [List.intercalate_cons_cons, hWord]

theorem trimmed_intercalate {list : List (List Char)} (h : ∀ word ∈ list, IsWord word) :
    Trimmed ([' '].intercalate list) := by
  induction list with
  | nil => exact ⟨by simp, by simp⟩
  | cons word rest ih =>
      have hWord := h word List.mem_cons_self
      have hOthers : ∀ other ∈ rest, IsWord other :=
        fun other hMem => h other (List.mem_cons_of_mem word hMem)
      cases rest with
      | nil =>
          rw [List.intercalate_singleton]
          exact hWord.trimmed
      | cons other rest =>
          rw [List.intercalate_cons_cons, List.append_assoc]
          exact hWord.trimmed_append (ih hOthers) (intercalate_ne_nil hOthers (by simp)) [' ']

/-- The first of the joined words is split off. -/
theorem firstWord?_intercalate {word : List Char} {list : List (List Char)} (hWord : IsWord word)
    (hList : ∀ other ∈ list, IsWord other) :
    firstWord? ([' '].intercalate (word :: list)) = some (word, [' '].intercalate list) := by
  apply Opens.firstWord?_eq
  cases list with
  | nil => exact ⟨hWord, trimmed_intercalate hList, [], [], [], nofun, nofun, nofun, by simp⟩
  | cons other rest =>
      have hNe : [' '].intercalate (other :: rest) ≠ [] := intercalate_ne_nil hList (by simp)
      exact ⟨hWord, trimmed_intercalate hList, [], [' '], [], nofun, blank_space, nofun,
        by simp [hNe], by simp [List.intercalate_cons_cons]⟩

end DerivCalc.Text

namespace DerivCalc.Command

open Text (IsWord)

theorem toList_joined (words : List String) :
    (" ".intercalate words).toList = [' '].intercalate (words.map String.toList) := by
  rw [String.toList_intercalate]
  rfl

/-- A line of joined words is a command word and its arguments. -/
theorem firstWord?_joined (word : String) {arguments : List String} (hWord : IsWord word.toList)
    (hArguments : ∀ argument ∈ arguments, IsWord argument.toList) :
    ∃ rest, Text.firstWord? (" ".intercalate (word :: arguments)).toList =
        some (word.toList, rest) ∧ (Text.words rest).map String.ofList = arguments := by
  have hAll : ∀ chars ∈ arguments.map String.toList, IsWord chars := by
    intro chars hMem
    obtain ⟨argument, hArgument, rfl⟩ := List.mem_map.1 hMem
    exact hArguments argument hArgument
  refine ⟨[' '].intercalate (arguments.map String.toList), ?_, ?_⟩
  · rw [toList_joined, List.map_cons, Text.firstWord?_intercalate hWord hAll]
  · rw [Text.words_intercalate hAll, List.map_map]
    simp [Function.comp_def]

end DerivCalc.Command
