import DerivCalc.Proofs.Token.Lexer

/-!
# The lexemes of a text

What the lexer reads next is said here without it: `Lexeme` tells when a piece of a text is a
token in front of what follows it, and `Fragment` what is named where no lexeme starts.  A number
is the longest literal that starts at its place, a name a whole run of letters.

`next_cases` says that the lexer takes just this.  The one argument in it is about number
literals: the lexer takes the parts of a literal one by one and never goes back, and
`splitNumber_length_le` shows that it still leaves no more than any other literal would.
-/

namespace DerivCalc.Token.Lexer

open Text (digitsValue isAsciiDigit isAsciiLetter isBlank splitSign)

/-! ## Kinds of characters -/

theorem toNat_of_isAsciiLetter {c : Char} (h : isAsciiLetter c = true) :
    65 ≤ c.toNat ∧ c.toNat ≤ 90 ∨ 97 ≤ c.toNat ∧ c.toNat ≤ 122 := by
  simp only [isAsciiLetter, Bool.or_eq_true, Bool.and_eq_true, decide_eq_true_eq, Char.le_def,
    UInt32.le_iff_toNat_le] at h
  exact h

theorem isBlank_of_isAsciiLetter {c : Char} (h : isAsciiLetter c = true) : isBlank c = false := by
  have hRange := toNat_of_isAsciiLetter h
  simp only [isBlank, Bool.or_eq_false_iff, Bool.and_eq_false_iff, beq_eq_false_iff_ne,
    decide_eq_false_iff_not]
  omega

theorem isAsciiDigit_of_isAsciiLetter {c : Char} (h : isAsciiLetter c = true) :
    isAsciiDigit c = false := by
  have hRange := toNat_of_isAsciiLetter h
  rw [Bool.eq_false_iff]
  intro hDigit
  have hOther := toNat_of_isAsciiDigit hDigit
  omega

/-- No letter `A` to `Z` comes next. -/
def NoLetter (rest : List Char) : Prop := ∀ c, rest.head? = some c → isAsciiLetter c = false

/-! ## Number literals -/

/-- The exponent of a number as it is written. -/
structure Exponent where
  mark : Char
  sign : List Char
  digits : List Char
  isMark : mark = 'e' ∨ mark = 'E'
  isSign : sign = [] ∨ sign = ['+'] ∨ sign = ['-']
  ne_nil : digits ≠ []
  isDigit : ∀ c ∈ digits, isAsciiDigit c = true

/-- The characters of an exponent. -/
def Exponent.text (e : Exponent) : List Char := e.mark :: (e.sign ++ e.digits)

/-- The integer that an exponent stands for. -/
def Exponent.value (e : Exponent) : ℤ :=
  if e.sign = ['-'] then -(digitsValue e.digits : ℤ) else digitsValue e.digits

/-- A number as it is written: digits, possibly a fraction, possibly a complete exponent. -/
structure NumberLexeme where
  whole : List Char
  fraction : Option (List Char)
  exponent : Option Exponent
  ne_nil : whole ≠ []
  isDigit : ∀ c ∈ whole, isAsciiDigit c = true
  isFraction : ∀ digits ∈ fraction, ∀ c ∈ digits, isAsciiDigit c = true

namespace NumberLexeme

/-- The point with the digits after it. -/
def fractionText (n : NumberLexeme) : List Char := n.fraction.elim [] ('.' :: ·)

/-- The exponent, if there is one. -/
def exponentText (n : NumberLexeme) : List Char := n.exponent.elim [] Exponent.text

/-- The characters of a number. -/
def text (n : NumberLexeme) : List Char := n.whole ++ (n.fractionText ++ n.exponentText)

/-- The double that a number stands for. -/
def value (n : NumberLexeme) : Float :=
  Decimal.Binary.ofDecimal false (digitsValue (n.whole ++ n.fraction.getD []))
    (n.exponent.elim 0 Exponent.value - (n.fraction.getD []).length)

end NumberLexeme

/-- What comes next can neither continue nor extend a number. -/
def Apart (rest : List Char) : Prop :=
  ∀ c, rest.head? = some c → isAsciiDigit c = false ∧ c ≠ '.' ∧ c ≠ 'e' ∧ c ≠ 'E'

theorem Apart.noDigit {rest : List Char} (h : Apart rest) : NoDigit rest :=
  fun c hHead => (h c hHead).1

theorem splitExponent_of_apart {rest : List Char} (h : Apart rest) :
    splitExponent rest = (0, rest) := by
  cases rest with
  | nil => rfl
  | cons c rest =>
      obtain ⟨-, -, hSmall, hCapital⟩ := h c rfl
      unfold splitExponent
      simp [hSmall, hCapital]

namespace Exponent

variable (e : Exponent) (rest : List Char)

/-- The sign is taken off, and then the digits come. -/
theorem splitSign_text :
    splitSign (e.sign ++ (e.digits ++ rest)) = (decide (e.sign = ['-']), e.digits ++ rest) := by
  rcases e.isSign with hSign | hSign | hSign
  · rw [hSign]
    -- without a sign the text starts with a digit
    cases hDigits : e.digits with
    | nil => exact absurd hDigits e.ne_nil
    | cons c digits =>
        have hDigit : isAsciiDigit c = true := e.isDigit c (by simp [hDigits])
        have hMinus : c ≠ '-' := fun hEq => absurd hDigit (by rw [hEq]; decide)
        have hPlus : c ≠ '+' := fun hEq => absurd hDigit (by rw [hEq]; decide)
        show splitSign (c :: (digits ++ rest)) = _
        unfold splitSign
        split
        · exact absurd (List.cons.inj ‹_›).1 hMinus
        · exact absurd (List.cons.inj ‹_›).1 hPlus
        · rfl
  · rw [hSign]
    rfl
  · rw [hSign]
    rfl

/-- A complete exponent is read with all digits that follow it. -/
theorem splitExponent_text :
    (splitExponent (e.text ++ rest)).2 = rest.dropWhile isAsciiDigit ∧
      (NoDigit rest → splitExponent (e.text ++ rest) = (e.value, rest)) := by
  have hMark : (e.mark = 'e' || e.mark = 'E') = true := by
    rcases e.isMark with hMark | hMark <;> simp [hMark]
  have hTake : (e.digits ++ rest).takeWhile isAsciiDigit =
      e.digits ++ rest.takeWhile isAsciiDigit := List.takeWhile_append_of_pos e.isDigit
  have hDrop : (e.digits ++ rest).dropWhile isAsciiDigit = rest.dropWhile isAsciiDigit :=
    List.dropWhile_append_of_pos e.isDigit
  have hNe : (e.digits ++ rest.takeWhile isAsciiDigit).isEmpty = false := by
    simp [e.ne_nil]
  have hSplit : splitExponent (e.text ++ rest) =
      (if e.sign = ['-'] then
        -(digitsValue (e.digits ++ rest.takeWhile isAsciiDigit) : ℤ)
        else digitsValue (e.digits ++ rest.takeWhile isAsciiDigit),
        rest.dropWhile isAsciiDigit) := by
    show splitExponent (e.mark :: (e.sign ++ e.digits ++ rest)) = _
    unfold splitExponent
    simp only [hMark, if_true, List.append_assoc, splitSign_text, hTake, hDrop, hNe,
      Bool.false_eq_true, if_false, decide_eq_true_eq]
  refine ⟨congrArg Prod.snd hSplit, fun hRest => ?_⟩
  have hNil : ∀ c ∈ ([] : List Char), isAsciiDigit c = true := by simp
  have hNone : rest.takeWhile isAsciiDigit = [] := takeWhile_digits hNil hRest
  have hAll : rest.dropWhile isAsciiDigit = rest := dropWhile_digits hNil hRest
  rw [hSplit, hNone, hAll, List.append_nil]
  rfl

end Exponent

/-- An exponent starts with a letter. -/
theorem Exponent.head_text (e : Exponent) {c : Char} (rest : List Char)
    (h : (e.text ++ rest).head? = some c) : isAsciiDigit c = false ∧ c ≠ '.' := by
  obtain rfl : e.mark = c := Option.some.inj h
  rcases e.isMark with hMark | hMark <;> rw [hMark] <;> decide

namespace NumberLexeme

variable (n : NumberLexeme)

/-! ## Reading a number -/

theorem noDigit_fractionText {tail : List Char} (h : NoDigit tail) :
    NoDigit (n.fractionText ++ tail) := by
  unfold fractionText
  cases n.fraction with
  | none => exact h
  | some digits =>
      intro c hHead
      obtain rfl := Option.some.inj hHead
      decide

/-- The fraction ends before something that is neither a digit nor a point. -/
theorem splitFraction_text {tail : List Char}
    (h : ∀ c, tail.head? = some c → isAsciiDigit c = false ∧ c ≠ '.') :
    splitFraction (n.fractionText ++ tail) = (n.fraction.getD [], tail) := by
  have hDigit : NoDigit tail := fun c hHead => (h c hHead).1
  unfold fractionText
  cases hFraction : n.fraction with
  | none => exact splitFraction_of_head_ne fun hHead => (h '.' hHead).2 rfl
  | some digits => exact splitFraction_point (n.isFraction digits hFraction) hDigit

/-- The whole part is taken off up to something that is neither a digit nor a point. -/
theorem splitNumber_text {tail : List Char}
    (h : ∀ c, tail.head? = some c → isAsciiDigit c = false ∧ c ≠ '.') :
    splitNumber (n.whole ++ (n.fractionText ++ tail)) =
      (Decimal.Binary.ofDecimal false (digitsValue (n.whole ++ n.fraction.getD []))
        ((splitExponent tail).1 - (n.fraction.getD []).length), (splitExponent tail).2) := by
  have hMiddle : NoDigit (n.fractionText ++ tail) :=
    n.noDigit_fractionText fun c hHead => (h c hHead).1
  unfold splitNumber
  rw [takeWhile_digits n.isDigit hMiddle, dropWhile_digits n.isDigit hMiddle]
  simp only [n.splitFraction_text h]

/-- A number is read whole if nothing can continue it. -/
theorem splitNumber_of_apart {rest : List Char} (h : Apart rest) :
    splitNumber (n.text ++ rest) = (n.value, rest) := by
  unfold text value exponentText
  rw [List.append_assoc, List.append_assoc]
  cases n.exponent with
  | none =>
      have hHead : ∀ c, rest.head? = some c → isAsciiDigit c = false ∧ c ≠ '.' :=
        fun c hHead => ⟨(h c hHead).1, (h c hHead).2.1⟩
      show splitNumber (n.whole ++ (n.fractionText ++ rest)) = _
      rw [n.splitNumber_text hHead, splitExponent_of_apart h]
      rfl
  | some e =>
      show splitNumber (n.whole ++ (n.fractionText ++ (e.text ++ rest))) = _
      rw [n.splitNumber_text fun c => e.head_text rest, (e.splitExponent_text rest).2 h.noDigit]
      rfl

/-- Whatever follows a number, no more than that is left of it when a number is read. -/
theorem splitNumber_length_le (rest : List Char) :
    (splitNumber (n.text ++ rest)).2.length ≤ rest.length := by
  have hDrop := length_dropWhile_le isAsciiDigit rest
  unfold text exponentText
  rw [List.append_assoc, List.append_assoc]
  cases n.exponent with
  | some e =>
      show (splitNumber (n.whole ++ (n.fractionText ++ (e.text ++ rest)))).2.length ≤ _
      rw [n.splitNumber_text fun c => e.head_text rest, (e.splitExponent_text rest).1]
      exact hDrop
  | none =>
      show (splitNumber (n.whole ++ (n.fractionText ++ rest))).2.length ≤ _
      unfold splitNumber fractionText
      cases hFraction : n.fraction with
      | none =>
          show (splitExponent (splitFraction ((n.whole ++ rest).dropWhile isAsciiDigit)).2).2.length
            ≤ _
          rw [List.dropWhile_append_of_pos n.isDigit]
          have hPoint := splitFraction_length_le (rest.dropWhile isAsciiDigit)
          have hExponent := splitExponent_length_le
            (splitFraction (rest.dropWhile isAsciiDigit)).2
          omega
      | some digits =>
          have hWhole : (n.whole ++ '.' :: (digits ++ rest)).dropWhile isAsciiDigit =
              '.' :: (digits ++ rest) := by
            rw [List.dropWhile_append_of_pos n.isDigit]
            rfl
          show (splitExponent (splitFraction ((n.whole ++ '.' :: (digits ++ rest)).dropWhile
            isAsciiDigit)).2).2.length ≤ _
          rw [hWhole]
          show (splitExponent ((digits ++ rest).dropWhile isAsciiDigit)).2.length ≤ _
          rw [List.dropWhile_append_of_pos (n.isFraction digits hFraction)]
          have hExponent := splitExponent_length_le (rest.dropWhile isAsciiDigit)
          omega

end NumberLexeme

/-! ## The longest number -/

theorem exists_exponent (text : List Char) :
    ∃ exponent : Option Exponent,
      text = exponent.elim [] Exponent.text ++ (splitExponent text).2 ∧
        (splitExponent text).1 = exponent.elim 0 Exponent.value := by
  have hNone : ∃ exponent : Option Exponent,
      text = exponent.elim [] Exponent.text ++ text ∧ 0 = exponent.elim 0 Exponent.value :=
    ⟨none, rfl, rfl⟩
  unfold splitExponent
  cases text with
  | nil => exact hNone
  | cons c rest =>
      simp only
      split
      · rename_i hMark
        split
        · exact hNone
        · rename_i hDigits
          have hSign : ∃ sign : List Char, rest = sign ++ (splitSign rest).2 ∧
              (sign = [] ∨ sign = ['+'] ∨ sign = ['-']) ∧
                ((splitSign rest).1 = true ↔ sign = ['-']) := by
            unfold splitSign
            split
            · exact ⟨['-'], rfl, by simp, by simp⟩
            · exact ⟨['+'], rfl, by simp, by simp⟩
            · exact ⟨[], rfl, by simp, by simp⟩
          obtain ⟨sign, hRest, hIsSign, hNegative⟩ := hSign
          refine ⟨some ⟨c, sign, (splitSign rest).2.takeWhile isAsciiDigit, by simpa using hMark,
            hIsSign, by simpa using hDigits, fun d hMem => List.mem_takeWhile_imp hMem⟩, ?_, ?_⟩
          · show c :: rest = c :: (sign ++ _) ++ _
            rw [List.cons_append, List.append_assoc, List.takeWhile_append_dropWhile, ← hRest]
          · simp [Exponent.value, hNegative]
      · exact hNone

theorem exists_fraction (text : List Char) :
    ∃ fraction : Option (List Char),
      text = fraction.elim [] ('.' :: ·) ++ (splitFraction text).2 ∧
        (splitFraction text).1 = fraction.getD [] ∧
        ∀ digits ∈ fraction, ∀ d ∈ digits, isAsciiDigit d = true := by
  unfold splitFraction
  split
  · rename_i rest
    refine ⟨some (rest.takeWhile isAsciiDigit), ?_, rfl, ?_⟩
    · show '.' :: rest = '.' :: (rest.takeWhile isAsciiDigit ++ rest.dropWhile isAsciiDigit)
      rw [List.takeWhile_append_dropWhile]
    · rintro digits hDigits d hMem
      obtain rfl := Option.some.inj hDigits
      exact List.mem_takeWhile_imp hMem
  · exact ⟨none, rfl, rfl, by simp⟩

/-- What is taken off the front of a text as a number is one. -/
theorem exists_number {c : Char} (h : isAsciiDigit c = true) (tail : List Char) :
    ∃ n : NumberLexeme, c :: tail = n.text ++ (splitNumber (c :: tail)).2 ∧
      (splitNumber (c :: tail)).1 = n.value := by
  obtain ⟨fraction, hText, hDigits, hAll⟩ := exists_fraction ((c :: tail).dropWhile isAsciiDigit)
  obtain ⟨exponent, hTail, hExponent⟩ :=
    exists_exponent (splitFraction ((c :: tail).dropWhile isAsciiDigit)).2
  refine ⟨⟨(c :: tail).takeWhile isAsciiDigit, fraction, exponent, by simp [h],
    fun d hMem => List.mem_takeWhile_imp hMem, hAll⟩, ?_, ?_⟩
  · show c :: tail = (c :: tail).takeWhile isAsciiDigit ++
      (fraction.elim [] ('.' :: ·) ++ exponent.elim [] Exponent.text) ++
        (splitExponent (splitFraction ((c :: tail).dropWhile isAsciiDigit)).2).2
    rw [List.append_assoc, List.append_assoc, ← hTail, ← hText,
      List.takeWhile_append_dropWhile]
  · unfold splitNumber NumberLexeme.value
    simp only [hExponent, hDigits]

/-- No number that the text starts with is longer. -/
def NumberLexeme.Longest (n : NumberLexeme) (rest : List Char) : Prop :=
  ∀ m : NumberLexeme, m.text <+: n.text ++ rest → m.text.length ≤ n.text.length

/-- A number leaves no more than any other number that the text starts with. -/
theorem longest_of_splitNumber {n : NumberLexeme} {rest : List Char}
    (h : (splitNumber (n.text ++ rest)).2 = rest) : n.Longest rest := by
  rintro m ⟨tail, hText⟩
  have hLe := m.splitNumber_length_le tail
  have hLength := congrArg List.length hText
  rw [hText, h] at hLe
  rw [List.length_append, List.length_append] at hLength
  omega

theorem NumberLexeme.exists_text_eq (n : NumberLexeme) :
    ∃ c tail, n.text = c :: tail ∧ isAsciiDigit c = true := by
  cases hWhole : n.whole with
  | nil => exact absurd hWhole n.ne_nil
  | cons c whole =>
      refine ⟨c, whole ++ (n.fractionText ++ n.exponentText), ?_, n.isDigit c (by simp [hWhole])⟩
      rw [NumberLexeme.text, hWhole, List.cons_append]

/-- The longest number that a text starts with is the one that is read. -/
theorem NumberLexeme.Longest.splitNumber {n : NumberLexeme} {rest : List Char}
    (h : n.Longest rest) : splitNumber (n.text ++ rest) = (n.value, rest) := by
  obtain ⟨c, tail, hFirst, hDigit⟩ := n.exists_text_eq
  obtain ⟨m, hText, hValue⟩ := exists_number hDigit (tail ++ rest)
  rw [← List.cons_append, ← hFirst] at hText hValue
  have hLonger : m.text.length ≤ n.text.length := h m ⟨_, hText.symm⟩
  have hShorter := n.splitNumber_length_le rest
  have hLength := congrArg List.length hText
  rw [List.length_append, List.length_append] at hLength
  -- so both numbers are the same piece of the text, and a piece has one value
  obtain ⟨hSame, hRest⟩ := List.append_inj hText (by omega)
  have hApart : Apart [] := fun c hHead => absurd hHead (by simp)
  have hRead := n.splitNumber_of_apart hApart
  have hRead' := m.splitNumber_of_apart hApart
  rw [hSame, hRead'] at hRead
  rw [Prod.ext_iff]
  exact ⟨hValue.trans (congrArg Prod.fst hRead), hRest.symm⟩

/-! ## What follows a number -/

theorem noDigit_dropWhile (text : List Char) : NoDigit (text.dropWhile isAsciiDigit) := by
  intro c hHead
  have hNot := List.head?_dropWhile_not isAsciiDigit text
  rw [hHead] at hNot
  simpa using hNot

theorem noDigit_splitFraction {text : List Char} (h : NoDigit text) :
    NoDigit (splitFraction text).2 := by
  unfold splitFraction
  split
  · exact noDigit_dropWhile _
  · exact h

theorem noDigit_splitExponent {text : List Char} (h : NoDigit text) :
    NoDigit (splitExponent text).2 := by
  unfold splitExponent
  split
  · exact h
  · simp only
    split
    · split
      · exact h
      · exact noDigit_dropWhile _
    · exact h

/-- No digit is left next to the longest number. -/
theorem NumberLexeme.Longest.noDigit {n : NumberLexeme} {rest : List Char}
    (h : n.Longest rest) : NoDigit rest := by
  have hRest : NoDigit (Lexer.splitNumber (n.text ++ rest)).2 :=
    noDigit_splitExponent (noDigit_splitFraction (noDigit_dropWhile _))
  rwa [h.splitNumber] at hRest

/-! ## Lexemes -/

/-- The characters are a lexeme that stands for the token, in front of what follows them. -/
inductive Lexeme : List Char → Token → List Char → Prop
  | number (n : NumberLexeme) {rest : List Char} (hLongest : n.Longest rest) :
      Lexeme n.text (.number n.value) rest
  | var {rest : List Char} (hEnd : NoLetter rest) : Lexeme ['x'] .var rest
  | func {f : Func} (hNamed : f ≠ .neg) {rest : List Char} (hEnd : NoLetter rest) :
      Lexeme f.name.toList (.func f) rest
  | op (o : Operator) (rest : List Char) : Lexeme [o.symbol] (.op o) rest
  | openBracket (rest : List Char) : Lexeme ['('] .openBracket rest
  | closeBracket (rest : List Char) : Lexeme [')'] .closeBracket rest

/-- What is named where no lexeme starts: the whole run of letters there, or one character. -/
inductive Fragment : List Char → List Char → Prop
  | letters {run tail : List Char} (hNe : run ≠ []) (hAll : ∀ c ∈ run, isAsciiLetter c = true)
      (hEnd : NoLetter tail) : Fragment run (run ++ tail)
  | char {c : Char} (hLetter : isAsciiLetter c = false) (hBlank : isBlank c = false)
      (tail : List Char) : Fragment [c] (c :: tail)

/-- A function name is a run of letters, and starts neither like the variable nor like an exponent. -/
theorem exists_name_eq (f : Func) :
    (∀ c ∈ f.name.toList, isAsciiLetter c = true) ∧
      ∃ c tail, f.name.toList = c :: tail ∧ isAsciiLetter c = true ∧ c ≠ 'x' ∧ c ≠ 'e' ∧
        c ≠ 'E' := by
  have hAll : f.name.toList.all isAsciiLetter = true := by cases f <;> rfl
  refine ⟨List.all_eq_true.1 hAll, ?_⟩
  cases f <;> exact ⟨_, _, rfl, by decide⟩

/-- A lexeme starts with a character that is no blank, and like no continuation of a number, unless it is a digit. -/
theorem Lexeme.exists_eq {lexeme rest : List Char} {t : Token} (h : Lexeme lexeme t rest) :
    ∃ c tail, lexeme = c :: tail ∧ isBlank c = false ∧ c ≠ '.' ∧ c ≠ 'e' ∧ c ≠ 'E' := by
  cases h with
  | number n hLongest =>
      obtain ⟨c, tail, hText, hDigit⟩ := n.exists_text_eq
      refine ⟨c, tail, hText, isBlank_of_isAsciiDigit hDigit, ?_, ?_, ?_⟩ <;>
        · rintro rfl
          exact absurd hDigit (by decide)
  | var hEnd => exact ⟨'x', [], rfl, by decide, by decide, by decide, by decide⟩
  | @func f hNamed _ hEnd =>
      obtain ⟨-, c, tail, hName, hLetter, -, hSmall, hCapital⟩ := exists_name_eq f
      refine ⟨c, tail, hName, isBlank_of_isAsciiLetter hLetter, ?_, hSmall, hCapital⟩
      rintro rfl
      exact absurd hLetter (by decide)
  | op o => cases o <;> exact ⟨_, [], rfl, by decide, by decide, by decide, by decide⟩
  | openBracket => exact ⟨'(', [], rfl, by decide, by decide, by decide, by decide⟩
  | closeBracket => exact ⟨')', [], rfl, by decide, by decide, by decide, by decide⟩

/-- A number ends with a digit or a point. -/
theorem NumberLexeme.last_text (n : NumberLexeme) {c : Char} (h : n.text.getLast? = some c) :
    isAsciiLetter c = false := by
  have hPoint : isAsciiLetter '.' = false := by decide
  have hDigit {digits : List Char} (hAll : ∀ d ∈ digits, isAsciiDigit d = true)
      (hLast : digits.getLast? = some c) : isAsciiLetter c = false := by
    rw [Bool.eq_false_iff]
    intro hLetter
    have hNot := isAsciiDigit_of_isAsciiLetter hLetter
    rw [hAll c (List.mem_of_getLast? hLast)] at hNot
    exact absurd hNot (by decide)
  unfold text at h
  rw [List.getLast?_append, List.getLast?_append] at h
  unfold exponentText fractionText at h
  cases hExponent : n.exponent with
  | some e =>
      have hLast : e.text.getLast? = e.digits.getLast? := by
        show ((e.mark :: e.sign) ++ e.digits).getLast? = _
        rw [List.getLast?_append_of_ne_nil _ e.ne_nil]
      rw [hExponent] at h
      cases hDigits : e.digits.getLast? with
      | none => exact absurd (List.getLast?_eq_none_iff.1 hDigits) e.ne_nil
      | some d =>
          have hSome : some d = some c := by simpa [hLast, hDigits] using h
          exact hDigit e.isDigit (hDigits.trans hSome)
  | none =>
      rw [hExponent] at h
      cases hFraction : n.fraction with
      | some digits =>
          rw [hFraction] at h
          cases hDigits : digits.getLast? with
          | none =>
              rw [List.getLast?_eq_none_iff.1 hDigits] at h
              obtain rfl : '.' = c := by simpa using h
              exact hPoint
          | some d =>
              have hSome : d = c := by simpa [List.getLast?_cons, hDigits] using h
              exact hDigit (n.isFraction digits hFraction) (hSome ▸ hDigits)
      | none =>
          rw [hFraction] at h
          exact hDigit n.isDigit (by simpa using h)

/-- A run of letters is not taken apart: no lexeme before a letter ends with one. -/
theorem Lexeme.last {lexeme rest : List Char} {t : Token} (h : Lexeme lexeme t rest)
    (hRest : ¬ NoLetter rest) {c : Char} (hLast : lexeme.getLast? = some c) :
    isAsciiLetter c = false := by
  cases h with
  | number n hLongest => exact n.last_text hLast
  | var hEnd => exact absurd hEnd hRest
  | func hNamed hEnd => exact absurd hEnd hRest
  | op o =>
      obtain rfl := Option.some.inj hLast
      cases o <;> decide
  | openBracket =>
      obtain rfl := Option.some.inj hLast
      decide
  | closeBracket =>
      obtain rfl := Option.some.inj hLast
      decide

/-! ## The next lexeme -/

theorem next_cons {c : Char} (h : isBlank c = false) (tail : List Char) :
    next (c :: tail) = nextAt c tail := by
  unfold next
  rw [Text.stripLeft_cons_of_not_blank tail h]

/-- A text is a gap, and then it ends or something starts that is no blank. -/
theorem exists_gap (text : List Char) :
    ∃ gap body, text = gap ++ body ∧ Blanks gap ∧
      (body = [] ∨ ∃ c tail, body = c :: tail ∧ isBlank c = false) := by
  refine ⟨text.takeWhile isBlank, text.dropWhile isBlank,
    List.takeWhile_append_dropWhile.symm, fun c hMem => List.mem_takeWhile_imp hMem, ?_⟩
  cases hBody : text.dropWhile isBlank with
  | nil => exact Or.inl rfl
  | cons c tail =>
      have hHead := List.head?_dropWhile_not isBlank text
      rw [hBody] at hHead
      exact Or.inr ⟨c, tail, rfl, by simpa using hHead⟩

theorem takeWhile_letters {run tail : List Char} (hAll : ∀ c ∈ run, isAsciiLetter c = true)
    (hEnd : NoLetter tail) : (run ++ tail).takeWhile isAsciiLetter = run := by
  rw [List.takeWhile_append_of_pos hAll]
  cases tail with
  | nil => simp
  | cons c tail => simp [hEnd c rfl]

theorem noLetter_dropWhile (text : List Char) : NoLetter (text.dropWhile isAsciiLetter) := by
  intro c hHead
  have hNot := List.head?_dropWhile_not isAsciiLetter text
  rw [hHead] at hNot
  simpa using hNot

theorem symbol_of_ofSymbol? {c : Char} {o : Operator} (h : Operator.ofSymbol? c = some o) :
    c = o.symbol := by
  have hFound := List.find?_some h
  exact (eq_of_beq hFound).symm

theorem name_of_ofName? {run : List Char} {f : Func} (h : Func.ofName? run = some f) :
    run = f.name.toList ∧ f ≠ .neg := by
  have hFound := List.find?_some h
  have hMem := List.mem_of_find?_eq_some h
  refine ⟨(eq_of_beq hFound).symm, ?_⟩
  rintro rfl
  exact absurd hMem (by decide)

theorem nextAt_digit {c : Char} (h : isAsciiDigit c = true) (tail : List Char) :
    nextAt c tail =
      .token (.number (splitNumber (c :: tail)).1) (splitNumber (c :: tail)).2 := by
  unfold nextAt
  rw [if_pos h]

/-- A bracket is read, or what stands there is named. -/
theorem nextWord_of_no_name {c : Char} {tail : List Char}
    (hName : Func.ofName? ((c :: tail).takeWhile isAsciiLetter) = none) :
    (c = '(' ∧ nextWord c tail = .token .openBracket tail) ∨
      (c = ')' ∧ nextWord c tail = .token .closeBracket tail) ∨
      nextWord c tail = .invalid (if ((c :: tail).takeWhile isAsciiLetter).isEmpty then [c]
        else (c :: tail).takeWhile isAsciiLetter) (c :: tail) := by
  unfold nextWord bracket?
  simp only [hName]
  by_cases hOpen : c = '('
  · exact Or.inl ⟨hOpen, by rw [if_pos hOpen]⟩
  · by_cases hClose : c = ')'
    · exact Or.inr (Or.inl ⟨hClose, by rw [if_neg hOpen, if_pos hClose]⟩)
    · exact Or.inr (Or.inr (by rw [if_neg hOpen, if_neg hClose]))

/-- What is named where nothing is read. -/
theorem fragment_takeWhile {c : Char} (hBlank : isBlank c = false) (tail : List Char) :
    Fragment (if ((c :: tail).takeWhile isAsciiLetter).isEmpty then [c]
      else (c :: tail).takeWhile isAsciiLetter) (c :: tail) := by
  by_cases hLetter : isAsciiLetter c = true
  · have hNe : (c :: tail).takeWhile isAsciiLetter ≠ [] := by simp [hLetter]
    have hSplit := List.takeWhile_append_dropWhile (p := isAsciiLetter) (l := c :: tail)
    have hFragment : Fragment ((c :: tail).takeWhile isAsciiLetter)
        ((c :: tail).takeWhile isAsciiLetter ++ (c :: tail).dropWhile isAsciiLetter) :=
      .letters hNe (fun d hMem => List.mem_takeWhile_imp hMem) (noLetter_dropWhile _)
    rw [if_neg (by simpa using hNe)]
    rwa [hSplit] at hFragment
  · rw [if_pos (by simp [hLetter])]
    exact .char (by simpa using hLetter) hBlank tail

/-- What stands after a gap: a lexeme, or nothing that can be read. -/
theorem nextAt_cases {c : Char} (hBlank : isBlank c = false) (tail : List Char) :
    (∃ lexeme t rest, c :: tail = lexeme ++ rest ∧ Lexeme lexeme t rest ∧
        nextAt c tail = .token t rest) ∨
      ∃ fragment, Fragment fragment (c :: tail) ∧
        nextAt c tail = .invalid fragment (c :: tail) := by
  by_cases hDigit : isAsciiDigit c = true
  · obtain ⟨n, hText, hValue⟩ := exists_number hDigit tail
    have hLongest : n.Longest (splitNumber (c :: tail)).2 :=
      longest_of_splitNumber (by rw [← hText])
    refine Or.inl ⟨n.text, .number n.value, _, hText, .number n hLongest, ?_⟩
    rw [nextAt_digit hDigit, hValue]
  · by_cases hVar : c = 'x' ∧ tail.head?.any isAsciiLetter = false
    · obtain ⟨rfl, hNone⟩ := hVar
      refine Or.inl ⟨['x'], .var, tail, rfl, .var fun d hHead => ?_, ?_⟩
      · rw [hHead] at hNone
        exact hNone
      · unfold nextAt
        rw [if_neg hDigit, if_pos (by simp [hNone])]
    · cases hSymbol : Operator.ofSymbol? c with
      | some o =>
          refine Or.inl ⟨[o.symbol], .op o, tail, ?_, .op o tail, ?_⟩
          · rw [symbol_of_ofSymbol? hSymbol]
            rfl
          · unfold nextAt
            rw [if_neg hDigit, if_neg (by simpa using hVar), hSymbol]
      | none =>
          have hNext : nextAt c tail = nextWord c tail := by
            unfold nextAt
            rw [if_neg hDigit, if_neg (by simpa using hVar), hSymbol]
          rw [hNext]
          cases hName : Func.ofName? ((c :: tail).takeWhile isAsciiLetter) with
          | some f =>
              obtain ⟨hRun, hNamed⟩ := name_of_ofName? hName
              refine Or.inl ⟨f.name.toList, .func f, (c :: tail).dropWhile isAsciiLetter, ?_,
                .func hNamed (noLetter_dropWhile _), ?_⟩
              · rw [← hRun, List.takeWhile_append_dropWhile]
              · unfold nextWord
                simp only [hName]
          | none =>
              rcases nextWord_of_no_name hName with ⟨rfl, hRead⟩ | ⟨rfl, hRead⟩ | hRead
              · exact Or.inl ⟨['('], _, tail, rfl, .openBracket tail, hRead⟩
              · exact Or.inl ⟨[')'], _, tail, rfl, .closeBracket tail, hRead⟩
              · exact Or.inr ⟨_, fragment_takeWhile hBlank tail, hRead⟩

/-- A letter that does not start the variable starts a name. -/
theorem next_letter {c : Char} (hLetter : isAsciiLetter c = true) (hVar : c ≠ 'x')
    (tail : List Char) : next (c :: tail) = nextWord c tail := by
  have hSymbol : Operator.ofSymbol? c = none := by
    cases hFound : Operator.ofSymbol? c with
    | none => rfl
    | some o =>
        rw [symbol_of_ofSymbol? hFound] at hLetter
        exact absurd hLetter (by cases o <;> decide)
  rw [next_cons (isBlank_of_isAsciiLetter hLetter)]
  unfold nextAt
  rw [if_neg (by simp [isAsciiDigit_of_isAsciiLetter hLetter]), if_neg (by simp [hVar]), hSymbol]

/-- A lexeme is read as the token that it stands for. -/
theorem Lexeme.next {lexeme rest : List Char} {t : Token} (h : Lexeme lexeme t rest) :
    next (lexeme ++ rest) = .token t rest := by
  cases h with
  | number n hLongest =>
      obtain ⟨c, tail, hText, hDigit⟩ := n.exists_text_eq
      have hSplit := hLongest.splitNumber
      rw [hText, List.cons_append] at hSplit ⊢
      rw [next_digit hDigit, hSplit]
  | var hEnd =>
      have hNone : rest.head?.any isAsciiLetter = false := by
        cases hHead : rest.head? with
        | none => rfl
        | some d => exact hEnd d hHead
      show nextAt 'x' rest = _
      unfold nextAt
      rw [if_neg (by decide), if_pos (by simp [hNone])]
  | @func f hNamed _ hEnd =>
      obtain ⟨hLetters, c, tail, hText, hLetter, hVar, -⟩ := exists_name_eq f
      have hTake := takeWhile_letters hLetters hEnd
      have hDrop : (f.name.toList ++ rest).dropWhile isAsciiLetter = rest := by
        have hSplit := List.takeWhile_append_dropWhile (p := isAsciiLetter)
          (l := f.name.toList ++ rest)
        rw [hTake] at hSplit
        exact List.append_cancel_left hSplit
      have hName : Func.ofName? f.name.toList = some f := by
        cases f with
        | neg => exact absurd rfl hNamed
        | _ => rfl
      have hFirst : f.name.toList ++ rest = c :: (tail ++ rest) := by
        rw [hText, List.cons_append]
      rw [hFirst, next_letter hLetter hVar]
      unfold nextWord
      simp only [← hFirst, hTake, hDrop, hName]
  | op o => exact next_operator o rest
  | openBracket => exact next_openBracket rest
  | closeBracket => exact next_closeBracket rest

/-- What is named where nothing can be read is determined by the text there. -/
theorem Fragment.eq {fragment text : List Char} (h : Fragment fragment text) {c : Char}
    {tail : List Char} (hText : text = c :: tail) :
    isBlank c = false ∧ fragment = if ((c :: tail).takeWhile isAsciiLetter).isEmpty then [c]
      else (c :: tail).takeWhile isAsciiLetter := by
  cases h with
  | @letters run rest hNe hAll hEnd =>
      obtain ⟨d, run, rfl⟩ := List.exists_cons_of_ne_nil hNe
      obtain ⟨rfl, -⟩ := List.cons.inj hText
      have hTake := takeWhile_letters hAll hEnd
      rw [hText] at hTake
      refine ⟨isBlank_of_isAsciiLetter (hAll d List.mem_cons_self), ?_⟩
      rw [hTake, if_neg (by simp)]
  | char hLetter hBlank rest =>
      obtain ⟨rfl, rfl⟩ := List.cons.inj hText
      refine ⟨hBlank, ?_⟩
      rw [if_pos (by simp [hLetter])]

/-- The next step over a text: a lexeme is read, or the end is reached, or nothing can be read. -/
theorem next_cases (text : List Char) :
    (∃ gap lexeme t rest, text = gap ++ (lexeme ++ rest) ∧ Blanks gap ∧ Lexeme lexeme t rest ∧
        next text = .token t rest) ∨
      (Blanks text ∧ next text = .finished) ∨
      ∃ gap fragment rest, text = gap ++ rest ∧ Blanks gap ∧ Fragment fragment rest ∧
        (∀ lexeme t tail, rest = lexeme ++ tail → ¬ Lexeme lexeme t tail) ∧
        next text = .invalid fragment rest := by
  obtain ⟨gap, body, rfl, hGap, rfl | ⟨c, tail, rfl, hBlank⟩⟩ := exists_gap text
  · refine Or.inr (Or.inl ⟨by rwa [List.append_nil], ?_⟩)
    rw [next_blanks hGap]
    rfl
  · rw [next_blanks hGap, next_cons hBlank]
    rcases nextAt_cases hBlank tail with
      ⟨lexeme, t, rest, hText, hLexeme, hRead⟩ | ⟨fragment, hFragment, hRead⟩
    · exact Or.inl ⟨gap, lexeme, t, rest, by rw [hText], hGap, hLexeme, hRead⟩
    · refine Or.inr (Or.inr ⟨gap, fragment, c :: tail, rfl, hGap, hFragment, ?_, hRead⟩)
      intro lexeme t rest hText hLexeme
      have hToken := hLexeme.next
      rw [← hText, next_cons hBlank, hRead] at hToken
      exact absurd hToken (by simp)

/-- Nothing can be read where no lexeme starts. -/
theorem Fragment.next {fragment rest : List Char} (h : Fragment fragment rest)
    (hNone : ∀ lexeme t tail, rest = lexeme ++ tail → ¬ Lexeme lexeme t tail) :
    next rest = .invalid fragment rest := by
  have hCons : ∃ c tail, rest = c :: tail := by
    cases h with
    | @letters run tail hNe _ _ =>
        obtain ⟨c, run, rfl⟩ := List.exists_cons_of_ne_nil hNe
        exact ⟨c, run ++ tail, rfl⟩
    | @char c _ _ tail => exact ⟨c, tail, rfl⟩
  obtain ⟨c, tail, hText⟩ := hCons
  obtain ⟨hBlank, hEq⟩ := h.eq hText
  rw [hText] at hNone ⊢
  rw [next_cons hBlank]
  rcases nextAt_cases hBlank tail with
    ⟨lexeme, t, rest, hRest, hLexeme, -⟩ | ⟨fragment', hFragment, hRead⟩
  · exact absurd hLexeme (hNone lexeme t rest hRest)
  · rw [hRead, hEq, (hFragment.eq rfl).2]

/-- What is read as a token, and not after a gap, is a lexeme. -/
theorem lexeme_of_next {c : Char} {tail rest : List Char} {t : Token}
    (hBlank : isBlank c = false) (h : next (c :: tail ++ rest) = .token t rest) :
    Lexeme (c :: tail) t rest := by
  rw [List.cons_append, next_cons hBlank] at h
  rcases nextAt_cases hBlank (tail ++ rest) with
    ⟨lexeme, t', rest', hText, hLexeme, hRead⟩ | ⟨fragment, -, hRead⟩
  · rw [hRead] at h
    obtain ⟨rfl, rfl⟩ := Step.token.inj h
    rw [← List.cons_append] at hText
    rwa [List.append_cancel_right hText]
  · exact absurd (hRead.symm.trans h) (by simp)

/-! ## What may follow a lexeme -/

/--
A lexeme stays one if what follows is replaced by something that starts with a blank, or with
the same character as before and like no continuation of a number.
-/
theorem Lexeme.of_head {lexeme rest rest' : List Char} {t : Token} (h : Lexeme lexeme t rest)
    (hHead : ∀ c, rest'.head? = some c →
      isBlank c = true ∨ (rest.head? = some c ∧ c ≠ '.' ∧ c ≠ 'e' ∧ c ≠ 'E')) :
    Lexeme lexeme t rest' := by
  have hLetter (hEnd : NoLetter rest) : NoLetter rest' := by
    intro c hC
    rcases hHead c hC with hBlank | ⟨hSame, -⟩
    · rw [Bool.eq_false_iff]
      intro hIsLetter
      rw [isBlank_of_isAsciiLetter hIsLetter] at hBlank
      exact absurd hBlank (by decide)
    · exact hEnd c hSame
  cases h with
  | number n hLongest =>
      refine .number n (longest_of_splitNumber ?_)
      rw [n.splitNumber_of_apart]
      intro c hC
      rcases hHead c hC with hBlank | ⟨hSame, hOthers⟩
      · refine ⟨?_, ?_, ?_, ?_⟩
        · rw [Bool.eq_false_iff]
          intro hDigit
          rw [isBlank_of_isAsciiDigit hDigit] at hBlank
          exact absurd hBlank (by decide)
        all_goals
          rintro rfl
          exact absurd hBlank (by decide)
      · exact ⟨hLongest.noDigit c hSame, hOthers⟩
  | var hEnd => exact .var (hLetter hEnd)
  | func hNamed hEnd => exact .func hNamed (hLetter hEnd)
  | op o => exact .op o rest'
  | openBracket => exact .openBracket rest'
  | closeBracket => exact .closeBracket rest'

end DerivCalc.Token.Lexer
