import DerivCalc.Json.Reader
import DerivCalc.Json.Writer
import DerivCalc.Proofs.Decimal.Shortest
import DerivCalc.Proofs.Token.Number

/-!
# A written number is read back

Integers and doubles are written as literals, so both are read by one lemma on literals.  What
tells them apart is that a double is never written without a fraction or an exponent.  The
reader takes no more than one zero at the start of a number, and the writer puts no zero in
front of other digits.
-/

namespace DerivCalc.Json.Reader

open Decimal (Literal Layout Numeral)
open DerivCalc.Text (digitsValue isAsciiDigit)
open Token.Lexer (NoDigit takeWhile_digits dropWhile_digits)

/-! ## What follows a value -/

/-- The text is at its end, or a comma or a new line comes next. -/
def Ends (rest : List Char) : Prop := ∀ c, rest.head? = some c → c = ',' ∨ c = '\n'

theorem ends_nil : Ends [] := by
  intro c hHead
  exact absurd hHead (by simp)

theorem ends_cons {c : Char} (h : c = ',' ∨ c = '\n') (rest : List Char) : Ends (c :: rest) := by
  intro d hHead
  rw [← Option.some.inj hHead]
  exact h

theorem Ends.noDigit {rest : List Char} (h : Ends rest) : NoDigit rest := by
  intro c hHead
  rcases h c hHead with rfl | rfl <;> decide

theorem Ends.head_ne {rest : List Char} (h : Ends rest) {c : Char} (hComma : c ≠ ',')
    (hLine : c ≠ '\n') : rest.head? ≠ some c := by
  intro hHead
  rcases h c hHead with rfl | rfl
  · exact hComma rfl
  · exact hLine rfl

/-! ## Leading zeros -/

/-- The digits are a single zero, or they do not start with one. -/
def NoLeadingZero (digits : List Char) : Prop := digits = ['0'] ∨ digits.head? ≠ some '0'

theorem noLeadingZero_toDigits (n : ℕ) : NoLeadingZero (Nat.toDigits 10 n) := by
  rcases Nat.eq_zero_or_pos n with rfl | hPos
  · exact Or.inl (Nat.toDigits_zero 10)
  · exact Or.inr (Decimal.head_toDigits_ne_zero hPos)

/-! ## The parts of a literal -/

theorem splitWhole_append {whole rest : List Char} (hDigits : ∀ c ∈ whole, isAsciiDigit c = true)
    (hNe : whole ≠ []) (hZero : NoLeadingZero whole) (hRest : NoDigit rest) :
    splitWhole (whole ++ rest) = some (whole, rest) := by
  rcases hZero with rfl | hHead
  · rfl
  · cases whole with
    | nil => exact absurd rfl hNe
    | cons c whole =>
        have hC : isAsciiDigit c = true := hDigits c List.mem_cons_self
        have hNotZero : c ≠ '0' := by simpa using hHead
        have hTake := takeWhile_digits hDigits hRest
        have hDrop := dropWhile_digits hDigits hRest
        rw [List.cons_append] at hTake hDrop ⊢
        rw [splitWhole.eq_def]
        split
        · exact absurd (List.cons.inj ‹_›).1 hNotZero
        · obtain ⟨rfl, rfl⟩ := List.cons.inj ‹c :: (whole ++ rest) = _›
          rw [if_pos hC, hTake, hDrop]
        · exact absurd ‹c :: (whole ++ rest) = []› (by simp)

/-- The fraction of a literal, if there are digits in it. -/
def fraction? (l : Literal) : Option (List Char) :=
  if l.fraction.isEmpty then none else some l.fraction

theorem splitFraction_of_head_ne {text : List Char} (h : text.head? ≠ some '.') :
    splitFraction text = (none, text) := by
  unfold splitFraction
  split
  · exact absurd rfl h
  · rfl

theorem splitFraction_point {fraction rest : List Char} (hNe : fraction.isEmpty = false)
    (h : ∀ c ∈ fraction, isAsciiDigit c = true) (hRest : NoDigit rest) :
    splitFraction ('.' :: (fraction ++ rest)) = (some fraction, rest) := by
  unfold splitFraction
  simp [takeWhile_digits h hRest, dropWhile_digits h hRest, hNe]

theorem splitExponent_of_ends {rest : List Char} (h : Ends rest) :
    splitExponent rest = (none, rest) := by
  cases rest with
  | nil => rfl
  | cons c rest => rcases h c rfl with rfl | rfl <;> rfl

/-- An exponent is found here iff the lexer of formulas finds one, and it is the same. -/
theorem splitExponent_lexer (text : List Char) :
    (Token.Lexer.splitExponent text = ((splitExponent text).1.getD 0, (splitExponent text).2)) ∧
      ((splitExponent text).1 = none → (splitExponent text).2 = text) := by
  cases text with
  | nil => exact ⟨rfl, fun _ => rfl⟩
  | cons c rest =>
      simp only [splitExponent, Token.Lexer.splitExponent]
      split
      · split
        · exact ⟨rfl, fun _ => rfl⟩
        · exact ⟨rfl, fun hNone => absurd hNone (by simp)⟩
      · exact ⟨rfl, fun _ => rfl⟩

theorem splitExponent_exponentText (exponent : ℤ) {rest : List Char} (hRest : NoDigit rest) :
    splitExponent (Numeral.exponentText exponent ++ rest) = (some exponent, rest) := by
  have hLexer := Token.Lexer.splitExponent_exponentText exponent hRest
  have hLonger : rest ≠ Numeral.exponentText exponent ++ rest := by
    intro hEq
    have hLength := congrArg List.length hEq
    simp only [Numeral.exponentText, List.length_append, List.length_cons] at hLength
    omega
  generalize Numeral.exponentText exponent ++ rest = text at hLexer hLonger ⊢
  obtain ⟨hSame, hAbsent⟩ := splitExponent_lexer text
  rw [hLexer] at hSame
  generalize splitExponent text = split at hSame hAbsent ⊢
  obtain ⟨found, after⟩ := split
  obtain ⟨hValue, hAfter⟩ := Prod.mk.inj hSame
  cases found with
  | none => exact absurd (hAfter.trans (hAbsent rfl)) hLonger
  | some found => rw [hValue, hAfter, Option.getD_some]

/-! ## Literals -/

section

variable {l : Literal} {rest : List Char}

theorem splitExponent_text (l : Literal) (hRest : Ends rest) :
    splitExponent (l.exponentText ++ rest) = (l.exponent, rest) := by
  unfold Literal.exponentText
  cases l.exponent with
  | none => exact splitExponent_of_ends hRest
  | some exponent => exact splitExponent_exponentText exponent hRest.noDigit

theorem head_exponentText_ne_point (l : Literal) (hRest : Ends rest) :
    (l.exponentText ++ rest).head? ≠ some '.' := by
  unfold Literal.exponentText
  cases l.exponent with
  | none => exact hRest.head_ne (by decide) (by decide)
  | some exponent => simp [Numeral.exponentText]

/-- A literal without a superfluous zero is read whole. -/
theorem unsigned_text (negative : Bool) (h : l.Valid) (hZero : NoLeadingZero l.whole)
    (hRest : Ends rest) :
    unsigned negative (l.text ++ rest) =
      some (numberOfParts negative l.whole (fraction? l) l.exponent, rest) := by
  have hTail := Token.Lexer.noDigit_exponentText l hRest.noDigit
  have hMiddle := Token.Lexer.noDigit_fraction l hRest.noDigit
  have hFraction : splitFraction ((if l.fraction.isEmpty then [] else '.' :: l.fraction) ++
      (l.exponentText ++ rest)) = (fraction? l, l.exponentText ++ rest) := by
    unfold fraction?
    split
    · exact splitFraction_of_head_ne (head_exponentText_ne_point l hRest)
    · rename_i hNotEmpty
      exact splitFraction_point (Bool.eq_false_iff.2 hNotEmpty) h.fraction hTail
  unfold unsigned Literal.text
  rw [List.append_assoc, List.append_assoc,
    splitWhole_append h.whole h.ne_nil hZero hMiddle]
  simp only [bind, Option.bind, hFraction, splitExponent_text l hRest]
  rfl

/-! ## Words and numbers with a sign -/

/-- A word is read as its value, whatever follows it. -/
theorem scalar_word (rest : List Char) :
    ∀ entry ∈ words, scalar (entry.1.toList ++ rest) = some (entry.2, rest) := by
  intro entry hMem
  simp only [words, List.mem_cons, List.not_mem_nil, or_false] at hMem
  rcases hMem with rfl | rfl | rfl | rfl | rfl | rfl <;> rfl

/-- A text that starts with a digit, after a minus sign or without one. -/
def StartsNumber (text : List Char) : Prop :=
  ∃ c tail, isAsciiDigit c = true ∧ (text = c :: tail ∨ text = '-' :: c :: tail)

theorem scalar_of_no_word {text : List Char}
    (h : ∀ entry ∈ words, entry.1.toList.isPrefixOf text = false) : scalar text = number text := by
  unfold scalar
  split
  · rename_i result hFound
    obtain ⟨entry, hMem, hResult⟩ := List.exists_of_findSome?_eq_some hFound
    simp [afterWord?, h entry hMem] at hResult
  · rfl

/-- No word starts like a number. -/
theorem scalar_eq_number {text : List Char} (h : StartsNumber text) :
    scalar text = number text := by
  obtain ⟨c, tail, hC, hText⟩ := h
  have hOther {d : Char} (hNoDigit : isAsciiDigit d = false) : d ≠ c := by
    rintro rfl
    rw [hNoDigit] at hC
    exact absurd hC (by decide)
  have hFirst : 'n' ≠ c ∧ 't' ≠ c ∧ 'f' ≠ c ∧ 'N' ≠ c ∧ 'I' ≠ c ∧ '-' ≠ c :=
    ⟨hOther (by decide), hOther (by decide), hOther (by decide), hOther (by decide),
      hOther (by decide), hOther (by decide)⟩
  apply scalar_of_no_word
  intro entry hMem
  simp only [words, List.mem_cons, List.not_mem_nil, or_false] at hMem
  rcases hText with rfl | rfl <;> rcases hMem with rfl | rfl | rfl | rfl | rfl | rfl <;>
    simp [List.isPrefixOf, hFirst]

/-- The text of a literal after its sign. -/
def signed (negative : Bool) (l : Literal) : List Char :=
  if negative then '-' :: l.text else l.text

theorem startsNumber_signed (negative : Bool) (h : l.Valid) (rest : List Char) :
    StartsNumber (signed negative l ++ rest) := by
  obtain ⟨c, tail, hText, hC⟩ := h.exists_text_eq
  refine ⟨c, tail ++ rest, hC, ?_⟩
  unfold signed
  rw [hText]
  cases negative with
  | true => exact Or.inr rfl
  | false => exact Or.inl rfl

/-- A literal is read with its sign. -/
theorem scalar_signed (negative : Bool) (h : l.Valid) (hZero : NoLeadingZero l.whole)
    (hRest : Ends rest) :
    scalar (signed negative l ++ rest) =
      some (numberOfParts negative l.whole (fraction? l) l.exponent, rest) := by
  rw [scalar_eq_number (startsNumber_signed negative h rest),
    ← unsigned_text negative h hZero hRest]
  cases negative with
  | true => rfl
  | false =>
      obtain ⟨c, tail, hText, hC⟩ := h.exists_text_eq
      have hMinus : c ≠ '-' := by
        rintro rfl
        exact absurd hC (by decide)
      show number (l.text ++ rest) = unsigned false (l.text ++ rest)
      rw [hText, List.cons_append]
      unfold number
      split
      · exact absurd (List.cons.inj ‹_›).1 hMinus
      · rfl

end

/-! ## Integers -/

/-- A written integer is read as that integer. -/
theorem scalar_integer (i : ℤ) {rest : List Char} (hRest : Ends rest) :
    scalar (Writer.integer i ++ rest) = some (.int i, rest) := by
  have hValid : Literal.Valid ⟨Nat.toDigits 10 i.natAbs, [], none⟩ := by
    refine ⟨Nat.toDigits_ne_nil, ?_, by simp⟩
    intro c hMem
    exact Decimal.isAsciiDigit_of_mem_toDigits hMem
  have hText : Writer.integer i =
      signed (decide (i < 0)) ⟨Nat.toDigits 10 i.natAbs, [], none⟩ := by
    simp [Writer.integer, signed, Literal.text, Literal.exponentText]
  have hInt : numberOfParts (decide (i < 0)) (Nat.toDigits 10 i.natAbs) none none = .int i := by
    simp only [numberOfParts, Decimal.digitsValue_toDigits, decide_eq_true_eq]
    congr 1
    omega
  rw [hText, scalar_signed (decide (i < 0)) hValid (noLeadingZero_toDigits i.natAbs) hRest]
  exact congrArg (fun value => some (value, rest)) hInt

/-! ## Doubles -/

/-- A literal with a fraction or an exponent is a double. -/
theorem numberOfParts_double (negative : Bool) {l : Literal}
    (h : l.fraction ≠ [] ∨ l.exponent ≠ none) :
    numberOfParts negative l.whole (fraction? l) l.exponent =
      .float (Decimal.Binary.ofDecimal negative (digitsValue (l.whole ++ l.fraction))
        (l.exponent.getD 0 - l.fraction.length)) := by
  obtain ⟨whole, fraction, exponent⟩ := l
  cases fraction with
  | cons d ds => rfl
  | nil =>
      cases exponent with
      | some exponent => rfl
      | none => exact absurd h (by simp)

theorem noLeadingZero_literal (layout : Layout) {n : Numeral} (hValid : n.Valid)
    (hHead : n.digits.head? ≠ some '0') : NoLeadingZero (layout.literal n).whole := by
  obtain ⟨hNe, -⟩ := hValid
  unfold Layout.literal
  cases hDigits : n.digits with
  | nil => exact absurd hDigits hNe
  | cons d ds =>
      rw [hDigits] at hHead
      split
      · exact Or.inr hHead
      · split
        · exact Or.inl rfl
        · exact Or.inr hHead

/-- A double is written with a fraction or with an exponent. -/
theorem fraction_or_exponent {n : Numeral} (hValid : n.Valid) :
    (Decimal.Shortest.layout.literal n).fraction ≠ [] ∨
      (Decimal.Shortest.layout.literal n).exponent ≠ none := by
  obtain ⟨hNe, -⟩ := hValid
  unfold Layout.literal
  split
  · exact Or.inr (by simp)
  · left
    split
    · simp [hNe]
    · simp only
      split
      · simp [Decimal.Shortest.layout]
      · rename_i hNotEmpty
        exact fun hNil => hNotEmpty (List.isEmpty_iff.2 hNil)

section

open Float.Model (UnpackedFloat)

variable {v : Float} {s : UnpackedFloat.Sign} {m : ℕ} {q : ℤ} {hPos : 0 < m}

/-- A finite double other than zero is written as the shortest literal, with its sign. -/
theorem double_eq_signed (hV : v.toModel.unpack = .finite s m q hPos) :
    Writer.double v =
      signed (s == .negative) (Decimal.Shortest.layout.literal (Decimal.Shortest.round v)) := by
  have hNaN : v.isNaN = false := by
    show v.toModel.unpack.isNaN = false
    rw [hV]
    rfl
  have hInf : v.isInf = false := by
    show v.toModel.unpack.isInf = false
    rw [hV]
    rfl
  have hText := Layout.text_literal (Or.inr rfl : Decimal.Shortest.layout.Plain)
    (Decimal.Shortest.round_between hV).1
  unfold Writer.double Decimal.Shortest.text signed
  simp only [hNaN, hInf, Token.Lexer.exceptional_eq_none hV, Token.Lexer.beq_zero_eq_false hV,
    Token.Lexer.isNegative_eq hV, hText, Bool.false_eq_true, if_false]

/-- A finite double other than zero is read back. -/
theorem scalar_double_finite (hV : v.toModel.unpack = .finite s m q hPos) {rest : List Char}
    (hRest : Ends rest) : scalar (Writer.double v ++ rest) = some (.float v, rest) := by
  have hPlain : Decimal.Shortest.layout.Plain := Or.inr rfl
  obtain ⟨hValid, hHead, hBetween⟩ := Decimal.Shortest.round_between hV
  have hZero := noLeadingZero_literal Decimal.Shortest.layout hValid hHead
  have hPart := fraction_or_exponent hValid
  rw [← Layout.value_literal hPlain hValid] at hBetween
  rw [double_eq_signed hV,
    scalar_signed (s == .negative) (Layout.valid_literal hPlain hValid) hZero hRest,
    numberOfParts_double (s == .negative) hPart,
    Decimal.Binary.ofDecimal_sign_eq (Double.canonical_of_unpack hV) hV hBetween]

/-- A written double is read as that double. -/
theorem scalar_double (v : Float) {rest : List Char} (hRest : Ends rest) :
    scalar (Writer.double v ++ rest) = some (.float v, rest) := by
  have hSelf := Double.ofUnpacked_unpack v
  rcases Double.unpack_cases v with hU | ⟨s, hU⟩ | ⟨s, hU⟩ | ⟨s, m, q, hCanonical, hU⟩
  · rw [hU] at hSelf
    subst hSelf
    exact scalar_word rest ("NaN", .float Decimal.Binary.nan) (by simp [words])
  · rw [hU] at hSelf
    subst hSelf
    cases s with
    | positive =>
        exact scalar_word rest ("Infinity", .float (Decimal.Binary.infinity false))
          (by simp [words])
    | negative =>
        exact scalar_word rest ("-Infinity", .float (Decimal.Binary.infinity true))
          (by simp [words])
  · rw [hU] at hSelf
    subst hSelf
    have hValid : Literal.Valid ⟨['0'], ['0'], none⟩ := by
      constructor <;> simp [isAsciiDigit]
    cases s with
    | positive => exact scalar_signed false hValid (Or.inl rfl) hRest
    | negative => exact scalar_signed true hValid (Or.inl rfl) hRest
  · exact scalar_double_finite hU hRest

end

end DerivCalc.Json.Reader
