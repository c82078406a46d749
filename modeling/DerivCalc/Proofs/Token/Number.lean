import DerivCalc.Proofs.Decimal.Numeral
import DerivCalc.Proofs.Decimal.Significant
import DerivCalc.Token.Lexer

/-!
# Reading a written number

A literal is read whole, up to a blank, a closing bracket or the end of the text, and
the double that it stands for is decided by its value.  So the text of a double is one
number with any count of digits, and with at least seventeen it is read back as that double.
-/

namespace DerivCalc.Token.Lexer

open Decimal (Literal Numeral Layout)
open Text (digitsValue isAsciiDigit splitSign)

/-! ## What follows a token -/

/-- The text is at its end, or a blank or a closing bracket comes next. -/
def Closes (rest : List Char) : Prop := ∀ c, rest.head? = some c → c = ' ' ∨ c = ')'

/-- No digit comes next. -/
def NoDigit (rest : List Char) : Prop := ∀ c, rest.head? = some c → isAsciiDigit c = false

theorem Closes.noDigit {rest : List Char} (h : Closes rest) : NoDigit rest := by
  intro c hHead
  rcases h c hHead with hBlank | hBracket
  · subst hBlank
    decide
  · subst hBracket
    decide

theorem closes_nil : Closes [] := by
  intro c hHead
  exact absurd hHead (by simp)

theorem closes_cons {c : Char} (h : c = ' ' ∨ c = ')') (rest : List Char) :
    Closes (c :: rest) := by
  intro d hHead
  rw [← Option.some.inj hHead]
  exact h

/-! ## The parts of a literal -/

theorem takeWhile_digits {digits rest : List Char} (h : ∀ c ∈ digits, isAsciiDigit c = true)
    (hRest : NoDigit rest) : (digits ++ rest).takeWhile isAsciiDigit = digits := by
  rw [List.takeWhile_append_of_pos h]
  cases rest with
  | nil => simp
  | cons c rest =>
      have hNot := hRest c rfl
      simp [hNot]

theorem dropWhile_digits {digits rest : List Char} (h : ∀ c ∈ digits, isAsciiDigit c = true)
    (hRest : NoDigit rest) : (digits ++ rest).dropWhile isAsciiDigit = rest := by
  rw [List.dropWhile_append_of_pos h]
  cases rest with
  | nil => rfl
  | cons c rest =>
      have hNot := hRest c rfl
      simp [hNot]

theorem splitFraction_point {fraction rest : List Char}
    (h : ∀ c ∈ fraction, isAsciiDigit c = true) (hRest : NoDigit rest) :
    splitFraction ('.' :: (fraction ++ rest)) = (fraction, rest) := by
  show ((fraction ++ rest).takeWhile isAsciiDigit, (fraction ++ rest).dropWhile isAsciiDigit) = _
  rw [takeWhile_digits h hRest, dropWhile_digits h hRest]

theorem splitFraction_of_head_ne {text : List Char} (h : text.head? ≠ some '.') :
    splitFraction text = ([], text) := by
  unfold splitFraction
  split
  · exact absurd rfl h
  · rfl

theorem splitExponent_of_closes {rest : List Char} (h : Closes rest) :
    splitExponent rest = (0, rest) := by
  cases rest with
  | nil => rfl
  | cons c rest =>
      rcases h c rfl with hBlank | hBracket
      · subst hBlank
        rfl
      · subst hBracket
        rfl

/-- An exponent is read with its sign, whatever zero is put in front of its digits. -/
theorem splitExponent_exponentText (exponent : ℤ) {rest : List Char} (hRest : NoDigit rest) :
    splitExponent (Numeral.exponentText exponent ++ rest) = (exponent, rest) := by
  generalize hDigits : (if (Nat.toDigits 10 exponent.natAbs).length < 2 then
    '0' :: Nat.toDigits 10 exponent.natAbs else Nat.toDigits 10 exponent.natAbs) = digits
  have hAll : ∀ c ∈ digits, isAsciiDigit c = true := by
    intro c hMem
    subst hDigits
    split at hMem
    · rcases List.mem_cons.1 hMem with hZero | hMem
      · rw [hZero]
        decide
      · exact Decimal.isAsciiDigit_of_mem_toDigits hMem
    · exact Decimal.isAsciiDigit_of_mem_toDigits hMem
  have hValue : digitsValue digits = exponent.natAbs := by
    subst hDigits
    split
    · rw [Decimal.digitsValue_cons_zero, Decimal.digitsValue_toDigits]
    · exact Decimal.digitsValue_toDigits _
  have hNe : digits.isEmpty = false := by
    rw [List.isEmpty_eq_false_iff]
    subst hDigits
    split
    · simp
    · exact Nat.toDigits_ne_nil
  have hText : Numeral.exponentText exponent ++ rest =
      'e' :: (if exponent < 0 then '-' else '+') :: (digits ++ rest) := by
    unfold Numeral.exponentText
    simp only [hDigits]
    rfl
  rw [hText]
  by_cases hNeg : exponent < 0
  · rw [if_pos hNeg]
    show (if ((digits ++ rest).takeWhile isAsciiDigit).isEmpty then _
      else (-(digitsValue ((digits ++ rest).takeWhile isAsciiDigit) : ℤ),
        (digits ++ rest).dropWhile isAsciiDigit)) = _
    rw [takeWhile_digits hAll hRest, dropWhile_digits hAll hRest, hNe, hValue,
      if_neg (by decide)]
    congr 1
    omega
  · rw [if_neg hNeg]
    show (if ((digits ++ rest).takeWhile isAsciiDigit).isEmpty then _
      else ((digitsValue ((digits ++ rest).takeWhile isAsciiDigit) : ℤ),
        (digits ++ rest).dropWhile isAsciiDigit)) = _
    rw [takeWhile_digits hAll hRest, dropWhile_digits hAll hRest, hNe, hValue,
      if_neg (by decide)]
    congr 1
    omega

/-! ## Literals -/

section

variable {l : Literal} {rest : List Char}

theorem noDigit_exponentText (l : Literal) (hRest : NoDigit rest) :
    NoDigit (l.exponentText ++ rest) := by
  unfold Literal.exponentText
  cases l.exponent with
  | none => exact hRest
  | some exponent =>
      intro c hHead
      rw [← Option.some.inj hHead]
      decide

/-- The digits before the point end at it, or where the exponent starts. -/
theorem noDigit_fraction (l : Literal) (hRest : NoDigit rest) :
    NoDigit ((if l.fraction.isEmpty then [] else '.' :: l.fraction) ++
      (l.exponentText ++ rest)) := by
  split
  · exact noDigit_exponentText l hRest
  · intro c hHead
    rw [← Option.some.inj hHead]
    decide

theorem head_exponentText_ne_point (l : Literal) (hRest : Closes rest) :
    (l.exponentText ++ rest).head? ≠ some '.' := by
  unfold Literal.exponentText
  intro hHead
  cases hExponent : l.exponent with
  | none =>
      rw [hExponent] at hHead
      rcases hRest '.' hHead with hEq | hEq <;> exact absurd hEq (by decide)
  | some exponent =>
      rw [hExponent] at hHead
      exact absurd (Option.some.inj hHead) (by decide)

theorem splitExponent_text (l : Literal) (hRest : Closes rest) :
    splitExponent (l.exponentText ++ rest) = (l.exponent.getD 0, rest) := by
  unfold Literal.exponentText
  cases l.exponent with
  | none => exact splitExponent_of_closes hRest
  | some exponent => exact splitExponent_exponentText exponent hRest.noDigit

/-- The digits before the point and after it are found in the text again. -/
theorem parts_text (h : l.Valid) (hRest : Closes rest) :
    (l.text ++ rest).takeWhile isAsciiDigit = l.whole ∧
      splitFraction ((l.text ++ rest).dropWhile isAsciiDigit) =
        (l.fraction, l.exponentText ++ rest) := by
  have hTail := noDigit_exponentText l hRest.noDigit
  have hMiddle := noDigit_fraction l hRest.noDigit
  unfold Literal.text
  rw [List.append_assoc, List.append_assoc, takeWhile_digits h.whole hMiddle,
    dropWhile_digits h.whole hMiddle]
  refine ⟨rfl, ?_⟩
  split
  · rename_i hEmpty
    rw [List.isEmpty_iff.1 hEmpty]
    exact splitFraction_of_head_ne (head_exponentText_ne_point l hRest)
  · exact splitFraction_point h.fraction hTail

/-- A literal is read whole. -/
theorem splitNumber_text (h : l.Valid) (hRest : Closes rest) :
    splitNumber (l.text ++ rest) =
      (Decimal.Binary.ofDecimal false (digitsValue (l.whole ++ l.fraction))
        (l.exponent.getD 0 - l.fraction.length), rest) := by
  obtain ⟨hWhole, hFraction⟩ := parts_text h hRest
  unfold splitNumber
  simp only [hWhole, hFraction, splitExponent_text l hRest]

/-- One text does not stand for two numbers. -/
theorem value_eq_of_text_eq {l' : Literal} (h : l.Valid) (h' : l'.Valid)
    (hText : l.text = l'.text) : l.value = l'.value := by
  obtain ⟨hWhole, hParts⟩ := parts_text h closes_nil
  obtain ⟨hWhole', hParts'⟩ := parts_text h' closes_nil
  rw [hText, hWhole'] at hWhole
  rw [hText, hParts'] at hParts
  obtain ⟨hFraction, hTail⟩ := Prod.mk.inj hParts
  have hExponent := congrArg splitExponent hTail
  rw [splitExponent_text l' closes_nil, splitExponent_text l closes_nil] at hExponent
  unfold Literal.value
  rw [hWhole, hFraction, (Prod.mk.inj hExponent).1]

end

/-! ## The text of a double -/

section

open Decimal.Significant (units places exceptional)
open Double (Canonical)
open Float.Model (UnpackedFloat)

variable {v : Float} {s : UnpackedFloat.Sign} {m : ℕ} {q : ℤ} {hPos : 0 < m} {p : ℕ}

theorem exceptional_eq_none (hV : v.toModel.unpack = .finite s m q hPos) :
    exceptional v = none := by
  have hNaN : v.isNaN = false := by
    show v.toModel.unpack.isNaN = false
    rw [hV]
    rfl
  have hInf : v.isInf = false := by
    show v.toModel.unpack.isInf = false
    rw [hV]
    rfl
  unfold exceptional
  rw [hNaN, hInf]
  rfl

theorem beq_zero_eq_false (hV : v.toModel.unpack = .finite s m q hPos) : (v == 0) = false := by
  apply Bool.eq_false_iff.2
  intro hZero
  obtain ⟨t, hT⟩ := Double.beq_zero_iff.1 hZero
  rw [hV] at hT
  exact absurd hT (by simp)

theorem isNegative_eq (hV : v.toModel.unpack = .finite s m q hPos) :
    Decimal.Binary.isNegative v = (s == .negative) := by
  have hSign := (Double.fields_of_unpack hV).1
  unfold Double.sign at hSign
  subst hSign
  cases Decimal.Binary.isNegative v <;> rfl

/-- The text of a positive double is its rounded numeral. -/
theorem text_of_positive (hV : v.toModel.unpack = .finite .positive m q hPos) :
    Decimal.Significant.text v p =
      Layout.render ⟨(max p 1 : ℕ), []⟩ (Decimal.Significant.round v (max p 1)) := by
  unfold Decimal.Significant.text
  simp only [exceptional_eq_none hV, beq_zero_eq_false hV, isNegative_eq hV]
  rfl

/-- The text of a negative double is that of its negation after a minus sign. -/
theorem text_of_negative (hV : v.toModel.unpack = .finite .negative m q hPos) :
    Decimal.Significant.text v p = '-' :: Decimal.Significant.text (-v) p := by
  have hNeg : (-v).toModel.unpack = .finite .positive m q hPos := by
    rw [Double.unpack_neg, hV]
    rfl
  obtain ⟨-, hM, hQ⟩ := Double.fields_of_unpack hV
  obtain ⟨-, hNegM, hNegQ⟩ := Double.fields_of_unpack hNeg
  have hRound : Decimal.Significant.round (-v) (max p 1) =
      Decimal.Significant.round v (max p 1) := by
    unfold Decimal.Significant.round places Decimal.Binary.ratio
    rw [hM, hQ, hNegM, hNegQ]
  rw [text_of_positive hNeg, hRound]
  unfold Decimal.Significant.text
  simp only [exceptional_eq_none hV, beq_zero_eq_false hV, isNegative_eq hV]
  rfl

/-- Zero is written as one digit. -/
theorem splitNumber_zero (p : ℕ) {rest : List Char} (hRest : Closes rest) :
    splitNumber (Decimal.Significant.text 0 p ++ rest) = (0, rest) ∧
      ∃ c tail, Decimal.Significant.text 0 p ++ rest = c :: tail ∧ isAsciiDigit c = true := by
  have hText : Decimal.Significant.text 0 p = ['0'] := rfl
  have hSplit := splitNumber_text Literal.valid_zero hRest
  rw [hText]
  exact ⟨hSplit, '0', rest, rfl, by decide⟩

/-- The text of a positive double is a literal, of the value that the rounding has. -/
theorem exists_literal (hV : v.toModel.unpack = .finite .positive m q hPos) (p : ℕ) :
    ∃ l : Literal, l.Valid ∧ Decimal.Significant.text v p = l.text ∧
      l.value = units v (max p 1) * 10 ^ (-places v (max p 1)) := by
  have hPlain : Layout.Plain ⟨(max p 1 : ℕ), []⟩ := Or.inl rfl
  have hNumeral : (Decimal.Significant.round v (max p 1)).Valid :=
    Numeral.valid_ofUnits (Decimal.Significant.units_pos hV (le_max_right p 1)) _
  refine ⟨_, Layout.valid_literal hPlain hNumeral, ?_, ?_⟩
  · rw [text_of_positive hV, Layout.text_literal hPlain hNumeral]
  · rw [Layout.value_literal hPlain hNumeral]
    exact Numeral.value_ofUnits _ _

/-- The text of a positive double starts with a digit and is read as one number. -/
theorem exists_splitNumber (hV : v.toModel.unpack = .finite .positive m q hPos) (p : ℕ)
    {rest : List Char} (hRest : Closes rest) :
    ∃ w, splitNumber (Decimal.Significant.text v p ++ rest) = (w, rest) ∧
      ∃ c tail, Decimal.Significant.text v p ++ rest = c :: tail ∧ isAsciiDigit c = true := by
  obtain ⟨l, hLiteral, hText, -⟩ := exists_literal hV p
  obtain ⟨c, tail, hFirst, hDigit⟩ := hLiteral.exists_text_eq
  rw [hText]
  exact ⟨_, splitNumber_text hLiteral hRest, c, tail ++ rest,
    by rw [hFirst, List.cons_append], hDigit⟩

/-- With seventeen digits it is read as that double. -/
theorem splitNumber_significant (hV : v.toModel.unpack = .finite .positive m q hPos)
    (hP : 17 ≤ p) {rest : List Char} (hRest : Closes rest) :
    (splitNumber (Decimal.Significant.text v p ++ rest)).1 = v := by
  have hC : Canonical m q := Double.canonical_of_unpack hV
  obtain ⟨l, hLiteral, hText, hValue⟩ := exists_literal hV p
  have hBetween : Decimal.Binary.Between m q l.value := by
    rw [hValue]
    exact Decimal.Significant.between_of_near hC
      (Decimal.Significant.round_near hV (le_trans hP (le_max_left p 1)))
  rw [hText, splitNumber_text hLiteral hRest, Decimal.Binary.ofDecimal_eq hC hV hBetween]

end

end DerivCalc.Token.Lexer
