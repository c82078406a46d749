import DerivCalc.Proofs.Decimal.General
import DerivCalc.Proofs.Decimal.Nearest
import DerivCalc.Proofs.Double.Size
import DerivCalc.Proofs.Engine.RoundTrip
import DerivCalc.Proofs.Token.Lexeme

/-!
# The text of a number

A finite double is formatted as a literal, behind a minus sign if it is negative.  The number that
the literal spells is the double rounded to the precision, and so the texts of two doubles do
not stand in the opposite order.  The text is read as one number token with any precision, and as
the size of the double itself with seventeen digits or more.
-/

namespace DerivCalc.Engine

open Decimal (General Layout Literal Nearest Numeral)
open Decimal.Significant (places round units)
open Token Token.Lexer

/-! ## Numbers with their sign -/

/-- A literal, possibly behind a minus sign. -/
structure SignedLiteral where
  negative : Bool
  size : Literal

namespace SignedLiteral

/-- How the number is written. -/
def text (l : SignedLiteral) : List Char :=
  if l.negative then '-' :: l.size.text else l.size.text

/-- The number that is written. -/
def value (l : SignedLiteral) : ℚ := if l.negative then -l.size.value else l.size.value

end SignedLiteral

/-- The literal spells the double, rounded to `p` digits. -/
structure Rounded (p : ℕ) (v : Float) (l : SignedLiteral) : Prop where
  valid : l.size.Valid
  nearest : Nearest p (Double.value v) l.value
  general : General p l.size
  sign : l.negative = true ↔ v < 0
  zero : l.text = ['0'] ↔ (v == 0) = true
  noMinusZero : l.text ≠ ['-', '0']

/-- What a text starts with tells whether its number is negative, so it has one value. -/
theorem SignedLiteral.value_eq_of_text_eq {l l' : SignedLiteral} (h : l.size.Valid)
    (h' : l'.size.Valid) (hText : l.text = l'.text) : l.value = l'.value := by
  obtain ⟨negative, size⟩ := l
  obtain ⟨negative', size'⟩ := l'
  cases negative <;> cases negative'
  · exact Lexer.value_eq_of_text_eq h h' hText
  · exact absurd hText (h.text_ne_minus _)
  · exact absurd hText.symm (h'.text_ne_minus _)
  · exact congrArg Neg.neg (Lexer.value_eq_of_text_eq h h' (List.cons.inj hText).2)

/-! ## The literal of a double -/

section

variable {v : Float} {m : ℕ} {q : ℤ} {hPos : 0 < m} {p : ℕ}

/-- The literal of a positive double. -/
theorem exists_general (hV : v.toModel.unpack = .finite .positive m q hPos) (hP : 1 ≤ p) :
    ∃ l : Literal, l.Valid ∧ Decimal.Significant.text v p = l.text ∧ General p l ∧
      Nearest p (m * 2 ^ q) l.value ∧ 0 < l.value := by
  have hPlain : Layout.Plain ⟨p, []⟩ := Or.inl rfl
  have hUnits : 0 < units v p := Decimal.Significant.units_pos hV hP
  have hNumeral : (round v p).Valid := Numeral.valid_ofUnits hUnits _
  have hValue : (Layout.literal ⟨p, []⟩ (round v p)).value = units v p * 10 ^ (-places v p) := by
    rw [Layout.value_literal hPlain hNumeral]
    exact Numeral.value_ofUnits _ _
  refine ⟨Layout.literal ⟨p, []⟩ (round v p), Layout.valid_literal hPlain hNumeral, ?_, ?_, ?_, ?_⟩
  · rw [text_of_positive hV, max_eq_left hP, Layout.text_literal hPlain hNumeral]
  · exact Layout.general_literal hNumeral (Numeral.log_ofUnits hUnits _)
      (Numeral.getLast_dropTrailingZeros _)
  · rw [hValue]
    exact Decimal.Significant.round_nearest hV hP
  · rw [hValue]
    exact mul_pos (Nat.cast_pos.2 hUnits) (Decimal.Binary.ten_zpow_pos _)

/-- A literal of a number other than zero is not the digit zero. -/
theorem text_ne_zero {l : Literal} (h : l.Valid) (hPos : 0 < l.value) : l.text ≠ ['0'] := by
  intro hText
  have hValue := Lexer.value_eq_of_text_eq h Literal.valid_zero (hText.trans Literal.text_zero.symm)
  rw [hValue, Literal.value_zero] at hPos
  exact absurd hPos (lt_irrefl 0)

theorem text_of_zero (h : (v == 0) = true) (p : ℕ) : Decimal.Significant.text v p = ['0'] := by
  obtain ⟨s, rfl⟩ := Double.zero_cases h
  cases s <;> rfl

/-- The text of a finite double is a literal of its size, behind a minus sign if it is negative. -/
theorem exists_rounded (hV : v.isFinite = true) (hP : 1 ≤ p) :
    ∃ l : SignedLiteral, Decimal.Significant.text v p = l.text ∧ Rounded p v l := by
  rcases (Double.isFinite_iff v).1 hV with ⟨s, hZero⟩ | ⟨s, m, q, hC, hFinite⟩
  · have hBeq : (v == 0) = true := Double.beq_zero_iff.2 ⟨s, hZero⟩
    have hValue : SignedLiteral.value ⟨false, Literal.zero⟩ = 0 := Literal.value_zero
    refine ⟨⟨false, Literal.zero⟩, text_of_zero hBeq p, Literal.valid_zero, ?_,
      Decimal.general_zero hP, ?_, iff_of_true rfl hBeq, by decide⟩
    · rw [hValue, Double.value_of_beq_zero hBeq]
      exact Decimal.nearest_self (Decimal.hasDigits_zero p)
    · exact iff_of_false Bool.false_ne_true (Double.not_lt_zero_of_beq_zero hBeq)
  · have hValue := Double.value_of_unpack hFinite
    have hBeq : (v == 0) = false := beq_zero_eq_false hFinite
    have hNe : ¬ (v == 0) = true := by
      rw [hBeq]
      decide
    cases s with
    | positive =>
        obtain ⟨l, hValid, hText, hGeneral, hNearest, hLPos⟩ := exists_general hFinite hP
        refine ⟨⟨false, l⟩, hText, hValid, ?_, hGeneral, ?_, ?_, ?_⟩
        · rw [hValue]
          show Nearest p (1 * (m * 2 ^ q)) l.value
          rwa [one_mul]
        · exact iff_of_false Bool.false_ne_true (Double.not_lt_zero_of_positive hFinite)
        · exact iff_of_false (text_ne_zero hValid hLPos) hNe
        · exact hValid.text_ne_minus ['0']
    | negative =>
        have hOpposite := Double.unpack_neg v
        rw [hFinite] at hOpposite
        obtain ⟨l, hValid, hText, hGeneral, hNearest, hLPos⟩ := exists_general hOpposite hP
        refine ⟨⟨true, l⟩, ?_, hValid, ?_, hGeneral, ?_, ?_, ?_⟩
        · rw [text_of_negative hFinite, hText]
          rfl
        · rw [hValue]
          show Nearest p (-1 * (m * 2 ^ q)) (-l.value)
          rw [neg_one_mul]
          exact hNearest.neg
        · exact iff_of_true rfl (Double.lt_zero_of_negative hFinite)
        · exact iff_of_false (fun hText => absurd (List.cons.inj hText).1 (by decide)) hNe
        · exact fun hText => text_ne_zero hValid hLPos (List.cons.inj hText).2

end

/-! ## Rounding -/

/-- There is no text with more digits than the greatest precision. -/
theorem formatNumber_ne_ok {p : ℕ} (h : maxPrecision < p) {v : Float} {text : String} :
    formatNumber p v ≠ .ok text := by
  unfold formatNumber checkPrecision
  rw [if_pos h]
  split <;> exact fun hEq => absurd hEq (by simp [bind, Except.bind])

/--
A finite double is formatted as the nearest decimal with `p` digits, and the number that is
written for a double is at most the one that is written for a greater double.
-/
theorem formatNumber_nearest {p : ℕ} {v : Float} (hV : v.isFinite = true) (hLow : 1 ≤ p)
    (hHigh : p ≤ maxPrecision) :
    ∃ l : SignedLiteral, formatNumber p v = .ok (String.ofList l.text) ∧ Rounded p v l ∧
      ∀ (w : Float) (l' : SignedLiteral), w.isFinite = true → v ≤ w → l'.size.Valid →
        formatNumber p w = .ok (String.ofList l'.text) → l.value ≤ l'.value := by
  obtain ⟨l, hText, hRounded⟩ := exists_rounded hV hLow
  refine ⟨l, by rw [formatNumber_eq_ok hHigh, hText], hRounded, ?_⟩
  intro w l' hW hLe hValid' hFormat
  obtain ⟨k, hOther, hRounded'⟩ := exists_rounded hW hLow
  rw [formatNumber_eq_ok hHigh, hOther] at hFormat
  have hSame : k.text = l'.text := String.ofList_injective (Except.ok.inj hFormat)
  rw [← SignedLiteral.value_eq_of_text_eq hRounded'.valid hValid' hSame]
  exact hRounded.nearest.mono hRounded'.nearest (Double.value_le_of_le hV hW hLe)

/-- Ten times a digit, as it is written with one digit. -/
def tens (d : Char) : SignedLiteral := ⟨false, ⟨[d], [], some 1⟩⟩

/-- With one digit `9.5` is a tie, and rounding up to the even digit carries into the exponent. -/
theorem formatNumber_carry :
    formatNumber 1 9.5 = .ok "1e+01" ∧ formatNumber 1 25 = .ok "2e+01" ∧
      ∃ l : SignedLiteral, l.text = "1e+01".toList ∧ Rounded 1 9.5 l ∧
        l.value ≤ (tens '2').value := by
  have hCarry : formatNumber 1 9.5 = .ok "1e+01" := by decide +kernel
  have hTie : formatNumber 1 25 = .ok "2e+01" := by decide +kernel
  obtain ⟨l, hFormat, hRounded, hMono⟩ :=
    formatNumber_nearest (p := 1) (v := 9.5) (by decide +kernel) (by decide) (by decide)
  have hText : l.text = "1e+01".toList := by
    rw [hCarry] at hFormat
    rw [Except.ok.inj hFormat, String.toList_ofList]
  have hValid : (tens '2').size.Valid := by constructor <;> simp [tens, Text.isAsciiDigit]
  exact ⟨hCarry, hTie, l, hText, hRounded,
    hMono 25 (tens '2') (by decide +kernel) (by decide +kernel) hValid (hTie.trans rfl)⟩

/-- One more digit than the greatest precision is asked for. -/
theorem formatNumber_tenth_error :
    (0.1 : Float).isFinite = true ∧ 1 ≤ 2147483648 ∧
      formatNumber 2147483648 0.1 = .error .precisionTooBig ∧
      ¬ ∃ l : SignedLiteral, formatNumber 2147483648 0.1 = .ok (String.ofList l.text) ∧
        Rounded 2147483648 0.1 l := by
  have hError : formatNumber 2147483648 0.1 = .error .precisionTooBig := rfl
  refine ⟨by decide +kernel, by decide, hError, ?_⟩
  rintro ⟨l, hFormat, -⟩
  exact formatNumber_ne_ok (by decide) hFormat

/-! ## Reading what was formatted -/

/-- The text of a number alone is one token. -/
theorem scan_lexeme (n : NumberLexeme) : scan n.text = .ok [.number n.value] := by
  obtain ⟨c, tail, hFirst, hDigit⟩ := n.exists_text_eq
  have hApart : Apart [] := fun c hHead => absurd hHead (by simp)
  have hSplit := n.splitNumber_of_apart hApart
  rw [List.append_nil] at hSplit
  rw [scan_of_splitNumber hSplit ⟨c, tail, hFirst, hDigit⟩, scan_nil]
  rfl

/-- A minus in front of it is its negation. -/
theorem tokenize_text (n : NumberLexeme) (negative : Prop) [Decidable negative] :
    tokenize (String.ofList (if negative then '-' :: n.text else n.text)) =
      .ok (if negative then [.func .neg, .number n.value] else [.number n.value]) := by
  unfold tokenize Lexer.tokenize
  rw [String.toList_ofList]
  by_cases hNegative : negative
  · have hScan : scan ('-' :: n.text) = (scan n.text).map (.op .sub :: ·) :=
      scan_of_token (next_operator .sub n.text)
    rw [if_pos hNegative, if_pos hNegative, hScan, scan_lexeme]
    rfl
  · rw [if_neg hNegative, if_neg hNegative, scan_lexeme]
    rfl

/-- A literal is a number of the lexer. -/
theorem exists_lexeme_of_valid {l : Literal} (h : l.Valid) :
    ∃ n : NumberLexeme, l.text = n.text ∧ (splitNumber (l.text ++ [])).1 = n.value := by
  obtain ⟨c, tail, hFirst, hDigit⟩ := h.exists_text_eq
  obtain ⟨n, hText, hValue⟩ := exists_number hDigit tail
  have hRest := congrArg Prod.snd (splitNumber_text h closes_nil)
  rw [List.append_nil, hFirst] at hRest ⊢
  rw [hRest, List.append_nil] at hText
  exact ⟨n, hText, hValue⟩

section

variable {v : Float} {m : ℕ} {q : ℤ} {hPos : 0 < m} {p : ℕ}

theorem exists_lexeme_of_positive (hV : v.toModel.unpack = .finite .positive m q hPos) (p : ℕ) :
    ∃ n : NumberLexeme, Decimal.Significant.text v p = n.text ∧ (17 ≤ p → n.value = v) := by
  obtain ⟨l, hValid, hText, -⟩ := exists_literal hV p
  obtain ⟨n, hLexeme, hValue⟩ := exists_lexeme_of_valid hValid
  refine ⟨n, hText.trans hLexeme, fun hP => ?_⟩
  rw [← hValue, ← hText]
  exact splitNumber_significant hV hP closes_nil

/-- The text of a finite double is one number, behind a minus sign if the double is negative. -/
theorem exists_lexeme (hV : v.isFinite = true) (p : ℕ) :
    ∃ n : NumberLexeme,
      Decimal.Significant.text v p = (if v < 0 then '-' :: n.text else n.text) ∧
        (17 ≤ p → n.value = v.abs) := by
  rcases (Double.isFinite_iff v).1 hV with ⟨s, hZero⟩ | ⟨s, m, q, hC, hFinite⟩
  · have hBeq : (v == 0) = true := Double.beq_zero_iff.2 ⟨s, hZero⟩
    obtain ⟨n, hLexeme, hValue⟩ := exists_lexeme_of_valid Literal.valid_zero
    refine ⟨n, ?_, fun _ => ?_⟩
    · rw [if_neg (Double.not_lt_zero_of_beq_zero hBeq), text_of_zero hBeq, ← hLexeme]
      rfl
    · rw [← hValue, Double.abs_of_zero hBeq]
      exact congrArg Prod.fst (splitNumber_zero p closes_nil).1
  · cases s with
    | positive =>
        have hAbs : v.abs = v := Double.abs_of_positive hFinite
        rw [hAbs]
        simp only [if_neg (Double.not_lt_zero_of_positive hFinite)]
        exact exists_lexeme_of_positive hFinite p
    | negative =>
        have hOpposite := Double.unpack_neg v
        rw [hFinite] at hOpposite
        have hAbs : v.abs = -v := by
          rw [← Double.abs_neg, Double.abs_of_positive hOpposite]
        obtain ⟨n, hText, hValue⟩ := exists_lexeme_of_positive hOpposite p
        refine ⟨n, ?_, ?_⟩
        · rw [if_pos (Double.lt_zero_of_negative hFinite), text_of_negative hFinite, hText]
        · rwa [hAbs]

end

/--
The text of a finite double is read as one number, behind a negation if the double is negative, and
with seventeen digits or more this number is the size of the double.
-/
theorem tokenize_formatNumber {p : ℕ} {v : Float} (hV : v.isFinite = true)
    (hHigh : p ≤ maxPrecision) :
    ∃ (text : String) (n : NumberLexeme), formatNumber p v = .ok text ∧
      text.toList = (if v < 0 then '-' :: n.text else n.text) ∧
      tokenize text = .ok (if v < 0 then [.func .neg, .number n.value] else [.number n.value]) ∧
      (17 ≤ p → n.value = v.abs) := by
  obtain ⟨n, hText, hValue⟩ := exists_lexeme hV p
  refine ⟨_, n, formatNumber_eq_ok hHigh v, ?_, ?_, hValue⟩
  · rw [String.toList_ofList, hText]
  · rw [hText, tokenize_text]

/-- The negative of the smallest double goes through seventeen digits and comes back. -/
theorem tokenize_smallest :
    ∃ n : NumberLexeme, "-4.9406564584124654e-324".toList = '-' :: n.text ∧
      tokenize "-4.9406564584124654e-324" = .ok [.func .neg, .number n.value] ∧
      n.value = 5e-324 := by
  have hText : formatNumber 17 (-5e-324) = .ok "-4.9406564584124654e-324" := by decide +kernel
  have hNegative : (-5e-324 : Float) < 0 := by decide +kernel
  obtain ⟨text, n, hFormat, hSpelled, hTokens, hValue⟩ :=
    tokenize_formatNumber (p := 17) (v := -5e-324) (by decide +kernel) (by decide)
  obtain rfl := Except.ok.inj (hText.symm.trans hFormat)
  rw [if_pos hNegative] at hSpelled hTokens
  exact ⟨n, hSpelled, hTokens, (hValue (Nat.le_refl 17)).trans (by decide +kernel)⟩

/-- Nothing is read with more digits than the greatest precision, since nothing is written. -/
theorem formatNumber_neg_three_error :
    (-3 : Float).isFinite = true ∧ 1 ≤ 2147483648 ∧
      formatNumber 2147483648 (-3) = .error .precisionTooBig ∧
      ¬ ∃ (text : String) (n : NumberLexeme), formatNumber 2147483648 (-3) = .ok text ∧
        tokenize text = .ok [.func .neg, .number n.value] := by
  have hError : formatNumber 2147483648 (-3) = .error .precisionTooBig := rfl
  refine ⟨by decide +kernel, by decide, hError, ?_⟩
  rintro ⟨text, n, hFormat, -⟩
  exact formatNumber_ne_ok (by decide) hFormat

end DerivCalc.Engine
