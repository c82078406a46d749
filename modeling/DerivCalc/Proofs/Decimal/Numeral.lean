import DerivCalc.Decimal.Numeral
import DerivCalc.Text.Digit
import Mathlib.Data.List.TakeWhile
import Mathlib.Data.Rat.Cast.Order
import Mathlib.Tactic.FieldSimp
import Mathlib.Tactic.Ring

/-!
# The value of a written numeral

A numeral is written as a `Literal`: digits, a fraction and an exponent, the last two
of which may be missing.  Whichever layout is chosen, the literal has the value of the
numeral.
-/

namespace DerivCalc.Decimal

open Text (digitsValue isAsciiDigit)

/-! ## Runs of digits -/

theorem digitsValue_append (l m : List Char) :
    digitsValue (l ++ m) = digitsValue l * 10 ^ m.length + digitsValue m := by
  unfold digitsValue
  rw [Nat.ofDigitChars_append, Nat.ofDigitChars_eq_ofDigitChars_zero, Nat.mul_comm]

@[simp] theorem digitsValue_replicate (n : ℕ) : digitsValue (List.replicate n '0') = 0 := by
  unfold digitsValue
  rw [Nat.ofDigitChars_replicate_zero, Nat.mul_zero]

@[simp] theorem digitsValue_toDigits (n : ℕ) : digitsValue (Nat.toDigits 10 n) = n :=
  Nat.ofDigitChars_ten_toDigits

theorem digitsValue_cons (c : Char) (digits : List Char) :
    digitsValue (c :: digits) = digitsValue [c] * 10 ^ digits.length + digitsValue digits :=
  digitsValue_append [c] digits

theorem digitsValue_cons_zero (l : List Char) : digitsValue ('0' :: l) = digitsValue l := by
  rw [digitsValue_cons, show digitsValue ['0'] = 0 by rfl, Nat.zero_mul, Nat.zero_add]

/-- The value of so many digits is less than the power of ten with as many zeros. -/
theorem digitsValue_lt {digits : List Char} (h : ∀ c ∈ digits, isAsciiDigit c = true) :
    digitsValue digits < 10 ^ digits.length := by
  induction digits with
  | nil => decide
  | cons c digits ih =>
      obtain ⟨hFirst, hRest⟩ := List.forall_mem_cons.1 h
      have hDigit : digitsValue [c] + 1 ≤ 10 := by
        simp only [isAsciiDigit, Bool.and_eq_true, decide_eq_true_eq] at hFirst
        have hNine : c.toNat ≤ '9'.toNat := hFirst.2
        show 10 * 0 + (c.toNat - '0'.toNat) + 1 ≤ 10
        simp only [Char.reduceToNat] at hNine ⊢
        omega
      rw [digitsValue_cons]
      calc digitsValue [c] * 10 ^ digits.length + digitsValue digits
          < digitsValue [c] * 10 ^ digits.length + 10 ^ digits.length :=
            Nat.add_lt_add_left (ih hRest) _
        _ = (digitsValue [c] + 1) * 10 ^ digits.length := by ring
        _ ≤ 10 * 10 ^ digits.length := Nat.mul_le_mul_right _ hDigit
        _ = 10 ^ (c :: digits).length := by rw [List.length_cons, pow_succ']

/-- Digits that do not start with a zero have at least the value of a one with zeros after it. -/
theorem le_digitsValue {c : Char} (digits : List Char) (hDigit : isAsciiDigit c = true)
    (hZero : c ≠ '0') : 10 ^ digits.length ≤ digitsValue (c :: digits) := by
  have hFirst : 1 ≤ digitsValue [c] := by
    simp only [isAsciiDigit, Bool.and_eq_true, decide_eq_true_eq] at hDigit
    have hLow : '0'.toNat ≤ c.toNat := hDigit.1
    have hNe : c.toNat ≠ '0'.toNat := fun hEq => hZero (Char.toNat_inj.1 hEq)
    show 1 ≤ 10 * 0 + (c.toNat - '0'.toNat)
    omega
  rw [digitsValue_cons]
  calc 10 ^ digits.length ≤ digitsValue [c] * 10 ^ digits.length :=
        Nat.le_mul_of_pos_left _ hFirst
    _ ≤ _ := Nat.le_add_right _ _

theorem isAsciiDigit_of_mem_toDigits {c : Char} {n : ℕ} (h : c ∈ Nat.toDigits 10 n) :
    isAsciiDigit c = true := by
  have hDigit : c.isDigit = true := Nat.isDigit_of_mem_toDigits (by decide) (by decide) h
  simp only [Char.isDigit, ge_iff_le, Bool.and_eq_true, decide_eq_true_eq] at hDigit
  simp only [isAsciiDigit, Bool.and_eq_true, decide_eq_true_eq]
  exact hDigit

/-- The digits of a positive number do not start with a zero. -/
theorem head_toDigits_ne_zero {n : ℕ} (h : 0 < n) : (Nat.toDigits 10 n).head? ≠ some '0' := by
  induction n using Nat.strong_induction_on with
  | _ n ih =>
      rw [Nat.toDigits_eq_if (by decide)]
      split
      · rename_i hSmall
        have hDigit : ∀ d < 10, 0 < d → d.digitChar ≠ '0' := by decide
        simpa using hDigit n hSmall h
      · have hHead := ih (n / 10) (by omega) (by omega)
        rwa [List.head?_append_of_ne_nil _ Nat.toDigits_ne_nil]

namespace Numeral

/-- The number that a numeral stands for. -/
def value (n : Numeral) : ℚ :=
  digitsValue n.digits * 10 ^ (n.exponent + 1 - n.digits.length)

/-- There are digits, and they are digits `0` to `9`. -/
structure Valid (n : Numeral) : Prop where
  ne_nil : n.digits ≠ []
  digits : ∀ c ∈ n.digits, isAsciiDigit c = true

/-- What is dropped at the end of a run of digits are zeros. -/
theorem eq_dropTrailingZeros_append (digits : List Char) :
    ∃ k, digits = dropTrailingZeros digits ++ List.replicate k '0' := by
  refine ⟨(digits.reverse.takeWhile (· == '0')).length, ?_⟩
  have hZeros : digits.reverse.takeWhile (· == '0') =
      List.replicate (digits.reverse.takeWhile (· == '0')).length '0' := by
    apply List.eq_replicate_of_mem
    intro c hMem
    have hZero := List.mem_takeWhile_imp (p := fun d => d == '0') hMem
    exact eq_of_beq hZero
  have hSplit : digits.reverse.takeWhile (· == '0') ++ digits.reverse.dropWhile (· == '0') =
      digits.reverse := List.takeWhile_append_dropWhile
  have hReverse := congrArg List.reverse hSplit
  rw [List.reverse_append, List.reverse_reverse, hZeros, List.reverse_replicate] at hReverse
  exact hReverse.symm

/-- The digits of an integer without zeros at the end have the integer's value. -/
theorem value_ofUnits (units : ℕ) (places : ℤ) :
    (ofUnits units places).value = units * 10 ^ (-places) := by
  obtain ⟨k, hSplit⟩ := eq_dropTrailingZeros_append (Nat.toDigits 10 units)
  have hUnits := congrArg digitsValue hSplit
  have hLength := congrArg List.length hSplit
  rw [digitsValue_toDigits, digitsValue_append, digitsValue_replicate, Nat.add_zero,
    List.length_replicate] at hUnits
  rw [List.length_append, List.length_replicate] at hLength
  unfold value ofUnits
  simp only
  generalize dropTrailingZeros (Nat.toDigits 10 units) = kept at hUnits hLength ⊢
  have hExponent : ((Nat.toDigits 10 units).length : ℤ) - 1 - places + 1 - kept.length =
      k + -places := by
    rw [hLength]
    push_cast
    omega
  rw [hExponent, zpow_add₀ (by norm_num), zpow_natCast, ← mul_assoc]
  congr 1
  exact_mod_cast hUnits.symm

theorem valid_ofUnits {units : ℕ} (h : 0 < units) (places : ℤ) : (ofUnits units places).Valid := by
  obtain ⟨k, hSplit⟩ := eq_dropTrailingZeros_append (Nat.toDigits 10 units)
  constructor
  · intro hNil
    have hUnits := congrArg digitsValue hSplit
    have hDropped : dropTrailingZeros (Nat.toDigits 10 units) = [] := hNil
    rw [hDropped, List.nil_append, digitsValue_toDigits, digitsValue_replicate] at hUnits
    omega
  · intro c hMem
    apply isAsciiDigit_of_mem_toDigits (n := units)
    rw [hSplit]
    exact List.mem_append_left _ hMem

theorem head_ofUnits_ne_zero {units : ℕ} (h : 0 < units) (places : ℤ) :
    (ofUnits units places).digits.head? ≠ some '0' := by
  obtain ⟨k, hSplit⟩ := eq_dropTrailingZeros_append (Nat.toDigits 10 units)
  have hHead := head_toDigits_ne_zero h
  have hNe : dropTrailingZeros (Nat.toDigits 10 units) ≠ [] := (valid_ofUnits h places).ne_nil
  rw [hSplit, List.head?_append_of_ne_nil _ hNe] at hHead
  exact hHead

end Numeral

/-! ## Literals -/

/-- A written number; without fractional digits there is no point. -/
structure Literal where
  whole : List Char
  fraction : List Char
  exponent : Option ℤ

namespace Literal

/-- The number that is written. -/
def value (l : Literal) : ℚ :=
  digitsValue (l.whole ++ l.fraction) * 10 ^ (l.exponent.getD 0 - l.fraction.length)

/-- How the exponent is written. -/
def exponentText (l : Literal) : List Char :=
  match l.exponent with
  | none => []
  | some exponent => Numeral.exponentText exponent

/-- How the number is written. -/
def text (l : Literal) : List Char :=
  l.whole ++ (if l.fraction.isEmpty then [] else '.' :: l.fraction) ++ l.exponentText

/-- The whole part is not empty, and all digits are digits `0` to `9`. -/
structure Valid (l : Literal) : Prop where
  ne_nil : l.whole ≠ []
  whole : ∀ c ∈ l.whole, isAsciiDigit c = true
  fraction : ∀ c ∈ l.fraction, isAsciiDigit c = true

/-- A literal starts with a digit. -/
theorem Valid.exists_text_eq {l : Literal} (h : l.Valid) :
    ∃ c tail, l.text = c :: tail ∧ isAsciiDigit c = true := by
  cases hWhole : l.whole with
  | nil => exact absurd hWhole h.ne_nil
  | cons c tail =>
      refine ⟨c, tail ++ (if l.fraction.isEmpty then [] else '.' :: l.fraction) ++
        l.exponentText, ?_, ?_⟩
      · rw [text, hWhole, List.cons_append, List.cons_append]
      · apply h.whole
        rw [hWhole]
        exact List.mem_cons_self

theorem Valid.text_ne_minus {l : Literal} (h : l.Valid) (tail : List Char) :
    l.text ≠ '-' :: tail := by
  obtain ⟨c, rest, hFirst, hDigit⟩ := h.exists_text_eq
  intro hText
  rw [hFirst] at hText
  rw [(List.cons.inj hText).1] at hDigit
  exact absurd hDigit (by decide)

/-- The literal of zero. -/
def zero : Literal := ⟨['0'], [], none⟩

theorem text_zero : zero.text = ['0'] := rfl

theorem value_zero : zero.value = 0 := by
  show ((digitsValue ['0'] : ℕ) : ℚ) * _ = 0
  rw [show digitsValue ['0'] = 0 by rfl, Nat.cast_zero, zero_mul]

theorem valid_zero : zero.Valid := by
  constructor <;> simp [zero, isAsciiDigit]

end Literal

/-- What follows a number without fractional digits is nothing or a point and a zero. -/
def Layout.Plain (l : Layout) : Prop := l.closing = [] ∨ l.closing = ['.', '0']

/-- The parts of a numeral as a layout writes it. -/
def Layout.literal (l : Layout) (n : Numeral) : Literal :=
  if n.exponent < -4 || l.positionalBelow ≤ n.exponent then
    ⟨n.digits.take 1, n.digits.drop 1, some n.exponent⟩
  else if n.exponent < 0 then
    ⟨['0'], List.replicate (-n.exponent - 1).toNat '0' ++ n.digits, none⟩
  else
    let whole := n.exponent.toNat + 1
    let fraction := n.digits.drop whole
    ⟨n.digits.take whole ++ List.replicate (whole - n.digits.length) '0',
      if fraction.isEmpty then l.closing.drop 1 else fraction, none⟩

section

variable {l : Layout} {n : Numeral}

theorem Layout.text_literal (hPlain : l.Plain) (hValid : n.Valid) :
    (l.literal n).text = l.render n := by
  unfold Layout.literal Layout.render
  split
  · unfold Literal.text Literal.exponentText Numeral.scientific
    cases hDigits : n.digits with
    | nil => exact absurd hDigits hValid.ne_nil
    | cons d ds =>
        cases ds with
        | nil => rfl
        | cons d' ds => simp
  · unfold Literal.text Literal.exponentText Numeral.positional
    split
    · have hNe : (List.replicate (-n.exponent - 1).toNat '0' ++ n.digits).isEmpty = false := by
        rw [List.isEmpty_eq_false_iff]
        intro hNil
        exact hValid.ne_nil (List.append_eq_nil_iff.1 hNil).2
      simp only [hNe]
      simp
    · simp only
      cases hFraction : (n.digits.drop (n.exponent.toNat + 1)).isEmpty with
      | false => simp [hFraction]
      | true =>
          rcases hPlain with hClosing | hClosing
          · simp [hClosing]
          · simp [hClosing]

theorem Layout.valid_literal (hPlain : l.Plain) (hValid : n.Valid) : (l.literal n).Valid := by
  have hZero : isAsciiDigit '0' = true := by decide
  obtain ⟨hNe, hAll⟩ := hValid
  unfold Layout.literal
  split
  · refine ⟨?_, ?_, ?_⟩
    · simp [hNe]
    · intro c hMem
      exact hAll c (List.mem_of_mem_take hMem)
    · intro c hMem
      exact hAll c (List.mem_of_mem_drop hMem)
  · split
    · refine ⟨by simp, ?_, ?_⟩
      · intro c hMem
        rw [List.mem_singleton.1 hMem]
        exact hZero
      · intro c hMem
        rcases List.mem_append.1 hMem with hMem | hMem
        · rw [List.eq_of_mem_replicate hMem]
          exact hZero
        · exact hAll c hMem
    · refine ⟨?_, ?_, ?_⟩
      · simp [hNe]
      · intro c hMem
        rcases List.mem_append.1 hMem with hMem | hMem
        · exact hAll c (List.mem_of_mem_take hMem)
        · rw [List.eq_of_mem_replicate hMem]
          exact hZero
      · intro c hMem
        simp only at hMem
        split at hMem
        · rcases hPlain with hClosing | hClosing
          · simp [hClosing] at hMem
          · simp only [hClosing, List.drop_succ_cons, List.drop_zero, List.mem_singleton] at hMem
            rw [hMem]
            exact hZero
        · exact hAll c (List.mem_of_mem_drop hMem)

/-- Zeros at the end of a run of digits are made up for by the exponent. -/
theorem digitsValue_mul_zpow (digits : List Char) (k : ℕ) (e : ℤ) :
    (digitsValue (digits ++ List.replicate k '0') : ℚ) * 10 ^ e =
      digitsValue digits * 10 ^ (e + k) := by
  rw [digitsValue_append, digitsValue_replicate, Nat.add_zero, List.length_replicate,
    zpow_add₀ (by norm_num), zpow_natCast]
  push_cast
  ring

/-- The written number is the numeral's. -/
theorem Layout.value_literal (hPlain : l.Plain) (hValid : n.Valid) :
    (l.literal n).value = n.value := by
  have hLength : 0 < n.digits.length := List.length_pos_iff.2 hValid.ne_nil
  unfold Layout.literal Literal.value Numeral.value
  split
  · -- one digit before the point
    simp only [List.take_append_drop, Option.getD_some, List.length_drop]
    congr 2
    omega
  · split
    · -- zeros after the point
      simp only [List.singleton_append, digitsValue_cons_zero, digitsValue_append,
        digitsValue_replicate, Nat.zero_mul, Nat.zero_add, Option.getD_none,
        List.length_append, List.length_replicate]
      congr 2
      push_cast
      omega
    · simp only [Option.getD_none]
      by_cases hShort : n.digits.length ≤ n.exponent.toNat + 1
      · -- zeros before the point
        rw [List.take_of_length_le hShort, List.drop_of_length_le hShort]
        rcases hPlain with hClosing | hClosing
        · simp only [hClosing, List.isEmpty_nil, if_true, List.drop_nil, List.append_nil,
            List.length_nil]
          rw [digitsValue_mul_zpow]
          congr 2
          omega
        · simp only [hClosing, List.isEmpty_nil, if_true, List.drop_succ_cons, List.drop_zero,
            List.length_singleton]
          rw [show ['0'] = List.replicate 1 '0' by rfl, digitsValue_mul_zpow,
            digitsValue_mul_zpow]
          congr 2
          omega
      · -- the point among the digits
        have hNe : (n.digits.drop (n.exponent.toNat + 1)).isEmpty = false := by
          rw [List.isEmpty_eq_false_iff]
          intro hNil
          have hNone := List.drop_eq_nil_iff.1 hNil
          omega
        have hNoZeros : n.exponent.toNat + 1 - n.digits.length = 0 := by omega
        rw [hNe, hNoZeros]
        simp only [Bool.false_eq_true, if_false, List.replicate_zero, List.append_nil,
          List.take_append_drop, List.length_drop]
        congr 2
        omega

end

end DerivCalc.Decimal
