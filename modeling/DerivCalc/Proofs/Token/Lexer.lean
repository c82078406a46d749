import DerivCalc.Proofs.Token.Number

/-!
# Reading one token after the other

`scan` reads a token and goes on with the rest.  The lemmas here say which token comes
next after each kind of text that a printed expression is made of.
-/

namespace DerivCalc.Token.Lexer

/-! ## Steps of a scan -/

theorem scan_of_token {text rest : List Char} {t : Token} (h : next text = .token t rest) :
    scan text = (scan rest).map (t :: ·) := by
  rw [scan]
  split
  · rename_i hStep
    rw [h] at hStep
    exact absurd hStep (by simp)
  · rename_i t' rest' hStep
    rw [h] at hStep
    injection hStep with hT hRest
    rw [hT, hRest]
  · rename_i hStep
    rw [h] at hStep
    exact absurd hStep (by simp)

theorem scan_of_finished {text : List Char} (h : next text = .finished) : scan text = .ok [] := by
  rw [scan]
  split
  · rfl
  · rename_i hStep
    rw [h] at hStep
    exact absurd hStep (by simp)
  · rename_i hStep
    rw [h] at hStep
    exact absurd hStep (by simp)

theorem scan_of_invalid {text fragment rest : List Char} (h : next text = .invalid fragment rest) :
    scan text = .error fragment := by
  rw [scan]
  split
  · rename_i hStep
    rw [h] at hStep
    exact absurd hStep (by simp)
  · rename_i hStep
    rw [h] at hStep
    exact absurd hStep (by simp)
  · rename_i fragment' rest' hStep
    rw [h] at hStep
    injection hStep with hFragment
    rw [hFragment]

theorem scan_nil : scan [] = .ok [] := scan_of_finished rfl

/-- All characters are blanks. -/
def Blanks (gap : List Char) : Prop := ∀ c ∈ gap, Text.isBlank c = true

theorem next_blanks {gap : List Char} (h : Blanks gap) (text : List Char) :
    next (gap ++ text) = next text := by
  unfold next Text.stripLeft
  rw [List.dropWhile_append_of_pos h]

/-- Blanks before a token are skipped. -/
theorem scan_blanks {gap : List Char} (h : Blanks gap) (text : List Char) :
    scan (gap ++ text) = scan text := by
  have hNext := next_blanks h text
  cases hStep : next text with
  | finished => rw [scan_of_finished (hNext.trans hStep), scan_of_finished hStep]
  | token t rest => rw [scan_of_token (hNext.trans hStep), scan_of_token hStep]
  | invalid fragment rest =>
      rw [scan_of_invalid (hNext.trans hStep), scan_of_invalid hStep]

theorem scan_blank (rest : List Char) : scan (' ' :: rest) = scan rest := by
  have hBlank : Blanks [' '] := by simp [Blanks, Text.isBlank]
  exact scan_blanks hBlank rest

/-! ## The next token -/

section

variable {rest : List Char}

theorem next_var (hRest : Closes rest) : next ('x' :: rest) = .token .var rest := by
  cases rest with
  | nil => rfl
  | cons c rest =>
      rcases hRest c rfl with hBlank | hBracket
      · subst hBlank
        rfl
      · subst hBracket
        rfl

theorem next_openBracket (rest : List Char) : next ('(' :: rest) = .token .openBracket rest := rfl

theorem next_closeBracket (rest : List Char) :
    next (')' :: rest) = .token .closeBracket rest := rfl

theorem next_operator (op : Operator) (rest : List Char) :
    next (op.symbol :: rest) = .token (.op op) rest := by
  cases op <;> rfl

/-- A function name is read up to the bracket that follows it. -/
theorem next_func {f : Func} (h : f ≠ .neg) (rest : List Char) :
    next (f.name.toList ++ '(' :: rest) = .token (.func f) ('(' :: rest) := by
  cases f with
  | neg => exact absurd rfl h
  | _ => rfl

theorem toNat_of_isAsciiDigit {c : Char} (h : Text.isAsciiDigit c = true) :
    48 ≤ c.toNat ∧ c.toNat ≤ 57 := by
  simp only [Text.isAsciiDigit, Bool.and_eq_true, decide_eq_true_eq, Char.le_def,
    UInt32.le_iff_toNat_le] at h
  exact h

theorem isBlank_of_isAsciiDigit {c : Char} (h : Text.isAsciiDigit c = true) :
    Text.isBlank c = false := by
  have hRange := toNat_of_isAsciiDigit h
  simp only [Text.isBlank, Bool.or_eq_false_iff, Bool.and_eq_false_iff, beq_eq_false_iff_ne,
    decide_eq_false_iff_not]
  omega

theorem next_digit {c : Char} {tail : List Char} (h : Text.isAsciiDigit c = true) :
    next (c :: tail) =
      .token (.number (splitNumber (c :: tail)).1) (splitNumber (c :: tail)).2 := by
  have hBlank := isBlank_of_isAsciiDigit h
  unfold next Text.stripLeft
  rw [List.dropWhile_cons, if_neg (by rw [hBlank]; decide)]
  show nextAt c tail = _
  unfold nextAt
  rw [if_pos h]

/-- A text that is split into a number and a rest starts with the token of that number. -/
theorem scan_of_splitNumber {text : List Char} {v : Float} (hSplit : splitNumber text = (v, rest))
    (hHead : ∃ c tail, text = c :: tail ∧ Text.isAsciiDigit c = true) :
    scan text = (scan rest).map (.number v :: ·) := by
  obtain ⟨c, tail, hText, hDigit⟩ := hHead
  have hNext : next (c :: tail) = .token (.number (splitNumber (c :: tail)).1)
      (splitNumber (c :: tail)).2 := next_digit hDigit
  rw [← hText, hSplit] at hNext
  exact scan_of_token hNext

/-- The text of a positive number is one token, of the number that it is read as. -/
theorem scan_positive {v : Float} {m : ℕ} {q : ℤ} {hPos : 0 < m}
    (hV : v.toModel.unpack = .finite .positive m q hPos) (p : ℕ) (hRest : Closes rest) :
    scan (Decimal.Significant.text v p ++ rest) = (scan rest).map
      (.number (splitNumber (Decimal.Significant.text v p ++ rest)).1 :: ·) := by
  obtain ⟨w, hSplit, hHead⟩ := exists_splitNumber hV p hRest
  rw [hSplit]
  exact scan_of_splitNumber hSplit hHead

/-- The text of a negative number is a minus and the text of its opposite. -/
theorem scan_opposite {v : Float} {m : ℕ} {q : ℤ} {hPos : 0 < m}
    (hV : v.toModel.unpack = .finite .negative m q hPos) (p : ℕ) (rest : List Char) :
    (-v).toModel.unpack = .finite .positive m q hPos ∧
      scan (Decimal.Significant.text v p ++ rest) =
        (scan (Decimal.Significant.text (-v) p ++ rest)).map (.op .sub :: ·) := by
  constructor
  · rw [Double.unpack_neg, hV]
    rfl
  · rw [text_of_negative hV, List.cons_append]
    exact scan_of_token (next_operator .sub _)

/-- The text of a number that is not negative is one token. -/
theorem scan_number {v : Float} {p : ℕ} (hFinite : v.isFinite = true) (hNe : v ≠ -0)
    (hLt : ¬ v < 0) (hP : 17 ≤ p) (hRest : Closes rest) :
    scan (Decimal.Significant.text v p ++ rest) = (scan rest).map (.number v :: ·) := by
  rcases Double.printable_cases hFinite hNe with hZero | ⟨m, q, hPos, hV⟩ | ⟨m, q, hPos, hV⟩
  · subst hZero
    obtain ⟨hSplit, hHead⟩ := splitNumber_zero p hRest
    exact scan_of_splitNumber hSplit hHead
  · rw [scan_positive hV p hRest, splitNumber_significant hV hP hRest]
  · exact absurd (Double.lt_zero_of_negative hV) hLt

/-- The text of a negative number is a minus and the number without its sign. -/
theorem scan_negative {v : Float} {p : ℕ} (hFinite : v.isFinite = true) (hNe : v ≠ -0)
    (hLt : v < 0) (hP : 17 ≤ p) (hRest : Closes rest) :
    scan (Decimal.Significant.text v p ++ rest) =
      (scan rest).map ([.op .sub, .number (-v)] ++ ·) := by
  rcases Double.printable_cases hFinite hNe with hZero | ⟨m, q, hPos, hV⟩ | ⟨m, q, hPos, hV⟩
  · subst hZero
    exact absurd hLt (by decide)
  · exact absurd hLt (Double.not_lt_zero_of_positive hV)
  · obtain ⟨hOpposite, hScan⟩ := scan_opposite hV p rest
    rw [hScan, scan_positive hOpposite p hRest, splitNumber_significant hOpposite hP hRest]
    cases scan rest <;> rfl

/-- With any count of digits a finite number is read as some number, behind its minus sign. -/
theorem exists_scan_text {v : Float} (hFinite : v.isFinite = true) (p : ℕ) (hRest : Closes rest) :
    ∃ w, scan (Decimal.Significant.text v p ++ rest) = (scan rest).map
      ((if v < 0 then [.op .sub, .number w] else [.number w]) ++ ·) := by
  by_cases hNe : v ≠ -0
  · rcases Double.printable_cases hFinite hNe with hZero | ⟨m, q, hPos, hV⟩ | ⟨m, q, hPos, hV⟩
    · subst hZero
      obtain ⟨hSplit, hHead⟩ := splitNumber_zero p hRest
      exact ⟨0, scan_of_splitNumber hSplit hHead⟩
    · refine ⟨(splitNumber (Decimal.Significant.text v p ++ rest)).1, ?_⟩
      rw [if_neg (Double.not_lt_zero_of_positive hV)]
      exact scan_positive hV p hRest
    · obtain ⟨hOpposite, hScan⟩ := scan_opposite hV p rest
      refine ⟨(splitNumber (Decimal.Significant.text (-v) p ++ rest)).1, ?_⟩
      rw [if_pos (Double.lt_zero_of_negative hV), hScan, scan_positive hOpposite p hRest]
      cases scan rest <;> rfl
  · -- both zeros are written without a sign
    obtain rfl := not_not.1 hNe
    obtain ⟨hSplit, hHead⟩ := splitNumber_zero p hRest
    exact ⟨0, scan_of_splitNumber hSplit hHead⟩

end

end DerivCalc.Token.Lexer
