import DerivCalc.Proofs.Engine.RoundTrip
import DerivCalc.Proofs.Token.Layout

/-!
# The token lists that a text can have

A text has no numbers with a sign, and it has one character for both minus signs.  So its tokens
have numbers without a sign only, and which minus sign is meant must be plain from its place.
`tokens_of_some_text` says that this is all there is to it: every such list is the list of a text.

The text is the tokens one after the other with blanks between them, whatever their order.  A
blank ends every lexeme, so each is read by itself, and `resolveMinus` finds the negations again.
-/

namespace DerivCalc.Double

open Decimal.Binary
open Float.Model (UnpackedFloat)

/-! ## Numbers without a sign -/

/-- The number is not negative: neither below zero, nor the negative zero, nor NaN. -/
def Unsigned (v : Float) : Prop := 0 ≤ v ∧ v ≠ -0

theorem unsigned_of_unpack {v : Float}
    (h : v.toModel.unpack = .infinity .positive ∨ v.toModel.unpack = .zero .positive ∨
      ∃ m q, ∃ hPos : 0 < m, v.toModel.unpack = .finite .positive m q hPos) : Unsigned v := by
  constructor
  · rw [le_iff, unpack_zero]
    rcases h with hV | hV | ⟨m, q, hPos, hV⟩ <;> rw [hV] <;> rfl
  · rintro rfl
    have hZero : (-0 : Float).toModel.unpack = .zero .negative := rfl
    rw [hZero] at h
    simp at h

/-- A double of a word without the sign bit is no negative number, unless it is a NaN. -/
theorem unsigned_ofSignBits {bits : ℕ} (h : bits ≤ infinityBits) :
    Unsigned (ofSignBits false bits) := by
  have hInfinity : infinityBits = 2047 * 2 ^ 52 := rfl
  have hWord : word (ofSignBits false bits) = bits := by
    rw [word_ofSignBits false h]
    exact Nat.zero_add bits
  have hSign : sign (ofSignBits false bits) = .positive := by
    unfold sign
    rw [if_neg]
    rw [isNegative_iff, hWord]
    omega
  have hUnpack := unpack_eq (ofSignBits false bits)
  rw [hSign, exponentField_eq, fractionField_eq, hWord] at hUnpack
  apply unsigned_of_unpack
  split at hUnpack
  · -- the greatest word with the greatest exponent is that of infinity
    rw [if_pos (by omega)] at hUnpack
    exact Or.inl hUnpack
  · split at hUnpack
    · exact Or.inr (Or.inl hUnpack)
    · exact Or.inr (Or.inr ⟨_, _, _, hUnpack⟩)

/-- Digits without a sign stand for a number without a sign. -/
theorem unsigned_ofDecimal (digits : ℕ) (exponent : ℤ) :
    Unsigned (ofDecimal false digits exponent) := by
  unfold ofDecimal
  split
  · exact unsigned_ofSignBits (Nat.zero_le _)
  · split
    · exact unsigned_ofSignBits (Nat.le_refl _)
    · split
      · exact unsigned_ofSignBits (Nat.zero_le _)
      · apply unsigned_ofSignBits
        unfold nearestBits
        split
        · exact Nat.zero_le _
        · exact Nat.min_le_right _ _

/-- The only number without a sign that is not finite is infinity. -/
theorem Unsigned.eq_infinity {v : Float} (h : Unsigned v) (hFinite : v.isFinite = false) :
    v = infinity false := by
  have hLe := (le_iff 0 v).1 h.1
  rcases unpack_cases v with hV | ⟨s, hV⟩ | ⟨s, hV⟩ | ⟨s, m, q, hC, hV⟩
  · rw [hV, unpack_zero] at hLe
    exact absurd hLe (by decide)
  · rw [hV, unpack_zero] at hLe
    cases s with
    | positive => exact unpack_injective hV
    | negative => exact absurd hLe (by decide)
  · have hIs := (isFinite_iff v).2 (Or.inl ⟨s, hV⟩)
    exact absurd (hFinite.symm.trans hIs) (by decide)
  · have hIs := (isFinite_iff v).2 (Or.inr ⟨s, m, q, hC, hV⟩)
    exact absurd (hFinite.symm.trans hIs) (by decide)

end DerivCalc.Double

namespace DerivCalc.Token.Lexer

open Double (Unsigned)
open Text (isAsciiDigit)

/-! ## Where the two minus signs may stand -/

/-- Nothing stands before, or an opening bracket: a minus sign here has no left operand. -/
def Opens (before : List Token) : Prop := before = [] ∨ before.getLast? = some .openBracket

/-- Numbers have no sign, and which minus sign is which can be told by its place. -/
structure WellPlaced (tokens : List Token) : Prop where
  unsigned : ∀ v, .number v ∈ tokens → Unsigned v
  neg : ∀ before after, tokens = before ++ .func .neg :: after → Opens before
  sub : ∀ before after, tokens = before ++ .op .sub :: after → ¬ Opens before

/-- The minus signs after such a place are where they may stand. -/
def Placed (opening : Bool) : List Token → Prop
  | [] => True
  | t :: rest => (t = .func .neg → opening = true) ∧ (t = .op .sub → opening = false) ∧
      Placed (t = .openBracket) rest

/-- The place behind these tokens, if they start at such a place. -/
def opensAfter (opening : Bool) (before : List Token) : Bool :=
  before.getLast?.elim opening fun t => decide (t = .openBracket)

theorem opensAfter_cons (opening : Bool) (t : Token) (before : List Token) :
    opensAfter opening (t :: before) = opensAfter (t = .openBracket) before := by
  unfold opensAfter
  cases before with
  | nil => rfl
  | cons u before => rw [List.getLast?_cons_cons]; simp [List.getLast?_cons]

theorem opens_iff {before : List Token} : Opens before ↔ opensAfter true before = true := by
  unfold Opens opensAfter
  cases hLast : before.getLast? with
  | none => simp [List.getLast?_eq_none_iff.1 hLast]
  | some t =>
      have hNe : before ≠ [] := by
        rintro rfl
        exact absurd hLast (by simp)
      simp [hNe]

theorem placed_iff {tokens : List Token} : ∀ {opening : Bool}, Placed opening tokens ↔
    ∀ before t after, tokens = before ++ t :: after →
      (t = .func .neg → opensAfter opening before = true) ∧
        (t = .op .sub → opensAfter opening before = false) := by
  induction tokens with
  | nil => simp [Placed]
  | cons u rest ih =>
      intro opening
      constructor
      · rintro ⟨hNeg, hSub, hRest⟩ before t after hTokens
        cases before with
        | nil =>
            obtain ⟨rfl, -⟩ := List.cons.inj hTokens
            exact ⟨hNeg, hSub⟩
        | cons b before =>
            obtain ⟨rfl, rfl⟩ := List.cons.inj hTokens
            rw [opensAfter_cons]
            exact ih.1 hRest before t after rfl
      · intro h
        obtain ⟨hNeg, hSub⟩ := h [] u rest rfl
        refine ⟨hNeg, hSub, ih.2 fun before t after hRest => ?_⟩
        rw [← opensAfter_cons opening]
        exact h (u :: before) t after (by rw [hRest, List.cons_append])

theorem wellPlaced_iff {tokens : List Token} : WellPlaced tokens ↔
    (∀ v, .number v ∈ tokens → Unsigned v) ∧ Placed true tokens := by
  constructor
  · rintro ⟨hUnsigned, hNeg, hSub⟩
    refine ⟨hUnsigned, placed_iff.2 fun before t after hTokens => ⟨?_, ?_⟩⟩
    · rintro rfl
      exact opens_iff.1 (hNeg before after hTokens)
    · rintro rfl
      exact Bool.eq_false_iff.2 (mt opens_iff.2 (hSub before after hTokens))
  · rintro ⟨hUnsigned, hPlaced⟩
    refine ⟨hUnsigned, fun before after hTokens => ?_, fun before after hTokens hOpens => ?_⟩
    · exact opens_iff.2 ((placed_iff.1 hPlaced before _ after hTokens).1 rfl)
    · have hNot := (placed_iff.1 hPlaced before _ after hTokens).2 rfl
      exact absurd (hNot.symm.trans (opens_iff.1 hOpens)) (by decide)

/-! ## One character for both minus signs -/

/-- What a lexeme stands for before minus signs are resolved. -/
def Written : Token → Prop
  | .number v => Unsigned v
  | .func f => f ≠ .neg
  | _ => True

theorem Lexeme.written {lexeme rest : List Char} {t : Token} (h : Lexeme lexeme t rest) :
    Written t := by
  cases h with
  | number n hLongest => exact Double.unsigned_ofDecimal _ _
  | func hNamed hEnd => exact hNamed
  | _ => trivial

theorem Covers.written {text : List Char} {list : List Step} (h : Covers text list)
    {tokens : List Token} (hOk : outcome list = .ok tokens) : ∀ t ∈ tokens, Written t := by
  induction h generalizing tokens with
  | finished =>
      obtain rfl := Except.ok.inj hOk
      simp
  | invalid => exact absurd hOk (by simp [outcome])
  | @token gap lexeme rest t list hGap hLexeme _ ih =>
      obtain ⟨others, hOthers, rfl⟩ := Result.map_eq_ok_iff.1 hOk
      intro u hMem
      rcases List.mem_cons.1 hMem with rfl | hMem
      · exact hLexeme.written
      · exact ih hOthers u hMem

/-- A token as a lexeme stands for it. -/
def unresolved : Token → Token
  | .func .neg => .op .sub
  | t => t

theorem unresolved_of_ne {t : Token} (h : t ≠ .func .neg) : unresolved t = t := by
  unfold unresolved
  split
  · exact absurd rfl h
  · rfl

/-- The minus signs of a text are resolved to what their places tell. -/
theorem placed_resolveMinus {tokens : List Token} (h : ∀ t ∈ tokens, Written t) :
    ∀ opening, Placed opening (resolveMinus opening tokens) := by
  induction tokens with
  | nil => simp [resolveMinus, Placed]
  | cons t rest ih =>
      intro opening
      have hNamed : t ≠ .func .neg := by
        rintro rfl
        exact h _ List.mem_cons_self rfl
      have hRest := ih (fun u hMem => h u (List.mem_cons_of_mem t hMem)) (decide (t = .openBracket))
      rw [resolveMinus]
      by_cases hMinus : opening = true ∧ t = .op .sub
      · obtain ⟨rfl, rfl⟩ := hMinus
        exact ⟨fun _ => rfl, by simp, hRest⟩
      · rw [if_neg (by simpa using hMinus)]
        refine ⟨fun hNeg => absurd hNeg hNamed, fun hSub => ?_, hRest⟩
        exact Bool.eq_false_iff.2 fun hOpening => hMinus ⟨hOpening, hSub⟩

/-- Minus signs that stand where they may are found again. -/
theorem resolveMinus_unresolved {tokens : List Token} :
    ∀ {opening : Bool}, Placed opening tokens →
      resolveMinus opening (tokens.map unresolved) = tokens := by
  induction tokens with
  | nil => intro opening _; rfl
  | cons t rest ih =>
      rintro opening ⟨hNeg, hSub, hRest⟩
      rw [List.map_cons, resolveMinus]
      by_cases hNegation : t = .func .neg
      · subst hNegation
        obtain rfl := hNeg rfl
        exact congrArg (Token.func .neg :: ·) (ih hRest)
      · rw [unresolved_of_ne hNegation, ih hRest, if_neg]
        rw [Bool.and_eq_true, decide_eq_true_eq]
        rintro ⟨rfl, hMinus⟩
        exact absurd (hSub hMinus) (by decide)

theorem mem_of_mem_resolveMinus {v : Float} {tokens : List Token} :
    ∀ {opening : Bool}, .number v ∈ resolveMinus opening tokens → .number v ∈ tokens := by
  induction tokens with
  | nil => simp [resolveMinus]
  | cons t rest ih =>
      intro opening hMem
      rw [resolveMinus] at hMem
      rcases List.mem_cons.1 hMem with hHead | hMem
      · split at hHead
        · exact absurd hHead (by simp)
        · rw [hHead]
          exact List.mem_cons_self
      · exact List.mem_cons_of_mem t (ih hMem)

/-- The tokens of a text are well placed. -/
theorem wellPlaced_of_tokenize {text : String} {tokens : List Token}
    (h : Engine.tokenize text = .ok tokens) : WellPlaced tokens := by
  obtain ⟨list, hScan, rfl⟩ := tokenize_eq_ok_iff.1 h
  have hCovers := covers_steps text.toList
  have hWritten := hCovers.written (hCovers.scan_eq.symm.trans hScan)
  refine wellPlaced_iff.2 ⟨fun v hMem => ?_, placed_resolveMinus hWritten true⟩
  exact hWritten _ (mem_of_mem_resolveMinus hMem)

/-! ## Spelling tokens -/

/-- The characters of a token; infinity is a number that is too large. -/
def letters (p : ℕ) : Token → List Char
  | .number v => if v.isFinite then Decimal.Significant.text v p else "1e999".toList
  | .var => ['x']
  | .openBracket => ['(']
  | .closeBracket => [')']
  | .func .neg => ['-']
  | .func f => f.name.toList
  | .op o => [o.symbol]

/-- The text of a token; a finite number is formatted with this precision. -/
def spell (p : ℕ) : Token → Except Error String
  | .number v => if v.isFinite then Engine.formatNumber p v else .ok "1e999"
  | t => .ok (String.ofList (letters p t))

/-- The text of tokens one after the other, with blanks between them. -/
def spellAll (p : ℕ) (tokens : List Token) : Except Error String :=
  (tokens.mapM (spell p)).map (" ".intercalate)

theorem spell_eq_ok {p : ℕ} {t : Token}
    (h : ∀ v, t = .number v → v.isFinite = true → p ≤ Engine.maxPrecision) :
    spell p t = .ok (String.ofList (letters p t)) := by
  cases t with
  | number v =>
      simp only [spell, letters]
      split
      · rename_i hFinite
        unfold Engine.formatNumber
        rw [Engine.checkPrecision_eq_ok (h v rfl hFinite)]
        rfl
      · rw [String.ofList_toList]
  | _ => rfl

theorem mapM_spell {p : ℕ} {tokens : List Token}
    (h : ∀ v, .number v ∈ tokens → v.isFinite = true → p ≤ Engine.maxPrecision) :
    tokens.mapM (spell p) = .ok (tokens.map fun t => String.ofList (letters p t)) := by
  induction tokens with
  | nil => rfl
  | cons t rest ih =>
      have hRest := ih fun v hMem => h v (List.mem_cons_of_mem t hMem)
      have hFirst : spell p t = .ok (String.ofList (letters p t)) :=
        spell_eq_ok fun v hT => h v (hT ▸ List.mem_cons_self)
      rw [List.mapM_cons, hFirst, hRest]
      rfl

theorem spellAll_eq_ok {p : ℕ} {tokens : List Token}
    (h : ∀ v, .number v ∈ tokens → v.isFinite = true → p ≤ Engine.maxPrecision) :
    spellAll p tokens =
      .ok (" ".intercalate (tokens.map fun t => String.ofList (letters p t))) := by
  unfold spellAll
  rw [mapM_spell h]
  rfl

/-! ## Reading what was spelled -/

/-- The literal `1e999`. -/
def overflowing : NumberLexeme where
  whole := ['1']
  fraction := none
  exponent := some ⟨'e', [], ['9', '9', '9'], Or.inl rfl, Or.inl rfl, by simp, by simp [isAsciiDigit]⟩
  ne_nil := by simp
  isDigit := by simp [isAsciiDigit]
  isFraction := by simp

theorem value_overflowing : overflowing.value = Decimal.Binary.infinity false := by
  have hDigits : Text.digitsValue (overflowing.whole ++ overflowing.fraction.getD []) = 1 := rfl
  have hExponent : overflowing.exponent.elim 0 Exponent.value -
      (overflowing.fraction.getD []).length = 999 := by decide
  unfold NumberLexeme.value
  rw [hDigits, hExponent]
  unfold Decimal.Binary.ofDecimal
  rw [if_neg (by decide), if_pos (by decide)]

/-- A literal that is too large is read as infinity. -/
theorem scan_infinity {rest : List Char} (h : Closes rest) :
    scan ("1e999".toList ++ rest) =
      (scan rest).map (.number (Decimal.Binary.infinity false) :: ·) := by
  have hApart : Apart rest := by
    intro c hHead
    rcases h c hHead with rfl | rfl <;> decide
  have hSplit := overflowing.splitNumber_of_apart hApart
  rw [value_overflowing] at hSplit
  exact scan_of_splitNumber hSplit ⟨'1', _, rfl, by decide⟩

/-- What a token is spelled with is read as that token, with one minus sign for both. -/
theorem scan_letters {p : ℕ} {t : Token} {rest : List Char} (hP : 17 ≤ p)
    (hNumber : ∀ v, t = .number v → Unsigned v) (hRest : Closes rest) :
    scan (letters p t ++ rest) = (scan rest).map (unresolved t :: ·) := by
  have hLetter : NoLetter rest := by
    intro c hHead
    rcases hRest c hHead with rfl | rfl <;> decide
  cases t with
  | number v =>
      have hUnsigned := hNumber v rfl
      show scan ((if v.isFinite then _ else _) ++ rest) = (scan rest).map (.number v :: ·)
      by_cases hFinite : v.isFinite = true
      · rw [if_pos hFinite]
        exact scan_number hFinite hUnsigned.2 (Double.not_lt_of_le hUnsigned.1) hP hRest
      · rw [if_neg hFinite, hUnsigned.eq_infinity (by simpa using hFinite)]
        exact scan_infinity hRest
  | var => exact scan_of_token (Lexeme.var hLetter).next
  | openBracket => exact scan_of_token (next_openBracket rest)
  | closeBracket => exact scan_of_token (next_closeBracket rest)
  | func f =>
      by_cases hNeg : f = .neg
      · subst hNeg
        exact scan_of_token (next_operator .sub rest)
      · have hLetters : letters p (.func f) = f.name.toList := by
          cases f with
          | neg => exact absurd rfl hNeg
          | _ => rfl
        rw [hLetters, unresolved_of_ne (by simpa using hNeg)]
        exact scan_of_token (Lexeme.func hNeg hLetter).next
  | op o => exact scan_of_token (next_operator o rest)

/-- Tokens that are spelled one after the other are read one after the other. -/
theorem scan_spelled {p : ℕ} {tokens : List Token} (hP : 17 ≤ p)
    (hNumbers : ∀ v, .number v ∈ tokens → Unsigned v) :
    scan ([' '].intercalate (tokens.map (letters p))) = .ok (tokens.map unresolved) := by
  induction tokens with
  | nil => exact scan_nil
  | cons t rest ih =>
      have hNumber : ∀ v, t = .number v → Unsigned v :=
        fun v hT => hNumbers v (hT ▸ List.mem_cons_self)
      have hRest := ih fun v hMem => hNumbers v (List.mem_cons_of_mem t hMem)
      cases rest with
      | nil =>
          have hOnly := scan_letters hP hNumber closes_nil
          rw [List.append_nil, scan_nil] at hOnly
          rw [List.map_singleton, List.intercalate_singleton]
          exact hOnly
      | cons u rest =>
          have hBlank := scan_letters hP hNumber
            (closes_cons (Or.inl rfl) ([' '].intercalate ((u :: rest).map (letters p))))
          rw [scan_blank, hRest] at hBlank
          rw [List.map_cons, List.map_cons, List.intercalate_cons_cons, List.append_assoc]
          exact hBlank

/-- Well placed tokens are the tokens of the text that they are spelled with. -/
theorem tokenize_spelled {p : ℕ} {tokens : List Token} (hP : 17 ≤ p) (h : WellPlaced tokens) :
    Engine.tokenize (" ".intercalate (tokens.map fun t => String.ofList (letters p t))) =
      .ok tokens := by
  obtain ⟨hUnsigned, hPlaced⟩ := wellPlaced_iff.1 h
  have hText : (" ".intercalate (tokens.map fun t => String.ofList (letters p t))).toList =
      [' '].intercalate (tokens.map (letters p)) := by
    rw [String.toList_intercalate, List.map_map]
    simp [Function.comp_def]
  have hScan := scan_spelled hP hUnsigned
  rw [← hText] at hScan
  exact tokenize_eq_ok_iff.2 ⟨_, hScan, resolveMinus_unresolved hPlaced⟩

/-! ## All token lists of texts -/

/--
The tokens of texts are the well placed lists: without signed numbers, with negations only at
the start and right after an opening bracket, and with subtractions only elsewhere.

Such a list is spelled with blanks between its tokens.  That needs a precision that its finite
numbers can be formatted with, of at least seventeen digits.
-/
theorem tokens_of_some_text :
    (∀ tokens, (∃ text, Engine.tokenize text = .ok tokens) ↔ WellPlaced tokens) ∧
    ∀ p tokens, 17 ≤ p → WellPlaced tokens →
      (∀ v, .number v ∈ tokens → v.isFinite = true → p ≤ Engine.maxPrecision) →
      ∃ text, spellAll p tokens = .ok text ∧ Engine.tokenize text = .ok tokens := by
  refine ⟨fun tokens => ⟨?_, fun h => ⟨_, tokenize_spelled (Nat.le_refl 17) h⟩⟩, ?_⟩
  · rintro ⟨text, hText⟩
    exact wellPlaced_of_tokenize hText
  · intro p tokens hP h hHigh
    exact ⟨_, spellAll_eq_ok hHigh, tokenize_spelled hP h⟩

/-- Both minus signs in a row, neighbours that are no expression, and extreme numbers. -/
def jumble : List Token :=
  [.func .neg, .op .sub, .func .sin, .number 5e-324, .number (Decimal.Binary.infinity false),
    .openBracket, .func .neg, .var, .closeBracket, .op .sub, .number 0]

theorem wellPlaced_jumble : WellPlaced jumble := by
  refine wellPlaced_iff.2 ⟨fun v hMem => ?_, by simp [jumble, Placed]⟩
  simp only [jumble, List.mem_cons, List.not_mem_nil, or_false, reduceCtorEq, false_or,
    Token.number.injEq] at hMem
  rcases hMem with rfl | rfl | rfl <;> exact ⟨by decide +kernel, by decide +kernel⟩

/-- The jumble is what its spelling is read as. -/
theorem tokenize_jumble :
    spellAll 17 jumble = .ok "- - sin 4.9406564584124654e-324 1e999 ( - x ) - 0" ∧
      Engine.tokenize "- - sin 4.9406564584124654e-324 1e999 ( - x ) - 0" = .ok jumble := by
  have hSpelled : spellAll 17 jumble =
      .ok "- - sin 4.9406564584124654e-324 1e999 ( - x ) - 0" := by
    decide +kernel
  obtain ⟨text, hText, hTokens⟩ := tokens_of_some_text.2 17 jumble (Nat.le_refl 17)
    wellPlaced_jumble fun _ _ _ => by decide
  obtain rfl := Except.ok.inj (hSpelled.symm.trans hText)
  exact ⟨hSpelled, hTokens⟩

/-- A number cannot be spelled with more digits than the greatest precision. -/
theorem spell_one_error :
    WellPlaced [.number 1] ∧ 17 ≤ 2147483648 ∧
      spellAll 2147483648 [.number 1] = .error .precisionTooBig ∧
      ¬ ∃ text, spellAll 2147483648 [.number 1] = .ok text ∧
        Engine.tokenize text = .ok [.number 1] := by
  have hError : spellAll 2147483648 [.number 1] = .error .precisionTooBig := rfl
  have hPlaced : WellPlaced [.number 1] := by
    refine wellPlaced_iff.2 ⟨fun v hMem => ?_, by simp [Placed]⟩
    obtain rfl : v = 1 := by simpa using hMem
    exact ⟨by decide +kernel, by decide +kernel⟩
  refine ⟨hPlaced, by decide, hError, ?_⟩
  rintro ⟨text, hText, -⟩
  rw [hError] at hText
  exact absurd hText (by simp)

end DerivCalc.Token.Lexer
