import DerivCalc.Expr.Print
import DerivCalc.Proofs.Token.Lexer

/-!
# The tokens of a printed expression

`formula` lists the tokens of an expression as it is printed.  A minus sign without a
left operand is a parameter: the text yields the operator `-` for it, and the step that
settles which minus signs are negations turns each of them into one, because they
stand at the start or after an opening bracket and nowhere else.

Both steps go through a text part by part: `ScansAs` and `Resolves` say what becomes of one part,
and there is one lemma on brackets, on operations and on applications for each of them.
-/

namespace DerivCalc.Expr

open Token.Lexer

/-! ## The numbers of an expression -/

/-- All numbers of the expression satisfy `P`. -/
def Numbers (P : Float → Prop) : Expr → Prop
  | const _ v => P v
  | var _ => True
  | binary _ _ left right => left.Numbers P ∧ right.Numbers P
  | apply _ _ arg => arg.Numbers P

theorem Numbers.mono {P Q : Float → Prop} (hImp : ∀ v, P v → Q v) {e : Expr}
    (h : e.Numbers P) : e.Numbers Q := by
  induction e with
  | const settled v => exact hImp v h
  | var settled => trivial
  | binary settled op left right ihLeft ihRight => exact ⟨ihLeft h.1, ihRight h.2⟩
  | apply settled f arg ih => exact ih h

/-- All numbers are finite and none is the negative zero, which is printed without its sign. -/
def Printable : Expr → Prop
  | const _ v => v.isFinite = true ∧ v ≠ -0
  | var _ => True
  | binary _ _ left right => left.Printable ∧ right.Printable
  | apply _ _ arg => arg.Printable

theorem Printable.numbers {e : Expr} (h : e.Printable) :
    e.Numbers fun v => v.isFinite = true ∧ v ≠ -0 := by
  induction e with
  | const settled v => exact h
  | var settled => trivial
  | binary settled op left right ihLeft ihRight => exact ⟨ihLeft h.1, ihRight h.2⟩
  | apply settled f arg ih => exact ih h

/-! ## The list of tokens -/

/-- The tokens, in brackets if they are needed. -/
def group (needed : Bool) (tokens : List Token) : List Token :=
  if needed then .openBracket :: (tokens ++ [.closeBracket]) else tokens

/-- The tokens of the text of an expression; `minus` is a minus without left operand. -/
def formula (minus : Token) : Expr → List Token
  | const _ v => if v < 0 then [minus, .number (-v)] else [.number v]
  | var _ => [.var]
  | binary _ op left right =>
    group (left.bracketsLeft op) (left.formula minus) ++
      .op op :: group (right.bracketsRight op) (right.formula minus)
  | apply _ f arg =>
    (if f = .neg then minus else .func f) ::
      .openBracket :: (arg.formula minus ++ [.closeBracket])

/-! ## From the text to the tokens -/

/-- Whatever closes the text, it is scanned as tokens that have the same `view` as `tokens`. -/
def ScansAs (view : Token → Token) (text : List Char) (tokens : List Token) : Prop :=
  ∀ rest, Closes rest → ∃ actual : List Token, actual.map view = tokens.map view ∧
    scan (text ++ rest) = (scan rest).map (actual ++ ·)

theorem map_cons_append {ε : Type} (t : Token) (tokens : List Token)
    (result : Except ε (List Token)) :
    (result.map (tokens ++ ·)).map (t :: ·) = result.map ((t :: tokens) ++ ·) := by
  cases result <;> rfl

theorem map_append_append {ε : Type} (first second : List Token)
    (result : Except ε (List Token)) :
    (result.map (second ++ ·)).map (first ++ ·) = result.map ((first ++ second) ++ ·) := by
  cases result with
  | error cause => rfl
  | ok tokens =>
      show Except.ok (first ++ (second ++ tokens)) = Except.ok ((first ++ second) ++ tokens)
      rw [List.append_assoc]

section

variable {view : Token → Token} {text text' : List Char} {tokens tokens' : List Token}

/-- Brackets around a text become brackets around its tokens. -/
theorem ScansAs.wrap (h : ScansAs view text tokens) (needed : Bool) :
    ScansAs view (wrap needed text) (group needed tokens) := by
  cases needed with
  | false => exact h
  | true =>
      intro rest hRest
      obtain ⟨actual, hView, hScan⟩ := h (')' :: rest) (closes_cons (Or.inr rfl) rest)
      refine ⟨.openBracket :: (actual ++ [.closeBracket]), ?_, ?_⟩
      · show view .openBracket :: (actual ++ [Token.closeBracket]).map view =
          view .openBracket :: (tokens ++ [Token.closeBracket]).map view
        rw [List.map_append, List.map_append, hView]
      · have hInner : scan (text ++ ')' :: rest) =
            (scan rest).map ((actual ++ [.closeBracket]) ++ ·) := by
          rw [hScan, scan_of_token (next_closeBracket rest)]
          exact map_append_append actual [.closeBracket] (scan rest)
        show scan ('(' :: (text ++ [')']) ++ rest) = _
        rw [List.cons_append, List.append_assoc, List.singleton_append,
          scan_of_token (next_openBracket _), hInner]
        exact map_cons_append _ _ _

/-- An operator stands between blanks. -/
theorem ScansAs.operation (hLeft : ScansAs view text tokens) (hRight : ScansAs view text' tokens')
    (op : Operator) :
    ScansAs view (text ++ ' ' :: op.symbol :: ' ' :: text') (tokens ++ .op op :: tokens') := by
  intro rest hRest
  obtain ⟨right, hRightView, hRightScan⟩ := hRight rest hRest
  obtain ⟨left, hLeftView, hLeftScan⟩ := hLeft (' ' :: op.symbol :: ' ' :: (text' ++ rest))
    (closes_cons (Or.inl rfl) _)
  refine ⟨left ++ .op op :: right, ?_, ?_⟩
  · rw [List.map_append, List.map_append, List.map_cons, List.map_cons, hLeftView, hRightView]
  · rw [List.append_assoc, List.cons_append, List.cons_append, List.cons_append, hLeftScan,
      scan_blank, scan_of_token (next_operator op _), scan_blank, hRightScan, map_cons_append,
      map_append_append]

/-- A function, or a minus sign, stands in front of the brackets of its argument. -/
theorem ScansAs.application (h : ScansAs view text tokens) (f : Func) :
    ScansAs view ((if f = .neg then ['-'] else f.name.toList) ++ '(' :: text ++ [')'])
      ((if f = .neg then .op .sub else .func f) :: .openBracket ::
        (tokens ++ [.closeBracket])) := by
  intro rest hRest
  obtain ⟨actual, hView, hScan⟩ := h.wrap true rest hRest
  refine ⟨(if f = .neg then .op .sub else .func f) :: actual, ?_, ?_⟩
  · rw [List.map_cons, hView]
    rfl
  · have hText : ∀ name : List Char, name ++ '(' :: text ++ [')'] ++ rest =
        name ++ (Expr.wrap true text ++ rest) := by
      intro name
      rw [List.append_assoc name, List.append_assoc]
      rfl
    rw [hText, ← map_cons_append, ← hScan]
    by_cases hNeg : f = .neg
    · rw [if_pos hNeg, if_pos hNeg]
      exact scan_of_token (next_operator .sub _)
    · rw [if_neg hNeg, if_neg hNeg]
      exact scan_of_token (next_func hNeg _)

end

/-- A printed expression is scanned as its tokens, up to what is left open for its numbers. -/
theorem scansAs_print {view : Token → Token} {p : Nat} {e : Expr}
    (h : e.Numbers fun v =>
      ScansAs view (Decimal.Significant.text v p) ((number v).formula (.op .sub))) :
    ScansAs view (e.print p) (e.formula (.op .sub)) := by
  induction e with
  | const settled v => exact h
  | var settled =>
      intro rest hRest
      exact ⟨[.var], rfl, scan_of_token (next_var hRest)⟩
  | binary settled op left right ihLeft ihRight =>
      exact ((ihLeft h.1).wrap (left.bracketsLeft op)).operation
        ((ihRight h.2).wrap (right.bracketsRight op)) op
  | apply settled f arg ih => exact (ih h).application f

/-- With seventeen digits the tokens are those of the expression itself. -/
theorem scan_print {p : Nat} (hP : 17 ≤ p) {e : Expr} (hE : e.Printable) :
    ScansAs id (e.print p) (e.formula (.op .sub)) := by
  refine scansAs_print (hE.numbers.mono ?_)
  rintro v ⟨hFinite, hNe⟩ rest hRest
  refine ⟨_, rfl, ?_⟩
  show scan (Decimal.Significant.text v p ++ rest) = _
  unfold number formula
  by_cases hLt : v < 0
  · rw [if_pos hLt]
    exact scan_negative hFinite hNe hLt hP hRest
  · rw [if_neg hLt]
    exact scan_number hFinite hNe hLt hP hRest

/-! ## Which minus signs are negations -/

/--
The minus signs in `plain` that have no left operand become negations.  One at the start, if
the list is `signed`, is one only where an operand may start.
-/
def Resolves (signed : Bool) (plain settled : List Token) : Prop :=
  ∀ opening rest, opening = true ∨ signed = false →
    resolveMinus opening (plain ++ rest) = settled ++ resolveMinus false rest

section

variable {signed signed' : Bool} {plain plain' settled settled' : List Token}

/-- Right after an opening bracket a minus sign is a negation, so brackets allow any operand. -/
theorem Resolves.group (h : Resolves signed plain settled) {needed : Bool}
    (hNeeded : needed = false → signed = false) :
    Resolves false (group needed plain) (group needed settled) := by
  intro opening rest _
  cases needed with
  | false => exact h opening rest (Or.inr (hNeeded rfl))
  | true =>
      have hClose : resolveMinus false (.closeBracket :: rest) =
          .closeBracket :: resolveMinus false rest := rfl
      show resolveMinus opening (.openBracket :: (plain ++ [.closeBracket] ++ rest)) = _
      rw [List.append_assoc, List.singleton_append, resolveMinus, if_neg (by simp)]
      show Token.openBracket :: resolveMinus true (plain ++ .closeBracket :: rest) = _
      rw [h true _ (Or.inl rfl), hClose]
      show _ = .openBracket :: (settled ++ [.closeBracket] ++ resolveMinus false rest)
      rw [List.append_assoc, List.singleton_append]

theorem Resolves.operation (hLeft : Resolves false plain settled)
    (hRight : Resolves false plain' settled') (op : Operator) :
    Resolves false (plain ++ .op op :: plain') (settled ++ .op op :: settled') := by
  intro opening rest _
  have hOperator : ∀ tail, resolveMinus false (.op op :: tail) =
      .op op :: resolveMinus false tail := fun tail => rfl
  rw [List.append_assoc, List.cons_append, hLeft opening _ (Or.inr rfl), hOperator,
    hRight false _ (Or.inr rfl), List.append_assoc]
  rfl

/-- The sign of a negation is one. -/
theorem Resolves.application (h : Resolves signed plain settled) (f : Func) :
    Resolves (f == .neg)
      ((if f = .neg then .op .sub else .func f) :: .openBracket :: (plain ++ [.closeBracket]))
      ((if f = .neg then .func .neg else .func f) :: .openBracket ::
        (settled ++ [.closeBracket])) := by
  intro opening rest hStart
  have hGroup : Resolves false (Expr.group true plain) (Expr.group true settled) :=
    h.group (by simp)
  have hArg := hGroup false rest (Or.inr rfl)
  by_cases hNeg : f = .neg
  · have hOpening : opening = true := by
      rcases hStart with hOpening | hPlain
      · exact hOpening
      · exact absurd hNeg (beq_eq_false_iff_ne.1 hPlain)
    subst hOpening
    rw [if_pos hNeg, if_pos hNeg]
    exact congrArg (Token.func .neg :: ·) hArg
  · rw [if_neg hNeg, if_neg hNeg, List.cons_append, resolveMinus, if_neg (by simp)]
    exact congrArg (Token.func f :: ·) hArg

end

/-- An operand without brackets does not start with a minus sign. -/
theorem startsWithMinus_of_bracketsLeft {e : Expr} {op : Operator}
    (h : e.bracketsLeft op = false) : e.startsWithMinus = false := by
  cases e with
  | binary settled inner left right => rfl
  | _ => exact h

theorem startsWithMinus_of_bracketsRight {e : Expr} {op : Operator}
    (h : e.bracketsRight op = false) : e.startsWithMinus = false := by
  cases e with
  | binary settled inner left right => rfl
  | _ => exact h

/-- The minus signs without a left operand become negations, and no other ones. -/
theorem resolves_formula (e : Expr) :
    Resolves e.startsWithMinus (e.formula (.op .sub)) (e.formula (.func .neg)) := by
  induction e with
  | const settled v =>
      intro opening rest hStart
      unfold formula
      by_cases hLt : v < 0
      · have hOpening : opening = true := by
          rcases hStart with hOpening | hPlain
          · exact hOpening
          · exact absurd hLt (of_decide_eq_false hPlain)
        subst hOpening
        rw [if_pos hLt, if_pos hLt]
        rfl
      · rw [if_neg hLt, if_neg hLt, List.singleton_append, resolveMinus, if_neg (by simp)]
        rfl
  | var settled =>
      intro opening rest hStart
      show resolveMinus opening (.var :: rest) = _
      rw [resolveMinus, if_neg (by simp)]
      rfl
  | binary settled op left right ihLeft ihRight =>
      exact (ihLeft.group startsWithMinus_of_bracketsLeft).operation
        (ihRight.group startsWithMinus_of_bracketsRight) op
  | apply settled f arg ih => exact ih.application f

/-! ## The tokens of a text -/

/-- The tokens of a text, with every minus sign settled, as far as `view` shows them. -/
theorem exists_tokenize {view : Token → Token} {text : List Char} {plain settled : List Token}
    {signed : Bool}
    (hView : ∀ tokens opening, resolveMinus opening (tokens.map view) =
      (resolveMinus opening tokens).map view)
    (hScan : ScansAs view text plain) (hResolve : Resolves signed plain settled) :
    ∃ tokens, tokenize text = .ok tokens ∧ tokens.map view = settled.map view := by
  obtain ⟨actual, hActual, hText⟩ := hScan [] closes_nil
  have hMinus := hResolve true [] (Or.inl rfl)
  rw [List.append_nil, scan_nil] at hText
  refine ⟨resolveMinus true (actual ++ []), ?_, ?_⟩
  · unfold tokenize
    rw [hText]
    rfl
  · rw [List.append_nil] at hMinus ⊢
    rw [← hView, hActual, hView, hMinus]
    show (settled ++ []).map view = _
    rw [List.append_nil]

/-- The tokens of a printed expression, with every minus sign settled. -/
theorem tokenize_print {p : Nat} (hP : 17 ≤ p) {e : Expr} (hE : e.Printable) :
    tokenize (e.print p) = .ok (e.formula (.func .neg)) := by
  obtain ⟨tokens, hTokens, hView⟩ := exists_tokenize (fun tokens opening => by simp)
    (scan_print hP hE) (resolves_formula e)
  rw [List.map_id, List.map_id] at hView
  rw [hTokens, hView]

end DerivCalc.Expr
