import DerivCalc.Proofs.Expr.Unbracketed
import DerivCalc.Proofs.Token.Outline

/-!
# No pair of brackets is printed in vain

A `BracketPair` of an expression is a pair of brackets that its text has around an operation, as
an operand of another one.  Without this one pair the text is still made of tokens, but
they come out in another order: the operands stand at other places of the listing.  This holds at
any depth, in any surroundings, and whatever numbers the digits are rounded to.
-/

namespace DerivCalc.Expr

open Token.Lexer Token.PostOrder

/-! ## Pairs of brackets -/

/-- The expression is an operation with two operands. -/
def isOperation : Expr → Bool
  | binary _ _ _ _ => true
  | _ => false

/-- A pair of brackets around an operation that is an operand of an operation. -/
inductive BracketPair : Expr → Type
  | atLeft {settled : Bool} {op : Operator} {left right : Expr} (around : left.isOperation = true)
      (needed : left.bracketsLeft op = true) : BracketPair (.binary settled op left right)
  | atRight {settled : Bool} {op : Operator} {left right : Expr} (around : right.isOperation = true)
      (needed : right.bracketsRight op = true) : BracketPair (.binary settled op left right)
  | inLeft {settled : Bool} {op : Operator} {left right : Expr} (pair : BracketPair left) :
      BracketPair (.binary settled op left right)
  | inRight {settled : Bool} {op : Operator} {left right : Expr} (pair : BracketPair right) :
      BracketPair (.binary settled op left right)
  | inArgument {settled : Bool} {f : Func} {arg : Expr} (pair : BracketPair arg) :
      BracketPair (.apply settled f arg)

/-- `bare` is `printed` without one pair of brackets, those around `inner`. -/
def DropsPair (printed bare inner : List Char) : Prop :=
  ∃ before after, printed = before ++ '(' :: (inner ++ ')' :: after) ∧
    bare = before ++ (inner ++ after)

theorem DropsPair.between {printed bare inner : List Char} (h : DropsPair printed bare inner)
    (first last : List Char) :
    DropsPair (first ++ printed ++ last) (first ++ bare ++ last) inner := by
  obtain ⟨before, after, rfl, rfl⟩ := h
  exact ⟨first ++ before, after ++ last, by simp, by simp⟩

theorem DropsPair.wrap {printed bare inner : List Char} (h : DropsPair printed bare inner)
    (needed : Bool) : DropsPair (wrap needed printed) (wrap needed bare) inner := by
  cases needed with
  | false => exact h
  | true => exact h.between ['('] [')']

namespace BracketPair

/-- The operation inside the brackets. -/
def inside : {e : Expr} → BracketPair e → Expr
  | .binary _ _ operand _, .atLeft _ _ => operand
  | .binary _ _ _ operand, .atRight _ _ => operand
  | _, .inLeft pair => pair.inside
  | _, .inRight pair => pair.inside
  | _, .inArgument pair => pair.inside

/-- The text of the expression without the pair. -/
def text (p : Nat) : {e : Expr} → BracketPair e → List Char
  | .binary _ op left right, .atLeft _ _ =>
    left.print p ++ ' ' :: op.symbol :: ' ' :: wrap (right.bracketsRight op) (right.print p)
  | .binary _ op left right, .atRight _ _ =>
    wrap (left.bracketsLeft op) (left.print p) ++ ' ' :: op.symbol :: ' ' :: right.print p
  | .binary _ op left right, .inLeft pair =>
    wrap (left.bracketsLeft op) (pair.text p) ++
      ' ' :: op.symbol :: ' ' :: wrap (right.bracketsRight op) (right.print p)
  | .binary _ op left right, .inRight pair =>
    wrap (left.bracketsLeft op) (left.print p) ++
      ' ' :: op.symbol :: ' ' :: wrap (right.bracketsRight op) (pair.text p)
  | .apply _ f _, .inArgument pair =>
    (if f = .neg then ['-'] else f.name.toList) ++ '(' :: pair.text p ++ [')']

/-- The tokens of the expression without the pair. -/
def formula (minus : Token) : {e : Expr} → BracketPair e → List Token
  | .binary _ op left right, .atLeft _ _ =>
    left.formula minus ++ .op op :: group (right.bracketsRight op) (right.formula minus)
  | .binary _ op left right, .atRight _ _ =>
    group (left.bracketsLeft op) (left.formula minus) ++ .op op :: right.formula minus
  | .binary _ op left right, .inLeft pair =>
    group (left.bracketsLeft op) (pair.formula minus) ++
      .op op :: group (right.bracketsRight op) (right.formula minus)
  | .binary _ op left right, .inRight pair =>
    group (left.bracketsLeft op) (left.formula minus) ++
      .op op :: group (right.bracketsRight op) (pair.formula minus)
  | .apply _ f _, .inArgument pair =>
    (if f = .neg then minus else .func f) :: .openBracket :: (pair.formula minus ++ [.closeBracket])

variable {e : Expr}

/-- The text without the pair is the printed text, but for these two brackets. -/
theorem dropsPair (p : Nat) (pair : BracketPair e) :
    DropsPair (e.print p) (pair.text p) (pair.inside.print p) := by
  induction pair with
  | @atLeft settled op left right around needed =>
      refine ⟨[], ' ' :: op.symbol :: ' ' :: wrap (right.bracketsRight op) (right.print p), ?_, rfl⟩
      show wrap (left.bracketsLeft op) (left.print p) ++ _ = _
      rw [needed]
      exact congrArg ('(' :: ·) (List.append_assoc ..)
  | @atRight settled op left right around needed =>
      refine ⟨wrap (left.bracketsLeft op) (left.print p) ++ [' ', op.symbol, ' '], [], ?_, ?_⟩
      · show _ ++ ' ' :: op.symbol :: ' ' :: wrap (right.bracketsRight op) (right.print p) = _
        rw [needed, List.append_assoc]
        rfl
      · rw [List.append_nil, List.append_assoc]
        rfl
  | @inLeft settled op left right pair ih =>
      exact (ih.wrap (left.bracketsLeft op)).between [] _
  | @inRight settled op left right pair ih =>
      have hRight := (ih.wrap (right.bracketsRight op)).between
        (wrap (left.bracketsLeft op) (left.print p) ++ [' ', op.symbol, ' ']) []
      rw [List.append_nil, List.append_nil, List.append_assoc, List.append_assoc] at hRight
      exact hRight
  | @inArgument settled f arg pair ih =>
      have hArg := (ih.wrap true).between (if f = .neg then ['-'] else f.name.toList) []
      have hText : ∀ name text : List Char,
          name ++ Expr.wrap true text ++ [] = name ++ '(' :: text ++ [')'] := by
        intro name text
        rw [List.append_nil]
        exact (List.append_assoc name ('(' :: text) [')']).symm
      rw [hText, hText] at hArg
      exact hArg

/-! ## From the text to the tokens -/

theorem scansAs {view : Token → Token} {p : Nat}
    (h : e.Numbers fun v =>
      ScansAs view (Decimal.Significant.text v p) ((number v).formula (.op .sub)))
    (pair : BracketPair e) : ScansAs view (pair.text p) (pair.formula (.op .sub)) := by
  induction pair with
  | @atLeft settled op left right around needed =>
      exact (scansAs_print h.1).operation ((scansAs_print h.2).wrap (right.bracketsRight op)) op
  | @atRight settled op left right around needed =>
      exact ((scansAs_print h.1).wrap (left.bracketsLeft op)).operation (scansAs_print h.2) op
  | @inLeft settled op left right pair ih =>
      exact ((ih h.1).wrap (left.bracketsLeft op)).operation
        ((scansAs_print h.2).wrap (right.bracketsRight op)) op
  | @inRight settled op left right pair ih =>
      exact ((scansAs_print h.1).wrap (left.bracketsLeft op)).operation
        ((ih h.2).wrap (right.bracketsRight op)) op
  | @inArgument settled f arg pair ih => exact (ih h).application f

/-- An operation does not start with a minus sign. -/
theorem startsWithMinus_of_isOperation {e : Expr} (h : e.isOperation = true) :
    e.startsWithMinus = false := by
  cases e with
  | binary settled op left right => rfl
  | _ => exact absurd h (by simp [isOperation])

theorem resolves (pair : BracketPair e) :
    Resolves e.startsWithMinus (pair.formula (.op .sub)) (pair.formula (.func .neg)) := by
  induction pair with
  | @atLeft settled op left right around needed =>
      have hLeft := resolves_formula left
      rw [startsWithMinus_of_isOperation around] at hLeft
      exact hLeft.operation ((resolves_formula right).group startsWithMinus_of_bracketsRight) op
  | @atRight settled op left right around needed =>
      have hRight := resolves_formula right
      rw [startsWithMinus_of_isOperation around] at hRight
      exact ((resolves_formula left).group startsWithMinus_of_bracketsLeft).operation hRight op
  | @inLeft settled op left right pair ih =>
      exact (ih.group startsWithMinus_of_bracketsLeft).operation
        ((resolves_formula right).group startsWithMinus_of_bracketsRight) op
  | @inRight settled op left right pair ih =>
      exact ((resolves_formula left).group startsWithMinus_of_bracketsLeft).operation
        (ih.group startsWithMinus_of_bracketsRight) op
  | @inArgument settled f arg pair ih => exact ih.application f

/-! ## The order of the tokens -/

/--
Whatever has been read before and whatever follows, the operands of two texts come out at
different places, if what waits fits.
-/
def Apart (fits : List Token → Prop) (tokens tokens' : List Token) : Prop :=
  ∀ (read : List Token) (s : State), Accounts read s → fits s.waiting →
    ∀ rest listing listing' : List Token, s.listing (tokens ++ rest) = .ok listing →
      s.listing (tokens' ++ rest) = .ok listing' →
      listing'.map Token.isOperand ≠ listing.map Token.isOperand

theorem Apart.group {operand : Expr} {tokens tokens' : List Token}
    (h : Apart operand.Fits tokens tokens') (needed : Bool) :
    Apart (fun waiting => needed = false → operand.Fits waiting) (group needed tokens)
      (group needed tokens') := by
  intro read s hAccounts hFits rest listing listing' hListing hListing'
  cases needed with
  | false => exact h read s hAccounts (hFits rfl) rest listing listing' hListing hListing'
  | true =>
      have hOpened : Accounts (read ++ [.openBracket]) ⟨s.released, .openBracket :: s.waiting⟩ :=
        hAccounts.wait rfl (by simp)
      have hInside : ∀ tokens : List Token, s.listing (Expr.group true tokens ++ rest) =
          State.listing ⟨s.released, .openBracket :: s.waiting⟩
            (tokens ++ .closeBracket :: rest) := by
        intro tokens
        show s.listing (.openBracket :: (tokens ++ [.closeBracket] ++ rest)) = _
        rw [listing_cons, List.append_assoc]
        rfl
      rw [hInside] at hListing hListing'
      exact h _ _ hOpened (fits_openBracket operand s.waiting) _ _ _ hListing hListing'

/-- A right operand is read when its operator waits on top. -/
theorem Apart.behind {op : Operator} {tokens tokens' : List Token}
    (h : Apart (fun waiting => ∃ below, waiting = .op op :: below) tokens tokens') (left : Expr) :
    Apart (Below op)
      (Expr.group (left.bracketsLeft op) (left.formula (.func .neg)) ++ .op op :: tokens)
      (Expr.group (left.bracketsLeft op) (left.formula (.func .neg)) ++ .op op :: tokens') := by
  intro read s hAccounts hBelow rest listing listing' hListing hListing'
  have hRun := (reads left).yields_operator hBelow s.released
  rw [List.append_cons, List.append_assoc, listing_append hRun] at hListing hListing'
  exact h _ _ (hAccounts.run hRun) ⟨s.waiting, rfl⟩ _ _ _ hListing hListing'

/-- A left operand that needs brackets is torn apart, or holds on to the next operand. -/
theorem apart_left {op : Operator} {left : Expr} (around : left.isOperation = true)
    (needed : left.bracketsLeft op = true) {tokens : List Token} (hNext : OperandNext tokens) :
    Apart (Below op)
      (Expr.group (left.bracketsLeft op) (left.formula (.func .neg)) ++ .op op :: tokens)
      (left.formula (.func .neg) ++ .op op :: tokens) := by
  intro read s hAccounts hBelow rest listing listing' hListing hListing'
  rw [needed, List.append_assoc, List.cons_append] at hListing
  rw [List.append_assoc, List.cons_append] at hListing'
  cases left with
  | binary settled inner left' right' =>
      by_cases hTop : ∃ t, s.waiting.head? = some t ∧ appliesBefore t inner = true
      · have hFunc : ∀ f, s.waiting.head? ≠ some (.func f) :=
          fun f hHead => (hBelow _ hHead).1 f rfl
        exact map_isOperand_ne_of_released hAccounts hFunc hTop hListing hListing'
      · refine map_isOperand_ne_of_waits hAccounts hBelow needed ?_ (hNext.append rest) hListing
          hListing'
        intro t hHead
        exact Bool.eq_false_iff.2 fun hBefore => hTop ⟨t, hHead, hBefore⟩
  | _ => exact absurd around (by simp [isOperation])

/-- A right operand that needs brackets is torn apart by the operator before it. -/
theorem apart_right {op : Operator} {right : Expr} (around : right.isOperation = true)
    (needed : right.bracketsRight op = true) :
    Apart (fun waiting => ∃ below, waiting = .op op :: below)
      (Expr.group (right.bracketsRight op) (right.formula (.func .neg)))
      (right.formula (.func .neg)) := by
  intro read s hAccounts hWaiting rest listing listing' hListing hListing'
  obtain ⟨below, hWaiting⟩ := hWaiting
  rw [needed] at hListing
  cases right with
  | binary settled inner left' right' =>
      refine map_isOperand_ne_of_released hAccounts ?_ ?_ hListing hListing'
      · simp [hWaiting]
      · exact ⟨.op op, by rw [hWaiting]; rfl, appliesBefore_of_bracketsRight needed⟩
  | _ => exact absurd around (by simp [isOperation])

/-- A difference in the argument of a function. -/
theorem Apart.argument {arg : Expr} {tokens tokens' : List Token}
    (h : Apart arg.Fits tokens tokens') (f : Func) :
    Apart (fun _ => True)
      ((if f = .neg then .func .neg else .func f) :: .openBracket :: (tokens ++ [.closeBracket]))
      ((if f = .neg then .func .neg else .func f) :: .openBracket ::
        (tokens' ++ [.closeBracket])) := by
  have hHead : (if f = .neg then Token.func .neg else .func f) = .func f := by
    by_cases hNeg : f = .neg
    · rw [if_pos hNeg, hNeg]
    · rw [if_neg hNeg]
  intro read s hAccounts _ rest listing listing' hListing hListing'
  have hNamed : Accounts (read ++ [.func f]) ⟨s.released, .func f :: s.waiting⟩ :=
    hAccounts.wait rfl (by simp)
  rw [hHead, List.cons_append, listing_cons] at hListing hListing'
  exact h.group true _ _ hNamed (by simp) rest listing listing' hListing hListing'

/-- Without the pair the operands come out at different places. -/
theorem apart (pair : BracketPair e) :
    Apart e.Fits (e.formula (.func .neg)) (pair.formula (.func .neg)) := by
  induction pair with
  | @atLeft settled op left right around needed =>
      exact apart_left around needed
        ((operandNext_formula right).group (right.bracketsRight op))
  | @atRight settled op left right around needed =>
      exact (apart_right around needed).behind left
  | @inLeft settled op left right pair ih =>
      intro read s hAccounts hBelow rest listing listing' hListing hListing'
      have hLeft := ih.group (left.bracketsLeft op) read s hAccounts
        (fits_of_not_bracketsLeft hBelow)
        (.op op :: (Expr.group (right.bracketsRight op) (right.formula (.func .neg)) ++ rest))
        listing listing'
      rw [← List.cons_append, ← List.append_assoc, ← List.append_assoc] at hLeft
      exact hLeft hListing hListing'
  | @inRight settled op left right pair ih =>
      refine Apart.behind ?_ left
      intro read s hAccounts hWaiting
      obtain ⟨below, hWaiting⟩ := hWaiting
      refine ih.group (right.bracketsRight op) read s hAccounts ?_
      rw [hWaiting]
      exact fits_of_not_bracketsRight below
  | @inArgument settled f arg pair ih =>
      intro read s hAccounts _
      exact ih.argument f read s hAccounts trivial

end BracketPair

/-! ## The text without the pair -/

/-- Any finite number is scanned as some number. -/
theorem scansAs_outline_text {v : Float} (hFinite : v.isFinite = true) (p : Nat) :
    ScansAs Token.outline (Decimal.Significant.text v p) ((number v).formula (.op .sub)) := by
  intro rest hRest
  obtain ⟨w, hScan⟩ := exists_scan_text hFinite p hRest
  refine ⟨if v < 0 then [.op .sub, .number w] else [.number w], ?_, hScan⟩
  unfold number formula
  by_cases hLt : v < 0
  · rw [if_pos hLt, if_pos hLt]
    rfl
  · rw [if_neg hLt, if_neg hLt]
    rfl

/--
With any count of digits, an expression with finite numbers is printed with no pair of brackets
around an operand that could be left out.  The text without the pair has tokens as well; if
they can be put in post-order at all, the listing differs from that of the printed text in which
of its tokens are operands.
-/
theorem listing_without_pair {e : Expr} (hFinite : e.Numbers fun v => v.isFinite = true) (p : Nat)
    (pair : BracketPair e) :
    DropsPair (e.print p) (pair.text p) (pair.inside.print p) ∧
    ∃ tokens listing tokens', tokenize (e.print p) = .ok tokens ∧ ofInfix tokens = .ok listing ∧
      tokenize (pair.text p) = .ok tokens' ∧
      ∀ listing', ofInfix tokens' = .ok listing' →
        listing'.map Token.isOperand ≠ listing.map Token.isOperand := by
  refine ⟨pair.dropsPair p, ?_⟩
  have hNumbers := hFinite.mono fun v hV => scansAs_outline_text hV p
  obtain ⟨tokens, hTokens, hOutline⟩ :=
    exists_tokenize Token.resolveMinus_outline (scansAs_print hNumbers) (resolves_formula e)
  obtain ⟨tokens', hTokens', hOutline'⟩ :=
    exists_tokenize Token.resolveMinus_outline (pair.scansAs hNumbers) pair.resolves
  obtain ⟨listing, hListing, hMarks⟩ :=
    exists_ofInfix_of_outline hOutline.symm (ofInfix_formula e)
  refine ⟨tokens, listing, tokens', hTokens, hListing, hTokens', ?_⟩
  intro listing' hListing'
  obtain ⟨plain, hPlain, hMarks'⟩ := exists_ofInfix_of_outline hOutline' hListing'
  have hApart := pair.apart [] ⟨[], []⟩ accounts_start (fits_nil e) [] e.spelled.postOrder plain
  rw [List.append_nil, List.append_nil] at hApart
  rw [hMarks, ← hMarks']
  exact hApart (ofInfix_formula e) hPlain

/-- `ln(1 - (x + 2) * 3.25)` -/
def nestedSum : Expr :=
  application .ln (operation .sub (number 1)
    (operation .mul (operation .add (.var false) (number 2)) (number 3.25)))

/-- The brackets around its sum. -/
def nestedSumPair : BracketPair nestedSum := .inArgument (.inRight (.atLeft rfl rfl))

/-- With two digits `ln(1 - (x + 2) * 3.2)` differs from `ln(1 - x + 2 * 3.2)`. -/
theorem listing_without_pair_nestedSum :
    nestedSum.Numbers (fun v => v.isFinite = true) ∧
    nestedSum.print 2 = "ln(1 - (x + 2) * 3.2)".toList ∧
    nestedSumPair.text 2 = "ln(1 - x + 2 * 3.2)".toList ∧
    DropsPair (nestedSum.print 2) (nestedSumPair.text 2) (nestedSumPair.inside.print 2) ∧
    ∃ tokens listing tokens', tokenize (nestedSum.print 2) = .ok tokens ∧
      ofInfix tokens = .ok listing ∧ tokenize (nestedSumPair.text 2) = .ok tokens' ∧
      ∀ listing', ofInfix tokens' = .ok listing' →
        listing'.map Token.isOperand ≠ listing.map Token.isOperand := by
  have hFinite : nestedSum.Numbers (fun v => v.isFinite = true) := by
    have hOne : (1 : Float).isFinite = true := by decide +kernel
    have hTwo : (2 : Float).isFinite = true := by decide +kernel
    have hThree : (3.25 : Float).isFinite = true := by decide +kernel
    exact ⟨hOne, ⟨trivial, hTwo⟩, hThree⟩
  exact ⟨hFinite, by decide +kernel, by decide +kernel,
    listing_without_pair hFinite 2 nestedSumPair⟩

end DerivCalc.Expr
