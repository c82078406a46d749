import DerivCalc.Proofs.Elementary
import DerivCalc.Proofs.Engine.Made
import DerivCalc.Proofs.Expr.Listing
import DerivCalc.Proofs.Infix.Bracketed
import DerivCalc.Proofs.Infix.Reading
import DerivCalc.Proofs.Infix.Structure

/-!
# Which texts are parsed

The sentences of the infix grammar are parsed as the trees that their precedences give them.
They are not the only texts that are parsed: it is checked that brackets match and that each
operator finds its operands among the results that are there, and not where a token stands.  So
a text is parsed if it is a phrase that makes one expression, and what gets through is always a
rearranged sentence (`Rearranges`).
-/

namespace DerivCalc

/--
The syntax is at fault: all tokens are known, but they make no expression, or one with too many
levels.
-/
def Error.isSyntax : Error → Bool
  | .unopenedBracket => true
  | .unclosedBracket => true
  | .missingOperand => true
  | .missingArgument => true
  | .danglingOperands => true
  | .emptyExpression => true
  | .tooDeep => true
  | _ => false

namespace Engine

open Infix Token Token.PostOrder

/-! ## Trees of groups within the engine -/

/-- The listing of a tree is read as that tree. -/
theorem ofPostOrder_tree (g : Group) : Expr.ofPostOrder g.tree.postOrder = .ok g.tree := by
  rw [Expr.ofPostOrder_postOrder, g.unsettled_tree]

section

variable [Elementary]

theorem build_tree (g : Group) : build g.tree.postOrder = .ok g.tree.simplify := by
  unfold build
  rw [ofPostOrder_tree]
  rfl

/-! ## Sentences -/

/--
A sentence is put in the order of the tree that its precedences give it, and this tree is what
is built and parsed, in simplified form.
-/
theorem parse_sentence {g : Group} (hClear : g.Clear) :
    ofInfix g.tokens = .ok g.tree.postOrder ∧
      build g.tree.postOrder = .ok g.tree.simplify ∧
      ∀ text, tokenize text = .ok g.tokens → g.tree.depth ≤ maxLevels →
        parse text = .ok g.tree.simplify := by
  refine ⟨g.ofInfix_eq hClear, build_tree g, ?_⟩
  intro text hTokens hDepth
  exact parse_eq_ok_iff.2
    ⟨g.tokens, g.tree.postOrder, g.tree, hTokens, g.ofInfix_eq hClear, ofPostOrder_tree g,
      hDepth, rfl⟩

end

section

attribute [local instance] Elementary.specialArguments

/-- `-x ^ 2 ^ x / sin(-(x)) - (1 - x)`. -/
def negatedDifference : Group :=
  .negated .var
    (.cons .pow (.number 2)
      (.cons .pow .var
        (.cons .div (.call .sin (by decide) (.negated (.bracketed (.chain .var .nil)) .nil))
          (.cons .sub (.bracketed (.chain (.number 1) (.cons .sub .var .nil))) .nil))))

/-- The leading minus applies to the whole difference, and the powers are grouped to the right. -/
theorem parse_negatedDifference :
    negatedDifference.tree =
      Expr.application .neg
        (Expr.operation .sub
          (Expr.operation .div
            (Expr.operation .pow (Expr.var false)
              (Expr.operation .pow (Expr.number 2) (Expr.var false)))
            (Expr.application .sin (Expr.application .neg (Expr.var false))))
          (Expr.operation .sub (Expr.number 1) (Expr.var false))) ∧
      ofInfix negatedDifference.tokens = .ok negatedDifference.tree.postOrder ∧
      parse "-x ^ 2 ^ x / sin(-(x)) - (1 - x)" = .ok negatedDifference.tree.simplify := by
  have hClear : negatedDifference.Clear := by
    simp [negatedDifference, Group.Clear, Operand.Clear, Tail.Clear, Operand.isBracketed]
  obtain ⟨hListing, -, hParse⟩ := parse_sentence hClear
  exact ⟨rfl, hListing, hParse _ (by decide +kernel) (by decide +kernel)⟩

end

/-! ## Rearranged sentences -/

/--
Brackets apart, the tokens are those of the sentence in another order, with the operands in the
same order.
-/
structure Rearranges (tokens : List Token) (g : Group) : Prop where
  words : (tokens.filter (!·.isBracket)).Perm (g.tokens.filter (!·.isBracket))
  operands : tokens.filter isOperand = g.tokens.filter isOperand

/-- Tokens that come out in the same order as a sentence rearrange it. -/
theorem rearranges_of_ofInfix {tokens listing : List Token} {g : Group}
    (hListing : ofInfix tokens = .ok listing) (hSentence : ofInfix g.tokens = .ok listing) :
    Rearranges tokens g := by
  refine ⟨(perm_of_ofInfix hListing).symm.trans (perm_of_ofInfix hSentence), ?_⟩
  rw [← filter_isOperand_of_ofInfix hListing, filter_isOperand_of_ofInfix hSentence]

/-- What is read as a fresh expression rearranges the sentence of this expression. -/
theorem rearranges_ofExpr {tokens listing : List Token} {e : Expr}
    (hListing : ofInfix tokens = .ok listing) (hTree : Expr.ofPostOrder listing = .ok e) :
    Rearranges tokens (Group.ofExpr e) ∧ (Group.ofExpr e).tree = e := by
  obtain ⟨rfl, hFresh⟩ := Expr.ofPostOrder_eq_ok_iff.1 hTree
  have hSentence : ofInfix (Group.ofExpr e).tokens = .ok e.postOrder := by
    rw [(Group.ofExpr e).ofInfix_eq (Group.clear_ofExpr e), Group.tree_ofExpr,
      Expr.postOrder_unsettled]
  exact ⟨rearranges_of_ofInfix hListing hSentence, by rw [Group.tree_ofExpr, hFresh]⟩

/-! ## Accepted and rejected texts -/

/-- The phrases are the lists of tokens with matching brackets. -/
theorem exists_phrase_iff_bracketsMatch {tokens : List Token} :
    (∃ p : Phrase, p.Placed ∧ p.tokens = tokens) ↔ BracketsMatch tokens := by
  constructor
  · rintro ⟨p, hPlaced, rfl⟩
    exact bracketsMatch_of_ofInfix (Phrase.ofInfix_tokens hPlaced)
  · exact Phrase.exists_tokens_eq

/-- A text is read as an expression iff it is a phrase that makes this expression alone. -/
theorem read_eq_ok_iff_phrase {text : String} {e : Expr} :
    read text = .ok e ↔
      ∃ p : Phrase, tokenize text = .ok p.tokens ∧ p.Placed ∧ p.makes [] = some [e] := by
  rw [read_eq_ok_iff]
  constructor
  · rintro ⟨tokens, listing, hTokens, hListing, hTree⟩
    obtain ⟨p, hPlaced, rfl⟩ := Phrase.exists_tokens_eq (bracketsMatch_of_ofInfix hListing)
    have hSame : listing = p.listing :=
      Except.ok.inj (hListing.symm.trans (Phrase.ofInfix_tokens hPlaced))
    rw [hSame] at hTree
    exact ⟨p, hTokens, hPlaced, Phrase.ofPostOrder_listing_eq_ok_iff.1 hTree⟩
  · rintro ⟨p, hTokens, hPlaced, hMakes⟩
    exact ⟨p.tokens, p.listing, hTokens, Phrase.ofInfix_tokens hPlaced,
      Phrase.ofPostOrder_listing_eq_ok_iff.2 hMakes⟩

/-- Known tokens that are not read as an expression have a wrong syntax. -/
theorem isSyntax_of_read_eq_error {text : String} {tokens : List Token} {cause : Error}
    (hTokens : tokenize text = .ok tokens) (h : read text = .error cause) :
    cause.isSyntax = true := by
  rcases Result.bind_eq_error_iff.1 h with hNone | ⟨tokens', -, hRest⟩
  · rw [hTokens] at hNone
    exact absurd hNone (by simp)
  · rcases Result.bind_eq_error_iff.1 hRest with hListing | ⟨listing, -, hTree⟩
    · rcases of_ofInfix_eq_error hListing with ⟨rfl, -⟩ | ⟨rfl, -⟩
      · rfl
      · rfl
    · rcases Expr.of_ofPostOrder_eq_error hTree with rfl | rfl | rfl | rfl
      · rfl
      · rfl
      · rfl
      · rfl

section

variable [Elementary]

/-- A text whose tokens are all known is parsed or rejected for its syntax. -/
theorem isSyntax_of_parse_eq_error {text : String} {tokens : List Token} {failure : Failure}
    (hTokens : tokenize text = .ok tokens) (h : parse text = .error failure) :
    failure.cause.isSyntax = true ∧ failure.source = some text := by
  unfold parse at h
  split at h
  · exact absurd h (by simp)
  · rename_i cause hCause
    rw [← Except.error.inj h]
    refine ⟨?_, rfl⟩
    rcases Result.bind_eq_error_iff.1 hCause with hRead | ⟨e, -, hWithin⟩
    · exact isSyntax_of_read_eq_error hTokens hRead
    · unfold within at hWithin
      split at hWithin
      · exact absurd hWithin (by simp)
      · rw [← Except.error.inj hWithin]
        rfl

/--
The token lists with matching brackets are the phrases.  A text is parsed iff it is a phrase that
makes one expression, within the limits, and the result is the simplified form of this expression.
Such a phrase rearranges the sentence of its expression.  Any other text that has tokens is
rejected for its syntax.
-/
theorem parse_iff_phrase (text : String) :
    (∀ tokens, (∃ p : Phrase, p.Placed ∧ p.tokens = tokens) ↔ BracketsMatch tokens) ∧
    (∀ e, parse text = .ok e ↔ ∃ (p : Phrase) (made : Expr), tokenize text = .ok p.tokens ∧
      p.Placed ∧ p.makes [] = some [made] ∧ made.depth ≤ maxLevels ∧ e = made.simplify) ∧
    (∀ e, parse text = .ok e → ∃ tokens g, tokenize text = .ok tokens ∧ g.Clear ∧
      Rearranges tokens g ∧ e = g.tree.simplify) ∧
    ∀ tokens, tokenize text = .ok tokens → (∀ e, parse text ≠ .ok e) →
      ∃ cause : Error, cause.isSyntax = true ∧ parse text = .error ⟨cause, some text⟩ := by
  refine ⟨fun _ => exists_phrase_iff_bracketsMatch, ?_, ?_, ?_⟩
  · intro e
    rw [parse_eq_ok_iff_read]
    constructor
    · rintro ⟨made, hRead, hDepth, rfl⟩
      obtain ⟨p, hTokens, hPlaced, hMakes⟩ := read_eq_ok_iff_phrase.1 hRead
      exact ⟨p, made, hTokens, hPlaced, hMakes, hDepth, rfl⟩
    · rintro ⟨p, made, hTokens, hPlaced, hMakes, hDepth, rfl⟩
      exact ⟨made, read_eq_ok_iff_phrase.2 ⟨p, hTokens, hPlaced, hMakes⟩, hDepth, rfl⟩
  · intro e hParse
    obtain ⟨tokens, listing, made, hTokens, hListing, hTree, -, rfl⟩ := parse_eq_ok_iff.1 hParse
    obtain ⟨hRearranges, hSame⟩ := rearranges_ofExpr hListing hTree
    exact ⟨tokens, Group.ofExpr made, hTokens, Group.clear_ofExpr made, hRearranges, by rw [hSame]⟩
  · intro tokens hTokens hNone
    cases hParse : parse text with
    | ok e => exact absurd hParse (hNone e)
    | error failure =>
        obtain ⟨hSyntax, hSource⟩ := isSyntax_of_parse_eq_error hTokens hParse
        refine ⟨failure.cause, hSyntax, ?_⟩
        rw [← hSource]

end

attribute [local instance] Elementary.specialArguments

/-- The tokens of `2 x ^ sin()`: an operator after both operands, and nothing in the brackets. -/
def misplaced : List Token :=
  [.number 2, .var, .op .pow, .func .sin, .openBracket, .closeBracket]

theorem tokenize_misplaced : tokenize "2 x ^ sin()" = .ok misplaced := by
  decide +kernel

/-- The power takes what the sine made, and the `2` before the variable. -/
def misplacedPhrase : Phrase :=
  .joined .pow (.beside (.number 2) .var) (.call .sin .empty .empty)

/-- It is parsed as `2 ^ sin(x)`, of which it is a rearrangement; an unopened bracket is no phrase. -/
theorem parse_misplacedPhrase :
    parse "2 x ^ sin()" =
        .ok (Expr.operation .pow (.number 2) (.application .sin (.var false))).simplify ∧
      (∃ g : Group, g.Clear ∧ Rearranges misplaced g) ∧
      ∃ cause : Error, cause.isSyntax = true ∧ parse ")x" = .error ⟨cause, some ")x"⟩ := by
  have hPlaced : misplacedPhrase.Placed := by
    simp [misplacedPhrase, Phrase.Placed, Phrase.IsRow, Phrase.operators, Phrase.endsReaching,
      Phrase.offersGroup]
  have hParse := ((parse_iff_phrase "2 x ^ sin()").2.1 _).2
    ⟨misplacedPhrase, _, tokenize_misplaced, hPlaced, rfl, by decide +kernel, rfl⟩
  refine ⟨hParse, ?_, ?_⟩
  · obtain ⟨tokens, g, hTokens, hClear, hRearranges, -⟩ :=
      (parse_iff_phrase "2 x ^ sin()").2.2.1 _ hParse
    rw [Except.ok.inj (tokenize_misplaced.symm.trans hTokens)]
    exact ⟨g, hClear, hRearranges⟩
  · have hTokens : tokenize ")x" = .ok [.closeBracket, .var] := by
      decide +kernel
    refine (parse_iff_phrase ")x").2.2.2 _ hTokens fun e hOk => ?_
    obtain ⟨p, made, hSame, hPlaced, -⟩ := ((parse_iff_phrase ")x").2.1 e).1 hOk
    have hMatch := ((parse_iff_phrase ")x").1 [.closeBracket, .var]).1
      ⟨p, hPlaced, Except.ok.inj (hSame.symm.trans hTokens)⟩
    exact absurd hMatch.2 (by decide)

/-- They are no sentence: what follows the first operand of a chain starts with an operator. -/
theorem not_sentence_misplaced :
    tokenize "2 x ^ sin()" = .ok misplaced ∧
      parse "2 x ^ sin()" =
        .ok (.binary true .pow (.const true 2) (.apply true .sin (.var true))) ∧
      ¬ ∃ g : Group, g.tokens = misplaced := by
  refine ⟨tokenize_misplaced, by decide +kernel, ?_⟩
  rintro ⟨g, hTokens⟩
  cases g with
  | chain first rest =>
      cases first with
      | number v =>
          cases rest <;> simp [Group.tokens, Operand.tokens, Tail.tokens, misplaced] at hTokens
      | _ => simp [Group.tokens, Operand.tokens, misplaced] at hTokens
  | negated first rest => simp [Group.tokens, misplaced] at hTokens

end Engine

end DerivCalc
