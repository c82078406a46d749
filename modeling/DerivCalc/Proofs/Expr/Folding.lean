import DerivCalc.Expr.Eval
import DerivCalc.Expr.Simplify
import DerivCalc.Proofs.Engine.Made
import DerivCalc.Proofs.Token.Conservation

/-!
# Folding is evaluation

Simplification drops terms by rules that need not agree with arithmetic on doubles: `0 * b` is
`0`, also where `b` is infinite.  An operation on two numbers never gets that far, since it is
worked out first.  So with a number in place of the variable the whole expression folds, node by
node, to the value that evaluation finds there, and an expression without the variable is
parsed as one number.
-/

namespace DerivCalc.Expr

/-- The expression with a fresh number in place of the variable. -/
def atPoint (a : Float) : Expr → Expr
  | const settled v => const settled v
  | var _ => number a
  | binary settled op left right => binary settled op (left.atPoint a) (right.atPoint a)
  | apply settled f arg => apply settled f (arg.atPoint a)

/-- Nothing is replaced where the variable does not occur. -/
theorem atPoint_of_notMem {e : Expr} (h : Token.var ∉ e.postOrder) (a : Float) :
    e.atPoint a = e := by
  induction e with
  | const settled v => rfl
  | var settled => exact absurd (List.mem_singleton_self _) h
  | binary settled op left right ihLeft ihRight =>
      simp only [postOrder, List.mem_append, not_or] at h
      unfold atPoint
      rw [ihLeft h.1.1, ihRight h.1.2]
  | apply settled f arg ih =>
      simp only [postOrder, List.mem_append, not_or] at h
      unfold atPoint
      rw [ih h.1]

/--
At a number for the variable, every expression simplifies to its value there, provided that
no node counts as simplified already.
-/
theorem simplify_atPoint [Elementary] (e : Expr) (a : Float) :
    (e.unsettled.atPoint a).simplify = const true (e.eval a) := by
  induction e with
  | const settled v => rfl
  | var settled => rfl
  | binary settled op left right ihLeft ihRight =>
      show settleBinary op (left.unsettled.atPoint a).simplify
        (right.unsettled.atPoint a).simplify = _
      rw [ihLeft, ihRight]
      rfl
  | apply settled f arg ih =>
      show settleApply f (arg.unsettled.atPoint a).simplify = _
      rw [ih]
      rfl

end DerivCalc.Expr

namespace DerivCalc.Engine

/-- The text consists of tokens, and the variable is not among them. -/
def IsVariableFree (text : String) : Prop :=
  ∃ tokens, tokenize text = .ok tokens ∧ Token.var ∉ tokens

/-- What is read from a text without the variable does not hold the variable. -/
theorem IsVariableFree.notMem_postOrder {text : String} {e : Expr} (h : IsVariableFree text)
    (hRead : read text = .ok e) : Token.var ∉ e.postOrder ∧ e.unsettled = e := by
  obtain ⟨tokens, hTokens, hNone⟩ := h
  obtain ⟨tokens', hTokens', hRest⟩ := Result.bind_eq_ok_iff.1 hRead
  obtain rfl := Except.ok.inj (hTokens.symm.trans hTokens')
  obtain ⟨listing, hListing, hTree⟩ := Result.bind_eq_ok_iff.1 hRest
  obtain ⟨rfl, hFresh⟩ := Expr.ofPostOrder_eq_ok_iff.1 hTree
  refine ⟨?_, hFresh⟩
  intro hMem
  have hToken := (Token.PostOrder.perm_of_ofInfix hListing).mem_iff.1 hMem
  exact hNone (List.mem_of_mem_filter hToken)

variable [Elementary]

/-- A formula without the variable is parsed as one number, which is its value everywhere. -/
theorem IsVariableFree.parse_eq {text : String} {e : Expr} (h : IsVariableFree text)
    (hRead : read text = .ok e) (hDepth : e.depth ≤ maxLevels) (x : Float) :
    parse text = .ok (.const true (e.eval x)) := by
  obtain ⟨hNone, hFresh⟩ := h.notMem_postOrder hRead
  have hFold := Expr.simplify_atPoint e x
  rw [hFresh, Expr.atPoint_of_notMem hNone] at hFold
  have hWithin : within maxLevels e = .ok e := within_eq_ok_iff.2 ⟨hDepth, rfl⟩
  unfold parse
  simp only [hRead, bind, Except.bind, hWithin, hFold]

/-- Whatever a formula without the variable is parsed as is one number. -/
theorem IsVariableFree.exists_of_parse {text : String} {e : Expr} (h : IsVariableFree text)
    (hParse : parse text = .ok e) : ∃ v, e = .const true v := by
  obtain ⟨tokens, listing, e₀, hTokens, hListing, hTree, hDepth, -⟩ := parse_eq_ok_iff.1 hParse
  have hRead : read text = .ok e₀ :=
    Result.bind_eq_ok_iff.2 ⟨tokens, hTokens, Result.bind_eq_ok_iff.2 ⟨listing, hListing, hTree⟩⟩
  have hValue := h.parse_eq hRead hDepth 0
  exact ⟨e₀.eval 0, Except.ok.inj (hParse.symm.trans hValue)⟩

end DerivCalc.Engine
