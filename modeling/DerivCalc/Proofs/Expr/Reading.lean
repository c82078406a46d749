import DerivCalc.Expr.Build
import DerivCalc.Proofs.Expr.Formula
import DerivCalc.Proofs.Token.PostOrder

/-!
# Reading the tokens of a printed expression

The tokens of an expression pass through the stack of operators.  When they have been
taken in, `emitted` has come out and `pending` still waits on top of what waited before;
together they are the post-order listing.  This holds as long as what waits below
does not interfere: it is neither a function nor an operator that is applied before the
operator of the expression.  The brackets of a printed expression are exactly those
that keep up this condition for its operands.
-/

namespace DerivCalc.Expr

open Token.PostOrder

/-! ## The expression that is read -/

/-- The expression as its text spells it: a negative number is the negation of its opposite. -/
def spelled : Expr → Expr
  | const _ v => if v < 0 then application .neg (number (-v)) else number v
  | var _ => var false
  | binary _ op left right => operation op left.spelled right.spelled
  | apply _ f arg => application f arg.spelled

theorem unsettled_spelled (e : Expr) : e.spelled.unsettled = e.spelled := by
  induction e with
  | const settled v =>
      unfold spelled
      by_cases hLt : v < 0
      · rw [if_pos hLt]
        rfl
      · rw [if_neg hLt]
        rfl
  | var settled => rfl
  | binary settled op left right ihLeft ihRight =>
      show operation op left.spelled.unsettled right.spelled.unsettled = _
      rw [ihLeft, ihRight]
      rfl
  | apply settled f arg ih =>
      show application f arg.spelled.unsettled = _
      rw [ih]
      rfl

/-- Spelling an expression out takes no level away. -/
theorem depth_le_depth_spelled (e : Expr) : e.depth ≤ e.spelled.depth := by
  induction e with
  | const settled v => exact depth_pos _
  | var settled => exact Nat.le_refl _
  | binary settled op left right ihLeft ihRight =>
      show max left.depth right.depth + 1 ≤ max left.spelled.depth right.spelled.depth + 1
      omega
  | apply settled f arg ih =>
      show arg.depth + 1 ≤ arg.spelled.depth + 1
      omega

/-! ## What has come out and what waits -/

/-- The tokens that wait when the last token of the expression has been taken in, latest first. -/
def pending : Expr → List Token
  | const _ v => if v < 0 then [.func .neg] else []
  | var _ => []
  | binary _ op _ right => (if right.bracketsRight op then [] else right.pending) ++ [.op op]
  | apply _ _ _ => []

/-- The tokens that have come out by then, earliest first. -/
def emitted : Expr → List Token
  | const _ v => if v < 0 then [.number (-v)] else [.number v]
  | var _ => [.var]
  | binary _ op left right =>
    left.spelled.postOrder ++
      (if right.bracketsRight op then right.spelled.postOrder else right.emitted)
  | apply _ f arg => arg.spelled.postOrder ++ [.func f]

/-- Together they are the post-order listing. -/
theorem emitted_append_pending (e : Expr) : e.emitted ++ e.pending = e.spelled.postOrder := by
  induction e with
  | const settled v =>
      unfold emitted pending spelled
      by_cases hLt : v < 0
      · rw [if_pos hLt, if_pos hLt, if_pos hLt]
        rfl
      · rw [if_neg hLt, if_neg hLt, if_neg hLt]
        rfl
  | var settled => rfl
  | binary settled op left right ihLeft ihRight =>
      show _ = left.spelled.postOrder ++ right.spelled.postOrder ++ [.op op]
      unfold emitted pending
      by_cases hNeeded : right.bracketsRight op = true
      · rw [if_pos hNeeded, if_pos hNeeded, List.nil_append]
      · rw [if_neg hNeeded, if_neg hNeeded, ← ihRight]
        simp only [List.append_assoc]
  | apply settled f arg ih => exact List.append_nil _

/-! ## What waits below an operation -/

/-- What waits does not interfere with an operation with `op`. -/
def Below (op : Operator) (waiting : List Token) : Prop :=
  ∀ t, waiting.head? = some t → (∀ f, t ≠ .func f) ∧ appliesBefore t op = false

/-- What waits does not interfere with the expression. -/
def Fits (waiting : List Token) : Expr → Prop
  | binary _ op _ _ => Below op waiting
  | _ => True

theorem groupsLeft_eq_of_priority_eq {op inner : Operator} (h : op.priority = inner.priority) :
    op.groupsLeft = inner.groupsLeft := by
  cases op <;> cases inner <;> first | rfl | exact absurd h (by decide)

/-- An operation that waits below leaves room for an operand of higher priority. -/
theorem fits_of_not_bracketsRight {right : Expr} {op : Operator} (waiting : List Token)
    (h : right.bracketsRight op = false) : right.Fits (.op op :: waiting) := by
  cases right with
  | binary settled inner left' right' =>
      intro t hHead
      obtain rfl := Option.some.inj hHead
      refine ⟨fun f => by simp, ?_⟩
      simp only [bracketsRight, Bool.or_eq_false_iff, decide_eq_false_iff_not,
        Bool.and_eq_false_imp, beq_iff_eq] at h
      obtain ⟨hPriority, hGroups⟩ := h
      simp only [appliesBefore, Bool.or_eq_false_iff, decide_eq_false_iff_not,
        Bool.and_eq_false_imp, beq_iff_eq]
      refine ⟨hPriority, ?_⟩
      intro hEq
      rw [← groupsLeft_eq_of_priority_eq hEq]
      exact hGroups hEq.symm
  | _ => trivial

/-- What leaves room for an operation leaves room for its left operand without brackets. -/
theorem fits_of_not_bracketsLeft {left : Expr} {op : Operator} {waiting : List Token}
    (hBelow : Below op waiting) (h : left.bracketsLeft op = false) : left.Fits waiting := by
  cases left with
  | binary settled inner left' right' =>
      intro t hHead
      obtain ⟨hFunc, hBefore⟩ := hBelow t hHead
      refine ⟨hFunc, ?_⟩
      cases t with
      | op outer =>
          simp only [bracketsLeft, Bool.or_eq_false_iff, decide_eq_false_iff_not,
            Bool.and_eq_false_imp, beq_iff_eq, Bool.not_eq_false'] at h
          obtain ⟨hPriority, hGroups⟩ := h
          simp only [appliesBefore, Bool.or_eq_false_iff, decide_eq_false_iff_not,
            Bool.and_eq_false_imp, beq_iff_eq] at hBefore ⊢
          obtain ⟨hOuter, hOuterGroups⟩ := hBefore
          refine ⟨by omega, ?_⟩
          intro hEq
          have hSame : inner.priority = op.priority := by omega
          have hLeft := hGroups hSame
          have hRight := hOuterGroups (hEq.trans hSame)
          rw [hLeft] at hRight
          exact absurd hRight (by decide)
      | _ => rfl
  | _ => trivial

/-! ## What is released -/

/-- The expression does not start with a minus and is no operation of lower priority than `op`. -/
def BindsAs (op : Operator) : Expr → Prop
  | binary _ inner _ _ => op.priority ≤ inner.priority
  | e => e.startsWithMinus = false

theorem bindsAs_of_not_bracketsRight {right : Expr} {op : Operator}
    (h : right.bracketsRight op = false) : right.BindsAs op := by
  cases right with
  | binary settled inner left' right' =>
      simp only [bracketsRight, Bool.or_eq_false_iff, decide_eq_false_iff_not] at h
      show op.priority ≤ inner.priority
      omega
  | _ => exact h

/-- Only operators wait, none of lower priority. -/
theorem mem_pending {op : Operator} {e : Expr} (h : e.BindsAs op) :
    ∀ t ∈ e.pending, ∃ inner, t = .op inner ∧ op.priority ≤ inner.priority := by
  induction e generalizing op with
  | const settled v =>
      intro t hMem
      have hNot : ¬ v < 0 := of_decide_eq_false h
      simp [pending, hNot] at hMem
  | var settled =>
      intro t hMem
      simp [pending] at hMem
  | binary settled inner left right ihLeft ihRight =>
      intro t hMem
      have hPriority : op.priority ≤ inner.priority := h
      unfold pending at hMem
      rcases List.mem_append.1 hMem with hRight | hSelf
      · by_cases hNeeded : right.bracketsRight inner = true
        · rw [if_pos hNeeded] at hRight
          simp at hRight
        · rw [if_neg hNeeded] at hRight
          have hBinds := bindsAs_of_not_bracketsRight (Bool.eq_false_iff.2 hNeeded)
          obtain ⟨o, hT, hLe⟩ := ihRight hBinds t hRight
          exact ⟨o, hT, by omega⟩
      · exact ⟨inner, List.mem_singleton.1 hSelf, hPriority⟩
  | apply settled f arg ih =>
      intro t hMem
      simp [pending] at hMem

theorem openBracket_notMem_pending (e : Expr) : Token.openBracket ∉ e.pending := by
  intro hMem
  cases e with
  | const settled v =>
      unfold pending at hMem
      by_cases hLt : v < 0
      · simp [hLt] at hMem
      · simp [hLt] at hMem
  | var settled => simp [pending] at hMem
  | binary settled op left right =>
      have hBinds : (binary settled op left right).BindsAs op := Nat.le_refl _
      obtain ⟨inner, hOp, -⟩ := mem_pending hBinds _ hMem
      exact absurd hOp (by simp)
  | apply settled f arg => simp [pending] at hMem

/-- All that waits for a left operand without brackets is applied before the operator. -/
theorem appliesBefore_of_mem_pending {left : Expr} {op : Operator}
    (h : left.bracketsLeft op = false) : ∀ t ∈ left.pending, appliesBefore t op = true := by
  intro t hMem
  cases left with
  | binary settled inner left' right' =>
      have hBinds : (binary settled inner left' right').BindsAs inner := Nat.le_refl _
      obtain ⟨o, rfl, hLe⟩ := mem_pending hBinds t hMem
      simp only [bracketsLeft, Bool.or_eq_false_iff, decide_eq_false_iff_not,
        Bool.and_eq_false_imp, beq_iff_eq, Bool.not_eq_false'] at h
      obtain ⟨hPriority, hGroups⟩ := h
      simp only [appliesBefore, Bool.or_eq_true, decide_eq_true_eq, Bool.and_eq_true, beq_iff_eq]
      by_cases hLt : op.priority < o.priority
      · exact Or.inl hLt
      · have hSame : inner.priority = op.priority := by omega
        exact Or.inr ⟨by omega, hGroups hSame⟩
  | const settled v =>
      have hNot : ¬ v < 0 := of_decide_eq_false h
      simp [pending, hNot] at hMem
  | var settled => simp [pending] at hMem
  | apply settled f arg => simp [pending] at hMem

/-! ## Taking in an expression -/

/-- Taking in the tokens of the expression has the announced outcome on every fitting stack. -/
def Reads (e : Expr) : Prop :=
  ∀ out waiting, e.Fits waiting →
    (e.formula (.func .neg)).foldlM State.push ⟨out, waiting⟩ =
      .ok ⟨e.emitted.reverse ++ out, e.pending ++ waiting⟩

/-- Nothing interferes right after an opening bracket. -/
theorem fits_openBracket (e : Expr) (waiting : List Token) :
    e.Fits (.openBracket :: waiting) := by
  cases e with
  | binary settled op left right =>
      intro t hHead
      obtain rfl := Option.some.inj hHead
      exact ⟨fun f => by simp, rfl⟩
  | _ => trivial

theorem fits_nil (e : Expr) : e.Fits [] := by
  cases e with
  | binary settled op left right =>
      intro t hHead
      exact absurd hHead (by simp)
  | _ => trivial

/-- On a fitting stack, taking in the expression is described by what it emits and leaves. -/
theorem Reads.yields {e : Expr} (h : e.Reads) {waiting : List Token} (hFits : e.Fits waiting) :
    Yields (e.formula (.func .neg)) waiting e.emitted e.pending :=
  fun out => h out waiting hFits

/-- What comes out and what waits after an operand, which may stand in brackets. -/
theorem Reads.yields_operand {e : Expr} (h : e.Reads) {needed : Bool} {waiting : List Token}
    (hFunc : ∀ f, waiting.head? ≠ some (.func f)) (hFits : needed = false → e.Fits waiting) :
    Yields (group needed (e.formula (.func .neg))) waiting
      (if needed then e.spelled.postOrder else e.emitted) (if needed then [] else e.pending) := by
  cases needed with
  | false => exact h.yields (hFits rfl)
  | true =>
      have hBrackets := (h.yields (fits_openBracket e waiting)).brackets
        (openBracket_notMem_pending e) hFunc
      rw [emitted_append_pending] at hBrackets
      exact hBrackets

/-- An operator releases all that still waits of its left operand. -/
theorem Reads.yields_operator {left : Expr} {op : Operator} (h : left.Reads)
    {waiting : List Token} (hBelow : Below op waiting) :
    Yields (group (left.bracketsLeft op) (left.formula (.func .neg)) ++ [.op op]) waiting
      left.spelled.postOrder [.op op] := by
  have hFunc : ∀ f, waiting.head? ≠ some (.func f) :=
    fun f hHead => (hBelow _ hHead).1 f rfl
  have hOperand := h.yields_operand hFunc (fits_of_not_bracketsLeft hBelow)
  have hRest : ∀ t, waiting.head? = some t → appliesBefore t op = false :=
    fun t hHead => (hBelow t hHead).2
  by_cases hNeeded : left.bracketsLeft op = true
  · rw [hNeeded] at hOperand ⊢
    have hOperator := hOperand.operator (by simp) hRest
    rw [if_pos rfl, if_pos rfl, List.append_nil] at hOperator
    exact hOperator
  · rw [Bool.eq_false_iff.2 hNeeded] at hOperand ⊢
    have hOperator := hOperand.operator
      (appliesBefore_of_mem_pending (Bool.eq_false_iff.2 hNeeded)) hRest
    rw [if_neg (by decide), if_neg (by decide), emitted_append_pending] at hOperator
    exact hOperator

/-- Every expression is taken in as announced. -/
theorem reads (e : Expr) : e.Reads := by
  -- `Reads` speaks of every stack, so the hypotheses hold over what waits for the operands
  induction e with
  | const settled v =>
      intro out waiting hFits
      unfold formula emitted pending
      by_cases hLt : v < 0
      · rw [if_pos hLt, if_pos hLt, if_pos hLt]
        rfl
      · rw [if_neg hLt, if_neg hLt, if_neg hLt]
        rfl
  | var settled =>
      intro out waiting hFits
      rfl
  | binary settled op left right ihLeft ihRight =>
      intro out waiting hFits
      have hBelow : Below op waiting := hFits
      have hFunc : ∀ f, (Token.op op :: waiting).head? ≠ some (.func f) := fun f => by simp
      have hLeft := ihLeft.yields_operator hBelow
      have hRight := ihRight.yields_operand hFunc (fits_of_not_bracketsRight waiting)
      have hBoth := hLeft.append hRight out
      rw [List.append_assoc] at hBoth
      exact hBoth
  | apply settled f arg ih =>
      intro out waiting hFits
      have hArg := (ih.yields (fits_openBracket arg (.func f :: waiting))).call
        (openBracket_notMem_pending arg) out
      rw [emitted_append_pending] at hArg
      unfold formula emitted pending
      have hHead : (if f = .neg then Token.func .neg else .func f) = .func f := by
        by_cases hNeg : f = .neg
        · rw [if_pos hNeg, hNeg]
        · rw [if_neg hNeg]
      rw [hHead]
      exact hArg

/-! ## The whole reading -/

/-- The tokens of a printed expression are read as the expression that its text spells out. -/
theorem ofInfix_formula (e : Expr) :
    ofInfix (e.formula (.func .neg)) = .ok e.spelled.postOrder := by
  rw [((reads e).yields (fits_nil e)).ofInfix (openBracket_notMem_pending e),
    emitted_append_pending]

end DerivCalc.Expr
