import DerivCalc.Expr.Build
import DerivCalc.Proofs.Result

/-!
# Which lists of tokens are listings

The operands on the stack always spell the tokens that have been read: their listings, the
earliest operand first, make up the list.  So a list of tokens is read as an expression
iff it is the listing of that expression.
-/

namespace DerivCalc.Expr

/-- The operands on the stack are fresh expressions whose listings make up `read`. -/
structure Spells (read : List Token) (operands : List Expr) : Prop where
  listings : operands.reverse.flatMap postOrder = read
  fresh : ∀ e ∈ operands, e.unsettled = e

variable {read tokens : List Token} {operands rest result : List Expr} {e left right : Expr}

theorem spells_nil : Spells [] [] := ⟨rfl, by simp⟩

/-! ## One step -/

/-- An operand is added to the stack. -/
theorem Spells.cons (h : Spells read operands) (hFresh : e.unsettled = e) :
    Spells (read ++ e.postOrder) (e :: operands) := by
  refine ⟨?_, ?_⟩
  · rw [List.reverse_cons, List.flatMap_append, h.listings, List.flatMap_singleton]
  · intro e' hMem
    rcases List.mem_cons.1 hMem with rfl | hMem
    · exact hFresh
    · exact h.fresh e' hMem

/-- What the operands below the latest one spell. -/
theorem Spells.tail (h : Spells read (e :: rest)) :
    ∃ before, read = before ++ e.postOrder ∧ e.unsettled = e ∧ Spells before rest := by
  refine ⟨rest.reverse.flatMap postOrder, ?_, h.fresh e (List.mem_cons_self ..), rfl, ?_⟩
  · rw [← h.listings, List.reverse_cons, List.flatMap_append, List.flatMap_singleton]
  · intro e' hMem
    exact h.fresh e' (List.mem_cons_of_mem _ hMem)

/-- The latest operand becomes the argument of a function. -/
theorem Spells.application (h : Spells read (e :: rest)) (f : Func) :
    Spells (read ++ [.func f]) (Expr.application f e :: rest) := by
  obtain ⟨before, rfl, hFresh, hRest⟩ := h.tail
  have hNode : (Expr.application f e).unsettled = Expr.application f e :=
    congrArg (Expr.application f) hFresh
  have hNext : Spells (before ++ (e.postOrder ++ [.func f])) (Expr.application f e :: rest) :=
    hRest.cons hNode
  rw [← List.append_assoc] at hNext
  exact hNext

/-- The two latest operands become the operands of an operator. -/
theorem Spells.operation (h : Spells read (right :: left :: rest)) (op : Operator) :
    Spells (read ++ [.op op]) (Expr.operation op left right :: rest) := by
  obtain ⟨middle, rfl, hRight, hMiddle⟩ := h.tail
  obtain ⟨before, rfl, hLeft, hRest⟩ := hMiddle.tail
  have hNode : (Expr.operation op left right).unsettled = Expr.operation op left right := by
    show Expr.operation op left.unsettled right.unsettled = _
    rw [hLeft, hRight]
  have hNext : Spells (before ++ (left.postOrder ++ right.postOrder ++ [.op op]))
      (Expr.operation op left right :: rest) := hRest.cons hNode
  rw [← List.append_assoc, ← List.append_assoc] at hNext
  exact hNext

theorem Spells.push {t : Token} (h : Spells read operands) (hPush : push operands t = .ok result) :
    Spells (read ++ [t]) result := by
  unfold Expr.push at hPush
  split at hPush
  · rw [← Except.ok.inj hPush]
    exact h.cons (e := number _) rfl
  · rw [← Except.ok.inj hPush]
    exact h.cons (e := var false) rfl
  · rw [← Except.ok.inj hPush]
    exact h.application _
  · exact absurd hPush (by simp)
  · rw [← Except.ok.inj hPush]
    exact h.operation _
  · exact absurd hPush (by simp)
  · exact absurd hPush (by simp)
  · exact absurd hPush (by simp)

/-! ## A whole run -/

theorem Spells.run (h : Spells read operands)
    (hRun : tokens.foldlM Expr.push operands = .ok result) : Spells (read ++ tokens) result :=
  Result.foldlM_invariant Spells.push tokens h hRun

/-- Exactly the listings are read, each as the fresh expression that it lists. -/
theorem ofPostOrder_eq_ok_iff :
    ofPostOrder tokens = .ok e ↔ tokens = e.postOrder ∧ e.unsettled = e := by
  constructor
  · intro hRead
    obtain ⟨operands, hRun, hResult⟩ := Result.bind_eq_ok_iff.1 hRead
    have hSpells := spells_nil.run hRun
    split at hResult
    · exact absurd hResult (by simp)
    · obtain rfl := Except.ok.inj hResult
      obtain ⟨before, hTokens, hFresh, hRest⟩ := hSpells.tail
      refine ⟨?_, hFresh⟩
      rw [← List.nil_append tokens, hTokens, ← hRest.listings]
      rfl
    · exact absurd hResult (by simp)
  · rintro ⟨rfl, hFresh⟩
    rw [ofPostOrder_postOrder, hFresh]

/-- What can be wrong with a list of tokens that is no listing. -/
theorem of_ofPostOrder_eq_error {cause : Error} (h : ofPostOrder tokens = .error cause) :
    cause = .missingArgument ∨ cause = .missingOperand ∨ cause = .danglingOperands ∨
      cause = .emptyExpression := by
  rcases Result.bind_eq_error_iff.1 h with hRun | ⟨operands, -, hResult⟩
  · obtain ⟨operands, t, hPush⟩ := Result.exists_of_foldlM_eq_error hRun
    unfold Expr.push at hPush
    split at hPush <;> simp_all
  · split at hResult
    · exact Or.inr (Or.inr (Or.inr (Except.error.inj hResult).symm))
    · exact absurd hResult (by simp [pure, Except.pure])
    · exact Or.inr (Or.inr (Or.inl (Except.error.inj hResult).symm))

end DerivCalc.Expr
