import DerivCalc.Expr.Build
import DerivCalc.Proofs.Infix.Precedence
import DerivCalc.Proofs.Token.PostOrder

/-!
# Reading infix formulas

The tokens of a group pass through the stack of operators and come out as the listing
of its tree.  For a chain the induction is on its grouping by precedence: whatever
waits below does not interfere as long as it is applied before none of the operators
of the chain, and only operators of the chain are pending at its end.  So the next operator,
a closing bracket or the end of the formula releases exactly what it should.

A function in front of a group in brackets takes the group as its argument, also if it is
the negation of a longer chain.  `Group.Clear` excludes such chains.
-/

namespace DerivCalc.Infix

open Token.PostOrder

/-! ## Brackets -/

/-- An operand comes out as `listing` at once, and in brackets with a function before it. -/
structure Operand.Gives (a : Operand) (listing : List Token) : Prop where
  alone : ∀ waiting, (a.isBracketed = true → ∀ f, waiting.head? ≠ some (.func f)) →
    Yields a.tokens waiting listing []
  argument : a.isBracketed = true → ∀ f waiting,
    Yields (.func f :: a.tokens) waiting (listing ++ [.func f]) []

/-- Right after an opening bracket, a group comes out as `listing` but for what is pending last. -/
def Group.Gives (g : Group) (listing : List Token) : Prop :=
  ∀ waiting, (∀ t, waiting.head? = some t → t = .openBracket) →
    ∃ emitted pending, emitted ++ pending = listing ∧ Token.openBracket ∉ pending ∧
      Yields g.tokens waiting emitted pending

/-- The bracket that closes a group releases what is pending of it. -/
theorem Group.Gives.bracketed {g : Group} {listing : List Token} (h : g.Gives listing) :
    (Operand.bracketed g).Gives listing := by
  refine ⟨?_, ?_⟩
  · intro waiting hFunc
    obtain ⟨emitted, pending, hAll, hPending, hYields⟩ :=
      h (.openBracket :: waiting) fun t hHead => (Option.some.inj hHead).symm
    have hBrackets := hYields.brackets hPending (hFunc rfl)
    rw [hAll] at hBrackets
    unfold Operand.tokens
    exact hBrackets
  · intro _ f waiting
    obtain ⟨emitted, pending, hAll, hPending, hYields⟩ :=
      h (.openBracket :: .func f :: waiting) fun t hHead => (Option.some.inj hHead).symm
    have hCall := hYields.call hPending
    rw [hAll] at hCall
    unfold Operand.tokens
    exact hCall

/-- A function with a group in brackets comes out after the group. -/
theorem Group.Gives.call {g : Group} {listing : List Token} (h : g.Gives listing) (f : Func)
    (hNamed : f ≠ .neg) : (Operand.call f hNamed g).Gives (listing ++ [.func f]) := by
  refine ⟨?_, ?_⟩
  · intro waiting _
    have hCall := h.bracketed.argument rfl f waiting
    unfold Operand.tokens at hCall ⊢
    exact hCall
  · intro hBracketed
    exact absurd hBracketed (by simp [Operand.isBracketed])

/-- What a group gives comes out as its listing if nothing else follows. -/
theorem Group.Gives.ofInfix {g : Group} {listing : List Token} (h : g.Gives listing) :
    ofInfix g.tokens = .ok listing := by
  obtain ⟨emitted, pending, hAll, hPending, hYields⟩ := h [] (by simp)
  rw [hYields.ofInfix hPending, hAll]

/-! ## Chains -/

/-- An operand comes out at once, and in brackets together with a function before it. -/
structure Operand.Reads (a : Operand) : Prop where
  alone : ∀ waiting, (a.isBracketed = true → ∀ f, waiting.head? ≠ some (.func f)) →
    Yields a.tokens waiting a.tree.postOrder []
  argument : a.isBracketed = true → ∀ f waiting,
    Yields (.func f :: a.tokens) waiting (a.tree.postOrder ++ [.func f]) []

theorem chainTokens_append (a b : Operand) (op : Operator)
    (before after : List (Operator × Operand)) :
    chainTokens a (before ++ (op, b) :: after) =
      chainTokens a before ++ [.op op] ++ chainTokens b after := by
  simp [chainTokens]

/-- A chain comes out as the listing of its grouping, but for some of its operators. -/
theorem exists_yields_of_grouped {a : Operand} {rest : List (Operator × Operand)} {e : Expr}
    (h : Grouped a rest e) :
    a.Reads → (∀ p ∈ rest, p.2.Reads) → ∀ waiting,
      (∀ p ∈ rest, ∀ t, waiting.head? = some t → appliesBefore t p.1 = false) →
      (a.isBracketed = true → ∀ f, waiting.head? ≠ some (.func f)) →
      ∃ emitted pending, emitted ++ pending = e.postOrder ∧
        (∀ t ∈ pending, ∃ p ∈ rest, t = .op p.1) ∧
        Yields (chainTokens a rest) waiting emitted pending := by
  induction h with
  | single a =>
      intro hFirst _ waiting _ hFunc
      refine ⟨a.tree.postOrder, [], List.append_nil _, by simp, ?_⟩
      rw [chainTokens, List.flatMap_nil, List.append_nil]
      exact hFirst.alone waiting hFunc
  | join _ _ hBefore hAfter ihLeft ihRight =>
      rename_i a b op before after left right _ _
      intro hFirst hRest waiting hBelow hFunc
      have hOperand : b.Reads := hRest (op, b) (by simp)
      obtain ⟨emitted, pending, hLeft, hPending, hYields⟩ :=
        ihLeft hFirst (fun p hMem => hRest p (by simp [hMem])) waiting
          (fun p hMem => hBelow p (by simp [hMem])) hFunc
      have hReleased : ∀ t ∈ pending, appliesBefore t op = true := by
        intro t hMem
        obtain ⟨p, hP, rfl⟩ := hPending t hMem
        exact hBefore p hP
      have hOperator := hYields.operator hReleased (hBelow (op, b) (by simp))
      obtain ⟨emitted', pending', hRight, hPending', hYields'⟩ :=
        ihRight hOperand (fun p hMem => hRest p (by simp [hMem])) (.op op :: waiting)
          (fun p hMem t hHead => by
            obtain rfl := Option.some.inj hHead
            exact hAfter p hMem)
          (fun _ f => by simp)
      refine ⟨left.postOrder ++ emitted', pending' ++ [.op op], ?_, ?_, ?_⟩
      · show _ = left.postOrder ++ right.postOrder ++ [.op op]
        rw [← hRight]
        simp only [List.append_assoc]
      · intro t hMem
        rcases List.mem_append.1 hMem with hMem | hMem
        · obtain ⟨p, hP, rfl⟩ := hPending' t hMem
          exact ⟨p, by simp [hP], rfl⟩
        · exact ⟨(op, b), by simp, List.mem_singleton.1 hMem⟩
      · rw [chainTokens_append, ← hLeft]
        exact hOperator.append hYields'

/-! ## Groups -/

/-- Right after an opening bracket, a group comes out but for some operators and functions. -/
def Group.Reads (g : Group) : Prop :=
  ∀ waiting, (∀ t, waiting.head? = some t → t = .openBracket) →
    ∃ emitted pending, emitted ++ pending = g.tree.postOrder ∧ Token.openBracket ∉ pending ∧
      Yields g.tokens waiting emitted pending

/-- A group in brackets comes out as the listing of its tree. -/
theorem Group.Reads.bracketed {g : Group} (h : g.Reads) : (Operand.bracketed g).Reads := by
  have hGives : (Operand.bracketed g).Gives g.tree.postOrder := Group.Gives.bracketed h
  refine ⟨?_, ?_⟩
  · unfold Operand.tree
    exact hGives.alone
  · unfold Operand.tree
    exact hGives.argument

/-- A function with a group in brackets is an operand. -/
theorem Group.Reads.call {g : Group} (h : g.Reads) (f : Func) (hNamed : f ≠ .neg) :
    (Operand.call f hNamed g).Reads := by
  have hGives := Group.Gives.call h f hNamed
  refine ⟨?_, ?_⟩
  · unfold Operand.tree
    exact hGives.alone
  · unfold Operand.tree
    exact hGives.argument

/-- A chain on top of an opening bracket or of a negation. -/
theorem exists_yields_chain {first : Operand} {rest : Tail} (hFirst : first.Reads)
    (hRest : ∀ p ∈ rest.toList, p.2.Reads) (waiting : List Token)
    (hHead : ∀ t, waiting.head? = some t → t = .openBracket ∨ t = .func .neg)
    (hFunc : first.isBracketed = true → ∀ f, waiting.head? ≠ some (.func f)) :
    ∃ emitted pending, emitted ++ pending = (ofChain first.tree rest.trees).postOrder ∧
      Token.openBracket ∉ pending ∧
      Yields (first.tokens ++ rest.tokens) waiting emitted pending := by
  have hGrouped := grouped_ofChain first rest.toList
  obtain ⟨emitted, pending, hAll, hPending, hYields⟩ :=
    exists_yields_of_grouped hGrouped hFirst hRest waiting
      (fun p _ t hT => by
        rcases hHead t hT with rfl | rfl
        · rfl
        · rfl)
      hFunc
  rw [← Tail.trees_eq] at hAll
  refine ⟨emitted, pending, hAll, ?_, ?_⟩
  · intro hMem
    obtain ⟨p, -, hOp⟩ := hPending _ hMem
    exact absurd hOp (by simp)
  · rw [Tail.tokens_eq]
    exact hYields

theorem Group.reads_chain {first : Operand} {rest : Tail} (hFirst : first.Reads)
    (hRest : ∀ p ∈ rest.toList, p.2.Reads) : (Group.chain first rest).Reads := by
  intro waiting hHead
  have hFunc : ∀ f, waiting.head? ≠ some (.func f) := by
    intro f hF
    exact absurd (hHead _ hF) (by simp)
  unfold Group.tokens Group.tree
  exact exists_yields_chain hFirst hRest waiting (fun t hT => Or.inl (hHead t hT)) fun _ => hFunc

theorem Group.reads_negated {first : Operand} {rest : Tail} (hFirst : first.Reads)
    (hRest : ∀ p ∈ rest.toList, p.2.Reads)
    (hClear : first.isBracketed = true → rest = .nil) : (Group.negated first rest).Reads := by
  intro waiting hHead
  unfold Group.tokens Group.tree
  by_cases hBracketed : first.isBracketed = true
  · -- the negation waits in front of the bracket like the name of a function
    obtain rfl := hClear hBracketed
    refine ⟨first.tree.postOrder ++ [.func .neg], [], List.append_nil _, by simp, ?_⟩
    unfold Tail.tokens
    rw [List.append_nil]
    exact hFirst.argument hBracketed .neg waiting
  · obtain ⟨emitted, pending, hAll, hPending, hYields⟩ :=
      exists_yields_chain hFirst hRest (.func .neg :: waiting)
        (fun t hT => Or.inr (Option.some.inj hT).symm) fun h => absurd h hBracketed
    refine ⟨emitted, pending ++ [.func .neg], ?_, by simp [hPending], hYields.function⟩
    rw [← List.append_assoc, hAll]
    rfl

mutual

/-- Every group with clear negations is read as announced. -/
theorem Group.reads : ∀ g : Group, g.Clear → g.Reads
  | .chain first rest, h => by
      obtain ⟨hFirst, hRest⟩ := h
      exact Group.reads_chain (first.reads hFirst) (rest.reads hRest)
  | .negated first rest, h => by
      obtain ⟨hFirst, hRest, hClear⟩ := h
      exact Group.reads_negated (first.reads hFirst) (rest.reads hRest) hClear

theorem Operand.reads : ∀ a : Operand, a.Clear → a.Reads
  | .number _, _ => ⟨fun _ _ _ => rfl, fun h => absurd h (by simp [Operand.isBracketed])⟩
  | .var, _ => ⟨fun _ _ _ => rfl, fun h => absurd h (by simp [Operand.isBracketed])⟩
  | .bracketed inner, h => (inner.reads h).bracketed
  | .call f hNamed inner, h => (inner.reads h).call f hNamed

theorem Tail.reads : ∀ rest : Tail, rest.Clear → ∀ p ∈ rest.toList, p.2.Reads
  | .nil, _ => fun p hMem => by simp [Tail.toList] at hMem
  | .cons op operand rest, h => by
      intro p hMem
      obtain ⟨hOperand, hRest⟩ := h
      rcases List.mem_cons.1 hMem with rfl | hMem
      · exact operand.reads hOperand
      · exact rest.reads hRest p hMem

end

/-- The tokens of a group are put in the order of its tree. -/
theorem Group.ofInfix_eq {g : Group} (h : g.Clear) : ofInfix g.tokens = .ok g.tree.postOrder := by
  have hGives : g.Gives g.tree.postOrder := g.reads h
  exact hGives.ofInfix

end DerivCalc.Infix
