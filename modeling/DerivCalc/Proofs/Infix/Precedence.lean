import DerivCalc.Proofs.Infix.Grammar
import DerivCalc.Token.PostOrder

/-!
# Chains grouped by precedence

`Grouped` says what a chain grouped by precedence is, without saying how to find it: the
operator that is applied last has on its left only operators that are applied before it, and
on its right only operators that it is not applied before.  `grouped_ofChain` says that
the tree of a chain, which is joined in three passes, is grouped so.

Each pass makes a chain coarser: stretches of operands that are connected by the
operators of the pass become single operands.  `Coarser` describes the chain in between.
-/

namespace DerivCalc.Infix

open Token.PostOrder

/-- The tree groups the chain of operands by precedence. -/
inductive Grouped : Operand → List (Operator × Operand) → Expr → Prop
  | single (a : Operand) : Grouped a [] a.tree
  | join {a b : Operand} {op : Operator} {before after : List (Operator × Operand)}
      {left right : Expr} : Grouped a before left → Grouped b after right →
      (∀ p ∈ before, appliesBefore (.op p.1) op = true) →
      (∀ p ∈ after, appliesBefore (.op op) p.1 = false) →
      Grouped a (before ++ (op, b) :: after) (Expr.operation op left right)

/--
The operators in `inner` have been joined: each operand of the coarse chain groups a
stretch of the fine one.
-/
inductive Coarser (inner : List Operator) :
    List (Operator × Operand) → List (Operator × Expr) → Prop
  | nil : Coarser inner [] []
  | cons {op : Operator} {b : Operand} {e : Expr} {stretch rest : List (Operator × Operand)}
      {coarse : List (Operator × Expr)} : op ∉ inner → Grouped b stretch e →
      (∀ p ∈ stretch, p.1 ∈ inner) → Coarser inner rest coarse →
      Coarser inner ((op, b) :: (stretch ++ rest)) ((op, e) :: coarse)

/-- The same of a chain with its first operand. -/
def CoarserChain (inner : List Operator) (a : Operand) (fine : List (Operator × Operand))
    (joined : Expr × List (Operator × Expr)) : Prop :=
  ∃ stretch rest, fine = stretch ++ rest ∧ Grouped a stretch joined.1 ∧
    (∀ p ∈ stretch, p.1 ∈ inner) ∧ Coarser inner rest joined.2

/-! ## The passes -/

/-- The first pass groups the powers to the right. -/
theorem coarserChain_joinPowers (rest : List (Operator × Operand)) :
    ∀ a : Operand, CoarserChain [.pow] a rest
      (joinPowers a.tree (rest.map fun p => (p.1, p.2.tree))) := by
  induction rest with
  | nil =>
      intro a
      exact ⟨[], [], rfl, .single a, by simp, .nil⟩
  | cons p rest ih =>
      intro a
      obtain ⟨op, b⟩ := p
      obtain ⟨stretch, rest', rfl, hGrouped, hInner, hCoarser⟩ := ih b
      rw [List.map_cons, joinPowers]
      by_cases hPow : op = .pow
      · subst hPow
        rw [if_pos rfl]
        refine ⟨(.pow, b) :: stretch, rest', rfl, ?_, ?_, hCoarser⟩
        · refine Grouped.join (.single a) hGrouped (by simp) ?_
          intro p hMem
          rw [List.mem_singleton.1 (hInner p hMem)]
          rfl
        · intro p hMem
          rcases List.mem_cons.1 hMem with rfl | hMem
          · exact List.mem_singleton.2 rfl
          · exact hInner p hMem
      · rw [if_neg hPow]
        refine ⟨[], (op, b) :: (stretch ++ rest'), rfl, .single a, by simp, ?_⟩
        exact .cons (by simpa using hPow) hGrouped hInner hCoarser

/-- A later pass groups looser operators of one priority to the left. -/
theorem coarserChain_joinLeft {inner ops : List Operator}
    (hLeft : ∀ i ∈ inner ++ ops, ∀ o ∈ ops, appliesBefore (.op i) o = true)
    (hLoose : ∀ o ∈ ops, ∀ i ∈ inner, appliesBefore (.op o) i = false)
    {rest : List (Operator × Operand)} {coarse : List (Operator × Expr)}
    (h : Coarser inner rest coarse) :
    ∀ (a : Operand) (stretch : List (Operator × Operand)) (e : Expr), Grouped a stretch e →
      (∀ p ∈ stretch, p.1 ∈ inner ++ ops) →
      CoarserChain (inner ++ ops) a (stretch ++ rest) (joinLeft ops e coarse) := by
  -- what has been joined so far is the first operand of the coarse chain
  induction h with
  | nil =>
      intro a stretch e hGrouped hStretch
      exact ⟨stretch, [], rfl, hGrouped, hStretch, .nil⟩
  | cons hOp hRight hInner hCoarser ih =>
      rename_i op b right after rest coarse
      intro a stretch e hGrouped hStretch
      rw [joinLeft]
      have hAfter : ∀ p ∈ after, p.1 ∈ inner ++ ops :=
        fun p hMem => List.mem_append_left _ (hInner p hMem)
      by_cases hPass : op ∈ ops
      · rw [if_pos hPass]
        have hJoined : Grouped a (stretch ++ (op, b) :: after) (Expr.operation op e right) :=
          .join hGrouped hRight (fun p hMem => hLeft p.1 (hStretch p hMem) op hPass)
            fun p hMem => hLoose op hPass p.1 (hInner p hMem)
        have hOps : ∀ p ∈ stretch ++ (op, b) :: after, p.1 ∈ inner ++ ops := by
          intro p hMem
          rcases List.mem_append.1 hMem with hMem | hMem
          · exact hStretch p hMem
          · rcases List.mem_cons.1 hMem with rfl | hMem
            · exact List.mem_append_right _ hPass
            · exact hAfter p hMem
        have hAll := ih a _ _ hJoined hOps
        rw [List.append_assoc] at hAll
        exact hAll
      · rw [if_neg hPass]
        obtain ⟨stretch', rest', hSplit, hGrouped', hStretch', hCoarser'⟩ :=
          ih b after right hRight hAfter
        refine ⟨stretch, (op, b) :: (after ++ rest), rfl, hGrouped, hStretch, ?_⟩
        rw [hSplit]
        exact .cons (by simp [hOp, hPass]) hGrouped' hStretch' hCoarser'

/-! ## The whole chain -/

/-- Once all operators have been joined, a single operand is left. -/
theorem CoarserChain.grouped {inner : List Operator} {a : Operand}
    {fine : List (Operator × Operand)} {joined : Expr × List (Operator × Expr)}
    (h : CoarserChain inner a fine joined) (hAll : ∀ op, op ∈ inner) :
    Grouped a fine joined.1 := by
  obtain ⟨e, coarse⟩ := joined
  obtain ⟨stretch, rest, rfl, hGrouped, -, hCoarser⟩ := h
  cases hCoarser with
  | nil =>
      rw [List.append_nil]
      exact hGrouped
  | cons hOp _ _ _ => exact absurd (hAll _) hOp

/-- The tree of a chain groups it by precedence. -/
theorem grouped_ofChain (a : Operand) (rest : List (Operator × Operand)) :
    Grouped a rest (ofChain a.tree (rest.map fun p => (p.1, p.2.tree))) := by
  have hPowers := coarserChain_joinPowers rest a
  simp only [ofChain]
  generalize joinPowers a.tree (rest.map fun p => (p.1, p.2.tree)) = powers at hPowers
  obtain ⟨stretch, rest', rfl, hGrouped, hInner, hCoarser⟩ := hPowers
  have hProducts : CoarserChain ([.pow] ++ [.mul, .div]) a (stretch ++ rest')
      (joinLeft [.mul, .div] powers.1 powers.2) :=
    coarserChain_joinLeft (by decide) (by decide) hCoarser a stretch powers.1 hGrouped
      fun p hMem => List.mem_append_left _ (hInner p hMem)
  generalize joinLeft [.mul, .div] powers.1 powers.2 = products at hProducts
  obtain ⟨stretch', rest'', hSplit, hGrouped', hInner', hCoarser'⟩ := hProducts
  have hSums : CoarserChain ([.pow] ++ [.mul, .div] ++ [.add, .sub]) a (stretch' ++ rest'')
      (joinLeft [.add, .sub] products.1 products.2) :=
    coarserChain_joinLeft (by decide) (by decide) hCoarser' a stretch' products.1 hGrouped'
      fun p hMem => List.mem_append_left _ (hInner' p hMem)
  rw [hSplit]
  refine hSums.grouped ?_
  intro op
  cases op <;> decide

end DerivCalc.Infix
