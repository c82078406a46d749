import DerivCalc.Proofs.Infix.Precedence

/-!
# Every tree has a sentence

The trees of groups are exactly the expressions without settled nodes: the passes join
operands with fresh nodes, and each expression is the tree of the group that brackets all of its
operands.
-/

namespace DerivCalc.Infix

/-! ## Trees have fresh nodes -/

theorem unsettled_of_grouped {a : Operand} {rest : List (Operator × Operand)} {e : Expr}
    (h : Grouped a rest e) : a.tree.unsettled = a.tree →
      (∀ p ∈ rest, p.2.tree.unsettled = p.2.tree) → e.unsettled = e := by
  induction h with
  | single a =>
      intro hFirst _
      exact hFirst
  | @join a b op before after left right _ _ _ _ ihLeft ihRight =>
      intro hFirst hRest
      have hLeft := ihLeft hFirst fun p hMem => hRest p (by simp [hMem])
      have hRight := ihRight (hRest (op, b) (by simp)) fun p hMem => hRest p (by simp [hMem])
      show Expr.operation op left.unsettled right.unsettled = _
      rw [hLeft, hRight]

theorem unsettled_ofChain {first : Operand} {rest : Tail}
    (hFirst : first.tree.unsettled = first.tree)
    (hRest : ∀ p ∈ rest.toList, p.2.tree.unsettled = p.2.tree) :
    (ofChain first.tree rest.trees).unsettled = ofChain first.tree rest.trees := by
  rw [Tail.trees_eq]
  exact unsettled_of_grouped (grouped_ofChain first rest.toList) hFirst hRest

mutual

theorem Group.unsettled_tree : ∀ g : Group, g.tree.unsettled = g.tree
  | .chain first rest => by
      unfold Group.tree
      exact unsettled_ofChain first.unsettled_tree rest.unsettled_tree
  | .negated first rest => by
      unfold Group.tree
      exact congrArg (Expr.application .neg)
        (unsettled_ofChain first.unsettled_tree rest.unsettled_tree)

theorem Operand.unsettled_tree : ∀ a : Operand, a.tree.unsettled = a.tree
  | .number _ => rfl
  | .var => rfl
  | .bracketed inner => by
      unfold Operand.tree
      exact inner.unsettled_tree
  | .call f _ inner => by
      unfold Operand.tree
      exact congrArg (Expr.application f) inner.unsettled_tree

theorem Tail.unsettled_tree : ∀ rest : Tail, ∀ p ∈ rest.toList, p.2.tree.unsettled = p.2.tree
  | .nil => fun p hMem => by simp [Tail.toList] at hMem
  | .cons op operand rest => by
      intro p hMem
      rcases List.mem_cons.1 hMem with rfl | hMem
      · exact operand.unsettled_tree
      · exact rest.unsettled_tree p hMem

end

/-! ## The group that brackets every operand -/

/-- The group of an expression in which every operand and every argument stands in brackets. -/
def Group.ofExpr : Expr → Group
  | .const _ value => .chain (.number value) .nil
  | .var _ => .chain .var .nil
  | .binary _ op left right =>
    .chain (.bracketed (ofExpr left)) (.cons op (.bracketed (ofExpr right)) .nil)
  | .apply _ f arg =>
    if hNeg : f = .neg then .negated (.bracketed (ofExpr arg)) .nil
    else .chain (.call f hNeg (ofExpr arg)) .nil

theorem Group.clear_ofExpr (e : Expr) : (Group.ofExpr e).Clear := by
  induction e with
  | const settled value => exact ⟨trivial, trivial⟩
  | var settled => exact ⟨trivial, trivial⟩
  | binary settled op left right ihLeft ihRight => exact ⟨ihLeft, ihRight, trivial⟩
  | apply settled f arg ih =>
      unfold Group.ofExpr
      by_cases hNeg : f = .neg
      · rw [dif_pos hNeg]
        exact ⟨ih, trivial, fun _ => rfl⟩
      · rw [dif_neg hNeg]
        exact ⟨ih, trivial⟩

/-- A chain of two operands has one tree. -/
theorem ofChain_pair (op : Operator) (left right : Expr) :
    ofChain left [(op, right)] = Expr.operation op left right := by
  cases op <;> rfl

theorem Group.tree_ofExpr (e : Expr) : (Group.ofExpr e).tree = e.unsettled := by
  induction e with
  | const settled value => rfl
  | var settled => rfl
  | binary settled op left right ihLeft ihRight =>
      show ofChain (Group.ofExpr left).tree [(op, (Group.ofExpr right).tree)] = _
      rw [ofChain_pair, ihLeft, ihRight]
      rfl
  | apply settled f arg ih =>
      unfold Group.ofExpr
      by_cases hNeg : f = .neg
      · rw [dif_pos hNeg, hNeg]
        exact congrArg (Expr.application .neg) ih
      · rw [dif_neg hNeg]
        exact congrArg (Expr.application f) ih

end DerivCalc.Infix
