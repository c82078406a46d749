import DerivCalc.Proofs.Elementary
import DerivCalc.Proofs.Expr.Eval
import DerivCalc.Proofs.Expr.Marks

/-!
# Marks are a cache

A mark saves simplification the work of entering a part that it has returned before.
`Assembled` says how such parts come to be used again: fresh nodes are put on top of what
simplification has returned, or on top of a part of that, and the result may be simplified
again.  On these expressions the marks are a cache and nothing else.  Simplification with all
marks taken off gives the same expression, so simplifying twice does so too, even if the
second pass sees none of the marks of the first.
-/

namespace DerivCalc.Expr

section

variable [Elementary]

/-- Fresh nodes on top of expressions that simplification has returned, and parts of those. -/
inductive Assembled : Expr → Prop
  | number (v : Float) : Assembled (number v)
  | var : Assembled (var false)
  | operation (op : Operator) {left right : Expr} : Assembled left → Assembled right →
      Assembled (operation op left right)
  | application (f : Func) {arg : Expr} : Assembled arg → Assembled (application f arg)
  | returned {e part : Expr} : Assembled e → part ∈ e.simplify.nodes → Assembled part

/-- The parts of a well marked expression are well marked. -/
theorem WellMarked.part {e part : Expr} (h : e.WellMarked) (hMem : part ∈ e.nodes) :
    part.WellMarked := by
  induction e with
  | const settled v =>
      obtain rfl := List.mem_singleton.1 hMem
      exact h
  | var settled =>
      obtain rfl := List.mem_singleton.1 hMem
      exact h
  | binary settled op left right ihLeft ihRight =>
      simp only [nodes, List.mem_cons, List.mem_append] at hMem
      rcases hMem with rfl | hLeft | hRight
      · exact h
      · exact ihLeft h.1 hLeft
      · exact ihRight h.2.1 hRight
  | apply settled f arg ih =>
      simp only [nodes, List.mem_cons] at hMem
      rcases hMem with rfl | hArg
      · exact h
      · exact ih h.1 hArg

/-- However an expression is assembled, its marks are right. -/
theorem Assembled.wellMarked {e : Expr} (h : e.Assembled) : e.WellMarked := by
  induction h with
  | number v => exact wellMarked_number v
  | var => trivial
  | operation op _ _ ihLeft ihRight => exact wellMarked_operation op ihLeft ihRight
  | application f _ ih => exact wellMarked_application f ih
  | returned _ hMem ih => exact (wellMarked_simplify ih).part hMem

/--
The marks make no difference to the simplified form of an assembled expression, and that form
is simplified to itself, with its marks or without them.
-/
theorem simplify_unsettled_of_assembled {e : Expr} (h : e.Assembled) :
    e.unsettled.simplify = e.simplify ∧ e.simplify.simplify = e.simplify ∧
      e.simplify.unsettled.simplify = e.simplify := by
  have hMarks := h.wellMarked
  have hAgain : e.simplify.simplify = e.simplify :=
    simplify_of_isSettled (isSettled_simplify e)
  refine ⟨simplify_unsettled hMarks, hAgain, ?_⟩
  rw [simplify_unsettled (wellMarked_simplify hMarks), hAgain]

end

attribute [local instance] Elementary.specialArguments

/-- `0 - x + nan`, of which simplification makes `-(x) + nan`. -/
def undefinedSum : Expr :=
  operation .add (operation .sub (number 0) (var false)) (number (0 / 0))

/-- `0 * (-(x)) - (-(x) + nan)`: fresh nodes on top of a part of a simplified sum and of all of it. -/
def reusedSum : Expr :=
  operation .sub (operation .mul (number 0) (apply true .neg (var true))) undefinedSum.simplify

/-- The reused parts need not be marked: without marks the sum is simplified to the same. -/
theorem simplify_unsettled_reusedSum :
    reusedSum.Assembled ∧ reusedSum.unsettled.simplify = reusedSum.simplify := by
  have hSum : undefinedSum.Assembled :=
    .operation .add (.operation .sub (.number 0) .var) (.number _)
  have hNegation : (apply true .neg (var true)).Assembled := .returned hSum (by decide +kernel)
  have hReused : reusedSum.Assembled :=
    .operation .sub (.operation .mul (.number 0) hNegation) (.returned hSum (self_mem_nodes _))
  exact ⟨hReused, (simplify_unsettled_of_assembled hReused).1⟩

end DerivCalc.Expr
