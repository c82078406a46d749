import DerivCalc.Expr.Derivative
import DerivCalc.Proofs.Expr.Listing
import DerivCalc.Proofs.Expr.Rules

/-!
# Marks that can be trusted

Simplification returns a settled node as it stands, so its result depends on the marks.
`WellMarked` says that the marks are right: a settled node has settled operands, and the
rules leave the operation on them alone.  All that is built from fresh nodes, by
simplification and by differentiation is well marked, and for a well marked expression
the marks make no difference to the simplified form.
-/

namespace DerivCalc.Expr

variable [Elementary]

/-- Every settled node is what simplification makes of its operands. -/
def WellMarked : Expr → Prop
  | const _ _ => True
  | var _ => True
  | binary settled op left right =>
    left.WellMarked ∧ right.WellMarked ∧
      (settled = true → left.isSettled = true ∧ right.isSettled = true ∧
        settleBinary op left right = binary true op left right)
  | apply settled f arg =>
    arg.WellMarked ∧
      (settled = true → arg.isSettled = true ∧ settleApply f arg = apply true f arg)

/-! ## Fresh nodes -/

theorem wellMarked_operation (op : Operator) {left right : Expr} (hLeft : left.WellMarked)
    (hRight : right.WellMarked) : (operation op left right).WellMarked := by
  refine ⟨hLeft, hRight, ?_⟩
  intro hSettled
  exact absurd hSettled (by decide)

theorem wellMarked_application (f : Func) {arg : Expr} (hArg : arg.WellMarked) :
    (application f arg).WellMarked := by
  refine ⟨hArg, ?_⟩
  intro hSettled
  exact absurd hSettled (by decide)

theorem wellMarked_unsettled (e : Expr) : e.unsettled.WellMarked := by
  induction e with
  | const settled v => trivial
  | var settled => trivial
  | binary settled op left right ihLeft ihRight => exact wellMarked_operation op ihLeft ihRight
  | apply settled f arg ih => exact wellMarked_application f ih

/-! ## Simplification -/

/-- A sum with its number already on the right stays as it is. -/
theorem settleBinary_add_of_isClose {l r : Expr} (hLeft : l.isConstant = false)
    (hZero : r.isClose 0 = false) : settleBinary .add l r = binary true .add l r := by
  have hNot : (l.isConstant && r.isConstant) = false := by rw [hLeft, Bool.false_and]
  rw [settleBinary_of_isConstant hNot]
  simp only [settleSum, hLeft, Bool.false_eq_true, if_false, hZero]

/-- A product with its number already on the left stays as it is. -/
theorem settleBinary_mul_of_isClose {l r : Expr} (hZero : l.isClose 0 = false)
    (hOne : l.isClose 1 = false) (hRight : r.isConstant = false) :
    settleBinary .mul l r = binary true .mul l r := by
  have hNot : (l.isConstant && r.isConstant) = false := by rw [hRight, Bool.and_false]
  rw [settleBinary_of_isConstant hNot]
  simp only [settleProduct, hRight, Bool.false_eq_true, if_false, hZero, hOne]

/-- The result of a rule on well marked operands is well marked. -/
theorem Rule.wellMarked {op : Operator} {l r result : Expr} (h : Rule op l r result)
    (hEq : settleBinary op l r = result) (hLeft : l.WellMarked) (hRight : r.WellMarked)
    (hLeftMark : l.isSettled = true) (hRightMark : r.isSettled = true) : result.WellMarked := by
  have hKeep : ∀ op, settleBinary op l r = binary true op l r →
      (binary true op l r).WellMarked :=
    fun op hStays => ⟨hLeft, hRight, fun _ => ⟨hLeftMark, hRightMark, hStays⟩⟩
  have hSwap : ∀ op, settleBinary op r l = binary true op r l →
      (binary true op r l).WellMarked :=
    fun op hStays => ⟨hRight, hLeft, fun _ => ⟨hRightMark, hLeftMark, hStays⟩⟩
  cases h with
  | addZero _ _ => exact hLeft
  | zeroAdd _ _ => exact hRight
  | addKeep _ _ => exact hKeep .add hEq
  | addSwap _ hZero hVar => exact hSwap .add (settleBinary_add_of_isClose hVar hZero)
  | zeroSub _ hVar =>
      refine ⟨hRight, fun _ => ⟨hRightMark, ?_⟩⟩
      have hNone : r.constant? = none :=
        Option.not_isSome_iff_eq_none.1 (Bool.eq_false_iff.1 hVar)
      unfold settleApply
      rw [hNone]
  | subZero _ _ => exact hLeft
  | subKeep _ _ _ => exact hKeep .sub hEq
  | oneMul _ _ => exact hRight
  | mulOne _ _ => exact hLeft
  | mulKeep _ _ _ => exact hKeep .mul hEq
  | mulSwap hVar _ hZero hOne => exact hSwap .mul (settleBinary_mul_of_isClose hZero hOne hVar)
  | divOne _ _ => exact hLeft
  | divKeep _ _ _ => exact hKeep .div hEq
  | powOne _ _ => exact hLeft
  | powKeep _ _ _ _ _ => exact hKeep .pow hEq
  | _ => trivial

/-- Simplification keeps the marks right. -/
theorem wellMarked_simplify {e : Expr} (h : e.WellMarked) : e.simplify.WellMarked := by
  induction e with
  | const settled v => trivial
  | var settled => trivial
  | binary settled op l r ihLeft ihRight =>
      cases settled with
      | true => exact h
      | false =>
          obtain ⟨hLeft, hRight, -⟩ := h
          exact (rule_settleBinary op l.simplify r.simplify).wellMarked rfl (ihLeft hLeft)
            (ihRight hRight) (isSettled_simplify l) (isSettled_simplify r)
  | apply settled f arg ih =>
      cases settled with
      | true => exact h
      | false =>
          obtain ⟨hArg, -⟩ := h
          show (settleApply f arg.simplify).WellMarked
          cases hConst : arg.simplify.constant? with
          | some v =>
              unfold settleApply
              rw [hConst]
              trivial
          | none =>
              have hStays : settleApply f arg.simplify = apply true f arg.simplify := by
                unfold settleApply
                rw [hConst]
              rw [hStays]
              exact ⟨ih hArg, fun _ => ⟨isSettled_simplify arg, hStays⟩⟩

/-- The simplified form of a well marked expression does not depend on the marks. -/
theorem simplify_unsettled {e : Expr} (h : e.WellMarked) : e.unsettled.simplify = e.simplify := by
  induction e with
  | const settled v => rfl
  | var settled => rfl
  | binary settled op l r ihLeft ihRight =>
      obtain ⟨hLeft, hRight, hMark⟩ := h
      show settleBinary op l.unsettled.simplify r.unsettled.simplify = _
      rw [ihLeft hLeft, ihRight hRight]
      cases settled with
      | false => rfl
      | true =>
          obtain ⟨hLeftMark, hRightMark, hStays⟩ := hMark rfl
          rw [simplify_of_isSettled hLeftMark, simplify_of_isSettled hRightMark, hStays]
          rfl
  | apply settled f arg ih =>
      obtain ⟨hArg, hMark⟩ := h
      show settleApply f arg.unsettled.simplify = _
      rw [ih hArg]
      cases settled with
      | false => rfl
      | true =>
          obtain ⟨hArgMark, hStays⟩ := hMark rfl
          rw [simplify_of_isSettled hArgMark, hStays]
          rfl

/-! ## Differentiation -/

theorem wellMarked_number (v : Float) : (number v).WellMarked := trivial

theorem wellMarked_powerRule {l r l' r' whole : Expr} (hLeft : l.WellMarked)
    (hRight : r.WellMarked) (hLeft' : l'.WellMarked) (hRight' : r'.WellMarked)
    (hWhole : whole.WellMarked) : (powerRule l r l' r' whole).WellMarked := by
  unfold powerRule
  cases r.constant? with
  | some p =>
      have hPower := wellMarked_operation .pow hLeft (wellMarked_number (p - 1))
      exact wellMarked_operation .mul
        (wellMarked_operation .mul (wellMarked_number p) hPower) hLeft'
  | none =>
      have hQuotient :=
        wellMarked_operation .div (wellMarked_operation .mul hLeft' hRight) hLeft
      have hLog := wellMarked_operation .mul (wellMarked_application .ln hLeft) hRight'
      exact wellMarked_operation .mul hWhole (wellMarked_operation .add hQuotient hLog)

/-- The rules of differentiation put fresh nodes on top of well marked parts. -/
theorem wellMarked_binaryRule (op : Operator) {l r l' r' whole : Expr} (hLeft : l.WellMarked)
    (hRight : r.WellMarked) (hLeft' : l'.WellMarked) (hRight' : r'.WellMarked)
    (hWhole : whole.WellMarked) : (binaryRule op l r l' r' whole).WellMarked := by
  have hFirst := wellMarked_operation .mul hLeft' hRight
  have hSecond := wellMarked_operation .mul hLeft hRight'
  cases op with
  | add => exact wellMarked_operation .add hLeft' hRight'
  | sub => exact wellMarked_operation .sub hLeft' hRight'
  | mul => exact wellMarked_operation .add hFirst hSecond
  | div =>
      have hSquare := wellMarked_operation .pow hRight (wellMarked_number 2)
      exact wellMarked_operation .div (wellMarked_operation .sub hFirst hSecond) hSquare
  | pow => exact wellMarked_powerRule hLeft hRight hLeft' hRight' hWhole

theorem wellMarked_applyRule (f : Func) {arg arg' : Expr} (hArg : arg.WellMarked)
    (hArg' : arg'.WellMarked) : (applyRule f arg arg').WellMarked := by
  have hSecant (g : Func) : (operation .div (number 1)
      (operation .pow (application g arg) (number 2))).WellMarked :=
    wellMarked_operation .div (wellMarked_number 1)
      (wellMarked_operation .pow (wellMarked_application g hArg) (wellMarked_number 2))
  cases f with
  | sin => exact wellMarked_operation .mul (wellMarked_application .cos hArg) hArg'
  | cos =>
      exact wellMarked_operation .mul
        (wellMarked_application .neg (wellMarked_application .sin hArg)) hArg'
  | tan => exact wellMarked_operation .mul (hSecant .cos) hArg'
  | cot => exact wellMarked_operation .mul (wellMarked_application .neg (hSecant .sin)) hArg'
  | neg => exact wellMarked_application .neg hArg'
  | ln =>
      exact wellMarked_operation .mul
        (wellMarked_operation .div (wellMarked_number 1) hArg) hArg'

/-- Differentiation keeps the marks right. -/
theorem wellMarked_derivative {e : Expr} (h : e.WellMarked) : e.derivative.WellMarked := by
  induction e with
  | const settled v => exact wellMarked_simplify (wellMarked_number 0)
  | var settled => exact wellMarked_simplify (wellMarked_number 1)
  | binary settled op l r ihLeft ihRight =>
      exact wellMarked_simplify
        (wellMarked_binaryRule op h.1 h.2.1 (ihLeft h.1) (ihRight h.2.1) h)
  | apply settled f arg ih => exact wellMarked_simplify (wellMarked_applyRule f h.1 (ih h.1))

/-! ## Reading -/

/-- An expression that is read from a listing is well marked: none of its nodes is settled. -/
theorem wellMarked_of_ofPostOrder {tokens : List Token} {e : Expr}
    (h : ofPostOrder tokens = .ok e) : e.WellMarked := by
  rw [← (ofPostOrder_eq_ok_iff.1 h).2]
  exact wellMarked_unsettled e

end DerivCalc.Expr
