import DerivCalc.Proofs.Elementary
import DerivCalc.Proofs.Engine.Made

/-!
# Simplifying a derivative once or at every level

`derivative` simplifies after every rule, `plainDerivative` never does.  Simplifying the
latter once, with all marks taken off, gives the former.  The reason is that the simplified
form of an operation is determined by those of its operands: a rule of differentiation may
be given derivatives that have been simplified before or not, and parts with their marks
or without.
-/

namespace DerivCalc.Expr

/-! ## Marks and the rules of differentiation -/

theorem constant?_unsettled (e : Expr) : e.unsettled.constant? = e.constant? := by
  cases e <;> rfl

/-- Whether an exponent is a number does not depend on its mark. -/
theorem unsettled_powerRule (l r l' r' whole : Expr) :
    (powerRule l r l' r' whole).unsettled =
      powerRule l.unsettled r.unsettled l'.unsettled r'.unsettled whole.unsettled := by
  unfold powerRule
  rw [constant?_unsettled]
  cases r.constant? with
  | some p => rfl
  | none => rfl

/-- Taking the marks off a rule is taking them off its parts. -/
theorem unsettled_binaryRule (op : Operator) (l r l' r' whole : Expr) :
    (binaryRule op l r l' r' whole).unsettled =
      binaryRule op l.unsettled r.unsettled l'.unsettled r'.unsettled whole.unsettled := by
  cases op with
  | pow => exact unsettled_powerRule l r l' r' whole
  | _ => rfl

theorem unsettled_applyRule (f : Func) (arg arg' : Expr) :
    (applyRule f arg arg').unsettled = applyRule f arg.unsettled arg'.unsettled := by
  cases f <;> rfl

/-! ## A rule sees derivatives through their simplified forms only -/

section

variable [Elementary]

theorem simplify_operation (op : Operator) (l r : Expr) :
    (operation op l r).simplify = settleBinary op l.simplify r.simplify := rfl

theorem simplify_application (f : Func) (arg : Expr) :
    (application f arg).simplify = settleApply f arg.simplify := rfl

theorem simplify_powerRule_congr {l r l₁ r₁ l₂ r₂ whole : Expr}
    (hLeft : l₁.simplify = l₂.simplify) (hRight : r₁.simplify = r₂.simplify) :
    (powerRule l r l₁ r₁ whole).simplify = (powerRule l r l₂ r₂ whole).simplify := by
  unfold powerRule
  cases r.constant? with
  | some p => simp only [simplify_operation, hLeft]
  | none => simp only [simplify_operation, hLeft, hRight]

theorem simplify_binaryRule_congr (op : Operator) {l r l₁ r₁ l₂ r₂ whole : Expr}
    (hLeft : l₁.simplify = l₂.simplify) (hRight : r₁.simplify = r₂.simplify) :
    (binaryRule op l r l₁ r₁ whole).simplify = (binaryRule op l r l₂ r₂ whole).simplify := by
  cases op with
  | pow => exact simplify_powerRule_congr hLeft hRight
  | _ => simp only [binaryRule, simplify_operation, hLeft, hRight]

theorem simplify_applyRule_congr (f : Func) {arg arg₁ arg₂ : Expr}
    (hArg : arg₁.simplify = arg₂.simplify) :
    (applyRule f arg arg₁).simplify = (applyRule f arg arg₂).simplify := by
  cases f with
  | neg => simp only [applyRule, simplify_application, hArg]
  | _ => simp only [applyRule, simplify_operation, hArg]

/-! ## The derivative -/

/-- A derivative without its marks is simplified to the derivative again. -/
theorem simplify_unsettled_derivative {e : Expr} (h : e.WellMarked) :
    e.derivative.unsettled.simplify = e.derivative := by
  rw [simplify_unsettled (wellMarked_derivative h),
    simplify_of_isSettled (isSettled_derivative e)]

/-- Simplifying at every level gives the simplified form of the plain derivative. -/
theorem derivative_eq_simplify_unsettled {e : Expr} (h : e.WellMarked) :
    e.derivative = e.plainDerivative.unsettled.simplify := by
  induction e with
  | const settled v => rfl
  | var settled => rfl
  | binary settled op l r ihLeft ihRight =>
      obtain ⟨hLeft, hRight, -⟩ := id h
      have hParts := wellMarked_binaryRule op hLeft hRight (wellMarked_derivative hLeft)
        (wellMarked_derivative hRight) h
      have hLeft' : l.derivative.unsettled.simplify = l.plainDerivative.unsettled.simplify := by
        rw [simplify_unsettled_derivative hLeft, ihLeft hLeft]
      have hRight' : r.derivative.unsettled.simplify = r.plainDerivative.unsettled.simplify := by
        rw [simplify_unsettled_derivative hRight, ihRight hRight]
      unfold derivative plainDerivative
      rw [← simplify_unsettled hParts, unsettled_binaryRule, unsettled_binaryRule]
      exact simplify_binaryRule_congr op hLeft' hRight'
  | apply settled f arg ih =>
      obtain ⟨hArg, -⟩ := id h
      have hParts := wellMarked_applyRule f hArg (wellMarked_derivative hArg)
      have hArg' :
          arg.derivative.unsettled.simplify = arg.plainDerivative.unsettled.simplify := by
        rw [simplify_unsettled_derivative hArg, ih hArg]
      unfold derivative plainDerivative
      rw [← simplify_unsettled hParts, unsettled_applyRule, unsettled_applyRule]
      exact simplify_applyRule_congr f hArg'

end

end DerivCalc.Expr

namespace DerivCalc.Engine

/--
The derivative of an expression that the engine made is the simplified form of its plain
derivative, and the engine computes nothing else within its limit.
-/
theorem derivative_eq_simplify_plainDerivative [Elementary] {e : Expr} (h : Made e) :
    e.derivative = e.plainDerivative.unsettled.simplify ∧
      derivative e =
        (within maxDerivativeLevels e).map fun e => e.plainDerivative.unsettled.simplify := by
  have hPlain := Expr.derivative_eq_simplify_unsettled h.wellMarked
  refine ⟨hPlain, ?_⟩
  unfold derivative within
  split
  · exact congrArg Except.ok hPlain
  · rfl

attribute [local instance] Elementary.specialArguments

/-- `sin(x) ^ x` as it is parsed, with all of its marks. -/
def sinePower : Expr :=
  .binary true .pow (.apply true .sin (.var true)) (.var true)

/-- The general rule for powers applied to an expression that is settled already. -/
theorem derivative_sinePower :
    parse "sin(x) ^ x" = .ok sinePower ∧
      sinePower.derivative = sinePower.plainDerivative.unsettled.simplify := by
  have hParse : parse "sin(x) ^ x" = .ok sinePower := by decide +kernel
  exact ⟨hParse, (derivative_eq_simplify_plainDerivative (.parsed hParse)).1⟩

end DerivCalc.Engine
