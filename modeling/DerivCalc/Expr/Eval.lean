import DerivCalc.Elementary
import DerivCalc.Expr

/-!
# Values of expressions
-/

namespace DerivCalc.Expr

variable [Elementary]

/-- The value of the expression at `x`; it may be infinite or NaN. -/
def eval (x : Float) : Expr → Float
  | const _ value => value
  | var _ => x
  | binary _ op left right => op.apply (left.eval x) (right.eval x)
  | apply _ f arg => f.apply (arg.eval x)

/-- The value does not depend on the marks. -/
@[simp] theorem eval_unsettled (x : Float) (e : Expr) : e.unsettled.eval x = e.eval x := by
  induction e with
  | const settled value => rfl
  | var settled => rfl
  | binary settled op left right ihLeft ihRight => simp [unsettled, eval, ihLeft, ihRight]
  | apply settled f arg ih => simp [unsettled, eval, ih]

end DerivCalc.Expr
