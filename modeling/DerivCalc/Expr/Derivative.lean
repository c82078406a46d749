import DerivCalc.Expr.Simplify

/-!
# Derivatives

The rules of differentiation as formulas over fresh nodes, and two ways of using
them: `plainDerivative` applies them all the way down without simplifying,
`derivative` simplifies after every rule.

A power whose exponent is a number follows the power rule, which keeps the
logarithm out of polynomials; every other power follows the general rule.
-/

namespace DerivCalc.Expr

/-- The derivative of `left ^ right`, given the derivatives of both. -/
def powerRule (left right left' right' : Expr) (whole : Expr) : Expr :=
  match right.constant? with
  | some p =>
    operation .mul
      (operation .mul (number p) (operation .pow left (number (p - 1)))) left'
  | none =>
    operation .mul whole
      (operation .add
        (operation .div (operation .mul left' right) left)
        (operation .mul (application .ln left) right'))

/-- The derivative of the operation `whole = left op right`, given the derivatives of both sides. -/
def binaryRule (op : Operator) (left right left' right' : Expr) (whole : Expr) : Expr :=
  match op with
  | .add => operation .add left' right'
  | .sub => operation .sub left' right'
  | .mul => operation .add (operation .mul left' right) (operation .mul left right')
  | .div =>
    operation .div
      (operation .sub (operation .mul left' right) (operation .mul left right'))
      (operation .pow right (number 2))
  | .pow => powerRule left right left' right' whole

/-- The derivative of `f arg`, given the derivative of the argument: the chain rule. -/
def applyRule (f : Func) (arg arg' : Expr) : Expr :=
  match f with
  | .sin => operation .mul (application .cos arg) arg'
  | .cos => operation .mul (application .neg (application .sin arg)) arg'
  | .tan =>
    operation .mul
      (operation .div (number 1) (operation .pow (application .cos arg) (number 2))) arg'
  | .cot =>
    operation .mul
      (application .neg
        (operation .div (number 1) (operation .pow (application .sin arg) (number 2)))) arg'
  | .neg => application .neg arg'
  | .ln => operation .mul (operation .div (number 1) arg) arg'

/-- The derivative by the rules alone, with nothing simplified. -/
def plainDerivative : Expr → Expr
  | const _ _ => number 0
  | var _ => number 1
  | binary settled op left right =>
    binaryRule op left right left.plainDerivative right.plainDerivative
      (binary settled op left right)
  | apply _ f arg => applyRule f arg arg.plainDerivative

variable [Elementary]

/-- The simplified derivative of an expression. -/
def derivative : Expr → Expr
  | const _ _ => simplify (number 0)
  | var _ => simplify (number 1)
  | binary settled op left right =>
    simplify (binaryRule op left right left.derivative right.derivative
      (binary settled op left right))
  | apply _ f arg => simplify (applyRule f arg arg.derivative)

end DerivCalc.Expr
