import DerivCalc.Elementary
import DerivCalc.Expr

/-!
# Simplification

Expressions are simplified from the leaves up.  An operation on numbers becomes
the number it is worth.  Otherwise the rules of the operator apply:

* a sum has its number on the right, and `a + 0` is `a`;
* `0 - b` is the negation of `b`, and `a - 0` is `a`;
* a product has its number on the left, `0 * b` is `0` and `1 * b` is `b`;
* `0 / b` is `0`, and `a / 1` is `a`;
* `0 ^ b` is `0`, `1 ^ b` and `a ^ 0` are `1`, and `a ^ 1` is `a`.

A number counts as 0 or 1 if it is closer to it than `1e-10`.  The sides are
exchanged first, so that the other rules need to look at one side only.

The result is settled, and a settled node is returned as it stands.
-/

namespace DerivCalc.Expr

/-- Numbers closer than this are not told apart by the rules. -/
def tolerance : Float := 1e-10

/-- The expression is a number close to `target`. -/
def isClose (e : Expr) (target : Float) : Bool :=
  match e.constant? with
  | some value => (value - target).abs < tolerance
  | none => false

/-- The sum of two simplified expressions that are not both numbers. -/
def settleSum (left right : Expr) : Expr :=
  let (left, right) := if left.isConstant then (right, left) else (left, right)
  if right.isClose 0 then left
  else binary true .add left right

/-- The difference of two simplified expressions that are not both numbers. -/
def settleDifference (left right : Expr) : Expr :=
  if left.isClose 0 then apply true .neg right
  else if right.isClose 0 then left
  else binary true .sub left right

/-- The product of two simplified expressions that are not both numbers. -/
def settleProduct (left right : Expr) : Expr :=
  let (left, right) := if right.isConstant then (right, left) else (left, right)
  if left.isClose 0 then const true 0
  else if left.isClose 1 then right
  else binary true .mul left right

/-- The quotient of two simplified expressions that are not both numbers. -/
def settleQuotient (left right : Expr) : Expr :=
  if left.isClose 0 then const true 0
  else if right.isClose 1 then left
  else binary true .div left right

/-- The power of two simplified expressions that are not both numbers. -/
def settlePower (left right : Expr) : Expr :=
  if left.isClose 0 then const true 0
  else if left.isClose 1 then const true 1
  else if right.isClose 0 then const true 1
  else if right.isClose 1 then left
  else binary true .pow left right

variable [Elementary]

/-- The simplified operation on two simplified expressions. -/
def settleBinary (op : Operator) (left right : Expr) : Expr :=
  match left.constant?, right.constant? with
  | some v, some w => const true (op.apply v w)
  | _, _ =>
    match op with
    | .add => settleSum left right
    | .sub => settleDifference left right
    | .mul => settleProduct left right
    | .div => settleQuotient left right
    | .pow => settlePower left right

/-- The simplified application of a function to a simplified expression. -/
def settleApply (f : Func) (arg : Expr) : Expr :=
  match arg.constant? with
  | some v => const true (f.apply v)
  | none => apply true f arg

/-- The simplified form of an expression. -/
def simplify : Expr → Expr
  | const _ value => const true value
  | var _ => var true
  | binary settled op left right =>
    if settled then binary settled op left right
    else settleBinary op left.simplify right.simplify
  | apply settled f arg =>
    if settled then apply settled f arg
    else settleApply f arg.simplify

/-- A settled expression is its own simplified form. -/
theorem simplify_of_isSettled {e : Expr} (h : e.isSettled = true) : e.simplify = e := by
  cases e with
  | const settled value => simp_all [isSettled, simplify]
  | var settled => simp_all [isSettled, simplify]
  | binary settled op left right => simp_all [isSettled, simplify]
  | apply settled f arg => simp_all [isSettled, simplify]

end DerivCalc.Expr
