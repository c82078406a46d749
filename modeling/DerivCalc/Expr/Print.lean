import DerivCalc.Decimal.Significant
import DerivCalc.Expr

/-!
# Printing expressions

An expression is printed in infix order with as few brackets as possible.  An
operand of an operator is put in brackets if it would otherwise be grouped
differently: a left operand of lower priority, or of the same priority under an
operator that groups to the right; a right operand of lower priority, or of the
same priority under an operator that groups to the left.  Negations and negative
numbers are always in brackets as operands.
-/

namespace DerivCalc.Expr

/-- An expression that starts with a minus sign when printed. -/
def startsWithMinus : Expr → Bool
  | const _ value => value < 0
  | apply _ f _ => f == .neg
  | _ => false

/-- The expression is in brackets as left operand of `op`. -/
def bracketsLeft (e : Expr) (op : Operator) : Bool :=
  match e with
  | binary _ inner _ _ =>
    inner.priority < op.priority || (inner.priority == op.priority && !op.groupsLeft)
  | e => e.startsWithMinus

/-- The expression is in brackets as right operand of `op`. -/
def bracketsRight (e : Expr) (op : Operator) : Bool :=
  match e with
  | binary _ inner _ _ =>
    inner.priority < op.priority || (inner.priority == op.priority && op.groupsLeft)
  | e => e.startsWithMinus

/-- The text, in brackets if they are needed. -/
def wrap (needed : Bool) (text : List Char) : List Char :=
  if needed then '(' :: text ++ [')'] else text

/-- The text of an expression, with numbers of `precision` significant digits. -/
def print (precision : Nat) : Expr → List Char
  | const _ value => Decimal.Significant.text value precision
  | var _ => ['x']
  | binary _ op left right =>
    wrap (left.bracketsLeft op) (left.print precision) ++
      ' ' :: op.symbol :: ' ' :: wrap (right.bracketsRight op) (right.print precision)
  | apply _ f arg =>
    (if f = .neg then ['-'] else f.name.toList) ++ '(' :: arg.print precision ++ [')']

end DerivCalc.Expr
