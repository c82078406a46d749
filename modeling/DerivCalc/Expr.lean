import DerivCalc.Token

/-!
# Expressions

A formula in the variable `x` as a tree.  Each node carries a mark that says
whether it is *settled*: the result of simplification, which a second
simplification leaves alone.  Freshly built nodes are not settled.
-/

namespace DerivCalc

/-- A formula in `x`. -/
inductive Expr where
  | const (settled : Bool) (value : Float)
  | var (settled : Bool)
  | binary (settled : Bool) (op : Operator) (left right : Expr)
  | apply (settled : Bool) (f : Func) (arg : Expr)
deriving DecidableEq

namespace Expr

/-! ## Fresh nodes -/

/-- A fresh number. -/
def number (value : Float) : Expr := const false value

/-- A fresh operation. -/
def operation (op : Operator) (left right : Expr) : Expr := binary false op left right

/-- A fresh function application. -/
def application (f : Func) (arg : Expr) : Expr := apply false f arg

/-! ## Views -/

/-- The mark of the topmost node. -/
def isSettled : Expr → Bool
  | const settled _ => settled
  | var settled => settled
  | binary settled _ _ _ => settled
  | apply settled _ _ => settled

/-- The number that the expression is, if it is one. -/
def constant? : Expr → Option Float
  | const _ value => some value
  | _ => none

/-- The expression is a number. -/
def isConstant (e : Expr) : Bool := e.constant?.isSome

/-- The topmost node as a token. -/
def head : Expr → Token
  | const _ value => .number value
  | var _ => .var
  | binary _ op _ _ => .op op
  | apply _ f _ => .func f

/-- All nodes, parents before children and left before right. -/
def nodes : Expr → List Expr
  | const settled value => [const settled value]
  | var settled => [var settled]
  | binary settled op left right => binary settled op left right :: (left.nodes ++ right.nodes)
  | apply settled f arg => apply settled f arg :: arg.nodes

/-- The tokens of all nodes in post-order: children before parents and left before right. -/
def postOrder : Expr → List Token
  | const _ value => [.number value]
  | var _ => [.var]
  | binary _ op left right => left.postOrder ++ right.postOrder ++ [.op op]
  | apply _ f arg => arg.postOrder ++ [.func f]

/-- The number of levels. -/
def depth : Expr → Nat
  | const _ _ => 1
  | var _ => 1
  | binary _ _ left right => max left.depth right.depth + 1
  | apply _ _ arg => arg.depth + 1

/-- The same expression with no node settled. -/
def unsettled : Expr → Expr
  | const _ value => const false value
  | var _ => var false
  | binary _ op left right => binary false op left.unsettled right.unsettled
  | apply _ f arg => apply false f arg.unsettled

/--
Equality of shape, with numbers compared by value: NaN differs from itself, the
two zeros are the same.
-/
def same : Expr → Expr → Bool
  | const _ v, const _ w => v == w
  | var _, var _ => true
  | binary _ op left right, binary _ op' left' right' =>
    op == op' && left.same left' && right.same right'
  | apply _ f arg, apply _ f' arg' => f == f' && arg.same arg'
  | _, _ => false

/-- Some node is a number. -/
def hasNumber : Expr → Bool
  | const _ _ => true
  | var _ => false
  | binary _ _ left right => left.hasNumber || right.hasNumber
  | apply _ _ arg => arg.hasNumber

/-! ## What taking the marks off keeps -/

@[simp] theorem isSettled_unsettled (e : Expr) : e.unsettled.isSettled = false := by
  cases e <;> rfl

@[simp] theorem unsettled_unsettled (e : Expr) : e.unsettled.unsettled = e.unsettled := by
  induction e with
  | const settled value => rfl
  | var settled => rfl
  | binary settled op left right ihLeft ihRight => simp [unsettled, ihLeft, ihRight]
  | apply settled f arg ih => simp [unsettled, ih]

@[simp] theorem depth_unsettled (e : Expr) : e.unsettled.depth = e.depth := by
  induction e with
  | const settled value => rfl
  | var settled => rfl
  | binary settled op left right ihLeft ihRight => simp [unsettled, depth, ihLeft, ihRight]
  | apply settled f arg ih => simp [unsettled, depth, ih]

@[simp] theorem postOrder_unsettled (e : Expr) : e.unsettled.postOrder = e.postOrder := by
  induction e with
  | const settled value => rfl
  | var settled => rfl
  | binary settled op left right ihLeft ihRight => simp [unsettled, postOrder, ihLeft, ihRight]
  | apply settled f arg ih => simp [unsettled, postOrder, ih]

theorem depth_pos (e : Expr) : 0 < e.depth := by
  cases e <;> simp [depth]

end Expr

end DerivCalc
