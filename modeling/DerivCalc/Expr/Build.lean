import DerivCalc.Error
import DerivCalc.Expr

/-!
# From post-order to expressions

Each operand is put on a stack; an operator takes the two latest operands, a
function the latest one, and puts its result back.  A list of tokens is the
post-order of an expression iff this ends with exactly one operand.
-/

namespace DerivCalc.Expr

/-- Takes in the next token of a post-order listing; the latest operand comes first. -/
def push (operands : List Expr) (t : Token) : Except Error (List Expr) :=
  match t, operands with
  | .number value, _ => .ok (number value :: operands)
  | .var, _ => .ok (var false :: operands)
  | .func f, arg :: rest => .ok (application f arg :: rest)
  | .func _, [] => .error .missingArgument
  | .op op, right :: left :: rest => .ok (operation op left right :: rest)
  | .op _, _ => .error .missingOperand
  | .openBracket, _ => .error .danglingOperands
  | .closeBracket, _ => .error .danglingOperands

/-- Taking in the listing of an expression puts exactly that expression on the stack. -/
theorem foldlM_push_postOrder (e : Expr) (operands : List Expr) :
    e.postOrder.foldlM push operands = .ok (e.unsettled :: operands) := by
  induction e generalizing operands with
  | const settled value => rfl
  | var settled => rfl
  | binary settled op left right ihLeft ihRight =>
      simp only [postOrder, List.foldlM_append, ihLeft, ihRight, bind, Except.bind]
      rfl
  | apply settled f arg ih =>
      simp only [postOrder, List.foldlM_append, ih, bind, Except.bind]
      rfl

/-- The expression with this post-order listing, with no node settled. -/
def ofPostOrder (tokens : List Token) : Except Error Expr := do
  match ← tokens.foldlM push [] with
  | [] => throw .emptyExpression
  | [e] => return e
  | _ => throw .danglingOperands

/-- The listing of an expression is read back as that expression. -/
theorem ofPostOrder_postOrder (e : Expr) : ofPostOrder e.postOrder = .ok e.unsettled := by
  simp only [ofPostOrder, foldlM_push_postOrder, bind, Except.bind]
  rfl

end DerivCalc.Expr
