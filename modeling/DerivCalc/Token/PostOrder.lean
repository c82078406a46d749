import DerivCalc.Error
import DerivCalc.Token

/-!
# From infix order to post-order

Operands come out at once; operators and functions wait on a stack until their
operands are complete.  An operator is released by an operator that binds no
tighter, a function only by the bracket that closes its argument or by the end.
-/

namespace DerivCalc.Token.PostOrder

/-- The tokens released so far, latest first, and those that wait, latest first. -/
structure State where
  released : List Token
  waiting : List Token
deriving DecidableEq

/-- The operator on the stack is applied before `incoming`, which follows its right operand. -/
def appliesBefore (waiting : Token) (incoming : Operator) : Bool :=
  match waiting with
  | .op o =>
    incoming.priority < o.priority || (o.priority == incoming.priority && incoming.groupsLeft)
  | _ => false

/-- Releases waiting tokens as long as they satisfy `p`. -/
def State.releaseWhile (p : Token → Bool) (s : State) : State :=
  ⟨(s.waiting.takeWhile p).reverse ++ s.released, s.waiting.dropWhile p⟩

/--
The opening bracket found below a closed group is dropped, and a function in
front of it is released.
-/
def State.closeGroup (s : State) : Except Error State :=
  match s.waiting with
  | [] => .error .unopenedBracket
  | _ :: .func f :: rest => .ok ⟨.func f :: s.released, rest⟩
  | _ :: rest => .ok ⟨s.released, rest⟩

/-- Takes in the next token. -/
def State.push (s : State) (t : Token) : Except Error State :=
  match t with
  | .number _ => .ok ⟨t :: s.released, s.waiting⟩
  | .var => .ok ⟨t :: s.released, s.waiting⟩
  | .func _ => .ok ⟨s.released, t :: s.waiting⟩
  | .openBracket => .ok ⟨s.released, t :: s.waiting⟩
  | .op o =>
    let s := s.releaseWhile (appliesBefore · o)
    .ok ⟨s.released, t :: s.waiting⟩
  | .closeBracket => (s.releaseWhile (· ≠ .openBracket)).closeGroup

/-- Releases everything that still waits. -/
def State.finish (s : State) : Except Error (List Token) :=
  if s.waiting.contains .openBracket then .error .unclosedBracket
  else .ok (s.released.reverse ++ s.waiting)

/-- The tokens of an infix formula in post-order. -/
def ofInfix (tokens : List Token) : Except Error (List Token) := do
  let s ← tokens.foldlM State.push ⟨[], []⟩
  s.finish

end DerivCalc.Token.PostOrder
