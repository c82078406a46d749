/-!
# Operators and functions

The five binary operators with their priorities, and the six unary functions.
Negation is a function like the others, except that it has no name in a formula:
it is written as a minus sign without a left operand.
-/

namespace DerivCalc

/-- A binary operator. -/
inductive Operator where
  | add
  | sub
  | mul
  | div
  | pow
deriving DecidableEq, Repr

namespace Operator

/-- The sign that is written for the operator. -/
def symbol : Operator → Char
  | add => '+'
  | sub => '-'
  | mul => '*'
  | div => '/'
  | pow => '^'

/-- The operator that a character stands for. -/
def ofSymbol? (c : Char) : Option Operator :=
  [add, sub, mul, div, pow].find? fun op => op.symbol == c

/-- Operators of higher priority bind tighter. -/
def priority : Operator → Nat
  | add => 1
  | sub => 1
  | mul => 2
  | div => 2
  | pow => 3

/-- Among operators of one priority the left one is applied first; only powers group to the right. -/
def groupsLeft : Operator → Bool
  | pow => false
  | _ => true

end Operator

/-- A unary function. -/
inductive Func where
  | sin
  | cos
  | tan
  | cot
  | neg
  | ln
deriving DecidableEq, Repr

namespace Func

/-- The name of the function. -/
def name : Func → String
  | sin => "sin"
  | cos => "cos"
  | tan => "tan"
  | cot => "cot"
  | neg => "neg"
  | ln => "ln"

/-- The functions that are written by their names. -/
def named : List Func := [sin, cos, tan, cot, ln]

/-- The function that a name in a formula stands for. -/
def ofName? (name : List Char) : Option Func :=
  named.find? fun f => f.name.toList == name

end Func

end DerivCalc
