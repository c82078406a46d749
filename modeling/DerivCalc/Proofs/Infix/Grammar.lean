import DerivCalc.Expr

/-!
# Infix formulas

The grammar of formulas over tokens:

* a group is a chain, or a negation sign and a chain;
* a chain is a sequence of operands with an operator between neighbours;
* an operand is a number, the variable, a group in brackets, or the name of a function
  with a group in brackets.

Each group stands for a tree of fresh nodes.  Brackets leave no trace in it, a function
is applied to its group, and a negation sign to the whole chain after it.  The operators of a
chain are joined in three passes: powers from the right, then products and quotients from
the left, then sums and differences from the left.
-/

namespace DerivCalc.Infix

/-! ## Sentences -/

mutual

/-- A chain of operands, or the negation of one. -/
inductive Group where
  | chain (first : Operand) (rest : Tail)
  | negated (first : Operand) (rest : Tail)

/-- What stands on either side of an operator. -/
inductive Operand where
  | number (value : Float)
  | var
  | bracketed (inner : Group)
  /-- Negation is a sign and has no name. -/
  | call (f : Func) (isNamed : f ≠ .neg) (inner : Group)

/-- What follows the first operand of a chain. -/
inductive Tail where
  | nil
  | cons (op : Operator) (operand : Operand) (rest : Tail)

end

mutual

/-- The tokens of a group. -/
def Group.tokens : Group → List Token
  | .chain first rest => first.tokens ++ rest.tokens
  | .negated first rest => .func .neg :: (first.tokens ++ rest.tokens)

/-- The tokens of an operand. -/
def Operand.tokens : Operand → List Token
  | .number value => [.number value]
  | .var => [.var]
  | .bracketed inner => .openBracket :: (inner.tokens ++ [.closeBracket])
  | .call f _ inner => .func f :: .openBracket :: (inner.tokens ++ [.closeBracket])

/-- The tokens of the rest of a chain. -/
def Tail.tokens : Tail → List Token
  | .nil => []
  | .cons op operand rest => .op op :: (operand.tokens ++ rest.tokens)

end

/-! ## Negations in front of brackets -/

/-- The operand is a group in plain brackets. -/
def Operand.isBracketed : Operand → Bool
  | .bracketed _ => true
  | _ => false

mutual

/--
Every negated chain that starts with a group in plain brackets ends with it.  In front of
any other chain `-(a) + b` would read as the sum of `-(a)` and `b`.
-/
def Group.Clear : Group → Prop
  | .chain first rest => first.Clear ∧ rest.Clear
  | .negated first rest =>
    first.Clear ∧ rest.Clear ∧ (first.isBracketed = true → rest = .nil)

/-- The same of all groups in an operand. -/
def Operand.Clear : Operand → Prop
  | .number _ => True
  | .var => True
  | .bracketed inner => inner.Clear
  | .call _ _ inner => inner.Clear

/-- The same of all groups in the rest of a chain. -/
def Tail.Clear : Tail → Prop
  | .nil => True
  | .cons _ operand rest => operand.Clear ∧ rest.Clear

end

/-! ## Trees -/

/-- Joins the powers of a chain, the last one first. -/
def joinPowers (first : Expr) : List (Operator × Expr) → Expr × List (Operator × Expr)
  | [] => (first, [])
  | (op, e) :: rest =>
    let joined := joinPowers e rest
    if op = .pow then (Expr.operation .pow first joined.1, joined.2)
    else (first, (op, joined.1) :: joined.2)

/-- Joins the operations of a chain whose operators are among `ops`, the first one first. -/
def joinLeft (ops : List Operator) (first : Expr) :
    List (Operator × Expr) → Expr × List (Operator × Expr)
  | [] => (first, [])
  | (op, e) :: rest =>
    if op ∈ ops then joinLeft ops (Expr.operation op first e) rest
    else
      let joined := joinLeft ops e rest
      (first, (op, joined.1) :: joined.2)

/-- The tree of a chain of trees: powers bind tightest, then products and quotients. -/
def ofChain (first : Expr) (rest : List (Operator × Expr)) : Expr :=
  let powers := joinPowers first rest
  let products := joinLeft [.mul, .div] powers.1 powers.2
  (joinLeft [.add, .sub] products.1 products.2).1

/-- `a - b * c ^ d ^ e / f + g` for the operands `1` to `7`. -/
example : ofChain (.number 1) [(.sub, .number 2), (.mul, .number 3), (.pow, .number 4),
      (.pow, .number 5), (.div, .number 6), (.add, .number 7)] =
    .operation .add
      (.operation .sub (.number 1)
        (.operation .div
          (.operation .mul (.number 2)
            (.operation .pow (.number 3) (.operation .pow (.number 4) (.number 5))))
          (.number 6)))
      (.number 7) := rfl

mutual

/-- The tree that a group stands for. -/
def Group.tree : Group → Expr
  | .chain first rest => ofChain first.tree rest.trees
  | .negated first rest => Expr.application .neg (ofChain first.tree rest.trees)

/-- The tree that an operand stands for. -/
def Operand.tree : Operand → Expr
  | .number value => Expr.number value
  | .var => Expr.var false
  | .bracketed inner => inner.tree
  | .call f _ inner => Expr.application f inner.tree

/-- The operators of the rest of a chain, with the trees of their right operands. -/
def Tail.trees : Tail → List (Operator × Expr)
  | .nil => []
  | .cons op operand rest => (op, operand.tree) :: rest.trees

end

/-! ## The rest of a chain as a list -/

/-- The operators of the rest of a chain, with their right operands. -/
def Tail.toList : Tail → List (Operator × Operand)
  | .nil => []
  | .cons op operand rest => (op, operand) :: rest.toList

/-- The tokens of a chain. -/
def chainTokens (first : Operand) (rest : List (Operator × Operand)) : List Token :=
  first.tokens ++ rest.flatMap fun p => .op p.1 :: p.2.tokens

theorem Tail.tokens_eq : ∀ rest : Tail,
    rest.tokens = rest.toList.flatMap fun p => .op p.1 :: p.2.tokens
  | .nil => by simp [Tail.tokens, Tail.toList]
  | .cons op operand rest => by
      rw [Tail.tokens, Tail.toList, List.flatMap_cons, Tail.tokens_eq rest, List.cons_append]

theorem Tail.trees_eq : ∀ rest : Tail,
    rest.trees = rest.toList.map fun p => (p.1, p.2.tree)
  | .nil => by simp [Tail.trees, Tail.toList]
  | .cons op operand rest => by
      rw [Tail.trees, Tail.toList, List.map_cons, Tail.trees_eq rest]

end DerivCalc.Infix
