import DerivCalc.Expr.Build
import DerivCalc.Proofs.Token.Conservation
import DerivCalc.Proofs.Token.PostOrder

/-!
# Phrases

Every list of tokens with matching brackets has a structure, whether it is a sentence or not:

* a phrase is a row, or several rows with an operator between neighbours;
* a row is any number of pieces side by side, also none;
* a piece is a number, the variable, a phrase in brackets, or a function.

A function takes the next group in brackets of its row as its argument, if only operands and
complete calls come before it; otherwise it reaches to the end of its group.  The operators of a
phrase are grouped by precedence, as in a chain of single operands.

So the sentences are the phrases whose rows are single operands.  In any other phrase
the pieces still make expressions, each out of the results that are there when it is
complete: an operator takes the two latest ones, wherever they come from.
-/

namespace DerivCalc.Infix

open Token.PostOrder

/-- A list of tokens with matching brackets, by its structure. -/
inductive Phrase where
  | empty
  | number (value : Float)
  | var
  | bracketed (inner : Phrase)
  | beside (left right : Phrase)
  /-- A function, what stands between it and its argument, and the argument in brackets. -/
  | call (f : Func) (between inner : Phrase)
  /-- A function without an argument in brackets, and all that follows it in its group. -/
  | reaching (f : Func) (rest : Phrase)
  | joined (op : Operator) (left right : Phrase)

namespace Phrase

/-- The tokens of a phrase. -/
def tokens : Phrase → List Token
  | empty => []
  | number value => [.number value]
  | var => [.var]
  | bracketed inner => .openBracket :: (inner.tokens ++ [.closeBracket])
  | beside left right => left.tokens ++ right.tokens
  | call f between inner =>
    .func f :: (between.tokens ++ .openBracket :: (inner.tokens ++ [.closeBracket]))
  | reaching f rest => .func f :: rest.tokens
  | joined op left right => left.tokens ++ .op op :: right.tokens

/-! ## Well-placed phrases -/

/-- The operators between the rows of a phrase. -/
def operators : Phrase → List Operator
  | joined op left right => left.operators ++ op :: right.operators
  | _ => []

/-- The last row ends with a function that reaches to the end. -/
def endsReaching : Phrase → Bool
  | beside _ right => right.endsReaching
  | joined _ _ right => right.endsReaching
  | reaching _ _ => true
  | _ => false

/-- A single row, all of whose functions have their arguments. -/
def IsRow (p : Phrase) : Prop := p.operators = [] ∧ p.endsReaching = false

/-- The first row has a group in brackets that a function before it takes as its argument. -/
def offersGroup : Phrase → Bool
  | bracketed _ => true
  | beside left right => left.offersGroup || right.offersGroup
  | joined _ left _ => left.offersGroup
  | _ => false

/--
Every part is in a place where it can be: pieces stand side by side in one row, functions have
the arguments that they take, and operators are grouped by precedence.
-/
def Placed : Phrase → Prop
  | empty => True
  | number _ => True
  | var => True
  | bracketed inner => inner.Placed
  | beside left right => left.Placed ∧ right.Placed ∧ left.IsRow ∧ right.operators = []
  | call _ between inner =>
    between.Placed ∧ inner.Placed ∧ between.IsRow ∧ between.offersGroup = false
  | reaching _ rest => rest.Placed ∧ rest.offersGroup = false
  | joined op left right =>
    left.Placed ∧ right.Placed ∧ left.endsReaching = false ∧
      (∀ o ∈ left.operators, appliesBefore (.op o) op = true) ∧
      ∀ o ∈ right.operators, appliesBefore (.op op) o = false

/-! ## What a phrase makes -/

/-- A function takes the latest result. -/
def applyLatest (f : Func) : List Expr → Option (List Expr)
  | arg :: rest => some (Expr.application f arg :: rest)
  | [] => none

/-- An operator takes the two latest results. -/
def joinLatest (op : Operator) : List Expr → Option (List Expr)
  | right :: left :: rest => some (Expr.operation op left right :: rest)
  | _ => none

/--
The results that are there after a phrase, latest first, if `results` were there before it: a
function is applied at the end of its argument, an operator at the end of its right side.
-/
def makes : Phrase → List Expr → Option (List Expr)
  | empty, results => some results
  | number value, results => some (Expr.number value :: results)
  | var, results => some (Expr.var false :: results)
  | bracketed inner, results => inner.makes results
  | beside left right, results => left.makes results >>= right.makes
  | call f between inner, results => between.makes results >>= inner.makes >>= applyLatest f
  | reaching f rest, results => rest.makes results >>= applyLatest f
  | joined op left right, results => left.makes results >>= right.makes >>= joinLatest op

/-- `x + * 2 3` makes `x + 2 * 3`: the product takes the two numbers after it. -/
example : (joined .add var (joined .mul empty (beside (number 2) (number 3)))).makes [] =
    some [.operation .add (.var false) (.operation .mul (.number 2) (.number 3))] := rfl

/-- The tokens other than brackets in the order in which they take effect. -/
def listing : Phrase → List Token
  | empty => []
  | number value => [.number value]
  | var => [.var]
  | bracketed inner => inner.listing
  | beside left right => left.listing ++ right.listing
  | call f between inner => between.listing ++ inner.listing ++ [.func f]
  | reaching f rest => rest.listing ++ [.func f]
  | joined op left right => left.listing ++ right.listing ++ [.op op]

theorem push_func_eq_ok_iff {f : Func} {results made : List Expr} :
    Expr.push results (.func f) = .ok made ↔ applyLatest f results = some made := by
  cases results with
  | nil => simp [Expr.push, applyLatest]
  | cons arg rest => simp [Expr.push, applyLatest]

theorem push_op_eq_ok_iff {op : Operator} {results made : List Expr} :
    Expr.push results (.op op) = .ok made ↔ joinLatest op results = some made := by
  match results with
  | [] => simp [Expr.push, joinLatest]
  | [_] => simp [Expr.push, joinLatest]
  | right :: left :: rest => simp [Expr.push, joinLatest]

/-- What a phrase makes is read off its listing. -/
theorem foldlM_push_listing_eq_ok_iff (p : Phrase) :
    ∀ {results made : List Expr},
      p.listing.foldlM Expr.push results = .ok made ↔ p.makes results = some made := by
  induction p with
  | empty => simp [listing, makes, pure, Except.pure]
  | number value => simp [listing, makes, Expr.push, pure, Except.pure, bind, Except.bind]
  | var => simp [listing, makes, Expr.push, pure, Except.pure, bind, Except.bind]
  | bracketed inner ih => exact ih
  | beside left right ihLeft ihRight =>
      simp only [listing, makes, List.foldlM_append, Result.bind_eq_ok_iff,
        Option.bind_eq_bind, Option.bind_eq_some_iff, ihLeft, ihRight, implies_true]
  | call f between inner ihBetween ihInner =>
      simp only [listing, makes, List.foldlM_append, Result.bind_eq_ok_iff,
        Option.bind_eq_bind, Option.bind_eq_some_iff, ihBetween, ihInner, List.foldlM_cons,
        List.foldlM_nil, bind_pure, push_func_eq_ok_iff, implies_true]
  | reaching f rest ih =>
      simp only [listing, makes, List.foldlM_append, Result.bind_eq_ok_iff,
        Option.bind_eq_bind, Option.bind_eq_some_iff, ih, List.foldlM_cons, List.foldlM_nil,
        bind_pure, push_func_eq_ok_iff, implies_true]
  | joined op left right ihLeft ihRight =>
      simp only [listing, makes, List.foldlM_append, Result.bind_eq_ok_iff,
        Option.bind_eq_bind, Option.bind_eq_some_iff, ihLeft, ihRight, List.foldlM_cons,
        List.foldlM_nil, bind_pure, push_op_eq_ok_iff, implies_true]

/-- The listing of a phrase is read as an expression iff the phrase makes just this one. -/
theorem ofPostOrder_listing_eq_ok_iff {p : Phrase} {e : Expr} :
    Expr.ofPostOrder p.listing = .ok e ↔ p.makes [] = some [e] := by
  unfold Expr.ofPostOrder
  rw [Result.bind_eq_ok_iff]
  constructor
  · rintro ⟨operands, hRun, hResult⟩
    rw [p.foldlM_push_listing_eq_ok_iff] at hRun
    split at hResult
    · exact absurd hResult (by simp)
    · rw [hRun, Except.ok.inj hResult]
    · exact absurd hResult (by simp)
  · intro hMakes
    exact ⟨[e], p.foldlM_push_listing_eq_ok_iff.2 hMakes, rfl⟩

end Phrase

end DerivCalc.Infix
