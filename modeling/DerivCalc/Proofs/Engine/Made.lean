import DerivCalc.Engine.Trace
import DerivCalc.Proofs.Expr.Marks

/-!
# What the engine can make

`Made` says of an expression that the engine's operations can produce it: from fresh nodes,
by building, parsing, simplifying and differentiating in any order and number.  The marks of
such an expression are right, so its simplified form does not depend on them.
-/

namespace DerivCalc.Engine

/-- What an operation on expressions within a limit returns. -/
theorem eq_of_map_within {limit : ℕ} {e result : Expr} {f : Expr → Expr}
    (h : (within limit e).map f = .ok result) : result = f e := by
  obtain ⟨e₁, hWithin, hResult⟩ := Result.map_eq_ok_iff.1 h
  obtain ⟨-, rfl⟩ := within_eq_ok_iff.1 hWithin
  exact hResult.symm

variable [Elementary]

/-- Expressions built from fresh nodes by the operations of the engine, and parts of those. -/
inductive Made : Expr → Prop
  | number (v : Float) : Made (Expr.number v)
  | var : Made (Expr.var false)
  | operation (op : Operator) {left right : Expr} : Made left → Made right →
      Made (Expr.operation op left right)
  | application (f : Func) {arg : Expr} : Made arg → Made (Expr.application f arg)
  | built {listing : List Token} {e : Expr} : build listing = .ok e → Made e
  | parsed {text : String} {e : Expr} : parse text = .ok e → Made e
  | simplified {e result : Expr} : Made e → simplify e = .ok result → Made result
  | derived {e result : Expr} : Made e → derivative e = .ok result → Made result
  | left {settled : Bool} {op : Operator} {left right : Expr} :
      Made (Expr.binary settled op left right) → Made left
  | right {settled : Bool} {op : Operator} {left right : Expr} :
      Made (Expr.binary settled op left right) → Made right
  | argument {settled : Bool} {f : Func} {arg : Expr} : Made (Expr.apply settled f arg) → Made arg

/-- An expression without settled nodes can be made. -/
theorem made_unsettled (e : Expr) : Made e.unsettled := by
  induction e with
  | const settled v => exact .number v
  | var settled => exact .var
  | binary settled op left right ihLeft ihRight => exact .operation op ihLeft ihRight
  | apply settled f arg ih => exact .application f ih

/-- An expression that is built from a listing is the simplified form of a well marked one. -/
theorem exists_of_build {listing : List Token} {e : Expr} (h : build listing = .ok e) :
    ∃ e₀ : Expr, e₀.WellMarked ∧ e = e₀.simplify := by
  obtain ⟨e₀, hRead, hResult⟩ := Result.bind_eq_ok_iff.1 h
  exact ⟨e₀, Expr.wellMarked_of_ofPostOrder hRead, (Except.ok.inj hResult).symm⟩

omit [Elementary] in
/-- A text is read iff it has tokens, they have a post-order, and this lists an expression. -/
theorem read_eq_ok_iff {text : String} {e : Expr} :
    read text = .ok e ↔ ∃ tokens listing, tokenize text = .ok tokens ∧
      Token.PostOrder.ofInfix tokens = .ok listing ∧ Expr.ofPostOrder listing = .ok e := by
  simp only [read, Result.bind_eq_ok_iff]
  constructor
  · rintro ⟨tokens, hTokens, listing, hListing, hTree⟩
    exact ⟨tokens, listing, hTokens, hListing, hTree⟩
  · rintro ⟨tokens, listing, hTokens, hListing, hTree⟩
    exact ⟨tokens, hTokens, listing, hListing, hTree⟩

/-- A text is parsed iff it is read as an expression within the limits. -/
theorem parse_eq_ok_iff_read {text : String} {e : Expr} :
    parse text = .ok e ↔ ∃ e₀, read text = .ok e₀ ∧ e₀.depth ≤ maxLevels ∧ e = e₀.simplify := by
  have hParse : parse text = .ok e ↔
      ∃ e₀, read text >>= within maxLevels = .ok e₀ ∧ e = e₀.simplify := by
    unfold parse
    cases read text >>= within maxLevels with
    | ok e₀ => simp [eq_comm]
    | error cause => simp
  simp only [hParse, Result.bind_eq_ok_iff, within_eq_ok_iff]
  constructor
  · rintro ⟨e₀, ⟨e₁, hRead, hDepth, rfl⟩, rfl⟩
    exact ⟨e₀, hRead, hDepth, rfl⟩
  · rintro ⟨e₀, hRead, hDepth, rfl⟩
    exact ⟨e₀, ⟨e₀, hRead, hDepth, rfl⟩, rfl⟩

/-- A text is parsed iff every stage succeeds: tokens, post-order, expression, depth. -/
theorem parse_eq_ok_iff {text : String} {e : Expr} :
    parse text = .ok e ↔ ∃ tokens listing e₀, tokenize text = .ok tokens ∧
      Token.PostOrder.ofInfix tokens = .ok listing ∧ Expr.ofPostOrder listing = .ok e₀ ∧
      e₀.depth ≤ maxLevels ∧ e = e₀.simplify := by
  simp only [parse_eq_ok_iff_read, read_eq_ok_iff]
  constructor
  · rintro ⟨e₀, ⟨tokens, listing, hTokens, hListing, hTree⟩, hDepth, rfl⟩
    exact ⟨tokens, listing, e₀, hTokens, hListing, hTree, hDepth, rfl⟩
  · rintro ⟨tokens, listing, e₀, hTokens, hListing, hTree, hDepth, rfl⟩
    exact ⟨e₀, ⟨tokens, listing, hTokens, hListing, hTree⟩, hDepth, rfl⟩

/-- With diagnostics an expression has to be one that can be described, too. -/
theorem parseWith_eq_ok_iff {debug : Bool} {text : String} {e : Expr} :
    (Trace.parseWith debug text).1 = .ok e ↔
      parse text = .ok e ∧ (debug = true → e.depth ≤ Trace.maxLevels) := by
  unfold Trace.parseWith
  cases debug with
  | false => simp
  | true =>
      cases hParse : parse text with
      | error failure => simp
      | ok e' =>
          by_cases hDepth : e'.depth ≤ Trace.maxLevels
          · simp only [if_true, hDepth, Except.ok.injEq, forall_const]
            exact ⟨fun hEq => ⟨hEq, hEq ▸ hDepth⟩, fun h => h.1⟩
          · simp only [if_true, hDepth, if_false, reduceCtorEq, false_iff, Except.ok.injEq,
              forall_const]
            rintro ⟨rfl, hLow⟩
            exact hDepth hLow

/-- A parsed expression is the simplified form of a well marked one. -/
theorem exists_of_parse {text : String} {e : Expr} (h : parse text = .ok e) :
    ∃ e₀ : Expr, e₀.WellMarked ∧ e = e₀.simplify := by
  obtain ⟨tokens, listing, e₀, -, -, hTree, -, hResult⟩ := parse_eq_ok_iff.1 h
  exact ⟨e₀, Expr.wellMarked_of_ofPostOrder hTree, hResult⟩

/-- All marks of an expression that the engine made are right. -/
theorem Made.wellMarked {e : Expr} (h : Made e) : e.WellMarked := by
  induction h with
  | number v => trivial
  | var => trivial
  | operation op _ _ ihLeft ihRight => exact Expr.wellMarked_operation op ihLeft ihRight
  | application f _ ih => exact Expr.wellMarked_application f ih
  | built hBuild =>
      obtain ⟨e₀, hMarks, rfl⟩ := exists_of_build hBuild
      exact Expr.wellMarked_simplify hMarks
  | parsed hParse =>
      obtain ⟨e₀, hMarks, rfl⟩ := exists_of_parse hParse
      exact Expr.wellMarked_simplify hMarks
  | simplified _ hResult ih =>
      rw [eq_of_map_within hResult]
      exact Expr.wellMarked_simplify ih
  | derived _ hResult ih =>
      rw [eq_of_map_within hResult]
      exact Expr.wellMarked_derivative ih
  | left _ ih => exact ih.1
  | right _ ih => exact ih.2.1
  | argument _ ih => exact ih.1

/-- What comes out of parsing or differentiation is its own simplified form. -/
theorem simplify_of_parse_or_derivative {e : Expr}
    (h : (∃ source, parse source = .ok e) ∨ ∃ e₀, derivative e₀ = .ok e) : e.simplify = e := by
  rcases h with ⟨source, hParse⟩ | ⟨e₀, hDerivative⟩
  · obtain ⟨e₀, -, rfl⟩ := exists_of_parse hParse
    exact Expr.simplify_of_isSettled (Expr.isSettled_simplify e₀)
  · rw [eq_of_map_within hDerivative]
    exact Expr.simplify_of_isSettled (Expr.isSettled_derivative e₀)

end DerivCalc.Engine
