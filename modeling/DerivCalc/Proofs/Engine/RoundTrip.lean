import DerivCalc.Proofs.Elementary
import DerivCalc.Proofs.Engine.Made
import DerivCalc.Proofs.Expr.Reading

/-!
# Parsing undoes printing

The text of an expression is parsed as its simplified form, for every expression
that the engine can make.  With 17 significant digits or more the numbers come back with all
their bits.  The chain: the characters are read as the tokens that were printed, the
tokens as the expression that the text spells out, and simplification makes a negative
number of the negation of its opposite again.
-/

namespace DerivCalc.Engine

/-! ## Printing, and reading what was printed -/

theorem checkPrecision_eq_ok {p : ℕ} (h : p ≤ maxPrecision) : checkPrecision p = .ok () := by
  have hWord : ¬ maxPrecisionWord < p := by
    have hLe : maxPrecision ≤ maxPrecisionWord := by decide
    omega
  unfold checkPrecision
  rw [if_neg hWord, if_neg (by omega)]

theorem formatNumber_eq_ok {p : ℕ} (h : p ≤ maxPrecision) (v : Float) :
    formatNumber p v = .ok (String.ofList (Decimal.Significant.text v p)) := by
  unfold formatNumber
  rw [checkPrecision_eq_ok h]
  rfl

/-- An expression is printed if its numbers can be formatted and a walk reaches all of it. -/
theorem print_eq_ok {p : ℕ} {e : Expr} (hHigh : e.hasNumber = true → p ≤ maxPrecision)
    (hDepth : e.depth ≤ maxLevels) : print p e = .ok (String.ofList (e.print p)) := by
  have hWithin : within maxLevels e = .ok e := within_eq_ok_iff.2 ⟨hDepth, rfl⟩
  unfold print
  simp only [hWithin, bind, Except.bind]
  by_cases hNumber : e.hasNumber = true
  · rw [if_pos hNumber, checkPrecision_eq_ok (hHigh hNumber)]
    rfl
  · rw [if_neg hNumber]
    rfl

/-- The text of an expression is read as what it spells out. -/
theorem read_print {p : ℕ} {e : Expr} (hP : 17 ≤ p) (hE : e.Printable) :
    read (String.ofList (e.print p)) = .ok e.spelled := by
  have hTokens : tokenize (String.ofList (e.print p)) = .ok (e.formula (.func .neg)) := by
    unfold tokenize
    rw [String.toList_ofList, Expr.tokenize_print hP hE]
  unfold read
  simp only [hTokens, Expr.ofInfix_formula, bind, Except.bind]
  rw [Expr.ofPostOrder_postOrder, Expr.unsettled_spelled]

section

variable [Elementary]

/-! ## From the text to the expression -/

/-- The negation of the opposite of a negative number is the number itself. -/
theorem simplify_spelled (e : Expr) : e.spelled.simplify = e.unsettled.simplify := by
  induction e with
  | const settled v =>
      unfold Expr.spelled
      by_cases hLt : v < 0
      · rw [if_pos hLt]
        show Expr.const true (- -v) = Expr.const true v
        rw [Double.neg_neg]
      · rw [if_neg hLt]
        rfl
  | var settled => rfl
  | binary settled op left right ihLeft ihRight =>
      show Expr.settleBinary op left.spelled.simplify right.spelled.simplify = _
      rw [ihLeft, ihRight]
      rfl
  | apply settled f arg ih =>
      show Expr.settleApply f arg.spelled.simplify = _
      rw [ih]
      rfl

/--
An expression that is printed with 17 significant digits or more is parsed as its simplified
form, so one that came out of parsing or differentiation is parsed as itself.
-/
theorem parse_print {p : ℕ} {e : Expr} (hMade : Made e) (hPrintable : e.Printable)
    (hLow : 17 ≤ p) (hHigh : e.hasNumber = true → p ≤ maxPrecision)
    (hDepth : e.spelled.depth ≤ maxLevels) :
    ∃ text, print p e = .ok text ∧ parse text = .ok e.simplify ∧
      ((∃ source, parse source = .ok e) ∨ (∃ e₀, derivative e₀ = .ok e) →
        parse text = .ok e) := by
  have hPrint := print_eq_ok hHigh (Nat.le_trans (Expr.depth_le_depth_spelled e) hDepth)
  have hWithin : within maxLevels e.spelled = .ok e.spelled :=
    within_eq_ok_iff.2 ⟨hDepth, rfl⟩
  have hParse : parse (String.ofList (e.print p)) = .ok e.simplify := by
    unfold parse
    simp only [read_print hLow hPrintable, bind, Except.bind, hWithin]
    rw [simplify_spelled, Expr.simplify_unsettled hMade.wellMarked]
  refine ⟨_, hPrint, hParse, ?_⟩
  intro hOrigin
  rw [simplify_of_parse_or_derivative hOrigin] at hParse
  exact hParse

end

attribute [local instance] Elementary.specialArguments

/-- `(-2.5) ^ (x ^ 0.1) - (1 - -(x))`, with brackets on both sides of both operators. -/
def bracketedDifference : Expr :=
  Expr.operation .sub
    (Expr.operation .pow (Expr.number (-2.5))
      (Expr.operation .pow (Expr.var false) (Expr.number 0.1)))
    (Expr.operation .sub (Expr.number 1) (Expr.application .neg (Expr.var false)))

theorem printable_bracketedDifference : bracketedDifference.Printable := by
  refine ⟨⟨⟨?_, ?_⟩, trivial, ?_, ?_⟩, ⟨?_, ?_⟩, trivial⟩ <;> decide +kernel

/-- Seventeen digits bring back the difference with all of its brackets. -/
theorem parse_print_bracketedDifference :
    ∃ text, print 17 bracketedDifference = .ok text ∧
      parse text = .ok bracketedDifference.simplify := by
  obtain ⟨text, hPrint, hParse, -⟩ := parse_print (made_unsettled bracketedDifference)
    printable_bracketedDifference (Nat.le_refl 17) (fun _ => by decide) (by decide +kernel)
  exact ⟨text, hPrint, hParse⟩

/-- A number cannot be printed with more digits than the greatest precision. -/
theorem print_one_error :
    Made (Expr.number 1) ∧ (Expr.number 1).Printable ∧ 17 ≤ 2147483648 ∧
      (Expr.number 1).spelled.depth ≤ maxLevels ∧
      print 2147483648 (Expr.number 1) = .error .precisionTooBig ∧
      ¬ ∃ text, print 2147483648 (Expr.number 1) = .ok text ∧
        parse text = .ok (Expr.number 1).simplify := by
  have hError : print 2147483648 (Expr.number 1) = .error .precisionTooBig := rfl
  refine ⟨.number 1, ⟨by decide +kernel, by decide +kernel⟩, by decide, by decide +kernel,
    hError, ?_⟩
  rintro ⟨text, hPrint, -⟩
  rw [hError] at hPrint
  exact absurd hPrint (by simp)

end DerivCalc.Engine
