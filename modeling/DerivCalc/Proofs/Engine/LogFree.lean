import DerivCalc.Proofs.Engine.Polynomial

/-!
# Derivatives without logarithms

A power with a number as its exponent is differentiated by the power rule, any other power by
the general rule, which brings in a logarithm.  `LogFree` is the class of expressions for which
the general rule is never taken: no node is a logarithm, and every exponent is a number.

The choice between the rules looks at the exponent only, so the class has to be kept up by
everything that makes a new power or changes the sides of an old one.  `Rule.logFree` does this
for one rule of simplification, `logFree_binaryRule` and `logFree_applyRule` for one rule of
differentiation; `derivatives_of_logFree` puts them together for any number of derivatives.
-/

namespace DerivCalc.Expr

/-- The node is no logarithm, and if it is a power, its exponent is a number. -/
def AvoidsLog : Expr → Prop
  | const _ _ => True
  | var _ => True
  | binary _ op _ right => op = .pow → right.isConstant = true
  | apply _ f _ => f ≠ .ln

instance (e : Expr) : Decidable e.AvoidsLog :=
  match e with
  | const _ _ => inferInstanceAs (Decidable True)
  | var _ => inferInstanceAs (Decidable True)
  | binary _ op _ right => inferInstanceAs (Decidable (op = .pow → right.isConstant = true))
  | apply _ f _ => inferInstanceAs (Decidable (f ≠ .ln))

/-- There is no logarithm, and the exponent of every power is a number. -/
def LogFree (e : Expr) : Prop := ∀ node ∈ e.nodes, node.AvoidsLog

instance (e : Expr) : Decidable e.LogFree :=
  inferInstanceAs (Decidable (∀ node ∈ e.nodes, node.AvoidsLog))

theorem logFree_const (settled : Bool) (v : Float) : (const settled v).LogFree := by
  simp [LogFree, nodes, AvoidsLog]

theorem logFree_var (settled : Bool) : (var settled).LogFree := by
  simp [LogFree, nodes, AvoidsLog]

theorem logFree_binary_iff {settled : Bool} {op : Operator} {l r : Expr} :
    (binary settled op l r).LogFree ↔
      (op = .pow → r.isConstant = true) ∧ l.LogFree ∧ r.LogFree := by
  simp only [LogFree, nodes, List.forall_mem_cons, List.forall_mem_append, AvoidsLog]

theorem logFree_apply_iff {settled : Bool} {f : Func} {arg : Expr} :
    (apply settled f arg).LogFree ↔ f ≠ .ln ∧ arg.LogFree := by
  simp only [LogFree, nodes, List.forall_mem_cons, AvoidsLog]

section

variable [Elementary] {l r l' r' arg arg' whole : Expr}

/-! ## Simplification -/

/-- A number stays a number. -/
theorem isConstant_simplify {e : Expr} (h : e.isConstant = true) :
    e.simplify.isConstant = true := by
  obtain ⟨settled, v, rfl⟩ := exists_of_isConstant h
  rfl

/-- No rule makes a power, and those that exchange the sides are not for powers. -/
theorem Rule.logFree {op : Operator} {result : Expr} (h : Rule op l r result)
    (hExponent : op = .pow → r.isConstant = true) (hLeft : l.LogFree) (hRight : r.LogFree) :
    result.LogFree := by
  have hKeep : (binary true op l r).LogFree := logFree_binary_iff.2 ⟨hExponent, hLeft, hRight⟩
  have hSwap (hOp : op ≠ .pow) : (binary true op r l).LogFree :=
    logFree_binary_iff.2 ⟨fun hPow => absurd hPow hOp, hRight, hLeft⟩
  cases h with
  | addZero _ _ => exact hLeft
  | zeroAdd _ _ => exact hRight
  | addKeep _ _ => exact hKeep
  | addSwap _ _ _ => exact hSwap (by decide)
  | zeroSub _ _ => exact logFree_apply_iff.2 ⟨by decide, hRight⟩
  | subZero _ _ => exact hLeft
  | subKeep _ _ _ => exact hKeep
  | oneMul _ _ => exact hRight
  | mulOne _ _ => exact hLeft
  | mulKeep _ _ _ => exact hKeep
  | mulSwap _ _ _ _ => exact hSwap (by decide)
  | divOne _ _ => exact hLeft
  | divKeep _ _ _ => exact hKeep
  | powOne _ _ => exact hLeft
  | powKeep _ _ _ _ _ => exact hKeep
  | _ => exact logFree_const _ _

theorem logFree_settleApply {f : Func} (h : (apply true f arg).LogFree) :
    (settleApply f arg).LogFree := by
  unfold settleApply
  cases arg.constant? with
  | none => exact h
  | some v => exact logFree_const true _

/-- Simplification brings in no logarithm, and no exponent that is not a number. -/
theorem logFree_simplify {e : Expr} (h : e.LogFree) : e.simplify.LogFree := by
  induction e with
  | const settled v => exact logFree_const true v
  | var settled => exact logFree_var true
  | binary settled op l r ihLeft ihRight =>
      cases settled with
      | true => exact h
      | false =>
          obtain ⟨hExponent, hLeft, hRight⟩ := logFree_binary_iff.1 h
          exact (rule_settleBinary op l.simplify r.simplify).logFree
            (fun hPow => isConstant_simplify (hExponent hPow)) (ihLeft hLeft) (ihRight hRight)
  | apply settled f arg ih =>
      cases settled with
      | true => exact h
      | false =>
          obtain ⟨hFunc, hArg⟩ := logFree_apply_iff.1 h
          exact logFree_settleApply (logFree_apply_iff.2 ⟨hFunc, ih hArg⟩)

/-! ## Differentiation -/

omit [Elementary] in
theorem logFree_operation {op : Operator} (hOp : op ≠ .pow) (hLeft : l.LogFree)
    (hRight : r.LogFree) : (operation op l r).LogFree :=
  logFree_binary_iff.2 ⟨fun hPow => absurd hPow hOp, hLeft, hRight⟩

omit [Elementary] in
theorem logFree_power (h : l.LogFree) (p : Float) : (operation .pow l (number p)).LogFree :=
  logFree_binary_iff.2 ⟨fun _ => rfl, h, logFree_const false p⟩

omit [Elementary] in
theorem logFree_application {f : Func} (hFunc : f ≠ .ln) (h : arg.LogFree) :
    (application f arg).LogFree :=
  logFree_apply_iff.2 ⟨hFunc, h⟩

omit [Elementary] in
/-- If the exponent is a number, the power rule is taken, and its new exponent is a number too. -/
theorem logFree_powerRule (hExponent : r.isConstant = true) (hLeft : l.LogFree)
    (hLeft' : l'.LogFree) : (powerRule l r l' r' whole).LogFree := by
  obtain ⟨settled, p, rfl⟩ := exists_of_isConstant hExponent
  have hFactor : (operation .mul (number p) (operation .pow l (number (p - 1)))).LogFree :=
    logFree_operation (by decide) (logFree_const false p) (logFree_power hLeft (p - 1))
  exact logFree_operation (by decide) hFactor hLeft'

omit [Elementary] in
theorem logFree_binaryRule {op : Operator} (hExponent : op = .pow → r.isConstant = true)
    (hLeft : l.LogFree) (hRight : r.LogFree) (hLeft' : l'.LogFree) (hRight' : r'.LogFree) :
    (binaryRule op l r l' r' whole).LogFree := by
  have hFirst : (operation .mul l' r).LogFree := logFree_operation (by decide) hLeft' hRight
  have hSecond : (operation .mul l r').LogFree := logFree_operation (by decide) hLeft hRight'
  cases op with
  | add => exact logFree_operation (by decide) hLeft' hRight'
  | sub => exact logFree_operation (by decide) hLeft' hRight'
  | mul => exact logFree_operation (by decide) hFirst hSecond
  | div =>
      exact logFree_operation (by decide) (logFree_operation (by decide) hFirst hSecond)
        (logFree_power hRight 2)
  | pow => exact logFree_powerRule (hExponent rfl) hLeft hLeft'

omit [Elementary] in
/-- The chain rule: tangent and cotangent make new powers, whose exponent is two. -/
theorem logFree_applyRule {f : Func} (hFunc : f ≠ .ln) (hArg : arg.LogFree)
    (hArg' : arg'.LogFree) : (applyRule f arg arg').LogFree := by
  have hSecant {g : Func} (hG : g ≠ .ln) :
      (operation .div (number 1) (operation .pow (application g arg) (number 2))).LogFree :=
    logFree_operation (by decide) (logFree_const false 1)
      (logFree_power (logFree_application hG hArg) 2)
  cases f with
  | sin => exact logFree_operation (by decide) (logFree_application (by decide) hArg) hArg'
  | cos =>
      exact logFree_operation (by decide)
        (logFree_application (by decide) (logFree_application (by decide) hArg)) hArg'
  | tan => exact logFree_operation (by decide) (hSecant (by decide)) hArg'
  | cot =>
      exact logFree_operation (by decide)
        (logFree_application (by decide) (hSecant (by decide))) hArg'
  | neg => exact logFree_application (by decide) hArg'
  | ln => exact absurd rfl hFunc

theorem logFree_derivative {e : Expr} (h : e.LogFree) : e.derivative.LogFree := by
  induction e with
  | const settled v => exact logFree_simplify (logFree_const false 0)
  | var settled => exact logFree_simplify (logFree_const false 1)
  | binary settled op l r ihLeft ihRight =>
      obtain ⟨hExponent, hLeft, hRight⟩ := logFree_binary_iff.1 h
      exact logFree_simplify
        (logFree_binaryRule hExponent hLeft hRight (ihLeft hLeft) (ihRight hRight))
  | apply settled f arg ih =>
      obtain ⟨hFunc, hArg⟩ := logFree_apply_iff.1 h
      exact logFree_simplify (logFree_applyRule hFunc hArg (ih hArg))

theorem logFree_iterate_derivative {e : Expr} (h : e.LogFree) (n : ℕ) :
    (derivative^[n] e).LogFree := by
  induction n generalizing e with
  | zero => exact h
  | succ n ih => exact ih (logFree_derivative h)

end

end DerivCalc.Expr

namespace DerivCalc.Engine

/--
An expression without logarithms and with numbers as exponents stays one: its simplified form is
one, and so is every derivative, after any number of steps.  The steps succeed if none of them
meets the limit on levels.
-/
theorem derivatives_of_logFree [Elementary] {e : Expr} (h : e.LogFree) :
    e.simplify.LogFree ∧
    ∀ n, (∀ result, derivatives n e = .ok result → result.LogFree) ∧
      ((∀ k < n, (Expr.derivative^[k] e).depth ≤ maxDerivativeLevels) →
        ∃ result, derivatives n e = .ok result ∧ result.LogFree) := by
  refine ⟨Expr.logFree_simplify h, fun n => ⟨?_, ?_⟩⟩
  · intro result hResult
    obtain ⟨rfl, -⟩ := derivatives_eq_ok_iff.1 hResult
    exact Expr.logFree_iterate_derivative h n
  · intro hDepths
    exact ⟨Expr.derivative^[n] e, derivatives_eq_ok_iff.2 ⟨rfl, hDepths⟩,
      Expr.logFree_iterate_derivative h n⟩

attribute [local instance] Elementary.specialArguments

/-- `tan(x / 3) ^ 2.5 / (0 - x)`, with nothing simplified. -/
def tangentQuotient : Expr :=
  .operation .div
    (.operation .pow (.application .tan (.operation .div (.var false) (.number 3))) (.number 2.5))
    (.operation .sub (.number 0) (.var false))

/-- Three derivatives of a quotient of a power of a tangent. -/
theorem derivatives_tangentQuotient :
    tangentQuotient.LogFree ∧
    (∀ k < 3, (Expr.derivative^[k] tangentQuotient).depth ≤ maxDerivativeLevels) ∧
    tangentQuotient.simplify.LogFree ∧
    ∃ result, derivatives 3 tangentQuotient = .ok result ∧ result.LogFree := by
  have hLogFree : tangentQuotient.LogFree := by decide
  have hDepths : ∀ k < 3,
      (Expr.derivative^[k] tangentQuotient).depth ≤ maxDerivativeLevels := by decide +kernel
  obtain ⟨hSimplified, hSteps⟩ := derivatives_of_logFree hLogFree
  exact ⟨hLogFree, hDepths, hSimplified, (hSteps 3).2 hDepths⟩

end DerivCalc.Engine
