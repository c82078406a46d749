import DerivCalc.Expr.Derivative
import DerivCalc.Proofs.Elementary
import DerivCalc.Proofs.Expr.Real

/-!
# The derivative is the derivative

Where an expression is regular and its symbolic derivative is computed exactly,
the symbolic derivative is the derivative of the real function.

The induction pairs two arguments at every node: the rule of differentiation gives
the derivative of the real function, and simplification of the rule's formula keeps
its real value.  The formula holds settled derivatives of the operands, which
simplification leaves alone, beside operands that it may still simplify.
-/

namespace DerivCalc.Expr

open Double
open Elementary (specialArguments)

/-! ## Where the rules apply -/

/--
All numbers are finite, and at `x` no divisor is zero, arguments of logarithms are
positive, those of tangents have a cosine and those of cotangents a sine and a cosine
other than zero; the base of a power with a number as exponent is not zero, and
positive unless that is a whole number, and the base of any other power is positive.
-/
def Regular (x : ℝ) : Expr → Prop
  | const _ v => v.isFinite = true
  | var _ => True
  | binary _ op left right => left.Regular x ∧ right.Regular x ∧
      match op with
      | .div => right.realEval x ≠ 0
      | .pow =>
        match right.constant? with
        | some p => left.realEval x ≠ 0 ∧ ((∃ k : ℤ, value p = k) ∨ 0 < left.realEval x)
        | none => 0 < left.realEval x
      | _ => True
  | apply _ f arg => arg.Regular x ∧
      match f with
      | .tan => Real.cos (arg.realEval x) ≠ 0
      | .cot => Real.sin (arg.realEval x) ≠ 0 ∧ Real.cos (arg.realEval x) ≠ 0
      | .ln => 0 < arg.realEval x
      | _ => True

section

variable [Elementary]

/-- Differentiation rounds nothing: neither in an exponent less one nor when it simplifies. -/
def ExactDerivative : Expr → Prop
  | const _ _ => True
  | var _ => True
  | binary settled op left right => left.ExactDerivative ∧ right.ExactDerivative ∧
      (op = .pow → ∀ p, right.constant? = some p → IsExact (p - 1) (value p - 1)) ∧
      (binaryRule op left right left.derivative right.derivative
        (binary settled op left right)).ExactSimplify
  | apply _ f arg => arg.ExactDerivative ∧ (applyRule f arg arg.derivative).ExactSimplify

/-! ## No base is zero -/

section

omit [Elementary]

variable {x : ℝ}

theorem nonzeroBases_of_isSettled {e : Expr} (h : e.isSettled = true) : e.NonzeroBases x := by
  cases e with
  | const settled v => trivial
  | var settled => trivial
  | binary settled op left right => exact Or.inl h
  | apply settled f arg => exact Or.inl h

theorem nonzeroBases_operation {op : Operator} {l r : Expr} (hLeft : l.NonzeroBases x)
    (hRight : r.NonzeroBases x) (hBase : op = .pow → l.realEval x ≠ 0) :
    (operation op l r).NonzeroBases x :=
  Or.inr ⟨hLeft, hRight, hBase⟩

theorem nonzeroBases_application {arg : Expr} (f : Func) (h : arg.NonzeroBases x) :
    (application f arg).NonzeroBases x :=
  Or.inr h

/-- The base of a regular power is not zero. -/
theorem base_ne_zero {settled : Bool} {l r : Expr} (h : (binary settled .pow l r).Regular x) :
    l.realEval x ≠ 0 := by
  obtain ⟨_, _, hPow⟩ := h
  cases hConst : r.constant? with
  | none =>
      simp only [hConst] at hPow
      exact ne_of_gt hPow
  | some p =>
      simp only [hConst] at hPow
      exact hPow.1

theorem Regular.nonzeroBases {e : Expr} (h : e.Regular x) : e.NonzeroBases x := by
  induction e with
  | const settled v => trivial
  | var settled => trivial
  | binary settled op l r ihLeft ihRight =>
      refine Or.inr ⟨ihLeft h.1, ihRight h.2.1, ?_⟩
      intro hPow
      subst hPow
      exact base_ne_zero h
  | apply settled f arg ih => exact Or.inr (ih h.1)

/-- The formula of a rule has no zero base if the operation is regular. -/
theorem nonzeroBases_binaryRule {settled : Bool} {op : Operator} {l r l' r' : Expr}
    (h : (binary settled op l r).Regular x) (hLeft : l'.NonzeroBases x)
    (hRight : r'.NonzeroBases x) :
    (binaryRule op l r l' r' (binary settled op l r)).NonzeroBases x := by
  have hL := h.1.nonzeroBases
  have hR := h.2.1.nonzeroBases
  have hWhole := h.nonzeroBases
  cases op with
  | add => exact nonzeroBases_operation hLeft hRight (by simp)
  | sub => exact nonzeroBases_operation hLeft hRight (by simp)
  | mul =>
      refine nonzeroBases_operation ?_ ?_ (by simp)
      · exact nonzeroBases_operation hLeft hR (by simp)
      · exact nonzeroBases_operation hL hRight (by simp)
  | div =>
      refine nonzeroBases_operation ?_ ?_ (by simp)
      · refine nonzeroBases_operation ?_ ?_ (by simp)
        · exact nonzeroBases_operation hLeft hR (by simp)
        · exact nonzeroBases_operation hL hRight (by simp)
      · exact nonzeroBases_operation hR trivial (fun _ => h.2.2)
  | pow =>
      show (powerRule l r l' r' _).NonzeroBases x
      unfold powerRule
      cases hConst : r.constant? with
      | none =>
          refine nonzeroBases_operation hWhole ?_ (by simp)
          refine nonzeroBases_operation ?_ ?_ (by simp)
          · refine nonzeroBases_operation ?_ hL (by simp)
            exact nonzeroBases_operation hLeft hR (by simp)
          · exact nonzeroBases_operation (nonzeroBases_application .ln hL) hRight (by simp)
      | some p =>
          refine nonzeroBases_operation ?_ hLeft (by simp)
          refine nonzeroBases_operation trivial ?_ (by simp)
          exact nonzeroBases_operation hL trivial (fun _ => base_ne_zero h)

theorem nonzeroBases_applyRule {settled : Bool} {f : Func} {arg arg' : Expr}
    (h : (apply settled f arg).Regular x) (hArg' : arg'.NonzeroBases x) :
    (applyRule f arg arg').NonzeroBases x := by
  have hArg := h.1.nonzeroBases
  cases f with
  | sin => exact nonzeroBases_operation (nonzeroBases_application .cos hArg) hArg' (by simp)
  | cos =>
      refine nonzeroBases_operation ?_ hArg' (by simp)
      exact nonzeroBases_application .neg (nonzeroBases_application .sin hArg)
  | tan =>
      refine nonzeroBases_operation ?_ hArg' (by simp)
      refine nonzeroBases_operation trivial ?_ (by simp)
      exact nonzeroBases_operation (nonzeroBases_application .cos hArg) trivial (fun _ => h.2)
  | cot =>
      refine nonzeroBases_operation ?_ hArg' (by simp)
      apply nonzeroBases_application
      refine nonzeroBases_operation trivial ?_ (by simp)
      exact nonzeroBases_operation (nonzeroBases_application .sin hArg) trivial (fun _ => h.2.1)
  | neg => exact nonzeroBases_application .neg hArg'
  | ln =>
      refine nonzeroBases_operation ?_ hArg' (by simp)
      exact nonzeroBases_operation trivial hArg (by simp)

end

/-! ## The rules of differentiation -/

section

omit [Elementary]

variable {x : ℝ} {l r l' r' : Expr}

/-- The rule of an operator gives the derivative of the operation. -/
theorem hasDerivAt_binaryRule {settled : Bool} {op : Operator}
    (h : (binary settled op l r).Regular x)
    (hLeft : HasDerivAt (fun y => l.realEval y) (l'.realEval x) x)
    (hRight : HasDerivAt (fun y => r.realEval y) (r'.realEval x) x)
    (hExponent : op = .pow → ∀ p, r.constant? = some p → IsExact (p - 1) (value p - 1)) :
    HasDerivAt (fun y => (binary settled op l r).realEval y)
      ((binaryRule op l r l' r' (binary settled op l r)).realEval x) x := by
  cases op with
  | add => exact hLeft.add hRight
  | sub => exact hLeft.sub hRight
  | mul => exact hLeft.mul hRight
  | div =>
      have hSquare : r.realEval x ^ ((value 2 : ℚ) : ℝ) = r.realEval x ^ 2 := by
        rw [value_two, Rat.cast_ofNat, Real.rpow_two]
      have hDiv := hLeft.fun_div hRight h.2.2
      rw [← hSquare] at hDiv
      exact hDiv
  | pow =>
      have hBase := base_ne_zero h
      show HasDerivAt (fun y => l.realEval y ^ r.realEval y) ((powerRule l r l' r' _).realEval x) x
      unfold powerRule
      cases hConst : r.constant? with
      | none =>
          have hPos : 0 < l.realEval x := by
            have hPow := h.2.2
            simp only [hConst] at hPow
            exact hPow
          have hDeriv := hLeft.rpow hRight hPos
          refine hDeriv.congr_deriv ?_
          show _ = l.realEval x ^ r.realEval x *
            (l'.realEval x * r.realEval x / l.realEval x +
              Real.log (l.realEval x) * r'.realEval x)
          rw [Real.rpow_sub_one hBase]
          ring
      | some p =>
          have hMinusOne := (hExponent rfl p hConst).value_eq
          have hDeriv := hLeft.rpow_const (p := value p) (Or.inl hBase)
          have hFun : (fun y => l.realEval y ^ r.realEval y) =
              fun y => l.realEval y ^ ((value p : ℚ) : ℝ) := by
            funext y
            rw [realEval_of_constant? hConst]
          rw [hFun]
          refine hDeriv.congr_deriv ?_
          show _ = ((value p : ℚ) : ℝ) * l.realEval x ^ ((value (p - 1) : ℚ) : ℝ) * l'.realEval x
          rw [hMinusOne]
          ring

/-- The rule of a function is the chain rule for it. -/
theorem hasDerivAt_applyRule {settled : Bool} {f : Func} {arg arg' : Expr}
    (h : (apply settled f arg).Regular x)
    (hArg : HasDerivAt (fun y => arg.realEval y) (arg'.realEval x) x) :
    HasDerivAt (fun y => (apply settled f arg).realEval y)
      ((applyRule f arg arg').realEval x) x := by
  have hSquare (a : ℝ) : a ^ ((value 2 : ℚ) : ℝ) = a ^ 2 := by
    rw [value_two, Rat.cast_ofNat, Real.rpow_two]
  have hOne : ((value 1 : ℚ) : ℝ) = 1 := by
    rw [value_one, Rat.cast_one]
  cases f with
  | sin => exact hArg.sin
  | cos => exact hArg.cos
  | tan =>
      have hTan := (Real.hasDerivAt_tan h.2).comp x hArg
      refine hTan.congr_deriv ?_
      show _ = ((value 1 : ℚ) : ℝ) / Real.cos (arg.realEval x) ^ ((value 2 : ℚ) : ℝ) *
        arg'.realEval x
      rw [hSquare, hOne]
  | cot =>
      obtain ⟨hSin, hCos⟩ := h.2
      have hTan := (Real.hasDerivAt_tan hCos).comp x hArg
      have hTanNe : Real.tan (arg.realEval x) ≠ 0 := by
        rw [Real.tan_eq_sin_div_cos]
        exact div_ne_zero hSin hCos
      have hCot := (hasDerivAt_const x (1 : ℝ)).fun_div hTan hTanNe
      refine hCot.congr_deriv ?_
      show (0 * Real.tan (arg.realEval x) -
          1 * (1 / Real.cos (arg.realEval x) ^ 2 * arg'.realEval x)) /
            Real.tan (arg.realEval x) ^ 2 =
        -(((value 1 : ℚ) : ℝ) / Real.sin (arg.realEval x) ^ ((value 2 : ℚ) : ℝ)) *
          arg'.realEval x
      rw [hSquare, hOne, Real.tan_eq_sin_div_cos]
      field_simp
      ring
  | neg => exact hArg.neg
  | ln =>
      have hLog := hArg.log (ne_of_gt h.2)
      refine hLog.congr_deriv ?_
      show _ = ((value 1 : ℚ) : ℝ) / arg.realEval x * arg'.realEval x
      rw [hOne]
      ring

end

/-- Where an expression is regular, its exact symbolic derivative is its derivative. -/
theorem hasDerivAt_derivative {x : ℝ} {e : Expr} (hRegular : e.Regular x)
    (hExact : e.ExactDerivative) :
    HasDerivAt (fun y => e.realEval y) (e.derivative.realEval x) x := by
  induction e with
  | const settled v =>
      have hValue : (derivative (const settled v)).realEval x = 0 := by
        show ((value 0 : ℚ) : ℝ) = 0
        rw [value_zero, Rat.cast_zero]
      rw [hValue]
      exact hasDerivAt_const x _
  | var settled =>
      have hValue : (derivative (var settled)).realEval x = 1 := by
        show ((value 1 : ℚ) : ℝ) = 1
        rw [value_one, Rat.cast_one]
      rw [hValue]
      exact hasDerivAt_id x
  | binary settled op l r ihLeft ihRight =>
      obtain ⟨hExactLeft, hExactRight, hExponent, hSimplify⟩ := hExact
      have hLeft := ihLeft hRegular.1 hExactLeft
      have hRight := ihRight hRegular.2.1 hExactRight
      have hBases := nonzeroBases_binaryRule hRegular
        (nonzeroBases_of_isSettled (isSettled_derivative l))
        (nonzeroBases_of_isSettled (isSettled_derivative r))
      have hRule := hasDerivAt_binaryRule hRegular hLeft hRight hExponent
      rw [← realEval_simplify hSimplify hBases] at hRule
      exact hRule
  | apply settled f arg ih =>
      obtain ⟨hExactArg, hSimplify⟩ := hExact
      have hArg := ih hRegular.1 hExactArg
      have hBases := nonzeroBases_applyRule hRegular
        (nonzeroBases_of_isSettled (isSettled_derivative arg))
      have hRule := hasDerivAt_applyRule hRegular hArg
      rw [← realEval_simplify hSimplify hBases] at hRule
      exact hRule

end

attribute [local instance] specialArguments

/-- `ln (x ^ 2)`, whose derivative is `1 / x ^ 2 * (2 * x)`. -/
def logSquare : Expr := application .ln (operation .pow (var false) (number 2))

theorem regular_logSquare : logSquare.Regular 3 := by
  have hTwo : value 2 = ((2 : ℤ) : ℚ) := by
    rw [value_two]
    norm_num
  have hFinite : (2 : Float).isFinite = true := by decide
  refine ⟨⟨trivial, hFinite, ?_⟩, ?_⟩
  · show (3 : ℝ) ≠ 0 ∧ ((∃ k : ℤ, value 2 = k) ∨ (0 : ℝ) < 3)
    exact ⟨by norm_num, Or.inl ⟨2, hTwo⟩⟩
  · show (0 : ℝ) < 3 ^ ((value 2 : ℚ) : ℝ)
    positivity

theorem exactDerivative_logSquare : logSquare.ExactDerivative := by
  have hMinusOne : (2 : Float) - 1 = 1 := by decide +kernel
  have hExponent : ∀ p, (number 2).constant? = some p → IsExact (p - 1) (value p - 1) := by
    intro p hConst
    have hP : 2 = p := Option.some.inj hConst
    subst hP
    rw [hMinusOne]
    refine ⟨by decide, ?_⟩
    rw [value_one, value_two]
    norm_num
  have hSquare : (operation .pow (var false) (number 2)).ExactSimplify := by
    refine .binary (.var _) (.const _ _) ?_
    exact exactSettle_of_all (by decide +kernel) (by decide +kernel) (by decide +kernel)
  have hPower : (operation .mul (operation .mul (number 2) (operation .pow (var false)
      (number (2 - 1)))) (derivative (var false))).ExactSimplify := by
    refine .binary (.binary (.const _ _) (.binary (.var _) (.const _ _) ?_) ?_) (.const _ _) ?_
    · exact exactSettle_of_all (by decide +kernel) (by decide +kernel) (by decide +kernel)
    · exact exactSettle_of_all (by decide +kernel) (by decide +kernel) (by decide +kernel)
    · exact exactSettle_of_all (by decide +kernel) (by decide +kernel) (by decide +kernel)
  have hLog : (operation .mul (operation .div (number 1) (operation .pow (var false) (number 2)))
      (derivative (operation .pow (var false) (number 2)))).ExactSimplify := by
    refine .binary (.binary (.const _ _) hSquare ?_) (.settled (isSettled_derivative _)) ?_
    · exact exactSettle_of_all (by decide +kernel) (by decide +kernel) (by decide +kernel)
    · exact exactSettle_of_all (by decide +kernel) (by decide +kernel) (by decide +kernel)
  exact ⟨⟨trivial, trivial, fun _ => hExponent, hPower⟩, hLog⟩

/-- The derivative of `ln (x ^ 2)` at 3. -/
theorem hasDerivAt_logSquare :
    logSquare.Regular 3 ∧ logSquare.ExactDerivative ∧
      HasDerivAt (fun y => logSquare.realEval y) (logSquare.derivative.realEval 3) 3 := by
  exact ⟨regular_logSquare, exactDerivative_logSquare,
    hasDerivAt_derivative regular_logSquare exactDerivative_logSquare⟩

end DerivCalc.Expr
