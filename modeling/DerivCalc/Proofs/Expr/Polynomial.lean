import DerivCalc.Proofs.Double.Integer
import DerivCalc.Proofs.Expr.NormalForm

/-!
# Polynomials

`HasDegree` says that an expression is built like a polynomial, and of which degree.  An
operation of polynomials is simplified to a polynomial of no greater degree, whichever rule
is taken, so a bound on the degree can be carried through the formula of a derivative.

That the derivative has a smaller degree than the expression rests on normal forms.  There
every polynomial that is no number has a positive degree, and a factor, base or divisor that
is a number contributes a zero product, which simplification takes away.
-/

namespace DerivCalc.Expr

open Double

/-- A polynomial of this degree. -/
inductive HasDegree : Expr → ℕ → Prop
  | const (settled : Bool) (v : Float) : HasDegree (const settled v) 0
  | var (settled : Bool) : HasDegree (var settled) 1
  | add {settled : Bool} {l r : Expr} {d d' : ℕ} : HasDegree l d → HasDegree r d' →
      HasDegree (binary settled .add l r) (max d d')
  | sub {settled : Bool} {l r : Expr} {d d' : ℕ} : HasDegree l d → HasDegree r d' →
      HasDegree (binary settled .sub l r) (max d d')
  | mul {settled : Bool} {l r : Expr} {d d' : ℕ} : HasDegree l d → HasDegree r d' →
      HasDegree (binary settled .mul l r) (d + d')
  | neg {settled : Bool} {arg : Expr} {d : ℕ} : HasDegree arg d →
      HasDegree (apply settled .neg arg) d
  | div {settled mark : Bool} {l : Expr} {d : ℕ} {c : Float} : HasDegree l d →
      HasDegree (binary settled .div l (const mark c)) d
  | pow {settled mark : Bool} {l : Expr} {d n : ℕ} {p : Float} : HasDegree l d →
      value p = n → 2 ≤ n → n ≤ 2 ^ 53 →
      HasDegree (binary settled .pow l (const mark p)) (n * d)

/-- A polynomial has one degree only. -/
theorem HasDegree.unique {e : Expr} {d d' : ℕ} (h : e.HasDegree d) (h' : e.HasDegree d') :
    d = d' := by
  induction h generalizing d' with
  | const settled v => cases h' with | const => rfl
  | var settled => cases h' with | var => rfl
  | add _ _ ihLeft ihRight =>
      cases h' with
      | add hLeft hRight => rw [ihLeft hLeft, ihRight hRight]
  | sub _ _ ihLeft ihRight =>
      cases h' with
      | sub hLeft hRight => rw [ihLeft hLeft, ihRight hRight]
  | mul _ _ ihLeft ihRight =>
      cases h' with
      | mul hLeft hRight => rw [ihLeft hLeft, ihRight hRight]
  | neg _ ih =>
      cases h' with
      | neg hArg => exact ih hArg
  | div _ ih =>
      cases h' with
      | div hLeft => exact ih hLeft
  | pow _ hValue _ _ ih =>
      cases h' with
      | pow hLeft hValue' _ _ =>
          have hExponent := hValue.symm.trans hValue'
          rw [Nat.cast_injective hExponent, ih hLeft]

/-- A polynomial of this degree or a smaller one. -/
def DegreeAtMost (e : Expr) (d : ℕ) : Prop := ∃ d' ≤ d, e.HasDegree d'

theorem HasDegree.atMost {e : Expr} {d : ℕ} (h : e.HasDegree d) : e.DegreeAtMost d :=
  ⟨d, le_rfl, h⟩

theorem DegreeAtMost.mono {e : Expr} {d d' : ℕ} (h : e.DegreeAtMost d) (hLe : d ≤ d') :
    e.DegreeAtMost d' := by
  obtain ⟨d₀, hD₀, hDegree⟩ := h
  exact ⟨d₀, hD₀.trans hLe, hDegree⟩

/-- A number is a polynomial, whatever the bound. -/
theorem degreeAtMost_const (settled : Bool) (v : Float) (d : ℕ) :
    (const settled v).DegreeAtMost d :=
  ⟨0, Nat.zero_le d, .const settled v⟩

theorem degreeAtMost_neg {settled : Bool} {arg : Expr} {d : ℕ} (h : arg.DegreeAtMost d) :
    (apply settled .neg arg).DegreeAtMost d := by
  obtain ⟨d', hLe, hDegree⟩ := h
  exact ⟨d', hLe, .neg hDegree⟩

/-! ## Polynomials in normal form -/

/-- A normal polynomial is a number or of a positive degree. -/
theorem HasDegree.pos {e : Expr} {d : ℕ} (h : e.HasDegree d) (hNormal : e.IsNormal)
    (hVar : e.isConstant = false) : 0 < d := by
  induction h with
  | const settled v => exact absurd hVar (by simp [isConstant, constant?])
  | var settled => exact Nat.one_pos
  | add _ _ ihLeft _ =>
      obtain ⟨-, ⟨-, hLeft, -⟩, hNormalLeft, -⟩ := isNormal_binary_iff.1 hNormal
      exact lt_max_of_lt_left (ihLeft hNormalLeft hLeft)
  | @sub settled l r d d' _ _ ihLeft ihRight =>
      obtain ⟨-, ⟨hNot, -⟩, hNormalLeft, hNormalRight⟩ := isNormal_binary_iff.1 hNormal
      rcases Bool.and_eq_false_iff.1 hNot with hLeft | hRight
      · exact lt_max_of_lt_left (ihLeft hNormalLeft hLeft)
      · exact lt_max_of_lt_right (ihRight hNormalRight hRight)
  | mul _ _ _ ihRight =>
      obtain ⟨-, ⟨-, hRight, -⟩, -, hNormalRight⟩ := isNormal_binary_iff.1 hNormal
      exact Nat.add_pos_right _ (ihRight hNormalRight hRight)
  | neg _ ih =>
      obtain ⟨-, hArg, hNormalArg⟩ := isNormal_apply_iff.1 hNormal
      exact ih hNormalArg hArg
  | div _ ih =>
      obtain ⟨-, ⟨hNot, -⟩, hNormalLeft, -⟩ := isNormal_binary_iff.1 hNormal
      exact ih hNormalLeft ((Bool.and_true _).symm.trans hNot)
  | pow _ _ hTwo _ ih =>
      obtain ⟨-, ⟨hNot, -⟩, hNormalLeft, -⟩ := isNormal_binary_iff.1 hNormal
      exact Nat.mul_pos (by omega) (ih hNormalLeft ((Bool.and_true _).symm.trans hNot))

/-- A normal polynomial of degree zero is a number. -/
theorem exists_const_of_degreeAtMost_zero {e : Expr} (h : e.DegreeAtMost 0)
    (hNormal : e.IsNormal) : ∃ v, e = const true v := by
  obtain ⟨d, hD, hDegree⟩ := h
  cases hConst : e.isConstant with
  | true =>
      obtain ⟨settled, v, rfl⟩ := exists_of_isConstant hConst
      exact ⟨v, by rw [isNormal_const_iff.1 hNormal]⟩
  | false =>
      have := hDegree.pos hNormal hConst
      omega

/-! ## Simplification does not raise the degree -/

theorem isClose_one_of_value {mark : Bool} {p : Float} (h : value p = 1) :
    (const mark p).isClose 1 = true := by
  have hOne : p = 1 := eq_of_value_eq (by rw [h]; norm_num) (by rw [h, value_one])
  rw [hOne]
  show decide ((1 - 1 : Float).abs < tolerance) = true
  decide +kernel

section

variable [Elementary] {l r : Expr} {d d' : ℕ}

theorem degreeAtMost_settleSum (hLeft : l.DegreeAtMost d) (hRight : r.DegreeAtMost d) :
    (settleBinary .add l r).DegreeAtMost d := by
  have hRule := rule_settleBinary .add l r
  obtain ⟨dl, hDl, hL⟩ := id hLeft
  obtain ⟨dr, hDr, hR⟩ := id hRight
  generalize settleBinary .add l r = result at hRule
  cases hRule with
  | fold op s t v w => exact degreeAtMost_const _ _ _
  | addZero _ _ => exact hLeft
  | zeroAdd _ _ => exact hRight
  | addKeep _ _ => exact ⟨max dl dr, max_le hDl hDr, .add hL hR⟩
  | addSwap _ _ _ => exact ⟨max dr dl, max_le hDr hDl, .add hR hL⟩

theorem degreeAtMost_settleDifference (hLeft : l.DegreeAtMost d) (hRight : r.DegreeAtMost d) :
    (settleBinary .sub l r).DegreeAtMost d := by
  have hRule := rule_settleBinary .sub l r
  obtain ⟨dl, hDl, hL⟩ := id hLeft
  obtain ⟨dr, hDr, hR⟩ := id hRight
  generalize settleBinary .sub l r = result at hRule
  cases hRule with
  | fold op s t v w => exact degreeAtMost_const _ _ _
  | zeroSub _ _ => exact degreeAtMost_neg hRight
  | subZero _ _ => exact hLeft
  | subKeep _ _ _ => exact ⟨max dl dr, max_le hDl hDr, .sub hL hR⟩

theorem degreeAtMost_settleProduct (hLeft : l.DegreeAtMost d) (hRight : r.DegreeAtMost d') :
    (settleBinary .mul l r).DegreeAtMost (d + d') := by
  have hRule := rule_settleBinary .mul l r
  obtain ⟨dl, hDl, hL⟩ := id hLeft
  obtain ⟨dr, hDr, hR⟩ := id hRight
  generalize settleBinary .mul l r = result at hRule
  cases hRule with
  | fold op s t v w => exact degreeAtMost_const _ _ _
  | zeroMul _ _ => exact degreeAtMost_const _ _ _
  | mulZero _ _ => exact degreeAtMost_const _ _ _
  | oneMul _ _ => exact hRight.mono (Nat.le_add_left d' d)
  | mulOne _ _ => exact hLeft.mono (Nat.le_add_right d d')
  | mulKeep _ _ _ => exact ⟨dl + dr, Nat.add_le_add hDl hDr, .mul hL hR⟩
  | mulSwap _ _ _ _ => exact ⟨dr + dl, by omega, .mul hR hL⟩

/-- Dividing by a number keeps the degree. -/
theorem degreeAtMost_settleQuotient (mark : Bool) (c : Float) (hLeft : l.DegreeAtMost d) :
    (settleBinary .div l (const mark c)).DegreeAtMost d := by
  have hRule := rule_settleBinary .div l (const mark c)
  obtain ⟨dl, hDl, hL⟩ := id hLeft
  generalize settleBinary .div l (const mark c) = result at hRule
  cases hRule with
  | fold op s t v w => exact degreeAtMost_const _ _ _
  | zeroDiv _ _ => exact degreeAtMost_const _ _ _
  | divOne _ _ => exact hLeft
  | divKeep _ _ _ => exact ⟨dl, hDl, .div hL⟩

/-- A power is a polynomial also if its exponent is one, which simplification takes away. -/
theorem degreeAtMost_settlePower {n : ℕ} {p : Float} (mark : Bool) (hLeft : l.DegreeAtMost d)
    (hValue : value p = n) (hPos : 0 < n) (hLe : n ≤ 2 ^ 53) :
    (settleBinary .pow l (const mark p)).DegreeAtMost (n * d) := by
  have hRule := rule_settleBinary .pow l (const mark p)
  obtain ⟨dl, hDl, hL⟩ := id hLeft
  generalize settleBinary .pow l (const mark p) = result at hRule
  cases hRule with
  | fold op s t v w => exact degreeAtMost_const _ _ _
  | zeroPow _ _ => exact degreeAtMost_const _ _ _
  | onePow _ _ => exact degreeAtMost_const _ _ _
  | powZero _ _ => exact degreeAtMost_const _ _ _
  | powOne _ _ => exact hLeft.mono (Nat.le_mul_of_pos_left d hPos)
  | powKeep _ _ _ _ hNotOne =>
      have hTwo : 2 ≤ n := by
        by_contra hSmall
        have hOne : n = 1 := by omega
        rw [isClose_one_of_value (by rw [hValue, hOne, Nat.cast_one])] at hNotOne
        exact absurd hNotOne (by decide)
      exact ⟨n * dl, Nat.mul_le_mul_left n hDl, .pow hL hValue hTwo hLe⟩

theorem degreeAtMost_settleNeg {arg : Expr} (h : arg.DegreeAtMost d) :
    (settleApply .neg arg).DegreeAtMost d := by
  unfold settleApply
  cases arg.constant? with
  | some v => exact degreeAtMost_const _ _ _
  | none => exact degreeAtMost_neg h

/-- A product with the number zero is simplified to a number. -/
theorem exists_const_of_zero_factor (l r : Expr) (h : l = const true 0 ∨ r = const true 0) :
    ∃ v, settleBinary .mul l r = const true v := by
  have hZero : (const true 0).isClose 0 = true := by decide +kernel
  have hNotOne : (const true 0).isClose 1 = false := by decide +kernel
  have hRule := rule_settleBinary .mul l r
  generalize settleBinary .mul l r = result at hRule
  cases hRule with
  | fold op s t v w => exact ⟨_, rfl⟩
  | zeroMul _ _ => exact ⟨_, rfl⟩
  | mulZero _ _ => exact ⟨_, rfl⟩
  | oneMul hOne hVar =>
      rcases h with rfl | rfl
      · exact absurd hOne (by rw [hNotOne]; decide)
      · exact absurd hVar (by decide)
  | mulOne hVar hOne =>
      rcases h with rfl | rfl
      · exact absurd hVar (by decide)
      · exact absurd hOne (by rw [hNotOne]; decide)
  | mulKeep hNotZero _ hVar =>
      rcases h with rfl | rfl
      · exact absurd hZero (by rw [hNotZero]; decide)
      · exact absurd hVar (by decide)
  | mulSwap hVar _ hNotZero _ =>
      rcases h with rfl | rfl
      · exact absurd hVar (by decide)
      · exact absurd hZero (by rw [hNotZero]; decide)

/-! ## The derivative of a polynomial -/

/-- The simplified formula of a sum, difference, product or quotient. -/
theorem simplify_binaryRule (hLeft : l.isSettled = true) (hRight : r.isSettled = true)
    (op : Operator) (whole : Expr) :
    (binaryRule op l r l.derivative r.derivative whole).simplify =
      match op with
      | .add => settleBinary .add l.derivative r.derivative
      | .sub => settleBinary .sub l.derivative r.derivative
      | .mul => settleBinary .add (settleBinary .mul l.derivative r)
          (settleBinary .mul l r.derivative)
      | .div => settleBinary .div
          (settleBinary .sub (settleBinary .mul l.derivative r) (settleBinary .mul l r.derivative))
          (settleBinary .pow r (const true 2))
      | .pow => (powerRule l r l.derivative r.derivative whole).simplify := by
  have hL := simplify_of_isSettled hLeft
  have hR := simplify_of_isSettled hRight
  have hL' := simplify_of_isSettled (isSettled_derivative l)
  have hR' := simplify_of_isSettled (isSettled_derivative r)
  cases op <;> simp [binaryRule, operation, number, simplify, hL, hR, hL', hR']

/-- The simplified formula of a power with a number as exponent. -/
theorem simplify_powerRule (hLeft : l.isSettled = true) (mark : Bool) (p : Float)
    (r' whole : Expr) :
    (powerRule l (const mark p) l.derivative r' whole).simplify =
      settleBinary .mul
        (settleBinary .mul (const true p) (settleBinary .pow l (const true (p - 1))))
        l.derivative := by
  have hL := simplify_of_isSettled hLeft
  have hL' := simplify_of_isSettled (isSettled_derivative l)
  simp [powerRule, constant?, operation, number, simplify, hL, hL']

/-- Differentiation makes the degree of a normal polynomial smaller, unless it is zero. -/
theorem degreeAtMost_derivative {e : Expr} (h : e.HasDegree d) (hNormal : e.IsNormal) :
    e.derivative.DegreeAtMost (d - 1) := by
  induction h with
  | const settled v => exact degreeAtMost_const true 0 _
  | var settled => exact degreeAtMost_const true 1 _
  | @add settled l r d d' hLeft hRight ihLeft ihRight =>
      obtain ⟨-, -, hNormalLeft, hNormalRight⟩ := isNormal_binary_iff.1 hNormal
      have hRule := simplify_binaryRule (isNormal_iff.1 hNormalLeft).2
        (isNormal_iff.1 hNormalRight).2 .add (binary settled .add l r)
      rw [derivative, hRule]
      exact degreeAtMost_settleSum ((ihLeft hNormalLeft).mono (by omega))
        ((ihRight hNormalRight).mono (by omega))
  | @sub settled l r d d' hLeft hRight ihLeft ihRight =>
      obtain ⟨-, -, hNormalLeft, hNormalRight⟩ := isNormal_binary_iff.1 hNormal
      have hRule := simplify_binaryRule (isNormal_iff.1 hNormalLeft).2
        (isNormal_iff.1 hNormalRight).2 .sub (binary settled .sub l r)
      rw [derivative, hRule]
      exact degreeAtMost_settleDifference ((ihLeft hNormalLeft).mono (by omega))
        ((ihRight hNormalRight).mono (by omega))
  | @mul settled l r d d' hLeft hRight ihLeft ihRight =>
      obtain ⟨-, ⟨-, hVar, -⟩, hNormalLeft, hNormalRight⟩ := isNormal_binary_iff.1 hNormal
      have hRule := simplify_binaryRule (isNormal_iff.1 hNormalLeft).2
        (isNormal_iff.1 hNormalRight).2 .mul (binary settled .mul l r)
      rw [derivative, hRule]
      have hPos := hRight.pos hNormalRight hVar
      have hSecond : (settleBinary .mul l r.derivative).DegreeAtMost (d + d' - 1) :=
        (degreeAtMost_settleProduct hLeft.atMost (ihRight hNormalRight)).mono (by omega)
      refine degreeAtMost_settleSum ?_ hSecond
      cases hConst : l.isConstant with
      | true =>
          obtain ⟨mark, c, rfl⟩ := exists_of_isConstant hConst
          obtain ⟨v, hV⟩ := exists_const_of_zero_factor (const true 0) r (Or.inl rfl)
          show (settleBinary .mul (const true 0) r).DegreeAtMost _
          rw [hV]
          exact degreeAtMost_const _ _ _
      | false =>
          have hPosLeft := hLeft.pos hNormalLeft hConst
          exact (degreeAtMost_settleProduct (ihLeft hNormalLeft) hRight.atMost).mono (by omega)
  | @neg settled arg d hArg ih =>
      obtain ⟨-, -, hNormalArg⟩ := isNormal_apply_iff.1 hNormal
      have hSettled := simplify_of_isSettled (isSettled_derivative arg)
      show (settleApply .neg arg.derivative.simplify).DegreeAtMost _
      rw [hSettled]
      exact degreeAtMost_settleNeg (ih hNormalArg)
  | @div settled mark l d c hLeft ih =>
      obtain ⟨-, -, hNormalLeft, hNormalRight⟩ := isNormal_binary_iff.1 hNormal
      have hRule := simplify_binaryRule (isNormal_iff.1 hNormalLeft).2
        (isNormal_iff.1 hNormalRight).2 .div (binary settled .div l (const mark c))
      rw [derivative, hRule]
      -- the derivative of the divisor is zero, so only the first product stays
      obtain ⟨v, hV⟩ := exists_const_of_zero_factor l (const true 0) (Or.inr rfl)
      have hFirst := degreeAtMost_settleProduct (ih hNormalLeft) (HasDegree.const mark c).atMost
      have hNumerator : (settleBinary .sub (settleBinary .mul l.derivative (const mark c))
          (settleBinary .mul l (const true 0))).DegreeAtMost (d - 1) := by
        rw [hV]
        exact degreeAtMost_settleDifference hFirst (degreeAtMost_const _ _ _)
      exact degreeAtMost_settleQuotient true _ hNumerator
  | @pow settled mark l d n p hLeft hValue hTwo hLe ih =>
      obtain ⟨-, ⟨hNot, -⟩, hNormalLeft, -⟩ := isNormal_binary_iff.1 hNormal
      have hRule := simplify_powerRule (isNormal_iff.1 hNormalLeft).2 mark p
        (const mark p).derivative (binary settled .pow l (const mark p))
      show (powerRule l (const mark p) l.derivative (const mark p).derivative
        (binary settled .pow l (const mark p))).simplify.DegreeAtMost _
      rw [hRule]
      have hPos := hLeft.pos hNormalLeft ((Bool.and_true _).symm.trans hNot)
      have hPower := degreeAtMost_settlePower true hLeft.atMost (value_sub_one hValue hTwo hLe)
        (by omega) (by omega)
      have hFactor := degreeAtMost_settleProduct (degreeAtMost_const true p 0) hPower
      have hDegree : 0 + (n - 1) * d + (d - 1) = n * d - 1 := by
        obtain ⟨n, rfl⟩ := Nat.exists_eq_add_of_le' (by omega : 1 ≤ n)
        rw [Nat.add_sub_cancel, Nat.succ_mul]
        omega
      rw [← hDegree]
      exact degreeAtMost_settleProduct hFactor (ih hNormalLeft)

/-- So every derivative makes the degree smaller by one, until it is zero. -/
theorem degreeAtMost_iterate_derivative {e : Expr} (h : e.HasDegree d) (hNormal : e.IsNormal)
    (n : ℕ) : (derivative^[n] e).DegreeAtMost (d - n) ∧ (derivative^[n] e).IsNormal := by
  induction n generalizing e d with
  | zero => exact ⟨h.atMost, hNormal⟩
  | succ n ih =>
      rw [Function.iterate_succ_apply]
      obtain ⟨d', hLe, hDegree⟩ := degreeAtMost_derivative h hNormal
      obtain ⟨hAtMost, hNormal'⟩ := ih hDegree (isNormal_derivative (isNormal_iff.1 hNormal).1)
      exact ⟨hAtMost.mono (by omega), hNormal'⟩

/-- After as many derivatives as the degree says a normal polynomial is a number. -/
theorem exists_const_of_degree_le {e : Expr} {n : ℕ} (h : e.HasDegree d) (hNormal : e.IsNormal)
    (hLe : d ≤ n) : ∃ v, derivative^[n] e = const true v := by
  obtain ⟨hAtMost, hNormal'⟩ := degreeAtMost_iterate_derivative h hNormal n
  rw [Nat.sub_eq_zero_of_le hLe] at hAtMost
  exact exists_const_of_degreeAtMost_zero hAtMost hNormal'

/-- After one more it is zero. -/
theorem iterate_derivative_eq_zero {e : Expr} {n : ℕ} (h : e.HasDegree d) (hNormal : e.IsNormal)
    (hLt : d < n) : derivative^[n] e = const true 0 := by
  obtain ⟨n, rfl⟩ := Nat.exists_eq_add_of_le' (by omega : 1 ≤ n)
  obtain ⟨v, hV⟩ := exists_const_of_degree_le h hNormal (by omega : d ≤ n)
  rw [Function.iterate_succ_apply', hV]
  rfl

end

end DerivCalc.Expr
