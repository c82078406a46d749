import DerivCalc.Proofs.Elementary
import DerivCalc.Proofs.Engine.Made
import DerivCalc.Proofs.Expr.Polynomial

/-!
# Polynomials differentiate away

Differentiating a parsed polynomial again and again makes its degree smaller each time, ends
with a number after as many steps as its degree says, and with the number zero after one
more.  The only thing that can come between is the limit on levels.
-/

namespace DerivCalc.Engine

section

variable [Elementary]

/-- What is left after differentiating this number of times. -/
def derivatives : ℕ → Expr → Except Error Expr
  | 0, e => .ok e
  | n + 1, e => derivative e >>= derivatives n

theorem derivative_eq_ok_iff {e result : Expr} :
    derivative e = .ok result ↔ e.depth ≤ maxDerivativeLevels ∧ result = e.derivative := by
  constructor
  · intro h
    obtain ⟨e₁, hWithin, hResult⟩ := Result.map_eq_ok_iff.1 h
    obtain ⟨hDepth, rfl⟩ := within_eq_ok_iff.1 hWithin
    exact ⟨hDepth, hResult.symm⟩
  · rintro ⟨hDepth, rfl⟩
    exact Result.map_eq_ok_iff.2 ⟨e, within_eq_ok_iff.2 ⟨hDepth, rfl⟩, rfl⟩

/-- Differentiating a number of times succeeds iff no step on the way has too many levels. -/
theorem derivatives_eq_ok_iff {n : ℕ} {e result : Expr} :
    derivatives n e = .ok result ↔ result = Expr.derivative^[n] e ∧
      ∀ k < n, (Expr.derivative^[k] e).depth ≤ maxDerivativeLevels := by
  induction n generalizing e with
  | zero => simp [derivatives, eq_comm]
  | succ n ih =>
      rw [derivatives, Result.bind_eq_ok_iff]
      constructor
      · rintro ⟨e', hFirst, hRest⟩
        obtain ⟨hDepth, rfl⟩ := derivative_eq_ok_iff.1 hFirst
        obtain ⟨rfl, hDepths⟩ := ih.1 hRest
        refine ⟨rfl, ?_⟩
        intro k hK
        cases k with
        | zero => exact hDepth
        | succ k => exact hDepths k (by omega)
      · rintro ⟨rfl, hDepths⟩
        refine ⟨e.derivative, derivative_eq_ok_iff.2 ⟨hDepths 0 (by omega), rfl⟩, ?_⟩
        exact ih.2 ⟨rfl, fun k hK => hDepths (k + 1) (by omega)⟩

theorem isNormal_of_parse {text : String} {e : Expr} (h : parse text = .ok e) : e.IsNormal := by
  obtain ⟨e₀, hMarks, rfl⟩ := exists_of_parse h
  exact Expr.isNormal_simplify hMarks

/--
Every derivative of a parsed polynomial is a polynomial, of a degree smaller by the number
of steps.  It is a number when no degree is left, and zero after that.  If none of the steps
that lower the degree has too many levels, there is no step that fails.
-/
theorem derivatives_of_polynomial {text : String} {e : Expr} {d : ℕ}
    (hParse : parse text = .ok e) (hDegree : e.HasDegree d) :
    (∀ n result, derivatives n e = .ok result → (∃ d' ≤ d - n, result.HasDegree d') ∧
      (d ≤ n → ∃ v, result = .const true v) ∧ (d < n → result = .const true 0)) ∧
    ((∀ k < d, (Expr.derivative^[k] e).depth ≤ maxDerivativeLevels) →
      ∀ n, ∃ result, derivatives n e = .ok result) := by
  have hNormal := isNormal_of_parse hParse
  constructor
  · intro n result hResult
    obtain ⟨rfl, -⟩ := derivatives_eq_ok_iff.1 hResult
    exact ⟨(Expr.degreeAtMost_iterate_derivative hDegree hNormal n).1,
      Expr.exists_const_of_degree_le hDegree hNormal,
      Expr.iterate_derivative_eq_zero hDegree hNormal⟩
  · intro hDepths n
    refine ⟨Expr.derivative^[n] e, derivatives_eq_ok_iff.2 ⟨rfl, ?_⟩⟩
    intro k _
    rcases Nat.lt_or_ge k d with hLt | hGe
    · exact hDepths k hLt
    · obtain ⟨v, hV⟩ := Expr.exists_const_of_degree_le hDegree hNormal hGe
      rw [hV]
      exact (by decide : 1 ≤ maxDerivativeLevels)

end

attribute [local instance] Elementary.specialArguments

/-- `(x * 3 + 1) ^ 3 * x / 2 - (-x)` as it is parsed, a polynomial of degree four. -/
def cubicTimes : Expr :=
  .binary true .sub
    (.binary true .div
      (.binary true .mul
        (.binary true .pow
          (.binary true .add (.binary true .mul (.const true 3) (.var true)) (.const true 1))
          (.const true 3))
        (.var true))
      (.const true 2))
    (.apply true .neg (.var true))

theorem hasDegree_cubicTimes : cubicTimes.HasDegree 4 := by
  have hThree : Double.value 3 = (3 : ℕ) := by
    have hUnpack : (3 : Float).toModel.unpack =
        .finite .positive (3 * 2 ^ 51) (-51) (by decide) := rfl
    rw [Double.value_of_unpack hUnpack]
    norm_num [Double.signFactor]
  have hLinear : Expr.HasDegree (.binary true .add (.binary true .mul (.const true 3) (.var true))
      (.const true 1)) 1 := .add (.mul (.const true 3) (.var true)) (.const true 1)
  exact .sub (.div (.mul (.pow hLinear hThree (by decide) (by decide)) (.var true)))
    (.neg (.var true))

/-- Five derivatives of a polynomial of degree four. -/
theorem derivatives_cubicTimes :
    parse "(x * 3 + 1) ^ 3 * x / 2 - (-x)" = .ok cubicTimes ∧ cubicTimes.HasDegree 4 ∧
      (∀ k < 4, (Expr.derivative^[k] cubicTimes).depth ≤ maxDerivativeLevels) ∧
      (∃ v, derivatives 4 cubicTimes = .ok (.const true v)) ∧
      derivatives 5 cubicTimes = .ok (.const true 0) := by
  have hParse : parse "(x * 3 + 1) ^ 3 * x / 2 - (-x)" = .ok cubicTimes := by decide +kernel
  have hDepths : ∀ k < 4, (Expr.derivative^[k] cubicTimes).depth ≤ maxDerivativeLevels := by
    decide +kernel
  obtain ⟨hSteps, hTotal⟩ := derivatives_of_polynomial hParse hasDegree_cubicTimes
  obtain ⟨fourth, hFourth⟩ := hTotal hDepths 4
  obtain ⟨fifth, hFifth⟩ := hTotal hDepths 5
  obtain ⟨v, rfl⟩ := (hSteps 4 fourth hFourth).2.1 (by decide)
  obtain rfl := (hSteps 5 fifth hFifth).2.2 (by decide)
  exact ⟨hParse, hasDegree_cubicTimes, hDepths, ⟨v, hFourth⟩, hFifth⟩

end DerivCalc.Engine
