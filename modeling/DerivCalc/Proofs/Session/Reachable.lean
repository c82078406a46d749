import DerivCalc.Proofs.Elementary
import DerivCalc.Proofs.Engine.Made
import DerivCalc.Proofs.Expr.NormalForm
import DerivCalc.Session

/-!
# The expressions of reachable sessions

A session holds a last expression and saved ones.  `origin_of_execute` says what one line can
bring in, whatever the settings are and whether the line fails or not: an expression of
the next session was there before, has been parsed, or is the derivative of one that was
there.  By induction over the lines, all that a session ever holds is made by the engine.

With it `isNormal_results` collects where normal expressions come from: simplification, all
derivatives, building, parsing, and the sessions that can be reached.
-/

namespace DerivCalc.Session

/-! ## What a session holds -/

/-- The last expression and the saved ones. -/
def expressions (s : Session) : List Expr := s.last.toList ++ s.saved.map (·.2)

theorem mem_expressions_of_last {s : Session} {e : Expr} (h : s.last = some e) :
    e ∈ s.expressions := by
  unfold expressions
  rw [h]
  exact List.mem_append_left _ (List.mem_singleton.2 rfl)

theorem mem_of_lookup {name : String} {e : Expr} {saved : List (String × Expr)}
    (h : saved.lookup name = some e) : e ∈ saved.map (·.2) := by
  induction saved with
  | nil => exact absurd h (by simp)
  | cons entry rest ih =>
      rw [List.lookup_cons] at h
      rw [List.map_cons]
      split at h
      · exact List.mem_cons.2 (Or.inl (Option.some.inj h).symm)
      · exact List.mem_cons_of_mem _ (ih h)

theorem mem_expressions_of_find? {s : Session} {name : String} {e : Expr}
    (h : s.find? name = some e) : e ∈ s.expressions :=
  List.mem_append_right _ (mem_of_lookup h)

/-- Storing an expression brings no other one in. -/
theorem mem_store {name : String} {e e' : Expr} {saved : List (String × Expr)}
    (h : e' ∈ (store name e saved).map (·.2)) : e' = e ∨ e' ∈ saved.map (·.2) := by
  induction saved with
  | nil => exact Or.inl (List.mem_singleton.1 h)
  | cons entry rest ih =>
      obtain ⟨n, old⟩ := entry
      unfold store at h
      split at h
      · rcases List.mem_cons.1 h with hNew | hRest
        · exact Or.inl hNew
        · exact Or.inr (List.mem_cons_of_mem _ hRest)
      · rcases List.mem_cons.1 h with hOld | hRest
        · exact Or.inr (List.mem_cons.2 (Or.inl hOld))
        · exact (ih hRest).imp_right (List.mem_cons_of_mem _)

theorem mem_expressions_of_requireLast {s : Session} {e : Expr} (h : s.requireLast = .ok e) :
    e ∈ s.expressions := by
  unfold requireLast at h
  split at h
  · rename_i last hLast
    obtain rfl := Except.ok.inj h
    exact mem_expressions_of_last hLast
  · exact absurd h (by simp)

/-- An expression that is chosen by an optional name is in the session. -/
theorem mem_expressions_of_chosen {s : Session} {last e : Expr} {arguments : List String}
    (hLast : s.requireLast = .ok last) (h : s.chosen last arguments = .ok e) :
    e ∈ s.expressions := by
  unfold chosen at h
  split at h
  · obtain rfl := Except.ok.inj h
    exact mem_expressions_of_requireLast hLast
  · split at h
    · rename_i found hFind
      obtain rfl := Except.ok.inj h
      exact mem_expressions_of_find? hFind
    · exact absurd h (by simp)
  · exact absurd h (by simp)

/-! ## One line -/

/-- A new last expression does not touch the saved ones. -/
theorem eq_or_mem_of_last {s : Session} {e e' : Expr}
    (hMem : e' ∈ expressions { s with last := some e }) : e' = e ∨ e' ∈ s.expressions :=
  (List.mem_cons.1 hMem).imp_right (List.mem_append_right _)

/-- Only the result that is shown can be new. -/
theorem eq_or_mem_of_showLast {settings : Settings} {s : Session} {result : Except Error Expr}
    {e' : Expr} (hMem : e' ∈ (s.showLast settings result).1.expressions) :
    result = .ok e' ∨ e' ∈ s.expressions := by
  cases result with
  | error cause => exact Or.inr hMem
  | ok e =>
      have hNext : (s.showLast settings (.ok e)).1 = { s with last := some e } := by
        simp only [showLast]
        split <;> rfl
      rw [hNext] at hMem
      exact (eq_or_mem_of_last hMem).imp_left fun hEq => by rw [hEq]

/-- Saving brings nothing in. -/
theorem mem_of_save {s : Session} {arguments : List String} {e' : Expr}
    (hMem : e' ∈ (s.save arguments).1.expressions) : e' ∈ s.expressions := by
  unfold save at hMem
  split at hMem
  · rename_i name e hSteps
    obtain ⟨last, hLast, hSteps⟩ := Result.bind_eq_ok_iff.1 hSteps
    obtain ⟨name', -, hSteps⟩ := Result.bind_eq_ok_iff.1 hSteps
    obtain ⟨copied, hCopy, hPair⟩ := Result.bind_eq_ok_iff.1 hSteps
    obtain ⟨-, rfl⟩ := Engine.within_eq_ok_iff.1 hCopy
    obtain ⟨rfl, rfl⟩ := Prod.mk.inj (Except.ok.inj hPair)
    rcases List.mem_append.1 hMem with hOld | hSaved
    · exact List.mem_append_left _ hOld
    · rcases mem_store hSaved with rfl | hSaved
      · exact mem_expressions_of_requireLast hLast
      · exact List.mem_append_right _ hSaved
  · exact hMem

/-- Neither does printing. -/
theorem mem_of_print {settings : Settings} {s : Session} {arguments : List String} {e' : Expr}
    (hMem : e' ∈ (s.print settings arguments).1.expressions) : e' ∈ s.expressions := by
  rcases eq_or_mem_of_showLast hMem with hSteps | hOld
  · obtain ⟨last, hLast, hSteps⟩ := Result.bind_eq_ok_iff.1 hSteps
    obtain ⟨e, hChosen, hCopy⟩ := Result.bind_eq_ok_iff.1 hSteps
    have hSame : e' = e := by
      split at hCopy
      · exact (Except.ok.inj hCopy).symm
      · exact (Engine.within_eq_ok_iff.1 hCopy).2
    rw [hSame]
    exact mem_expressions_of_chosen hLast hChosen
  · exact hOld

section

variable [Elementary]

theorem parsed_or_mem_of_enter {settings : Settings} {s : Session} {text : String} {e' : Expr}
    (hMem : e' ∈ (s.enter settings text).1.expressions) :
    Engine.parse text = .ok e' ∨ e' ∈ s.expressions := by
  unfold enter at hMem
  split at hMem
  · rename_i e hParse
    exact (eq_or_mem_of_last hMem).imp_left fun hEq => by rw [hEq, (Engine.parseWith_eq_ok_iff.1 hParse).1]
  · exact Or.inr hMem

/-- The expression is in the session, is parsed, or is the derivative of one in the session. -/
def Origin (s : Session) (e : Expr) : Prop :=
  e ∈ s.expressions ∨ (∃ text, Engine.parse text = .ok e) ∨
    ∃ e₀ ∈ s.expressions, Engine.derivative e₀ = .ok e

theorem origin_of_enter {settings : Settings} {s : Session} {text : String} {e' : Expr}
    (hMem : e' ∈ (s.enter settings text).1.expressions) : s.Origin e' := by
  rcases parsed_or_mem_of_enter hMem with hParse | hOld
  · exact Or.inr (Or.inl ⟨text, hParse⟩)
  · exact Or.inl hOld

theorem origin_of_differentiate {settings : Settings} {s : Session} {arguments : List String}
    {e' : Expr} (hMem : e' ∈ (s.differentiate settings arguments).1.expressions) :
    s.Origin e' := by
  rcases eq_or_mem_of_showLast hMem with hSteps | hOld
  · obtain ⟨last, hLast, hSteps⟩ := Result.bind_eq_ok_iff.1 hSteps
    obtain ⟨e₀, hChosen, hDerivative⟩ := Result.bind_eq_ok_iff.1 hSteps
    exact Or.inr (Or.inr ⟨e₀, mem_expressions_of_chosen hLast hChosen, hDerivative⟩)
  · exact Or.inl hOld

theorem origin_of_perform {settings : Settings} {s : Session} {command : Command} {e' : Expr}
    (hMem : e' ∈ (s.perform settings command).1.expressions) : s.Origin e' := by
  cases command with
  | expr text => exact origin_of_enter hMem
  | save arguments => exact Or.inl (mem_of_save hMem)
  | der arguments => exact origin_of_differentiate hMem
  | eval arguments =>
      simp only [perform] at hMem
      split at hMem
      · exact Or.inl hMem
      · exact Or.inl hMem
  | print arguments => exact Or.inl (mem_of_print hMem)

/-- What one line can bring in, also one that fails. -/
theorem origin_of_execute {settings : Settings} {s : Session} {line : String} {e' : Expr}
    (hMem : e' ∈ (s.execute settings line).1.expressions) : s.Origin e' := by
  unfold execute at hMem
  split at hMem
  · exact origin_of_perform hMem
  · exact Or.inl hMem

/-! ## Any number of lines -/

/-- The sessions after any lines, each executed with any settings. -/
inductive Reachable : Session → Prop
  | start : Reachable {}
  | step (settings : Settings) (line : String) {s : Session} :
      Reachable s → Reachable (s.execute settings line).1

/-- All that a reachable session holds is made by the engine and settled. -/
theorem made_of_reachable {s : Session} (h : Reachable s) :
    ∀ e ∈ s.expressions, Engine.Made e ∧ e.isSettled = true := by
  induction h with
  | start =>
      intro e hMem
      exact absurd hMem (by simp [expressions])
  | step settings line _ ih =>
      intro e hMem
      rcases origin_of_execute hMem with hOld | ⟨text, hParse⟩ | ⟨e₀, hOld, hDerivative⟩
      · exact ih e hOld
      · refine ⟨.parsed hParse, ?_⟩
        obtain ⟨e₀, -, rfl⟩ := Engine.exists_of_parse hParse
        exact Expr.isSettled_simplify e₀
      · refine ⟨.derived (ih e₀ hOld).1 hDerivative, ?_⟩
        rw [Engine.eq_of_map_within hDerivative]
        exact Expr.isSettled_derivative e₀

/-! ## Normal forms -/

/--
Everything that is returned is normal: simplified forms and derivatives of whatever the
engine can make, what is built from a listing or parsed, and all that a reachable session
holds.
-/
theorem isNormal_results :
    (∀ e, Engine.Made e →
      e.simplify.IsNormal ∧ ∀ n : ℕ, (Expr.derivative^[n + 1] e).IsNormal) ∧
    (∀ listing e, Engine.build listing = .ok e → e.IsNormal) ∧
    (∀ text e, Engine.parse text = .ok e → e.IsNormal) ∧
    ∀ s : Session, Reachable s → ∀ e ∈ s.expressions, e.IsNormal := by
  refine ⟨?_, ?_, ?_, ?_⟩
  · intro e hMade
    exact ⟨Expr.isNormal_simplify hMade.wellMarked,
      Expr.isNormal_iterate_derivative hMade.wellMarked⟩
  · intro listing e hBuild
    obtain ⟨e₀, hMarks, rfl⟩ := Engine.exists_of_build hBuild
    exact Expr.isNormal_simplify hMarks
  · intro text e hParse
    obtain ⟨e₀, hMarks, rfl⟩ := Engine.exists_of_parse hParse
    exact Expr.isNormal_simplify hMarks
  · intro s hReachable e hMem
    obtain ⟨hMade, hSettled⟩ := made_of_reachable hReachable e hMem
    exact Expr.isNormal_iff.2 ⟨hMade.wellMarked, hSettled⟩

end

attribute [local instance] Elementary.specialArguments

/-- The session after a product has been entered, saved and differentiated. -/
def savedProduct : Session :=
  ((((({} : Session).execute [] "EXPR (0 - x) * 3 + 0").1).execute [] "SAVE a").1.execute
    [] "DER").1

/-- `3 * -(x)`: the sides are exchanged, and `0 - x` and `+ 0` are gone. -/
def product : Expr :=
  .binary true .mul (.const true 3) (.apply true .neg (.var true))

/-- The saved product and all its derivatives are normal. -/
theorem isNormal_savedProduct :
    Reachable savedProduct ∧ product ∈ savedProduct.expressions ∧ product.IsNormal ∧
      ∀ n : ℕ, (Expr.derivative^[n + 1] product).IsNormal := by
  have hReachable : Reachable savedProduct := ((Reachable.start.step _ _).step _ _).step _ _
  have hMem : product ∈ savedProduct.expressions := by decide +kernel
  obtain ⟨hEngine, -, -, hSession⟩ := isNormal_results
  exact ⟨hReachable, hMem, hSession _ hReachable _ hMem,
    (hEngine _ (made_of_reachable hReachable _ hMem).1).2⟩

end DerivCalc.Session
