import DerivCalc.Error

/-!
# Computations that can fail

How a computation is taken apart.  If it succeeds, each step of it has succeeded, and its
result is that of the last step; if it fails, one of the steps has failed.
-/

namespace DerivCalc.Result

variable {ε α β : Type}

/-- The computation fails, with an error that has this code. -/
def FailsWith (code : String) (result : Except Error α) : Prop :=
  ∃ cause : Error, result = .error cause ∧ cause.code = code

/-- A sequence of two steps succeeds iff both do. -/
theorem bind_eq_ok_iff {first : Except ε α} {next : α → Except ε β} {b : β} :
    first >>= next = .ok b ↔ ∃ a, first = .ok a ∧ next a = .ok b := by
  cases first with
  | error cause =>
      constructor
      · intro hBind
        exact absurd hBind (by simp [bind, Except.bind])
      · rintro ⟨a, hFirst, -⟩
        exact absurd hFirst (by simp)
  | ok a =>
      constructor
      · intro hBind
        exact ⟨a, rfl, hBind⟩
      · rintro ⟨a', hFirst, hNext⟩
        rw [Except.ok.inj hFirst]
        exact hNext

/-- A step that cannot fail passes a success on. -/
theorem map_eq_ok_iff {first : Except ε α} {f : α → β} {b : β} :
    first.map f = .ok b ↔ ∃ a, first = .ok a ∧ f a = b := by
  cases first with
  | error cause =>
      constructor
      · intro hMap
        exact absurd hMap (by simp [Except.map])
      · rintro ⟨a, hFirst, -⟩
        exact absurd hFirst (by simp)
  | ok a =>
      constructor
      · intro hMap
        exact ⟨a, rfl, Except.ok.inj hMap⟩
      · rintro ⟨a', hFirst, hEq⟩
        rw [Except.ok.inj hFirst]
        exact congrArg Except.ok hEq

/-- A sequence of two steps fails iff the first one does or the second one does after it. -/
theorem bind_eq_error_iff {first : Except ε α} {next : α → Except ε β} {cause : ε} :
    first >>= next = .error cause ↔
      first = .error cause ∨ ∃ a, first = .ok a ∧ next a = .error cause := by
  cases first with
  | error cause' =>
      constructor
      · intro hBind
        exact Or.inl (congrArg Except.error (Except.error.inj hBind))
      · rintro (hFirst | ⟨a, hFirst, -⟩)
        · exact congrArg Except.error (Except.error.inj hFirst)
        · exact absurd hFirst (by simp)
  | ok a =>
      constructor
      · intro hBind
        exact Or.inr ⟨a, rfl, hBind⟩
      · rintro (hFirst | ⟨a', hFirst, hNext⟩)
        · exact absurd hFirst (by simp)
        · rw [Except.ok.inj hFirst]
          exact hNext

/-- A sequence of two steps avoids an error that both of them avoid. -/
theorem bind_ne_error {first : Except ε α} {next : α → Except ε β} {cause : ε}
    (hFirst : first ≠ .error cause) (hNext : ∀ a, first = .ok a → next a ≠ .error cause) :
    first >>= next ≠ .error cause := by
  intro hBind
  rcases bind_eq_error_iff.1 hBind with hFails | ⟨a, hOk, hFails⟩
  · exact hFirst hFails
  · exact hNext a hOk hFails

/-- What every step keeps up, about the part of the list that has been read, a fold keeps up. -/
theorem foldlM_invariant {step : β → α → Except ε β} {Inv : List α → β → Prop}
    (hStep : ∀ {read : List α} {b b' : β} {a : α}, Inv read b → step b a = .ok b' →
      Inv (read ++ [a]) b')
    (l : List α) : ∀ {read : List α} {b b' : β}, Inv read b → l.foldlM step b = .ok b' →
      Inv (read ++ l) b' := by
  induction l with
  | nil =>
      intro read b b' h hRun
      rw [← Except.ok.inj hRun, List.append_nil]
      exact h
  | cons a rest ih =>
      intro read b b' h hRun
      obtain ⟨next, hNext, hRest⟩ := bind_eq_ok_iff.1 hRun
      have hInv := ih (hStep h hNext) hRest
      rw [List.append_assoc] at hInv
      exact hInv

/-- A fold fails at one of its steps, and has gone well up to it. -/
theorem split_of_foldlM_eq_error {step : β → α → Except ε β} {l : List α} {b : β} {cause : ε}
    (h : l.foldlM step b = .error cause) :
    ∃ first a rest b', l = first ++ a :: rest ∧ first.foldlM step b = .ok b' ∧
      step b' a = .error cause := by
  induction l generalizing b with
  | nil => exact absurd h (by simp [pure, Except.pure])
  | cons a rest ih =>
      rcases bind_eq_error_iff.1 h with hStep | ⟨next, hNext, hRest⟩
      · exact ⟨[], a, rest, b, rfl, rfl, hStep⟩
      · obtain ⟨first, a', rest', b', rfl, hFirst, hStep⟩ := ih hRest
        refine ⟨a :: first, a', rest', b', rfl, ?_, hStep⟩
        exact bind_eq_ok_iff.2 ⟨next, hNext, hFirst⟩

/-- Some step of a fold that fails has failed. -/
theorem exists_of_foldlM_eq_error {step : β → α → Except ε β} {l : List α} {b : β} {cause : ε}
    (h : l.foldlM step b = .error cause) : ∃ b' a, step b' a = .error cause := by
  obtain ⟨-, a, -, b', -, -, hStep⟩ := split_of_foldlM_eq_error h
  exact ⟨b', a, hStep⟩

end DerivCalc.Result
