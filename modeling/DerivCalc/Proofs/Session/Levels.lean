import DerivCalc.Proofs.Expr.Size
import DerivCalc.Proofs.Session.Reachable
import DerivCalc.Proofs.Session.Recall

/-!
# Entered expressions stay within the limit on levels

An expression is checked for its levels before it is simplified, and the later commands meet
its simplified form, which has no more levels.  So whatever was entered can be saved,
evaluated and printed.  The same holds of saved expressions, since they were copied.  Only a
derivative can have more levels than the commands walk, and it does no harm before it has
become the last expression.
-/

namespace DerivCalc.Session

/-! ## What does not walk an expression -/

theorem requireLast_ne_tooDeep (s : Session) : s.requireLast ≠ .error .tooDeep := by
  unfold requireLast
  split <;> simp

theorem newName_ne_tooDeep (arguments : List String) : newName arguments ≠ .error .tooDeep := by
  unfold newName
  split
  · simp
  · split <;> simp
  · simp

theorem chosen_ne_tooDeep (s : Session) (last : Expr) (arguments : List String) :
    s.chosen last arguments ≠ .error .tooDeep := by
  unfold chosen
  split
  · simp
  · split <;> simp
  · simp

theorem numberOf_ne_tooDeep (word : String) : numberOf word ≠ .error .tooDeep := by
  unfold numberOf
  split <;> simp

theorem query_ne_tooDeep (s : Session) (last : Expr) (arguments : List String) :
    s.query last arguments ≠ .error .tooDeep := by
  unfold query
  split
  · simp
  · split
    · exact Result.bind_ne_error (numberOf_ne_tooDeep _) fun x _ => by simp [pure, Except.pure]
    · rename_i name place _
      cases startsWith Text.isDigit name with
      | true => simp [throw, throwThe, MonadExceptOf.throw, bind, Except.bind]
      | false =>
          refine Result.bind_ne_error (numberOf_ne_tooDeep place) fun x _ => ?_
          split <;> simp [pure, Except.pure, throw, throwThe, MonadExceptOf.throw]
    · simp

/-- A query asks for the last expression or a saved one. -/
theorem mem_expressions_of_query {s : Session} {last e : Expr} {x : Float}
    {arguments : List String} (hLast : s.requireLast = .ok last)
    (h : s.query last arguments = .ok (e, x)) : e ∈ s.expressions := by
  unfold query at h
  split at h
  · exact absurd h (by simp)
  · split at h
    · obtain ⟨v, -, hPair⟩ := Result.bind_eq_ok_iff.1 h
      obtain ⟨rfl, -⟩ := Prod.mk.inj (Except.ok.inj hPair)
      exact mem_expressions_of_requireLast hLast
    · rename_i name place _
      cases hDigit : startsWith Text.isDigit name with
      | true => simp [hDigit, throw, throwThe, MonadExceptOf.throw, bind, Except.bind] at h
      | false =>
          rw [hDigit] at h
          obtain ⟨v, -, hFound⟩ := Result.bind_eq_ok_iff.1 h
          split at hFound
          · rename_i found hName
            obtain ⟨rfl, -⟩ := Prod.mk.inj (Except.ok.inj hFound)
            exact mem_expressions_of_find? hName
          · exact absurd hFound (by simp [throw, throwThe, MonadExceptOf.throw])
    · exact absurd h (by simp)

theorem precision_ne_tooDeep (settings : Settings) : settings.precision ≠ .error .tooDeep := by
  unfold Settings.precision
  split
  · split <;> simp
  · simp

theorem checkPrecision_ne_tooDeep (p : ℕ) : Engine.checkPrecision p ≠ .error .tooDeep := by
  unfold Engine.checkPrecision
  split
  · simp
  · split <;> simp

/-! ## Walks within the limit -/

/-- All that the session holds is within the limit on levels. -/
def Walkable (s : Session) : Prop := ∀ e ∈ s.expressions, e.depth ≤ Engine.maxLevels

/-- The error is not the cause of a failure. -/
def Avoids (cause : Error) (result : Except Failure (Option String)) : Prop :=
  ∀ failure, result = .error failure → failure.cause ≠ cause

theorem avoids_ok (cause : Error) (response : Option String) : Avoids cause (.ok response) := by
  intro failure hFails
  exact absurd hFails (by simp)

theorem avoids_error {cause cause' : Error} (h : cause' ≠ cause) :
    Avoids cause (.error (.ofError cause')) := by
  intro failure hFails
  rw [← Except.error.inj hFails]
  exact h

theorem avoids_reply {cause : Error} {result : Except Error String}
    (h : result ≠ .error cause) : Avoids cause (reply result) := by
  cases result with
  | ok text => exact avoids_ok cause (some text)
  | error cause' => exact avoids_error fun hEq => h (congrArg Except.error hEq)

theorem within_ne_tooDeep {e : Expr} (h : e.depth ≤ Engine.maxLevels) :
    Engine.within Engine.maxLevels e ≠ .error .tooDeep := by
  rw [Engine.within_eq_ok_iff.2 ⟨h, rfl⟩]
  simp

theorem print_ne_tooDeep {e : Expr} (h : e.depth ≤ Engine.maxLevels) (p : ℕ) :
    Engine.print p e ≠ .error .tooDeep := by
  refine Result.bind_ne_error (within_ne_tooDeep h) fun e' _ => ?_
  split
  · exact Result.bind_ne_error (checkPrecision_ne_tooDeep p) fun _ _ => by
      simp [pure, Except.pure]
  · simp [pure, Except.pure]

theorem Walkable.save {s : Session} (h : s.Walkable) (arguments : List String) :
    Avoids .tooDeep (s.save arguments).2 := by
  have hSteps : (do
      let last ← s.requireLast
      let name ← newName arguments
      return (name, ← Engine.copy last)) ≠ .error .tooDeep := by
    refine Result.bind_ne_error (requireLast_ne_tooDeep s) fun last hLast => ?_
    refine Result.bind_ne_error (newName_ne_tooDeep arguments) fun name _ => ?_
    have hDepth := h last (mem_expressions_of_requireLast hLast)
    exact Result.bind_ne_error (within_ne_tooDeep hDepth) fun _ _ => by simp [pure, Except.pure]
  unfold Session.save
  split
  · exact avoids_ok _ _
  · rename_i cause hCause
    exact avoids_error fun hEq => hSteps (hCause.trans (congrArg Except.error hEq))

section

variable [Elementary]

theorem Walkable.evaluate {s : Session} (h : s.Walkable) (settings : Settings)
    (arguments : List String) : s.evaluate settings arguments ≠ .error .tooDeep := by
  have hValueOf : s.valueOf arguments ≠ .error .tooDeep := by
    refine Result.bind_ne_error (requireLast_ne_tooDeep s) fun last hLast => ?_
    refine Result.bind_ne_error (query_ne_tooDeep s last arguments) fun ⟨e, x⟩ hQuery => ?_
    have hDepth := h e (mem_expressions_of_query hLast hQuery)
    have hValue : Engine.evaluate e x = .ok (e.eval x) := by
      unfold Engine.evaluate
      rw [Engine.within_eq_ok_iff.2 ⟨hDepth, rfl⟩]
      rfl
    simp [hValue]
  refine Result.bind_ne_error hValueOf fun v _ => ?_
  refine Result.bind_ne_error (precision_ne_tooDeep settings) fun p _ => ?_
  exact Result.bind_ne_error (checkPrecision_ne_tooDeep p) fun _ _ => by simp [pure, Except.pure]

theorem Walkable.print {s : Session} (h : s.Walkable) (settings : Settings)
    (arguments : List String) : Avoids .tooDeep (s.print settings arguments).2 := by
  have hPrint : s.print settings arguments =
      s.showLast settings (s.replacement (.print arguments)) := rfl
  cases hSteps : s.replacement (.print arguments) with
  | error cause =>
      have hAvoids : s.replacement (.print arguments) ≠ .error .tooDeep := by
        refine Result.bind_ne_error (requireLast_ne_tooDeep s) fun last hLast => ?_
        refine Result.bind_ne_error (chosen_ne_tooDeep s last arguments) fun e hChosen => ?_
        split
        · simp [pure, Except.pure]
        · exact within_ne_tooDeep (h e (mem_expressions_of_chosen hLast hChosen))
      rw [hPrint, hSteps]
      exact avoids_error fun hEq => hAvoids (hSteps.trans (congrArg Except.error hEq))
  | ok e =>
      rw [hSteps] at hPrint
      -- What is shown has become the last expression, and printing brings nothing in.
      have hMem : e ∈ (s.print settings arguments).1.expressions := by
        rw [hPrint, showLast_ok]
        exact mem_expressions_of_last rfl
      rw [hPrint, showLast_reply]
      refine avoids_reply (Result.bind_ne_error (precision_ne_tooDeep settings) fun p _ => ?_)
      exact print_ne_tooDeep (h e (mem_of_print hMem)) p

/-- Saving, evaluating and printing do not meet the limit on levels. -/
theorem Walkable.answer {s : Session} (h : s.Walkable) {t : Turn} {arguments : List String}
    (hLine : Command.ofLine? t.line ∈ [some (.save arguments), some (.eval arguments),
      some (.print arguments)]) : Avoids .tooDeep (s.answer t) := by
  unfold Session.answer
  simp only [List.mem_cons, List.not_mem_nil, or_false] at hLine
  rcases hLine with hSave | hEval | hPrint
  · rw [execute_of_ofLine? hSave]
    exact h.save arguments
  · rw [execute_of_ofLine? hEval, perform_eval_reply]
    exact avoids_reply (h.evaluate t.settings arguments)
  · rw [execute_of_ofLine? hPrint]
    exact h.print t.settings arguments

/-! ## What is saved and what is entered -/

/-- An expression that is parsed is within the limit: its simplified form is no larger. -/
theorem depth_le_of_parse {text : String} {e : Expr} (h : Engine.parse text = .ok e) :
    e.depth ≤ Engine.maxLevels := by
  obtain ⟨tokens, listing, e₀, -, -, -, hDepth, rfl⟩ := Engine.parse_eq_ok_iff.1 h
  exact (Expr.noLarger_simplify e₀).depth.trans hDepth

/-- A turn saves nothing that is beyond the limit. -/
theorem saved_next {s : Session} {t : Turn}
    (h : ∀ e ∈ s.saved.map (·.2), e.depth ≤ Engine.maxLevels) :
    ∀ e ∈ (s.next t).saved.map (·.2), e.depth ≤ Engine.maxLevels := by
  intro e hMem
  rcases (effect_next s t).saved_cases with ⟨name, last, hSaves, -, hLast, hSaved⟩ | ⟨-, hSaved⟩
  · rw [hSaved] at hMem
    obtain ⟨last', -, hLast', hDepth, -, -⟩ := (succeeds_save_iff hSaves.1).1 hSaves.2
    obtain rfl := Option.some.inj (hLast.symm.trans hLast')
    rcases mem_store hMem with rfl | hOld
    · exact hDepth
    · exact h e hOld
  · rw [hSaved] at hMem
    exact h e hMem

theorem saved_after (turns : List Turn) :
    ∀ e ∈ (after {} turns).saved.map (·.2), e.depth ≤ Engine.maxLevels := by
  induction turns using List.reverseRecOn with
  | nil => exact fun e hMem => absurd hMem (by simp [after])
  | append_singleton turns t ih =>
      rw [after_concat]
      exact saved_next ih

/-- After an expression was entered, all that the session holds is within the limit. -/
theorem walkable_of_enters {s : Session} {t : Turn}
    (h : ∀ e ∈ s.saved.map (·.2), e.depth ≤ Engine.maxLevels) (hEnters : s.Enters t) :
    (s.next t).Walkable := by
  obtain ⟨⟨text, hLine⟩, response, hAnswer⟩ := hEnters
  unfold Session.answer at hAnswer
  unfold Session.next
  rw [execute_of_ofLine? hLine] at hAnswer ⊢
  change (s.enter t.settings text).2 = _ at hAnswer
  change (s.enter t.settings text).1.Walkable
  unfold Session.enter at hAnswer ⊢
  cases hParse : (Engine.Trace.parseWith t.settings.debug text).1 with
  | error failure =>
      rw [hParse] at hAnswer
      exact absurd hAnswer (by simp)
  | ok e =>
      intro e' hMem
      rcases List.mem_cons.1 hMem with rfl | hSaved
      · exact depth_le_of_parse (Engine.parseWith_eq_ok_iff.1 hParse).1
      · exact h e' hSaved

/-- Only a derivative can be beyond the limit. -/
theorem Walkable.next {s : Session} (h : s.Walkable) {t : Turn}
    (hLine : ∀ arguments, Command.ofLine? t.line ≠ some (.der arguments)) :
    (s.next t).Walkable := by
  intro e hMem
  unfold Session.next at hMem
  cases hCommand : Command.ofLine? t.line with
  | none =>
      unfold execute at hMem
      rw [hCommand] at hMem
      exact h e hMem
  | some command =>
      rw [execute_of_ofLine? hCommand] at hMem
      cases command with
      | expr text =>
          rcases parsed_or_mem_of_enter hMem with hParse | hOld
          · exact depth_le_of_parse hParse
          · exact h e hOld
      | save arguments => exact h e (mem_of_save hMem)
      | der arguments => exact absurd hCommand (hLine arguments)
      | eval arguments =>
          rw [perform_eval_fst] at hMem
          exact h e hMem
      | print arguments => exact h e (mem_of_print hMem)

theorem Walkable.after {s : Session} (h : s.Walkable) {turns : List Turn}
    (hTurns : ∀ t ∈ turns, ∀ arguments, Command.ofLine? t.line ≠ some (.der arguments)) :
    (s.after turns).Walkable := by
  induction turns generalizing s with
  | nil => exact h
  | cons t rest ih =>
      obtain ⟨hFirst, hRest⟩ := List.forall_mem_cons.1 hTurns
      exact ih (h.next hFirst) hRest

/--
Simplification makes no expression larger: its result has no more nodes, no more levels and no
more occurrences of the variable.

So what has been entered can be saved, evaluated and printed without meeting the limit on levels,
whatever the session held before: in the next turn, or after turns that differentiate nothing.
-/
theorem entered_is_never_too_deep :
    (∀ e : Expr, e.simplify.size ≤ e.size ∧ e.simplify.depth ≤ e.depth ∧
      e.simplify.occurrences ≤ e.occurrences) ∧
    ∀ (turns later : List Turn) (entering t : Turn), (after {} turns).Enters entering →
      (∀ u ∈ later, ∀ arguments, Command.ofLine? u.line ≠ some (.der arguments)) →
      ∀ arguments, Command.ofLine? t.line ∈ [some (.save arguments), some (.eval arguments),
          some (.print arguments)] →
        ∀ failure, (after {} (turns ++ entering :: later)).answer t = .error failure →
          failure.cause ≠ .tooDeep := by
  constructor
  · intro e
    have hSmaller := Expr.noLarger_simplify e
    exact ⟨hSmaller.size, hSmaller.depth, hSmaller.occurrences⟩
  · intro turns later entering t hEnters hLater arguments hLine
    have hEntered : ((after {} turns).next entering).Walkable :=
      walkable_of_enters (saved_after turns) hEnters
    rw [after_append]
    exact (hEntered.after hLater).answer hLine

end

attribute [local instance] Elementary.specialArguments

/-- A product is saved, and the last expression is a derivative. -/
def productDerived : List Turn :=
  [⟨[], "EXPR x * x"⟩, ⟨[], "SAVE a"⟩, ⟨Settings.defaults, "DER"⟩]

/-- Then a difference is entered and the product printed: evaluating it can fail, but not for its
levels. -/
theorem answer_productDerived :
    (after {} productDerived).Enters ⟨[], "EXPR 0 - (x + 0)"⟩ ∧
    (after {} (productDerived ++ ⟨[], "EXPR 0 - (x + 0)"⟩ ::
      [⟨Settings.defaults, "PRINT a"⟩])).answer ⟨[], "EVAL a 1"⟩ =
        .error (.ofError (.invalidPrecision "0")) ∧
    Failure.cause (.ofError (.invalidPrecision "0")) ≠ .tooDeep := by
  have hEnters : (after {} productDerived).Enters ⟨[], "EXPR 0 - (x + 0)"⟩ :=
    ⟨⟨"0 - (x + 0)", by decide +kernel⟩, none, by decide +kernel⟩
  have hLater : ∀ u ∈ [(⟨Settings.defaults, "PRINT a"⟩ : Turn)], ∀ arguments,
      Command.ofLine? u.line ≠ some (.der arguments) := by
    intro u hMem arguments
    obtain rfl := List.mem_singleton.1 hMem
    have hLine : Command.ofLine? "PRINT a" = some (.print ["a"]) := by decide +kernel
    rw [hLine]
    simp
  have hFails : (after {} (productDerived ++ ⟨[], "EXPR 0 - (x + 0)"⟩ ::
      [⟨Settings.defaults, "PRINT a"⟩])).answer ⟨[], "EVAL a 1"⟩ =
        .error (.ofError (.invalidPrecision "0")) := by decide +kernel
  exact ⟨hEnters, hFails, entered_is_never_too_deep.2 _ _ _ _ hEnters hLater ["a", "1"]
    (by decide +kernel) _ hFails⟩

end DerivCalc.Session
