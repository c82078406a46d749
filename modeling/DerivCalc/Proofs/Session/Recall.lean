import DerivCalc.Proofs.Session.Number
import DerivCalc.Proofs.Text.Words

/-!
# Recalling what was saved

A query takes its first word for a name or for a number by how it starts, while a name is
admitted by another rule when it is saved.  The rules never disagree: a saved name starts with
a letter, so it is not taken for a number, whatever number it reads as.  And what is saved can be
asked for at any later time, since there is a last expression as soon as something is saved.
-/

namespace DerivCalc.Session

open Text (IsWord)

/-! ## Saved names -/

theorem isWord_of_isName {name : String} (h : IsName name) : IsWord name.toList := by
  refine ⟨?_, h.2⟩
  intro hNil
  have hLetter := h.1
  unfold startsWith at hLetter
  rw [hNil] at hLetter
  exact absurd hLetter (by decide)

/-- The lines that ask for what is saved under a name, as they are typed. -/
theorem ofLine?_of_isName {name : String} (h : IsName name) :
    (∀ place : String, IsWord place.toList →
      Command.ofLine? (" ".intercalate ["EVAL", name, place]) = some (.eval [name, place])) ∧
    Command.ofLine? (" ".intercalate ["DER", name]) = some (.der [name]) ∧
    Command.ofLine? (" ".intercalate ["PRINT", name]) = some (.print [name]) := by
  have hName : ∀ argument ∈ [name], IsWord argument.toList :=
    List.forall_mem_singleton.2 (isWord_of_isName h)
  refine ⟨fun place hPlace => ?_, ?_, ?_⟩
  · have hBoth : ∀ argument ∈ [name, place], IsWord argument.toList :=
      List.forall_mem_cons.2 ⟨isWord_of_isName h, List.forall_mem_singleton.2 hPlace⟩
    obtain ⟨rest, hFirst, hWords⟩ := Command.firstWord?_joined "EVAL" (by decide) hBoth
    unfold Command.ofLine?
    rw [hFirst]
    show some (Command.eval ((Text.words rest).map String.ofList)) = _
    rw [hWords]
  · obtain ⟨rest, hFirst, hWords⟩ := Command.firstWord?_joined "DER" (by decide) hName
    unfold Command.ofLine?
    rw [hFirst]
    show some (Command.der ((Text.words rest).map String.ofList)) = _
    rw [hWords]
  · obtain ⟨rest, hFirst, hWords⟩ := Command.firstWord?_joined "PRINT" (by decide) hName
    unfold Command.ofLine?
    rw [hFirst]
    show some (Command.print ((Text.words rest).map String.ofList)) = _
    rw [hWords]

theorem requireLast_eq {s : Session} {e : Expr} (h : s.last = some e) :
    s.requireLast = .ok e := by
  unfold requireLast
  rw [h]

theorem chosen_of_find? {s : Session} {last e : Expr} {name : String}
    (h : s.find? name = some e) : s.chosen last [name] = .ok e := by
  unfold chosen
  simp only [h]

section

variable [Elementary]

/-- There is a last expression where there is a saved one. -/
theorem exists_last_of_find? {turns : List Turn} {name : String} {e : Expr}
    (h : (after {} turns).find? name = some e) : ∃ last, (after {} turns).last = some last := by
  cases hLast : (after {} turns).last with
  | some last => exact ⟨last, rfl⟩
  | none =>
      unfold find? at h
      rw [saved_after_eq_nil turns hLast] at h
      exact absurd h (by simp)

/-! ## Saving -/

omit [Elementary] in
/-- What is needed to save: a last expression, which can be copied, and one word for a name. -/
theorem save_succeeds_iff {s : Session} {arguments : List String} :
    (∃ response, (s.save arguments).2 = .ok response) ↔
      ∃ e name, s.last = some e ∧ e.depth ≤ Engine.maxLevels ∧ arguments = [name] ∧
        startsWith Text.isLetter name = true := by
  constructor
  · rintro ⟨response, hOk⟩
    unfold save at hOk
    split at hOk
    · rename_i name e hSteps
      obtain ⟨last, hLast, hSteps⟩ := Result.bind_eq_ok_iff.1 hSteps
      obtain ⟨name', hName, hSteps⟩ := Result.bind_eq_ok_iff.1 hSteps
      obtain ⟨copied, hCopy, -⟩ := Result.bind_eq_ok_iff.1 hSteps
      obtain ⟨hArguments, hLetter⟩ := newName_eq_ok hName
      exact ⟨last, name', requireLast_eq_ok hLast, (Engine.within_eq_ok_iff.1 hCopy).1,
        hArguments, hLetter⟩
    · exact absurd hOk (by simp [fail])
  · rintro ⟨e, name, hLast, hDepth, rfl, hLetter⟩
    have hCopy : Engine.copy e = .ok e := Engine.within_eq_ok_iff.2 ⟨hDepth, rfl⟩
    have hName : newName [name] = .ok name := by
      unfold newName
      simp only [hLetter, if_true]
    refine ⟨none, ?_⟩
    unfold save
    simp only [requireLast_eq hLast, hName, hCopy, bind, Except.bind]
    rfl

theorem succeeds_save_iff {s : Session} {settings : Settings} {line : String}
    {arguments : List String} (h : Command.ofLine? line = some (.save arguments)) :
    s.Succeeds ⟨settings, line⟩ ↔
      ∃ e name, s.last = some e ∧ e.depth ≤ Engine.maxLevels ∧ arguments = [name] ∧
        startsWith Text.isLetter name = true := by
  rw [← save_succeeds_iff]
  unfold Succeeds answer execute
  rw [h]
  rfl

/-! ## Recalling -/

theorem execute_of_ofLine? {settings : Settings} {s : Session} {line : String} {command : Command}
    (h : Command.ofLine? line = some command) :
    s.execute settings line = s.perform settings command := by
  unfold execute
  rw [h]

omit [Elementary] in
theorem showLast_ok (settings : Settings) (s : Session) (e : Expr) :
    s.showLast settings (.ok e) = ({ s with last := some e },
      reply (settings.precision >>= fun p => Engine.print p e)) := by
  refine Prod.ext ?_ (showLast_reply settings s e)
  simp only [showLast]
  split <;> rfl

/-- The value is the reply, and nothing changes. -/
theorem perform_eval {settings : Settings} {s : Session} {last e : Expr} {name place : String}
    {v : Float} (hNames : ∀ name ∈ s.names, IsName name) (hLast : s.last = some last)
    (hFound : s.find? name = some e) (hPlace : numberOf place = .ok v)
    (hDepth : e.depth ≤ Engine.maxLevels) :
    s.perform settings (.eval [name, place]) =
      (s, reply (settings.precision >>= fun p => Engine.formatNumber p (e.eval v))) := by
  have hQuery : s.query last [name, place] = .ok (e, v) :=
    query_append hNames (chosen_of_find? hFound) hPlace
  have hValue : Engine.evaluate e v = .ok (e.eval v) := by
    unfold Engine.evaluate
    rw [Engine.within_eq_ok_iff.2 ⟨hDepth, rfl⟩]
    rfl
  refine Prod.ext (perform_eval_fst settings s [name, place]) ?_
  rw [perform_eval_reply]
  unfold evaluate valueOf
  simp only [requireLast_eq hLast, hQuery, hValue, bind, Except.bind]

/-- The derivative becomes the last expression, and its text is the reply. -/
theorem perform_der {settings : Settings} {s : Session} {last e : Expr} {name : String}
    (hLast : s.last = some last) (hFound : s.find? name = some e)
    (hDepth : e.depth ≤ Engine.maxDerivativeLevels) :
    s.perform settings (.der [name]) = ({ s with last := some e.derivative },
      reply (settings.precision >>= fun p => Engine.print p e.derivative)) := by
  have hDerivative : Engine.derivative e = .ok e.derivative := by
    unfold Engine.derivative
    rw [Engine.within_eq_ok_iff.2 ⟨hDepth, rfl⟩]
    rfl
  rw [← showLast_ok]
  show s.differentiate settings [name] = _
  unfold differentiate derived
  simp only [requireLast_eq hLast, chosen_of_find? hFound, hDerivative, bind, Except.bind]

/-- The saved expression becomes the last one, and its text is the reply. -/
theorem perform_print {settings : Settings} {s : Session} {last e : Expr} {name : String}
    (hLast : s.last = some last) (hFound : s.find? name = some e)
    (hDepth : e.depth ≤ Engine.maxLevels) :
    s.perform settings (.print [name]) = ({ s with last := some e },
      reply (settings.precision >>= fun p => Engine.print p e)) := by
  have hCopy : Engine.copy e = .ok e := Engine.within_eq_ok_iff.2 ⟨hDepth, rfl⟩
  rw [← showLast_ok]
  show s.print settings [name] = _
  unfold print recalled
  simp only [requireLast_eq hLast, chosen_of_find? hFound, List.isEmpty_cons, Bool.false_eq_true,
    if_false, hCopy, bind, Except.bind]

/-- What the three commands do with the expression that is saved under a name. -/
structure Recalls (s : Session) (name : String) (e : Expr) : Prop where
  eval : ∀ settings line place v, Command.ofLine? line = some (.eval [name, place]) →
    numberOf place = .ok v → e.depth ≤ Engine.maxLevels →
    s.execute settings line =
      (s, reply (settings.precision >>= fun p => Engine.formatNumber p (e.eval v)))
  der : ∀ settings line, Command.ofLine? line = some (.der [name]) →
    e.depth ≤ Engine.maxDerivativeLevels →
    s.execute settings line = ({ s with last := some e.derivative },
      reply (settings.precision >>= fun p => Engine.print p e.derivative))
  print : ∀ settings line, Command.ofLine? line = some (.print [name]) →
    e.depth ≤ Engine.maxLevels →
    s.execute settings line = ({ s with last := some e },
      reply (settings.precision >>= fun p => Engine.print p e))

/-- After any history the three commands find what is saved. -/
theorem recalls_of_find? {turns : List Turn} {name : String} {e : Expr}
    (h : (after {} turns).find? name = some e) : Recalls (after {} turns) name e := by
  obtain ⟨last, hLast⟩ := exists_last_of_find? h
  constructor
  · intro settings line place v hLine hPlace hDepth
    rw [execute_of_ofLine? hLine]
    exact perform_eval (names_after turns).1 hLast h hPlace hDepth
  · intro settings line hLine hDepth
    rw [execute_of_ofLine? hLine]
    exact perform_der hLast h hDepth
  · intro settings line hLine hDepth
    rw [execute_of_ofLine? hLine]
    exact perform_print hLast h hDepth

omit [Elementary] in
theorem reply_formatNumber {settings : Settings} {p : ℕ} (hPrecision : settings.precision = .ok p)
    (hHigh : p ≤ Engine.maxPrecision) (v : Float) :
    reply (settings.precision >>= fun p => Engine.formatNumber p v) =
      .ok (some (String.ofList (Decimal.Significant.text v p))) := by
  rw [hPrecision]
  show reply (Engine.formatNumber p v) = _
  rw [Engine.formatNumber_eq_ok hHigh]
  rfl

omit [Elementary] in
theorem reply_print {settings : Settings} {p : ℕ} {e : Expr}
    (hPrecision : settings.precision = .ok p)
    (hHigh : e.hasNumber = true → p ≤ Engine.maxPrecision) (hDepth : e.depth ≤ Engine.maxLevels) :
    reply (settings.precision >>= fun p => Engine.print p e) =
      .ok (some (String.ofList (e.print p))) := by
  rw [hPrecision]
  show reply (Engine.print p e) = _
  rw [Engine.print_eq_ok hHigh hDepth]
  rfl

/-- What the three commands reply, under settings with this precision. -/
structure Shows (s : Session) (settings : Settings) (p : ℕ) (name : String) (e : Expr) :
    Prop where
  eval : ∀ line place v, Command.ofLine? line = some (.eval [name, place]) →
    numberOf place = .ok v → e.depth ≤ Engine.maxLevels → p ≤ Engine.maxPrecision →
    s.answer ⟨settings, line⟩ =
      .ok (some (String.ofList (Decimal.Significant.text (e.eval v) p)))
  der : ∀ line, Command.ofLine? line = some (.der [name]) →
    e.depth ≤ Engine.maxDerivativeLevels → e.derivative.depth ≤ Engine.maxLevels →
    (e.derivative.hasNumber = true → p ≤ Engine.maxPrecision) →
    s.answer ⟨settings, line⟩ = .ok (some (String.ofList (e.derivative.print p)))
  print : ∀ line, Command.ofLine? line = some (.print [name]) →
    e.depth ≤ Engine.maxLevels → (e.hasNumber = true → p ≤ Engine.maxPrecision) →
    s.answer ⟨settings, line⟩ = .ok (some (String.ofList (e.print p)))

/-- What is recalled is shown, if numbers in it can be formatted with the precision. -/
theorem Recalls.shows {s : Session} {name : String} {e : Expr} (h : Recalls s name e)
    {settings : Settings} {p : ℕ} (hPrecision : settings.precision = .ok p) :
    Shows s settings p name e := by
  constructor
  · intro line place v hLine hPlace hDepth hHigh
    have hAnswer := congrArg Prod.snd (h.eval settings line place v hLine hPlace hDepth)
    exact hAnswer.trans (reply_formatNumber hPrecision hHigh (e.eval v))
  · intro line hLine hDepth hResult hHigh
    have hAnswer := congrArg Prod.snd (h.der settings line hLine hDepth)
    exact hAnswer.trans (reply_print hPrecision hHigh hResult)
  · intro line hLine hDepth hHigh
    have hAnswer := congrArg Prod.snd (h.print settings line hLine hDepth)
    exact hAnswer.trans (reply_print hPrecision hHigh hDepth)

/--
Saved expressions stay reachable by every command, after any history.

Saving succeeds iff there is a last expression, not too deep to be copied, and one word that
starts with a letter is given for a name.  Under a saved name the commands to evaluate, to derive
and to print find what is saved, whatever the last expression is and whatever the name reads as;
typed in capitals, with blanks between the words, they are lines that stand for these commands.
They reply with a text, unless there is a number in it that cannot be formatted with the precision.
-/
theorem saved_stays_reachable :
    ∀ turns : List Turn,
      (∀ settings line arguments, Command.ofLine? line = some (.save arguments) →
        ((after {} turns).Succeeds ⟨settings, line⟩ ↔
          ∃ e name, (after {} turns).last = some e ∧ e.depth ≤ Engine.maxLevels ∧
            arguments = [name] ∧ startsWith Text.isLetter name = true)) ∧
      ∀ name e, (after {} turns).find? name = some e →
        Recalls (after {} turns) name e ∧
        (∀ place : String, IsWord place.toList →
          Command.ofLine? (" ".intercalate ["EVAL", name, place]) =
            some (.eval [name, place])) ∧
        Command.ofLine? (" ".intercalate ["DER", name]) = some (.der [name]) ∧
        Command.ofLine? (" ".intercalate ["PRINT", name]) = some (.print [name]) ∧
        ∀ settings p, Settings.precision settings = .ok p →
          Shows (after {} turns) settings p name e := by
  intro turns
  refine ⟨fun settings line arguments => succeeds_save_iff, fun name e hFound => ?_⟩
  obtain ⟨hEval, hDer, hPrint⟩ :=
    ofLine?_of_isName ((names_after turns).1 name (mem_names_of_find? hFound))
  exact ⟨recalls_of_find? hFound, hEval, hDer, hPrint,
    fun settings p hPrecision => (recalls_of_find? hFound).shows hPrecision⟩

end

attribute [local instance] Elementary.specialArguments

/-- `x * x` is saved under a name that reads as a number, and `1` is the last expression. -/
def savedInf : List Turn := [⟨[], "EXPR x * x"⟩, ⟨[], "SAVE inf"⟩, ⟨[], "EXPR 1"⟩]

/-- The square is recalled by its name, and `1` can be saved under another name of that kind. -/
theorem answer_savedInf :
    (after {} savedInf).Succeeds ⟨[], "save EXPR"⟩ ∧
      (after {} savedInf).answer ⟨Settings.defaults, "EVAL inf -3"⟩ = .ok (some "9") ∧
      (after {} savedInf).answer ⟨Settings.defaults, "DER inf"⟩ = .ok (some "x + x") ∧
      (after {} savedInf).answer ⟨Settings.defaults, "PRINT inf"⟩ = .ok (some "x * x") := by
  obtain ⟨hSave, hSaved⟩ := saved_stays_reachable savedInf
  have hFound : (after {} savedInf).find? "inf" =
      some (.binary true .mul (.var true) (.var true)) := by decide +kernel
  obtain ⟨-, hEval, hDer, hPrint, hShows⟩ := hSaved "inf" _ hFound
  have hShown := hShows Settings.defaults 6 rfl
  have hMinus : Command.ofLine? "EVAL inf -3" = some (.eval ["inf", "-3"]) :=
    hEval "-3" (by decide)
  refine ⟨(hSave [] "save EXPR" ["EXPR"] (by decide +kernel)).2 ?_, ?_, ?_, ?_⟩
  · exact ⟨.const true 1, "EXPR", by decide +kernel, by decide, rfl, by decide +kernel⟩
  · have hText := hShown.eval _ "-3" (-3) hMinus (by decide +kernel) (by decide) (by decide)
    rw [hText]
    decide +kernel
  · have hText := hShown.der _ hDer (by decide) (by decide +kernel) fun _ => by decide
    exact hText.trans (by decide +kernel)
  · have hText := hShown.print _ hPrint (by decide) fun _ => by decide
    exact hText.trans (by decide +kernel)

/-- A precision that is valid and too big for the formatting of numbers. -/
def widePrecision : Settings := Settings.ofFile (some "\x7b\"precision\": 2147483648\x7d")

/-- A number is saved. -/
def savedNumber : List Turn := [⟨widePrecision, "EXPR 2.5"⟩, ⟨widePrecision, "SAVE n"⟩]

/-- With this precision nothing that has a number in it can be shown. -/
theorem not_shown_savedNumber :
    (after {} savedNumber).find? "n" = some (.const true 2.5) ∧
      (Expr.const true 2.5).depth = 1 ∧ numberOf "0" = .ok 0 ∧
      widePrecision.precision = .ok 2147483648 ∧
      ∀ line ∈ ["EVAL n 0", "DER n", "PRINT n"],
        (after {} savedNumber).answer ⟨widePrecision, line⟩ =
          .error (.ofError .precisionTooBig) := by
  refine ⟨by decide +kernel, rfl, by decide +kernel, by decide +kernel, ?_⟩
  decide +kernel

end DerivCalc.Session
