import DerivCalc.Proofs.Expr.Folding
import DerivCalc.Proofs.Session.Noninterference
import DerivCalc.Proofs.Text.Letter

/-!
# Printing and evaluating a number

A formula without the variable is parsed as one number, so there is nothing left to evaluate:
to print it and to evaluate it anywhere are the same command.  This holds for the last
expression and for a saved one, since a saved name is no number and does not look like one:
it starts with a letter, and no letter is a digit.
-/

namespace DerivCalc.Session

/-! ## The expression that is asked for -/

theorem startsWith_isDigit_of_isName {name : String} (h : IsName name) :
    startsWith Text.isDigit name = false := by
  have hLetter := h.1
  unfold startsWith at hLetter ⊢
  cases hHead : name.toList.head? with
  | none => rfl
  | some c =>
      rw [hHead] at hLetter
      exact Text.isDigit_of_isLetter hLetter

theorem isDigitName_of_numberOf {place : String} {x : Float} (h : numberOf place = .ok x) :
    isDigitName place = false := by
  unfold numberOf at h
  unfold isDigitName
  split at h
  · rename_i v hValue
    rw [hValue]
    exact Bool.and_false _
  · exact absurd h (by simp)

theorem mem_names_of_find? {s : Session} {name : String} {e : Expr}
    (h : s.find? name = some e) : name ∈ s.names := by
  obtain ⟨before, after, hSaved, -⟩ := List.lookup_eq_some_iff.1 h
  rw [mem_names, hSaved]
  simp

/-- A query for a place finds the expression that a command without a place finds. -/
theorem query_append {s : Session} {last e : Expr} {names : List String} {place : String}
    {x : Float} (hNames : ∀ name ∈ s.names, IsName name) (hChosen : s.chosen last names = .ok e)
    (hPlace : numberOf place = .ok x) : s.query last (names ++ [place]) = .ok (e, x) := by
  unfold chosen at hChosen
  unfold query
  split at hChosen
  · obtain rfl := Except.ok.inj hChosen
    rw [if_neg (by simp [isDigitName_of_numberOf hPlace])]
    simp only [List.nil_append, hPlace, bind, Except.bind]
    rfl
  · rename_i name
    split at hChosen
    · rename_i found hFound
      obtain rfl := Except.ok.inj hChosen
      have hDigit := startsWith_isDigit_of_isName (hNames name (mem_names_of_find? hFound))
      rw [if_neg (by simp [isDigitName, hDigit])]
      simp only [List.singleton_append, hDigit, hPlace, hFound, bind, Except.bind]
      rfl
    · exact absurd hChosen (by simp)
  · exact absurd hChosen (by simp)

/-! ## What is shown of it -/

/-- A text is shown, and an error is reported. -/
def reply (result : Except Error String) : Except Failure (Option String) :=
  match result with
  | .ok text => .ok (some text)
  | .error cause => .error (.ofError cause)

theorem showLast_reply (settings : Settings) (s : Session) (e : Expr) :
    (s.showLast settings (.ok e)).2 =
      reply (settings.precision >>= fun p => Engine.print p e) := by
  simp only [showLast]
  cases settings.precision >>= fun p => Engine.print p e with
  | ok text => rfl
  | error cause => rfl

section

variable [Elementary]

theorem perform_eval_reply (settings : Settings) (s : Session) (arguments : List String) :
    (s.perform settings (.eval arguments)).2 = reply (s.evaluate settings arguments) := by
  simp only [perform]
  cases s.evaluate settings arguments with
  | ok text => rfl
  | error cause => rfl

/-- A number is shown in the same way when it is printed and when it is evaluated somewhere. -/
theorem perform_const (settings : Settings) {s : Session} {last : Expr} {names : List String}
    {place : String} {settled : Bool} {v x : Float} (hNames : ∀ name ∈ s.names, IsName name)
    (hLast : s.requireLast = .ok last) (hChosen : s.chosen last names = .ok (.const settled v))
    (hPlace : numberOf place = .ok x) :
    (s.perform settings (.print names)).2 =
        reply (settings.precision >>= fun p => Engine.formatNumber p v) ∧
      (s.perform settings (.eval (names ++ [place]))).2 =
        reply (settings.precision >>= fun p => Engine.formatNumber p v) := by
  constructor
  · have hPrint : s.print settings names = s.showLast settings (.ok (.const settled v)) := by
      unfold print recalled
      simp only [hLast, hChosen, bind, Except.bind]
      split <;> rfl
    show (s.print settings names).2 = _
    rw [hPrint, showLast_reply]
    rfl
  · have hQuery := query_append hNames hChosen hPlace
    rw [perform_eval_reply]
    unfold evaluate valueOf
    simp only [hLast, hQuery, bind, Except.bind]
    rfl

/--
Folding agrees with evaluation.

With a number in place of the variable every expression without marks simplifies to one
number, the value at that place.  So a formula without the variable is parsed as one number,
its value anywhere.  And in a session that has come to hold such a formula, as the last
expression or under a name, printing it and evaluating it anywhere have the same answer, a
text if the precision is one that numbers can be formatted with.
-/
theorem folding_agrees_with_evaluation :
    (∀ (e : Expr) (a : Float), (e.unsettled.atPoint a).simplify = .const true (e.eval a)) ∧
    (∀ text e, Engine.IsVariableFree text → Engine.read text = .ok e →
      e.depth ≤ Engine.maxLevels → ∀ x, Engine.parse text = .ok (.const true (e.eval x))) ∧
    ∀ (turns : List Turn) (text : String) (last e : Expr) (names : List String),
      Engine.IsVariableFree text → Engine.parse text = .ok e →
      (after {} turns).last = some last → (after {} turns).chosen last names = .ok e →
      ∀ settings printing evaluating place x,
        Command.ofLine? printing = some (.print names) →
        Command.ofLine? evaluating = some (.eval (names ++ [place])) → numberOf place = .ok x →
        (after {} turns).answer ⟨settings, printing⟩ =
            (after {} turns).answer ⟨settings, evaluating⟩ ∧
          ∀ p, settings.precision = .ok p → p ≤ Engine.maxPrecision →
            ∃ shown, (after {} turns).answer ⟨settings, printing⟩ = .ok (some shown) := by
  refine ⟨Expr.simplify_atPoint, fun text e hFree hRead => hFree.parse_eq hRead, ?_⟩
  intro turns text last e names hFree hParse hLast hChosen settings printing evaluating place x
    hPrinting hEvaluating hPlace
  obtain ⟨v, rfl⟩ := hFree.exists_of_parse hParse
  have hRequired : (after {} turns).requireLast = .ok last := by
    unfold requireLast
    rw [hLast]
  obtain ⟨hPrint, hEvaluate⟩ :=
    perform_const settings (names_after turns).1 hRequired hChosen hPlace
  have hPrinted : (after {} turns).answer ⟨settings, printing⟩ =
      reply (settings.precision >>= fun p => Engine.formatNumber p v) := by
    unfold answer execute
    rw [hPrinting, ← hPrint]
  have hEvaluated : (after {} turns).answer ⟨settings, evaluating⟩ =
      reply (settings.precision >>= fun p => Engine.formatNumber p v) := by
    unfold answer execute
    rw [hEvaluating, ← hEvaluate]
  refine ⟨hPrinted.trans hEvaluated.symm, ?_⟩
  intro p hPrecision hHigh
  refine ⟨String.ofList (Decimal.Significant.text v p), ?_⟩
  rw [hPrinted, hPrecision]
  show reply (Engine.formatNumber p v) = _
  rw [Engine.formatNumber_eq_ok hHigh]
  rfl

end

attribute [local instance] Elementary.specialArguments

/-- A product without a value is saved, and `x` is the last expression. -/
def savedUndefined : List Turn :=
  [⟨[], "EXPR 0 * (1 / 0)"⟩, ⟨[], "SAVE c"⟩, ⟨[], "EXPR x"⟩]

/-- The product is not a number: folding comes before the rule for a product with zero. -/
theorem answer_savedUndefined :
    (after {} savedUndefined).answer ⟨Settings.defaults, "PRINT c"⟩ = .ok (some "nan") ∧
      (after {} savedUndefined).answer ⟨Settings.defaults, "EVAL c 7.5"⟩ = .ok (some "nan") := by
  have hFree : Engine.IsVariableFree "0 * (1 / 0)" :=
    ⟨[.number 0, .op .mul, .openBracket, .number 1, .op .div, .number 0, .closeBracket],
      by decide +kernel, by decide +kernel⟩
  have hParse : Engine.parse "0 * (1 / 0)" = .ok (.const true (0 / 0)) := by decide +kernel
  have hPrint : (after {} savedUndefined).answer ⟨Settings.defaults, "PRINT c"⟩ =
      .ok (some "nan") := by decide +kernel
  have hSame := (folding_agrees_with_evaluation.2.2 savedUndefined "0 * (1 / 0)" (.var true)
    (.const true (0 / 0)) ["c"] hFree hParse (by decide +kernel) (by decide +kernel)
    Settings.defaults "PRINT c" "EVAL c 7.5" "7.5" 7.5 (by decide +kernel) (by decide +kernel)
    (by decide +kernel)).1
  exact ⟨hPrint, hSame.symm.trans hPrint⟩

end DerivCalc.Session
