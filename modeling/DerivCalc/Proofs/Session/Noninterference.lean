import DerivCalc.Proofs.Engine.RoundTrip
import DerivCalc.Proofs.Json.Limits
import DerivCalc.Proofs.Session.Loading
import DerivCalc.Proofs.Text.Words

/-!
# Settings do not reach the mathematics

Two runs execute the same lines under different files, which may change before every line.
As long as the settings are loaded with a usable precision in both, and a line that the two
report on differently can be reported on, they go through the same sessions, and every
line ends in the same way: both show nothing, both show a text, or both fail with the
same error.  Only the digits of the texts may differ, and they do not where the precision is
the same.

`execute_congr` says that a line asks the settings for the precision and for diagnostics only,
`execute_alike` that a usable precision makes no line fail.  Both go from one line to two
whole runs by induction, since the sessions stay the same.

The two conditions are needed (`settings_reach_further`): the report on an expression of many
levels fails where the expression itself does not, and so does loading a file with a long integer.
-/

namespace DerivCalc.Session

open Elementary (specialArguments)

/-! ## Outcomes that differ in digits only -/

/-- Both results show nothing, both show a text, or both are the same failure. -/
def SameKind : Except Failure (Option String) → Except Failure (Option String) → Prop
  | .ok none, .ok none => True
  | .ok (some _), .ok (some _) => True
  | .error failure, .error failure' => failure = failure'
  | _, _ => False

theorem SameKind.refl (result : Except Failure (Option String)) : SameKind result result := by
  match result with
  | .ok none => trivial
  | .ok (some _) => trivial
  | .error _ => exact rfl

/-- Both lines have results of the same kind, or both end in the same fault. -/
inductive SameEnding : Ending → Ending → Prop
  | result {result result' : Except Failure (Option String)} (h : SameKind result result') :
      SameEnding (.result result) (.result result')
  | crash (fault : Json.Reader.Fault) : SameEnding (.crash fault) (.crash fault)

/-- The same session is left, by results of the same kind. -/
def Alike (a b : Outcome) : Prop := a.1 = b.1 ∧ SameKind a.2 b.2

theorem Alike.refl (a : Outcome) : Alike a a := ⟨rfl, SameKind.refl a.2⟩

/-- The precision is an integer from 1 to 1100. -/
def UsablePrecision (settings : Settings) : Prop :=
  ∃ i : ℤ, Settings.value settings "precision" = .int i ∧ 1 ≤ i ∧ i ≤ 1100

theorem usablePrecision_iff {settings : Settings} :
    UsablePrecision settings ↔ ∃ p, settings.precision = .ok p ∧ p ≤ 1100 := by
  unfold UsablePrecision Settings.precision
  constructor
  · rintro ⟨i, hValue, hLow, hHigh⟩
    rw [hValue]
    exact ⟨i.toNat, if_neg (by omega), by omega⟩
  · rintro ⟨p, hPrecision, hHigh⟩
    split at hPrecision
    · rename_i i hValue
      split at hPrecision
      · exact absurd hPrecision (by simp)
      · obtain rfl := Except.ok.inj hPrecision
        exact ⟨i, hValue, by omega, by omega⟩
    · exact absurd hPrecision (by simp)

theorem UsablePrecision.exists_precision {settings : Settings} (h : UsablePrecision settings) :
    ∃ p, settings.precision = .ok p ∧ p ≤ Engine.maxPrecision := by
  obtain ⟨p, hPrecision, hHigh⟩ := usablePrecision_iff.1 h
  exact ⟨p, hPrecision, Nat.le_trans hHigh (by decide)⟩

/-! ## One command -/

/-- What is printed with a precision that numbers can be formatted with. -/
theorem print_eq_map {p : ℕ} (h : p ≤ Engine.maxPrecision) (e : Expr) :
    Engine.print p e =
      (Engine.within Engine.maxLevels e).map fun e => String.ofList (e.print p) := by
  by_cases hDepth : e.depth ≤ Engine.maxLevels
  · rw [Engine.print_eq_ok (fun _ => h) hDepth, Engine.within_eq_ok_iff.2 ⟨hDepth, rfl⟩]
    rfl
  · unfold Engine.print Engine.within
    rw [if_neg hDepth]
    rfl

/-- A result is shown or not, whatever usable precision it is shown with. -/
theorem showLast_alike {settings settings' : Settings} (h : UsablePrecision settings)
    (h' : UsablePrecision settings') (s : Session) (result : Except Error Expr) :
    Alike (s.showLast settings result) (s.showLast settings' result) := by
  obtain ⟨p, hP, hHigh⟩ := h.exists_precision
  obtain ⟨p', hP', hHigh'⟩ := h'.exists_precision
  cases result with
  | error cause => exact Alike.refl _
  | ok e =>
      simp only [showLast, hP, hP', bind, Except.bind, print_eq_map hHigh, print_eq_map hHigh']
      cases Engine.within Engine.maxLevels e with
      | error cause => exact Alike.refl _
      | ok e => exact ⟨rfl, trivial⟩

section

variable [Elementary]

/-- The precision is asked for when the value is there. -/
theorem evaluate_eq (settings : Settings) (s : Session) (arguments : List String) :
    s.evaluate settings arguments =
      s.valueOf arguments >>= fun v => settings.precision >>= fun p =>
        Engine.formatNumber p v := rfl

/-- A value is formatted, whatever usable precision it is formatted with. -/
theorem perform_eval_alike {settings settings' : Settings} (h : UsablePrecision settings)
    (h' : UsablePrecision settings') (s : Session) (arguments : List String) :
    Alike (s.perform settings (.eval arguments)) (s.perform settings' (.eval arguments)) := by
  obtain ⟨p, hP, hHigh⟩ := h.exists_precision
  obtain ⟨p', hP', hHigh'⟩ := h'.exists_precision
  simp only [perform, evaluate_eq, hP, hP', bind, Except.bind, Engine.formatNumber_eq_ok hHigh,
    Engine.formatNumber_eq_ok hHigh']
  cases s.valueOf arguments with
  | error cause => exact Alike.refl _
  | ok v => exact ⟨rfl, trivial⟩

/-- The line enters nothing that could not be described. -/
def Describable (line : String) : Prop :=
  ∀ text e, Command.ofLine? line = some (.expr text) → Engine.parse text = .ok e →
    e.depth ≤ Engine.Trace.maxLevels

/-- Diagnostics do not matter for what can be described. -/
theorem parseWith_eq_parse {text : String}
    (h : ∀ e, Engine.parse text = .ok e → e.depth ≤ Engine.Trace.maxLevels) (debug : Bool) :
    (Engine.Trace.parseWith debug text).1 = Engine.parse text := by
  unfold Engine.Trace.parseWith
  cases debug with
  | false => rfl
  | true =>
      cases hParse : Engine.parse text with
      | error failure => rfl
      | ok e => simp [h e hParse]

theorem enter_congr {settings settings' : Settings} {text : String}
    (h : settings.debug = settings'.debug ∨
      ∀ e, Engine.parse text = .ok e → e.depth ≤ Engine.Trace.maxLevels) (s : Session) :
    s.enter settings text = s.enter settings' text := by
  unfold enter
  rcases h with hDebug | hLevels
  · rw [hDebug]
  · rw [parseWith_eq_parse hLevels, parseWith_eq_parse hLevels]

/-- The two settings report alike on the line, or there is nothing that could not be reported. -/
def ReportAlike (settings settings' : Settings) (line : String) : Prop :=
  settings.debug = settings'.debug ∨ Describable line

theorem ReportAlike.of_expr {settings settings' : Settings} {line text : String}
    (h : ReportAlike settings settings' line)
    (hLine : Command.ofLine? line = some (.expr text)) :
    settings.debug = settings'.debug ∨
      ∀ e, Engine.parse text = .ok e → e.depth ≤ Engine.Trace.maxLevels :=
  h.imp_right fun hDescribable e hParse => hDescribable text e hLine hParse

/-! ## One line -/

/-- Under usable precisions a line leaves the same session, by results of the same kind. -/
theorem execute_alike {settings settings' : Settings} (h : UsablePrecision settings)
    (h' : UsablePrecision settings') {line : String}
    (hReport : ReportAlike settings settings' line) (s : Session) :
    Alike (s.execute settings line) (s.execute settings' line) := by
  unfold execute
  cases hLine : Command.ofLine? line with
  | none => exact Alike.refl _
  | some command =>
      cases command with
      | expr text =>
          show Alike (s.enter settings text) (s.enter settings' text)
          rw [enter_congr (hReport.of_expr hLine)]
          exact Alike.refl _
      | save arguments => exact Alike.refl _
      | der arguments => exact showLast_alike h h' s _
      | eval arguments => exact perform_eval_alike h h' s arguments
      | print arguments => exact showLast_alike h h' s _

/-- A line asks the settings for the precision and for diagnostics only. -/
theorem execute_congr {settings settings' : Settings}
    (h : settings.precision = settings'.precision) {line : String}
    (hReport : ReportAlike settings settings' line) (s : Session) :
    s.execute settings line = s.execute settings' line := by
  unfold execute
  cases hLine : Command.ofLine? line with
  | none => rfl
  | some command =>
      cases command with
      | expr text => exact enter_congr (hReport.of_expr hLine) s
      | save arguments => rfl
      | der arguments => simp only [perform, differentiate, showLast, h]
      | eval arguments => simp only [perform, evaluate, h]
      | print arguments => simp only [perform, print, showLast, h]

/-! ## Two runs -/

/-- A line with the text of the settings file in the one run and in the other. -/
structure Twin where
  line : String
  first : Option String
  second : Option String

namespace Twin

/-- The line in the one run. -/
def left (t : Twin) : Attempt := ⟨Settings.loadFile t.first, t.line⟩

/-- The line in the other run. -/
def right (t : Twin) : Attempt := ⟨Settings.loadFile t.second, t.line⟩

/-- The settings are loaded without a fault and have a usable precision, in both runs. -/
structure Usable (t : Twin) : Prop where
  loads_first : Settings.faultOfFile t.first = none
  loads_second : Settings.faultOfFile t.second = none
  first : UsablePrecision (Settings.ofFile t.first)
  second : UsablePrecision (Settings.ofFile t.second)

end Twin

omit [Elementary] in
theorem loadFile_eq_ok {content : Option String} (h : Settings.faultOfFile content = none) :
    Settings.loadFile content = .ok (Settings.ofFile content) := by
  unfold Settings.loadFile
  rw [h]

omit [Elementary] in
theorem Twin.Usable.left_eq {t : Twin} (h : t.Usable) :
    t.left = Turn.attempt ⟨Settings.ofFile t.first, t.line⟩ := by
  rw [Twin.left, loadFile_eq_ok h.loads_first]
  rfl

omit [Elementary] in
theorem Twin.Usable.right_eq {t : Twin} (h : t.Usable) :
    t.right = Turn.attempt ⟨Settings.ofFile t.second, t.line⟩ := by
  rw [Twin.right, loadFile_eq_ok h.loads_second]
  rfl

/-- A line in two runs that have come to the same session. -/
theorem Twin.Usable.alike {t : Twin} (h : t.Usable)
    (hReport : ReportAlike (Settings.ofFile t.first) (Settings.ofFile t.second) t.line)
    (s : Session) :
    s.tried t.left = s.tried t.right ∧ SameEnding (s.ending t.left) (s.ending t.right) ∧
      ((Settings.ofFile t.first).precision = (Settings.ofFile t.second).precision →
        s.ending t.left = s.ending t.right) := by
  obtain ⟨hSession, hKind⟩ := execute_alike h.first h.second hReport s
  rw [h.left_eq, h.right_eq]
  refine ⟨hSession, .result hKind, fun hPrecision => congrArg Ending.result ?_⟩
  exact congrArg Prod.snd (execute_congr hPrecision hReport s)

/-- The sessions of two runs are the same. -/
theorem afterAttempts_left_eq_right (twins : List Twin)
    (h : ∀ t ∈ twins, t.Usable ∧
      ReportAlike (Settings.ofFile t.first) (Settings.ofFile t.second) t.line) :
    afterAttempts {} (twins.map Twin.left) = afterAttempts {} (twins.map Twin.right) := by
  induction twins using List.reverseRecOn with
  | nil => rfl
  | append_singleton twins t ih =>
      obtain ⟨hUsable, hReport⟩ := h t (by simp)
      have hSame := ih fun t' hMem => h t' (List.mem_append_left _ hMem)
      rw [List.map_append, List.map_append, List.map_singleton, List.map_singleton,
        afterAttempts_concat, afterAttempts_concat, hSame]
      exact (hUsable.alike hReport _).1

/--
Settings reach the digits of texts only.

In two runs of the same lines, under files that may differ before every line but always load
with a usable precision, the sessions are the same after every line, every line ends in
the same way, and where the precision is the same it also shows the same text.  Where just one
of the files asks for diagnostics, an expression that is entered must have a description.
-/
theorem settings_only_reach_digits (twins : List Twin)
    (h : ∀ t ∈ twins, t.Usable ∧
      ReportAlike (Settings.ofFile t.first) (Settings.ofFile t.second) t.line) :
    ∀ earlier t later, twins = earlier ++ t :: later →
      afterAttempts {} ((earlier ++ [t]).map Twin.left) =
        afterAttempts {} ((earlier ++ [t]).map Twin.right) ∧
      SameEnding ((afterAttempts {} (earlier.map Twin.left)).ending t.left)
        ((afterAttempts {} (earlier.map Twin.right)).ending t.right) ∧
      ((Settings.ofFile t.first).precision = (Settings.ofFile t.second).precision →
        (afterAttempts {} (earlier.map Twin.left)).ending t.left =
          (afterAttempts {} (earlier.map Twin.right)).ending t.right) := by
  rintro earlier t later rfl
  obtain ⟨hUsable, hReport⟩ := h t (by simp)
  have hSplit : earlier ++ t :: later = (earlier ++ [t]) ++ later := by simp
  have hUpTo := afterAttempts_left_eq_right (earlier ++ [t]) fun t' hMem =>
    h t' (hSplit ▸ List.mem_append_left later hMem)
  have hEarlier := afterAttempts_left_eq_right earlier fun t' hMem =>
    h t' (List.mem_append_left _ hMem)
  rw [hEarlier]
  obtain ⟨-, hKind, hSame⟩ := hUsable.alike hReport (afterAttempts {} (earlier.map Twin.right))
  exact ⟨hUpTo, hKind, hSame⟩

end

attribute [local instance] specialArguments

/-- A file with three digits and diagnostics. -/
def rough : Option String := some "\x7b\"precision\": 3, \"debug\": true\x7d"

/-- A file with ten digits. -/
def fine : Option String := some "\x7b\"debug\": [1], \"precision\": 10\x7d"

/-- Three lines under changing files. -/
def thirds : List Twin :=
  [⟨"EXPR x / 3", rough, fine⟩, ⟨"SAVE third", fine, rough⟩, ⟨"DER", rough, fine⟩]

/-- A line that shows a number. -/
def third : Twin := ⟨"EVAL third 1", rough, fine⟩

theorem usablePrecision_rough : UsablePrecision (Settings.ofFile rough) :=
  usablePrecision_iff.2 ⟨3, by decide +kernel, by decide⟩

theorem usablePrecision_fine : UsablePrecision (Settings.ofFile fine) :=
  usablePrecision_iff.2 ⟨10, by decide +kernel, by decide⟩

/-- A line that enters no more than a quotient can be described. -/
theorem describable_quotient : Describable "EXPR x / 3" := by
  intro text e hLine hParse
  have hText : Command.ofLine? "EXPR x / 3" = some (.expr "x / 3") := by decide +kernel
  obtain rfl := Command.expr.inj (Option.some.inj (hText.symm.trans hLine))
  have hQuotient : Engine.parse "x / 3" =
      .ok (.binary true .div (.var true) (.const true 3)) := by decide +kernel
  obtain rfl := Except.ok.inj (hQuotient.symm.trans hParse)
  decide

theorem describable_of_ne {line : String}
    (h : ∀ text, Command.ofLine? line ≠ some (.expr text)) : Describable line :=
  fun text _ hLine _ => absurd hLine (h text)

theorem usable_thirds : ∀ t ∈ thirds ++ [third], t.Usable ∧
    ReportAlike (Settings.ofFile t.first) (Settings.ofFile t.second) t.line := by
  have hRough : Settings.faultOfFile rough = none := by decide +kernel
  have hFine : Settings.faultOfFile fine = none := by decide +kernel
  have hSave : Command.ofLine? "SAVE third" = some (.save ["third"]) := by decide +kernel
  have hDer : Command.ofLine? "DER" = some (.der []) := by decide +kernel
  have hEval : Command.ofLine? "EVAL third 1" = some (.eval ["third", "1"]) := by decide +kernel
  intro t hMem
  simp only [thirds, third, List.cons_append, List.nil_append, List.mem_cons, List.not_mem_nil,
    or_false] at hMem
  rcases hMem with rfl | rfl | rfl | rfl
  · exact ⟨⟨hRough, hFine, usablePrecision_rough, usablePrecision_fine⟩,
      Or.inr describable_quotient⟩
  · exact ⟨⟨hFine, hRough, usablePrecision_fine, usablePrecision_rough⟩,
      Or.inr (describable_of_ne (by simp [hSave]))⟩
  · exact ⟨⟨hRough, hFine, usablePrecision_rough, usablePrecision_fine⟩,
      Or.inr (describable_of_ne (by simp [hDer]))⟩
  · exact ⟨⟨hRough, hFine, usablePrecision_rough, usablePrecision_fine⟩,
      Or.inr (describable_of_ne (by simp [hEval]))⟩

/-- The value of the saved expression is shown by both runs, with different digits. -/
theorem ending_third :
    (∀ t ∈ thirds ++ [third], t.Usable ∧
      ReportAlike (Settings.ofFile t.first) (Settings.ofFile t.second) t.line) ∧
    SameEnding ((afterAttempts {} (thirds.map Twin.left)).ending third.left)
      ((afterAttempts {} (thirds.map Twin.right)).ending third.right) ∧
    (afterAttempts {} (thirds.map Twin.left)).ending third.left = .result (.ok (some "0.333")) ∧
    (afterAttempts {} (thirds.map Twin.right)).ending third.right =
      .result (.ok (some "0.3333333333")) := by
  refine ⟨usable_thirds, (settings_only_reach_digits _ usable_thirds thirds third [] rfl).2.1,
    ?_, ?_⟩
  · have hTurns : thirds.map Twin.left =
        (thirds.map fun t => ⟨Settings.ofFile t.first, t.line⟩ : List Turn).map Turn.attempt := by
      rw [List.map_map]
      exact List.map_congr_left fun t hMem => (usable_thirds t (by simp [hMem])).1.left_eq
    rw [hTurns, afterAttempts_map_attempt, (usable_thirds third (by simp)).1.left_eq,
      ending_attempt]
    exact congrArg Ending.result (by decide +kernel)
  · have hTurns : thirds.map Twin.right =
        (thirds.map fun t => ⟨Settings.ofFile t.second, t.line⟩ : List Turn).map
          Turn.attempt := by
      rw [List.map_map]
      exact List.map_congr_left fun t hMem => (usable_thirds t (by simp [hMem])).1.right_eq
    rw [hTurns, afterAttempts_map_attempt, (usable_thirds third (by simp)).1.right_eq,
      ending_attempt]
    exact congrArg Ending.result (by decide +kernel)

/-! ## Where settings reach further -/

/-- The sine of the sine of and so on. -/
def nestedSines : ℕ → Expr
  | 0 => .var true
  | n + 1 => .apply true .sin (nestedSines n)

/-- The text of nested sines. -/
def sinesText (n : ℕ) : String :=
  String.ofList ((List.replicate n ['s', 'i', 'n', '(']).flatten ++ 'x' :: List.replicate n ')')

theorem depth_nestedSines (n : ℕ) : (nestedSines n).depth = n + 1 := by
  induction n with
  | zero => rfl
  | succ n ih =>
      show (nestedSines n).depth + 1 = _
      rw [ih]

theorem print_nestedSines (p n : ℕ) :
    (nestedSines n).print p =
      (List.replicate n ['s', 'i', 'n', '(']).flatten ++ 'x' :: List.replicate n ')' := by
  induction n with
  | zero => rfl
  | succ n ih =>
      have hNext : (nestedSines (n + 1)).print p =
          ['s', 'i', 'n', '('] ++ (nestedSines n).print p ++ [')'] := rfl
      rw [hNext, ih, List.replicate_succ, List.flatten_cons, List.replicate_succ']
      simp only [List.append_assoc, List.cons_append]

theorem printable_nestedSines (n : ℕ) : (nestedSines n).Printable := by
  induction n with
  | zero => trivial
  | succ n ih => exact ih

theorem simplify_spelled_nestedSines (n : ℕ) :
    (nestedSines n).spelled.simplify = nestedSines n := by
  induction n with
  | zero => rfl
  | succ n ih =>
      show Expr.settleApply .sin (nestedSines n).spelled.simplify = _
      rw [ih]
      cases n <;> rfl

theorem depth_spelled_nestedSines (n : ℕ) : (nestedSines n).spelled.depth = n + 1 := by
  induction n with
  | zero => rfl
  | succ n ih =>
      show (nestedSines n).spelled.depth + 1 = _
      rw [ih]

theorem parse_sinesText {n : ℕ} (h : n < Engine.maxLevels) :
    Engine.parse (sinesText n) = .ok (nestedSines n) := by
  have hRead := Engine.read_print (Nat.le_refl 17) (printable_nestedSines n)
  rw [print_nestedSines] at hRead
  exact Engine.parse_eq_ok_iff_read.2 ⟨_, hRead, by rw [depth_spelled_nestedSines]; exact h,
    (simplify_spelled_nestedSines n).symm⟩

/-- The line that enters nested sines. -/
def sinesLine (n : ℕ) : String := "EXPR " ++ sinesText n

theorem ofLine?_sinesLine (n : ℕ) :
    Command.ofLine? (sinesLine n) = some (.expr (sinesText n)) := by
  have hBlank : ∀ c ∈ (sinesText n).toList, Text.isBlank c = false := by
    intro c hMem
    simp only [sinesText, String.toList_ofList, List.mem_append, List.mem_flatten,
      List.mem_replicate, List.mem_cons] at hMem
    rcases hMem with ⟨word, ⟨-, rfl⟩, hWord⟩ | rfl | ⟨-, rfl⟩
    · simp only [List.mem_cons, List.not_mem_nil, or_false] at hWord
      rcases hWord with rfl | rfl | rfl | rfl <;> rfl
    · rfl
    · rfl
  have hWord : Text.IsWord (sinesText n).toList := ⟨by simp [sinesText], hBlank⟩
  have hOpens : Text.Opens "EXPR".toList (sinesText n).toList (sinesLine n).toList :=
    ⟨by decide, hWord.trimmed, [], [' '], [], nofun, Text.blank_space, nofun,
      by simp [hWord.1], by simp [sinesLine]⟩
  unfold Command.ofLine?
  rw [hOpens.firstWord?_eq]
  show some (Command.expr (String.ofList (sinesText n).toList)) = _
  rw [String.ofList_toList]

/-- Nested sines that are too deep to be described are entered without diagnostics only. -/
theorem executeUnder_sinesLine {content : Option String} {n : ℕ}
    (hLoads : Settings.faultOfFile content = none) (hDeep : Engine.Trace.maxLevels ≤ n)
    (hLevels : n < Engine.maxLevels) :
    ({} : Session).executeUnder (Settings.loadFile content) (sinesLine n) =
      if (Settings.ofFile content).debug then
        ({}, .result (.error ⟨.tooDeep, some (sinesText n)⟩))
      else ({ last := some (nestedSines n) }, .result (.ok none)) := by
  have hTooDeep : ¬ (nestedSines n).depth ≤ Engine.Trace.maxLevels := by
    rw [depth_nestedSines]
    omega
  rw [loadFile_eq_ok hLoads]
  simp only [executeUnder, execute, ofLine?_sinesLine, perform, enter, Engine.Trace.parseWith,
    parse_sinesText hLevels, hTooDeep, if_false]
  cases (Settings.ofFile content).debug <;> rfl

/-- A file that asks for diagnostics. -/
def debugging : Option String := some "\x7b\"debug\": true\x7d"

/-- A file with a long integer, and nothing about the precision. -/
def overlong (count : ℕ) : Option String := some (String.ofList (Json.Reader.longInteger count))

theorem usablePrecision_overlong (count : ℕ) :
    UsablePrecision (Settings.ofFile (overlong (count + 1))) := by
  have hFields : Settings.ofFile (overlong (count + 1)) = Settings.defaults.override
      [("n", .int (Text.digitsValue (List.replicate (count + 1) '1')))] := by
    unfold Settings.ofFile Settings.fieldsOfFile overlong
    rw [Option.bind_some, String.toList_ofList, Json.Reader.read_longInteger]
  rw [hFields]
  exact ⟨6, rfl, by decide, by decide⟩

theorem loadFile_overlong {count : ℕ} (h : Text.maxIntegerDigits < count) :
    Settings.loadFile (overlong count) = .error (.longInteger count) := by
  unfold Settings.loadFile Settings.faultOfFile overlong
  rw [Option.bind_some, String.toList_ofList, Json.Reader.fault?_longInteger h]

/--
Both conditions are needed.  An expression of 349 levels is entered, but not if a report on it is
asked for; and a file that is JSON, with six digits for the precision, may end a line by itself.
-/
theorem settings_reach_further :
    (UsablePrecision (Settings.ofFile debugging) ∧ UsablePrecision (Settings.ofFile none) ∧
      (nestedSines 348).depth ≤ 350 ∧
      ({} : Session).executeUnder (Settings.loadFile none) (sinesLine 348) =
        ({ last := some (nestedSines 348) }, .result (.ok none)) ∧
      ({} : Session).executeUnder (Settings.loadFile debugging) (sinesLine 348) =
        ({}, .result (.error ⟨.tooDeep, some (sinesText 348)⟩))) ∧
    UsablePrecision (Settings.ofFile (overlong 4301)) ∧
      ({} : Session).executeUnder (Settings.loadFile none) "EXPR x" =
        ({ last := some (.var true) }, .result (.ok none)) ∧
      ({} : Session).executeUnder (Settings.loadFile (overlong 4301)) "EXPR x" =
        ({}, .crash (.longInteger 4301)) := by
  have hDeep : Engine.Trace.maxLevels ≤ 348 := by decide
  have hLevels : 348 < Engine.maxLevels := by decide
  have hDebug : (Settings.ofFile debugging).debug = true := by decide +kernel
  have hNoDebug : (Settings.ofFile none).debug = false := by decide +kernel
  refine ⟨⟨usablePrecision_iff.2 ⟨6, by decide +kernel, by decide⟩,
    usablePrecision_iff.2 ⟨6, by decide +kernel, by decide⟩, ?_, ?_, ?_⟩,
    usablePrecision_overlong 4300, ?_, ?_⟩
  · rw [depth_nestedSines]
    decide
  · rw [executeUnder_sinesLine rfl hDeep hLevels, hNoDebug]
    rfl
  · rw [executeUnder_sinesLine (by decide +kernel) hDeep hLevels, hDebug]
    rfl
  · have hTurn : ({} : Session).execute (Settings.ofFile none) "EXPR x" =
        ({ last := some (.var true) }, .ok none) := by decide +kernel
    rw [loadFile_eq_ok rfl]
    simp only [executeUnder, hTurn]
  · rw [loadFile_overlong (by decide)]
    have hTokens : Engine.tokenize "x" = .ok [.var] := by decide +kernel
    have hLine : Command.ofLine? "EXPR x" = some (.expr "x") := by decide +kernel
    simp only [executeUnder, hLine, performWithout, hTokens]
    rfl

end DerivCalc.Session
