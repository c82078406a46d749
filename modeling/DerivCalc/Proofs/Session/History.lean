import DerivCalc.Proofs.Result
import DerivCalc.Proofs.Session.Failure
import Mathlib.Data.List.Nodup

/-!
# The books of a session

A session is the outcome of its history: the lines that were executed, each with the settings
of its moment.  `effect_next` says once and for all what one line can do to a session; it
enters an expression, saves one, replaces the last one, or does nothing.

From it, by induction over the history, the session can be read off its history: under a name
stands what was the last expression when that name was last saved, and there is no last
expression iff none was ever entered.
-/

namespace DerivCalc.Session

/-- A command line, and the settings at the moment when it is executed. -/
structure Turn where
  settings : Settings
  line : String

section

variable [Elementary]

/-! ## Histories -/

/-- The session after a turn, whether it fails or not. -/
def next (s : Session) (t : Turn) : Session := (s.execute t.settings t.line).1

/-- The answer or the error of a turn. -/
def answer (s : Session) (t : Turn) : Except Failure (Option String) :=
  (s.execute t.settings t.line).2

/-- The session after any number of turns. -/
def after (s : Session) (turns : List Turn) : Session := turns.foldl next s

/-- The turn succeeds. -/
def Succeeds (s : Session) (t : Turn) : Prop := ∃ response, s.answer t = .ok response

/-- The turn enters an expression. -/
def Enters (s : Session) (t : Turn) : Prop :=
  (∃ text, Command.ofLine? t.line = some (.expr text)) ∧ s.Succeeds t

/-- The turn saves an expression under this name. -/
def Saves (name : String) (s : Session) (t : Turn) : Prop :=
  Command.ofLine? t.line = some (.save [name]) ∧ s.Succeeds t

/-- Some turn has the property in the session that it finds. -/
def Occurs (P : Session → Turn → Prop) (s : Session) (turns : List Turn) : Prop :=
  ∃ earlier t later, turns = earlier ++ t :: later ∧ P (s.after earlier) t

theorem after_append (s : Session) (earlier later : List Turn) :
    s.after (earlier ++ later) = (s.after earlier).after later := List.foldl_append

theorem after_concat (s : Session) (turns : List Turn) (t : Turn) :
    s.after (turns ++ [t]) = (s.after turns).next t := after_append s turns [t]

theorem not_occurs_nil (P : Session → Turn → Prop) (s : Session) : ¬ Occurs P s [] := by
  rintro ⟨earlier, t, later, hEq, -⟩
  exact absurd hEq (by simp)

/-- What occurs in a history occurs at its last turn or before it. -/
theorem occurs_concat {P : Session → Turn → Prop} {s : Session} {turns : List Turn} {t : Turn} :
    Occurs P s (turns ++ [t]) ↔ Occurs P s turns ∨ P (s.after turns) t := by
  constructor
  · rintro ⟨earlier, t', later, hEq, hP⟩
    rcases List.eq_nil_or_concat later with rfl | ⟨later, last, rfl⟩
    · obtain ⟨rfl, hLast⟩ := List.append_inj' hEq rfl
      obtain rfl := List.cons.inj hLast |>.1
      exact Or.inr hP
    · rw [List.concat_eq_append, ← List.cons_append, ← List.append_assoc] at hEq
      exact Or.inl ⟨earlier, t', later, (List.append_inj' hEq rfl).1, hP⟩
  · rintro (⟨earlier, t', later, rfl, hP⟩ | hP)
    · exact ⟨earlier, t', later ++ [t], by simp, hP⟩
    · exact ⟨turns, t, [], rfl, hP⟩

/-! ## What one command can do -/

theorem enter_cases (settings : Settings) (s : Session) (text : String) :
    (∃ e, s.enter settings text = ({ s with last := some e }, .ok none)) ∨
      ∃ failure, s.enter settings text = (s, .error failure) := by
  unfold enter
  cases (Engine.Trace.parseWith settings.debug text).1 with
  | ok e => exact Or.inl ⟨e, rfl⟩
  | error failure => exact Or.inr ⟨failure, rfl⟩

omit [Elementary] in
theorem requireLast_eq_ok {s : Session} {e : Expr} (h : s.requireLast = .ok e) :
    s.last = some e := by
  unfold requireLast at h
  split at h
  · rename_i last hLast
    rw [hLast, Except.ok.inj h]
  · exact absurd h (by simp)

omit [Elementary] in
theorem newName_eq_ok {arguments : List String} {name : String}
    (h : newName arguments = .ok name) :
    arguments = [name] ∧ startsWith Text.isLetter name = true := by
  unfold newName at h
  split at h
  · exact absurd h (by simp)
  · split at h
    · rename_i hLetter
      obtain rfl := Except.ok.inj h
      exact ⟨rfl, hLetter⟩
    · exact absurd h (by simp)
  · exact absurd h (by simp)

omit [Elementary] in
theorem save_cases (s : Session) (arguments : List String) :
    (∃ name e, arguments = [name] ∧ startsWith Text.isLetter name = true ∧ s.last = some e ∧
        s.save arguments = ({ s with saved := store name e s.saved }, .ok none)) ∨
      ∃ failure, s.save arguments = (s, .error failure) := by
  unfold save
  split
  · rename_i name e hSteps
    obtain ⟨last, hLast, hSteps⟩ := Result.bind_eq_ok_iff.1 hSteps
    obtain ⟨name', hName, hSteps⟩ := Result.bind_eq_ok_iff.1 hSteps
    obtain ⟨copied, hCopy, hPair⟩ := Result.bind_eq_ok_iff.1 hSteps
    obtain ⟨-, rfl⟩ := Engine.within_eq_ok_iff.1 hCopy
    obtain ⟨rfl, rfl⟩ := Prod.mk.inj (Except.ok.inj hPair)
    obtain ⟨hArguments, hLetter⟩ := newName_eq_ok hName
    exact Or.inl ⟨name', copied, hArguments, hLetter, requireLast_eq_ok hLast, rfl⟩
  · exact Or.inr ⟨_, rfl⟩

omit [Elementary] in
/-- The last expression is replaced by the result, if there is one. -/
theorem showLast_cases (settings : Settings) (s : Session) (result : Except Error Expr) :
    (∃ e, result = .ok e ∧ (s.showLast settings result).1 = { s with last := some e }) ∨
      (s.showLast settings result).1 = s := by
  cases result with
  | error cause => exact Or.inr rfl
  | ok e =>
      refine Or.inl ⟨e, rfl, ?_⟩
      simp only [showLast]
      split <;> rfl

theorem differentiate_cases (settings : Settings) (s : Session) (arguments : List String) :
    (∃ e, s.last ≠ none ∧
        (s.differentiate settings arguments).1 = { s with last := some e }) ∨
      (s.differentiate settings arguments).1 = s := by
  rcases showLast_cases settings s (s.replacement (.der arguments)) with
    ⟨e, hSteps, hResult⟩ | hResult
  · obtain ⟨last, hLast, -⟩ := Result.bind_eq_ok_iff.1 hSteps
    have hSome : s.last ≠ none := by simp [requireLast_eq_ok hLast]
    exact Or.inl ⟨e, hSome, hResult⟩
  · exact Or.inr hResult

/-- Only a saved expression that is printed replaces the last one. -/
theorem print_cases (settings : Settings) (s : Session) (arguments : List String) :
    (∃ name e, arguments = [name] ∧ s.last ≠ none ∧
        (s.print settings arguments).1 = { s with last := some e }) ∨
      (s.print settings arguments).1 = s := by
  rcases showLast_cases settings s (s.replacement (.print arguments)) with
    ⟨e, hSteps, hResult⟩ | hResult
  · obtain ⟨last, hLast, hSteps⟩ := Result.bind_eq_ok_iff.1 hSteps
    obtain ⟨chosen, hChosen, hShown⟩ := Result.bind_eq_ok_iff.1 hSteps
    have hSome := requireLast_eq_ok hLast
    match arguments with
    | [] =>
        -- Without a name the last expression takes its own place.
        obtain rfl := Except.ok.inj hChosen
        obtain rfl := Except.ok.inj hShown
        refine Or.inr (hResult.trans ?_)
        rw [← hSome]
    | [name] => exact Or.inl ⟨name, e, rfl, by simp [hSome], hResult⟩
    | _ :: _ :: _ => exact absurd hChosen (by simp [Session.chosen])
  · exact Or.inr hResult

theorem perform_eval_fst (settings : Settings) (s : Session) (arguments : List String) :
    (s.perform settings (.eval arguments)).1 = s := by
  simp only [perform]
  split <;> rfl

/-! ## What one turn can do -/

/-- The changes that a turn can bring about. -/
inductive Effect (s : Session) (t : Turn) : Session → Prop
  | entered {text : String} {e : Expr} : Command.ofLine? t.line = some (.expr text) →
      s.Succeeds t → Effect s t { s with last := some e }
  | saved {name : String} {e : Expr} : Command.ofLine? t.line = some (.save [name]) →
      s.Succeeds t → startsWith Text.isLetter name = true → s.last = some e →
      Effect s t { s with saved := store name e s.saved }
  | derived {arguments : List String} {e : Expr} :
      Command.ofLine? t.line = some (.der arguments) → s.last ≠ none →
      Effect s t { s with last := some e }
  | recalled {name : String} {e : Expr} :
      Command.ofLine? t.line = some (.print [name]) → s.last ≠ none →
      Effect s t { s with last := some e }
  | none : ¬ s.Enters t → (∀ name, ¬ Saves name s t) → Effect s t s

/-- A line that is neither an expression nor a name to save can leave the session alone. -/
theorem Effect.none_of_command {s : Session} {t : Turn} {command : Option Command}
    (hLine : Command.ofLine? t.line = command) (hExpr : ∀ text, command ≠ some (.expr text))
    (hSave : ∀ name, command ≠ some (.save [name])) : Effect s t s := by
  subst hLine
  refine .none ?_ ?_
  · rintro ⟨⟨text, hText⟩, -⟩
    exact hExpr text hText
  · rintro name ⟨hName, -⟩
    exact hSave name hName

/-- A line that fails without touching the session has no effect. -/
theorem Effect.none_of_error {s : Session} {t : Turn} {failure : Failure}
    (h : s.answer t = .error failure) : Effect s t s := by
  have hFails : ¬ s.Succeeds t := by
    rintro ⟨response, hOk⟩
    rw [h] at hOk
    exact absurd hOk (by simp)
  exact .none (fun hEnters => hFails hEnters.2) (fun _ hSaves => hFails hSaves.2)

/-- What a turn does is one of the possible changes. -/
theorem effect_next (s : Session) (t : Turn) : Effect s t (s.next t) := by
  cases hLine : Command.ofLine? t.line with
  | none =>
      have hNext : s.next t = s := by
        unfold next execute
        rw [hLine]
        rfl
      rw [hNext]
      exact .none_of_command hLine (by simp) (by simp)
  | some command =>
      have hExecute : s.execute t.settings t.line = s.perform t.settings command := by
        unfold execute
        rw [hLine]
      have hNext : s.next t = (s.perform t.settings command).1 := congrArg Prod.fst hExecute
      have hAnswer : s.answer t = (s.perform t.settings command).2 := congrArg Prod.snd hExecute
      cases command with
      | expr text =>
          rcases enter_cases t.settings s text with ⟨e, hEnter⟩ | ⟨failure, hEnter⟩
          · rw [hNext.trans (congrArg Prod.fst hEnter)]
            exact .entered hLine ⟨none, hAnswer.trans (congrArg Prod.snd hEnter)⟩
          · rw [hNext.trans (congrArg Prod.fst hEnter)]
            exact .none_of_error (hAnswer.trans (congrArg Prod.snd hEnter))
      | save arguments =>
          rcases s.save_cases arguments with
            ⟨name, e, rfl, hLetter, hLast, hSave⟩ | ⟨failure, hSave⟩
          · rw [hNext.trans (congrArg Prod.fst hSave)]
            exact .saved hLine ⟨none, hAnswer.trans (congrArg Prod.snd hSave)⟩ hLetter hLast
          · rw [hNext.trans (congrArg Prod.fst hSave)]
            exact .none_of_error (hAnswer.trans (congrArg Prod.snd hSave))
      | der arguments =>
          rcases differentiate_cases t.settings s arguments with ⟨e, hLast, hResult⟩ | hResult
          · rw [hNext.trans hResult]
            exact .derived hLine hLast
          · rw [hNext.trans hResult]
            exact .none_of_command hLine (by simp) (by simp)
      | eval arguments =>
          rw [hNext.trans (perform_eval_fst t.settings s arguments)]
          exact .none_of_command hLine (by simp) (by simp)
      | print arguments =>
          rcases print_cases t.settings s arguments with
            ⟨name, e, rfl, hLast, hResult⟩ | hResult
          · rw [hNext.trans hResult]
            exact .recalled hLine hLast
          · rw [hNext.trans hResult]
            exact .none_of_command hLine (by simp) (by simp)

/-! ## The last expression after a turn -/

section

variable {s s' : Session} {t : Turn}

/-- There is no last expression after a turn iff there was none and none is entered. -/
theorem Effect.last_eq_none_iff (h : Effect s t s') :
    s'.last = .none ↔ s.last = .none ∧ ¬ s.Enters t := by
  cases h with
  | entered hLine hOk =>
      refine iff_of_false (by simp) ?_
      rintro ⟨-, hNot⟩
      exact hNot ⟨⟨_, hLine⟩, hOk⟩
  | saved hLine hOk hLetter hLast => exact iff_of_false (by simp [hLast]) (by simp [hLast])
  | derived hLine hLast => exact iff_of_false (by simp) (fun hNone => hLast hNone.1)
  | recalled hLine hLast => exact iff_of_false (by simp) (fun hNone => hLast hNone.1)
  | none hEnters hSaves => exact ⟨fun hNone => ⟨hNone, hEnters⟩, fun hNone => hNone.1⟩

/-- If nothing is saved without a last expression, a turn keeps this up. -/
theorem Effect.saved_eq_nil (h : Effect s t s') (hSaved : s.last = .none → s.saved = [])
    (hNone : s'.last = .none) : s'.saved = [] := by
  cases h with
  | entered hLine hOk => exact absurd hNone (by simp)
  | saved hLine hOk hLetter hLast => exact absurd (hNone.symm.trans hLast) (by simp)
  | derived hLine hLast => exact absurd hNone (by simp)
  | recalled hLine hLast => exact absurd hNone (by simp)
  | none hEnters hSaves => exact hSaved hNone

/-- The last expression changes only where one is entered, derived or recalled by its name. -/
theorem Effect.command_of_last_ne (h : Effect s t s') (hNe : s'.last ≠ s.last) :
    (∃ text, Command.ofLine? t.line = some (.expr text)) ∨
      (∃ arguments, Command.ofLine? t.line = some (.der arguments)) ∨
      ∃ name, Command.ofLine? t.line = some (.print [name]) := by
  cases h with
  | entered hLine hOk => exact Or.inl ⟨_, hLine⟩
  | saved hLine hOk hLetter hLast => exact absurd rfl hNe
  | derived hLine hLast => exact Or.inr (Or.inl ⟨_, hLine⟩)
  | recalled hLine hLast => exact Or.inr (Or.inr ⟨_, hLine⟩)
  | none hEnters hSaves => exact absurd rfl hNe

/-! ## The saved expressions after a turn -/

omit [Elementary] in
theorem mem_names {name : String} : name ∈ s.names ↔ name ∈ s.saved.map (·.1) :=
  List.mem_mergeSort

omit [Elementary] in
theorem map_fst_store (name : String) (e : Expr) (saved : List (String × Expr)) :
    (store name e saved).map (·.1) =
      if name ∈ saved.map (·.1) then saved.map (·.1) else saved.map (·.1) ++ [name] := by
  induction saved with
  | nil => rfl
  | cons entry rest ih =>
      obtain ⟨n, old⟩ := entry
      unfold store
      by_cases hName : n = name
      · simp [hName]
      · have hNe : name ≠ n := Ne.symm hName
        simp only [hName, if_false, List.map_cons, ih, List.mem_cons, hNe, false_or]
        split <;> rfl

omit [Elementary] in
theorem mem_map_fst_store {name other : String} {e : Expr} {saved : List (String × Expr)} :
    other ∈ (store name e saved).map (·.1) ↔ other ∈ saved.map (·.1) ∨ other = name := by
  rw [map_fst_store]
  split
  · rename_i hMem
    refine ⟨Or.inl, ?_⟩
    rintro (hOther | rfl)
    · exact hOther
    · exact hMem
  · simp

/-- The name starts with a letter and has no blank in it. -/
def IsName (name : String) : Prop :=
  startsWith Text.isLetter name = true ∧ ∀ c ∈ name.toList, Text.isBlank c = false

omit [Elementary] in
/-- The arguments of a command have no blanks in them. -/
theorem not_isBlank_of_save {line : String} {arguments : List String}
    (h : Command.ofLine? line = some (.save arguments)) :
    ∀ word ∈ arguments, ∀ c ∈ word.toList, Text.isBlank c = false := by
  unfold Command.ofLine? at h
  obtain ⟨⟨word, rest⟩, -, h⟩ := Option.bind_eq_some_iff.1 h
  simp only at h
  split at h
  · exact absurd h (by simp)
  · obtain rfl := Command.save.inj (Option.some.inj h)
    intro word hMem
    obtain ⟨chars, hChars, rfl⟩ := List.mem_map.1 hMem
    rw [String.toList_ofList]
    exact Text.not_isBlank_of_mem_words hChars
  · exact absurd h (by simp)
  · exact absurd h (by simp)
  · exact absurd h (by simp)
  · exact absurd h (by simp)

/-- A turn saves under one name only. -/
theorem Saves.eq {name other : String} (h : Saves name s t) (hOther : Saves other s t) :
    name = other := by
  simpa using h.1.symm.trans hOther.1

theorem not_saves_of_command {name : String} {command : Command}
    (hLine : Command.ofLine? t.line = some command) (hNe : command ≠ .save [name]) :
    ¬ Saves name s t := by
  rintro ⟨hName, -⟩
  exact hNe (Option.some.inj (hLine.symm.trans hName))

/-- A turn stores the last expression under the name that it saves, or it saves nothing. -/
theorem Effect.saved_cases (h : Effect s t s') :
    (∃ name e, Saves name s t ∧ IsName name ∧ s.last = some e ∧
        s'.saved = store name e s.saved) ∨
      ((∀ name, ¬ Saves name s t) ∧ s'.saved = s.saved) := by
  cases h with
  | saved hLine hOk hLetter hLast =>
      have hName := not_isBlank_of_save hLine _ (List.mem_singleton_self _)
      exact Or.inl ⟨_, _, ⟨hLine, hOk⟩, ⟨hLetter, hName⟩, hLast, rfl⟩
  | entered hLine hOk => exact Or.inr ⟨fun _ => not_saves_of_command hLine (by simp), rfl⟩
  | derived hLine hLast => exact Or.inr ⟨fun _ => not_saves_of_command hLine (by simp), rfl⟩
  | recalled hLine hLast => exact Or.inr ⟨fun _ => not_saves_of_command hLine (by simp), rfl⟩
  | none hEnters hSaves => exact Or.inr ⟨hSaves, rfl⟩

/-- A turn adds the name that it saves, and no turn drops one. -/
theorem Effect.mem_names_iff (h : Effect s t s') {name : String} :
    name ∈ s'.names ↔ name ∈ s.names ∨ Saves name s t := by
  rw [mem_names, mem_names]
  rcases h.saved_cases with ⟨saved, e, hSaves, -, -, hSaved⟩ | ⟨hSaves, hSaved⟩
  · rw [hSaved, mem_map_fst_store]
    refine or_congr_right ⟨?_, fun hName => hName.eq hSaves⟩
    rintro rfl
    exact hSaves
  · rw [hSaved]
    exact (or_iff_left (hSaves name)).symm

/-- The expression that is saved is the last one. -/
theorem Effect.find?_of_saves (h : Effect s t s') {name : String} (hName : Saves name s t) :
    ∃ e, s.last = some e ∧ s'.find? name = some e := by
  rcases h.saved_cases with ⟨saved, e, hSaves, -, hLast, hSaved⟩ | ⟨hSaves, -⟩
  · obtain rfl := hName.eq hSaves
    refine ⟨e, hLast, ?_⟩
    unfold find?
    rw [hSaved]
    exact lookup_store_self ..
  · exact absurd hName (hSaves name)

/-- What stands under a name stays until that name is saved again. -/
theorem Effect.find?_of_not_saves (h : Effect s t s') {name : String}
    (hName : ¬ Saves name s t) : s'.find? name = s.find? name := by
  unfold find?
  rcases h.saved_cases with ⟨saved, e, hSaves, -, -, hSaved⟩ | ⟨-, hSaved⟩
  · rw [hSaved]
    refine lookup_store_of_ne _ _ ?_
    rintro rfl
    exact hName hSaves
  · rw [hSaved]

/-- The saved expressions change only where one is saved, and then under its name only. -/
theorem Effect.saves_of_saved_ne (h : Effect s t s') (hNe : s'.saved ≠ s.saved) :
    ∃ name, Saves name s t ∧ ∀ other, other ≠ name → s'.find? other = s.find? other := by
  rcases h.saved_cases with ⟨name, e, hSaves, -⟩ | ⟨-, hSaved⟩
  · exact ⟨name, hSaves, fun other hOther =>
      h.find?_of_not_saves fun hOtherSaves => hOther (hOtherSaves.eq hSaves)⟩
  · exact absurd hSaved hNe

omit [Elementary] in
theorem nodup_names_iff : s.names.Nodup ↔ (s.saved.map (·.1)).Nodup :=
  (List.mergeSort_perm _ _).nodup_iff

/-- If all saved names are names and different ones, a turn keeps this up. -/
theorem Effect.names (h : Effect s t s') (hNames : ∀ name ∈ s.names, IsName name)
    (hNodup : s.names.Nodup) : (∀ name ∈ s'.names, IsName name) ∧ s'.names.Nodup := by
  constructor
  · intro other hMem
    rcases h.mem_names_iff.1 hMem with hOld | hNew
    · exact hNames other hOld
    · rcases h.saved_cases with ⟨name, e, hSaves, hName, -⟩ | ⟨hSaves, -⟩
      · rwa [hNew.eq hSaves]
      · exact absurd hNew (hSaves other)
  · rw [nodup_names_iff] at hNodup ⊢
    rcases h.saved_cases with ⟨name, e, -, -, -, hSaved⟩ | ⟨-, hSaved⟩
    · rw [hSaved, map_fst_store]
      split
      · exact hNodup
      · rename_i hNew
        rw [← List.concat_eq_append]
        exact hNodup.concat hNew
    · rwa [hSaved]

end

/-! ## The session after a history -/

theorem names_after (turns : List Turn) :
    (∀ name ∈ (after {} turns).names, IsName name) ∧ (after {} turns).names.Nodup := by
  induction turns using List.reverseRecOn with
  | nil => exact ⟨by simp [after, names], by simp [after, names]⟩
  | append_singleton turns t ih =>
      rw [after_concat]
      exact (effect_next _ t).names ih.1 ih.2

/-- A name is saved iff some turn saved it. -/
theorem mem_names_after_iff (turns : List Turn) (name : String) :
    name ∈ (after {} turns).names ↔ Occurs (Saves name) {} turns := by
  induction turns using List.reverseRecOn with
  | nil => exact iff_of_false (by simp [after, names]) (not_occurs_nil _ _)
  | append_singleton turns t ih =>
      rw [after_concat, (effect_next _ t).mem_names_iff, ih, occurs_concat]

/-- There is no last expression iff no turn entered one. -/
theorem last_after_eq_none_iff (turns : List Turn) :
    (after {} turns).last = none ↔ ¬ Occurs Enters {} turns := by
  induction turns using List.reverseRecOn with
  | nil => exact iff_of_true rfl (not_occurs_nil _ _)
  | append_singleton turns t ih =>
      rw [after_concat, (effect_next _ t).last_eq_none_iff, ih, occurs_concat, not_or]

/-- Without a last expression nothing is saved. -/
theorem saved_after_eq_nil (turns : List Turn) :
    (after {} turns).last = none → (after {} turns).saved = [] := by
  induction turns using List.reverseRecOn with
  | nil => exact fun _ => rfl
  | append_singleton turns t ih =>
      rw [after_concat]
      exact (effect_next _ t).saved_eq_nil ih

/-- What stands under a name stays over all turns that do not save it again. -/
theorem find?_after_of_not_occurs {name : String} (s : Session) (turns : List Turn)
    (h : ¬ Occurs (Saves name) s turns) : (s.after turns).find? name = s.find? name := by
  induction turns using List.reverseRecOn with
  | nil => rfl
  | append_singleton turns t ih =>
      rw [occurs_concat, not_or] at h
      rw [after_concat, (effect_next _ t).find?_of_not_saves h.2, ih h.1]

/--
The books of a session after any history, also one with failures.

A name is saved iff some turn saved it, and under it stands what was the last expression when
it was saved last; saved names start with a letter, have no blanks in them and differ from
each other.  There is no last expression iff none was ever entered, and then nothing is
saved.  A single turn changes the last expression only if it is to enter or to derive one or
to print one by its name, and saved expressions only if it succeeds to save, under that name.
-/
theorem saved_and_last_after :
    (∀ turns : List Turn,
      (∀ name, name ∈ (after {} turns).names ↔ Occurs (Saves name) {} turns) ∧
      (∀ name earlier t later, turns = earlier ++ t :: later → Saves name (after {} earlier) t →
        ¬ Occurs (Saves name) (after {} (earlier ++ [t])) later →
        ∃ e, (after {} earlier).last = some e ∧ (after {} turns).find? name = some e) ∧
      (∀ name ∈ (after {} turns).names, IsName name) ∧ (after {} turns).names.Nodup ∧
      ((after {} turns).last = none ↔ ¬ Occurs Enters {} turns) ∧
      ((after {} turns).last = none → (after {} turns).saved = [])) ∧
    ∀ (s : Session) (t : Turn),
      ((s.next t).last ≠ s.last →
        (∃ text, Command.ofLine? t.line = some (.expr text)) ∨
          (∃ arguments, Command.ofLine? t.line = some (.der arguments)) ∨
          ∃ name, Command.ofLine? t.line = some (.print [name])) ∧
      ((s.next t).saved ≠ s.saved →
        ∃ name, Saves name s t ∧
          ∀ other, other ≠ name → (s.next t).find? other = s.find? other) := by
  refine ⟨fun turns => ⟨mem_names_after_iff turns, ?_, (names_after turns).1,
    (names_after turns).2, last_after_eq_none_iff turns, saved_after_eq_nil turns⟩, ?_⟩
  · intro name earlier t later hTurns hSaves hLater
    obtain ⟨e, hLast, hFound⟩ := (effect_next _ t).find?_of_saves hSaves
    refine ⟨e, hLast, ?_⟩
    have hSplit : turns = (earlier ++ [t]) ++ later := by
      rw [hTurns, List.append_assoc, List.singleton_append]
    rw [hSplit, after_append, find?_after_of_not_occurs _ _ hLater, after_concat]
    exact hFound
  · intro s t
    exact ⟨(s.effect_next t).command_of_last_ne, (s.effect_next t).saves_of_saved_ne⟩

end

attribute [local instance] Elementary.specialArguments

/-- The start of a history: `x ^ 2` is entered. -/
def entering : List Turn := [⟨Settings.defaults, "EXPR x ^ 2"⟩]

/-- The rest of it: lines that replace the last expression, save under another name, or fail. -/
def continuing : List Turn :=
  [⟨[], "DER"⟩, ⟨[], "SAVE d"⟩, ⟨Settings.defaults, "SAVE 2x"⟩, ⟨[], "EXPR sin("⟩, ⟨[], "DER sq"⟩]

/-- What was saved as `sq` after the start is still there at the end. -/
theorem find?_after_continuing :
    Saves "sq" (after {} entering) ⟨[], "SAVE sq"⟩ ∧
      (after {} (entering ++ ⟨[], "SAVE sq"⟩ :: continuing)).find? "sq" =
        some (.binary true .pow (.var true) (.const true 2)) := by
  have hSaves : Saves "sq" (after {} entering) ⟨[], "SAVE sq"⟩ :=
    ⟨by decide +kernel, none, by decide +kernel⟩
  have hLater : ¬ Occurs (Saves "sq") (after {} (entering ++ [⟨[], "SAVE sq"⟩])) continuing := by
    rintro ⟨earlier, t, later, hTurns, hSaves, -⟩
    have hOthers : ∀ t ∈ continuing, Command.ofLine? t.line ≠ some (.save ["sq"]) := by
      decide +kernel
    exact hOthers t (by rw [hTurns]; simp) hSaves
  obtain ⟨e, hLast, hFound⟩ :=
    (saved_and_last_after.1 _).2.1 "sq" entering _ continuing rfl hSaves hLater
  have hSquare : (after {} entering).last =
      some (.binary true .pow (.var true) (.const true 2)) := by decide +kernel
  exact ⟨hSaves, by rw [hFound, ← hLast, hSquare]⟩

end DerivCalc.Session
