import DerivCalc.Engine
import DerivCalc.Proofs.Result
import DerivCalc.Proofs.Token.Lexeme

/-!
# How lexemes and blanks make up a text

A text is covered by lexemes with gaps around them, up to its end or to the first place where no
lexeme starts.  `steps_eq_iff` says that the lexer goes through a text in this way and in no
other.

Gaps are free: a blank between two lexemes changes none of them.  A name and the variable end
before it as they would before the end of the text.  So does a number, and this is all that has
to be seen, because a number that would go on over the place of the blank is no lexeme before it.
-/

namespace DerivCalc.Token.Lexer

open Text (isAsciiLetter isBlank)

/-! ## Covering a text -/

/-- Lexemes, with gaps around them, up to the end of the text or to where no lexeme starts. -/
inductive Covers : List Char → List Step → Prop
  | finished {gap : List Char} (hGap : Blanks gap) : Covers gap [.finished]
  | invalid {gap fragment rest : List Char} (hGap : Blanks gap)
      (hFragment : Fragment fragment rest)
      (hNone : ∀ lexeme t tail, rest = lexeme ++ tail → ¬ Lexeme lexeme t tail) :
      Covers (gap ++ rest) [.invalid fragment rest]
  | token {gap lexeme rest : List Char} {t : Token} {list : List Step} (hGap : Blanks gap)
      (hLexeme : Lexeme lexeme t rest) (hRest : Covers rest list) :
      Covers (gap ++ (lexeme ++ rest)) (.token t rest :: list)

theorem steps_of_token {text rest : List Char} {t : Token} (h : next text = .token t rest) :
    steps text = .token t rest :: steps rest := by
  rw [steps]
  split
  · rename_i t' rest' hStep
    obtain ⟨rfl, rfl⟩ := Step.token.inj (hStep.symm.trans h)
    rfl
  · rename_i hOther
    exact absurd h (hOther t rest)

theorem steps_of_end {text : List Char} (h : ∀ t rest, next text ≠ .token t rest) :
    steps text = [next text] := by
  rw [steps]
  split
  · rename_i t rest hStep
    exact absurd hStep (h t rest)
  · rfl

theorem covers_steps (text : List Char) : Covers text (steps text) := by
  induction hLength : text.length using Nat.strong_induction_on generalizing text with
  | _ n ih =>
      rcases next_cases text with
        ⟨gap, lexeme, t, rest, hText, hGap, hLexeme, hNext⟩ | ⟨hBlanks, hNext⟩ |
          ⟨gap, fragment, rest, hText, hGap, hFragment, hNone, hNext⟩
      · have hShorter := next_length_lt hNext
        rw [steps_of_token hNext]
        subst hText
        exact .token hGap hLexeme (ih rest.length (by omega) rest rfl)
      · rw [steps_of_end (by simp [hNext]), hNext]
        exact .finished hBlanks
      · rw [steps_of_end (by simp [hNext]), hNext]
        subst hText
        exact .invalid hGap hFragment hNone

theorem Covers.steps_eq {text : List Char} {list : List Step} (h : Covers text list) :
    steps text = list := by
  induction h with
  | @finished gap hGap =>
      have hNext : next gap = .finished := by
        rw [← List.append_nil gap, next_blanks hGap]
        rfl
      rw [steps_of_end (by simp [hNext]), hNext]
  | @invalid gap fragment rest hGap hFragment hNone =>
      have hNext := (next_blanks hGap rest).trans (hFragment.next hNone)
      rw [steps_of_end (by simp [hNext]), hNext]
  | @token gap lexeme rest t list hGap hLexeme _ ih =>
      rw [steps_of_token ((next_blanks hGap _).trans hLexeme.next), ih]

/-- The steps over a text are the lexemes that cover it. -/
theorem steps_eq_iff {text : List Char} {list : List Step} :
    steps text = list ↔ Covers text list := by
  constructor
  · rintro rfl
    exact covers_steps text
  · exact Covers.steps_eq

/-! ## Positions -/

/-- The count of characters of the text that have been read after a step. -/
def Step.position (text : List Char) (s : Step) : ℕ := text.length - s.rest.length

theorem Covers.ne_nil {text : List Char} {list : List Step} (h : Covers text list) :
    list ≠ [] := by
  cases h <;> simp

/-- Every token that is read moves the position on. -/
theorem Covers.positions {rest : List Char} {list : List Step} (h : Covers rest list)
    {text : List Char} (hLength : rest.length ≤ text.length) :
    ((text.length - rest.length) :: list.dropLast.map (·.position text)).Pairwise (· < ·) := by
  rw [← List.isChain_iff_pairwise]
  induction h with
  | finished => exact .singleton _
  | invalid => exact .singleton _
  | @token gap lexeme rest t list _ hLexeme hRest ih =>
      obtain ⟨c, tail, rfl, -⟩ := hLexeme.exists_eq
      simp only [List.length_append, List.length_cons] at hLength
      rw [List.dropLast_cons_of_ne_nil hRest.ne_nil, List.map_cons, List.isChain_cons_cons]
      refine ⟨?_, ih (by omega)⟩
      simp only [Step.position, Step.rest, List.length_append, List.length_cons]
      omega

/-! ## The tokens of a text -/

/-- The tokens of the steps, or the fragment where they end without reaching the end of the text. -/
def outcome : List Step → Except (List Char) (List Token)
  | .token t _ :: list => (outcome list).map (t :: ·)
  | .invalid fragment _ :: _ => .error fragment
  | _ => .ok []

theorem Covers.scan_eq {text : List Char} {list : List Step} (h : Covers text list) :
    scan text = outcome list := by
  induction h with
  | @finished gap hGap =>
      refine scan_of_finished ?_
      rw [← List.append_nil gap, next_blanks hGap]
      rfl
  | @invalid gap fragment rest hGap hFragment hNone =>
      exact scan_of_invalid ((next_blanks hGap rest).trans (hFragment.next hNone))
  | @token gap lexeme rest t list hGap hLexeme _ ih =>
      rw [scan_of_token ((next_blanks hGap _).trans hLexeme.next), ih]
      rfl

/-- The tokens of a text are those that are scanned, with minus signs resolved. -/
theorem tokenize_eq_ok_iff {text : String} {tokens : List Token} :
    Engine.tokenize text = .ok tokens ↔
      ∃ list, scan text.toList = .ok list ∧ resolveMinus true list = tokens := by
  unfold Engine.tokenize tokenize
  cases scan text.toList with
  | error fragment => simp [Except.map]
  | ok list => simp [Except.map]

/-! ## Blanks between lexemes -/

/-- The text is cut into these two parts, and not within a lexeme. -/
inductive Boundary : List Char → List Char → Prop
  | gap {before : List Char} (hBlanks : Blanks before) (after : List Char) :
      Boundary before after
  | token {gap lexeme before after : List Char} {t : Token} (hGap : Blanks gap)
      (hLexeme : Lexeme lexeme t (before ++ after)) (hRest : Boundary before after) :
      Boundary (gap ++ (lexeme ++ before)) after

/-- What stands before a cut starts with a blank, or like no continuation of a number but a digit. -/
theorem Boundary.head {before after : List Char} (h : Boundary before after) {c : Char}
    (hHead : before.head? = some c) :
    isBlank c = true ∨ (c ≠ '.' ∧ c ≠ 'e' ∧ c ≠ 'E') := by
  cases h with
  | gap hBlanks => exact Or.inl (hBlanks c (List.mem_of_mem_head? hHead))
  | @token gap lexeme before _ t hGap hLexeme hRest =>
      cases gap with
      | cons d gap =>
          obtain rfl := Option.some.inj hHead
          exact Or.inl (hGap d List.mem_cons_self)
      | nil =>
          obtain ⟨d, tail, rfl, -, hOthers⟩ := hLexeme.exists_eq
          obtain rfl := Option.some.inj hHead
          exact Or.inr hOthers

/-- A lexeme before a cut stays one if blanks are put into the cut. -/
theorem Lexeme.of_boundary {lexeme before after gap : List Char} {t : Token}
    (h : Lexeme lexeme t (before ++ after)) (hBoundary : Boundary before after)
    (hGap : Blanks gap) : Lexeme lexeme t (before ++ (gap ++ after)) := by
  cases gap with
  | nil => exact h
  | cons d gap =>
      refine h.of_head fun c hHead => ?_
      cases before with
      | nil =>
          obtain rfl := Option.some.inj hHead
          exact Or.inl (hGap d List.mem_cons_self)
      | cons b before =>
          exact (hBoundary.head hHead).imp_right fun hOthers => ⟨hHead, hOthers⟩

/-- Blanks between two lexemes change nothing. -/
theorem Boundary.scan_eq {before after gap : List Char} (h : Boundary before after)
    (hGap : Blanks gap) : scan (before ++ (gap ++ after)) = scan (before ++ after) := by
  induction h with
  | gap hBlanks after => rw [scan_blanks hBlanks, scan_blanks hGap, scan_blanks hBlanks]
  | @token gap' lexeme before after t hGap' hLexeme hRest ih =>
      have hNext := hLexeme.next
      have hNext' := (hLexeme.of_boundary hRest hGap).next
      rw [List.append_assoc, List.append_assoc, List.append_assoc, List.append_assoc,
        scan_blanks hGap', scan_blanks hGap', scan_of_token hNext, scan_of_token hNext', ih]

/-- The end of a text that has tokens is no place within a lexeme. -/
theorem Covers.boundary {text : List Char} {list : List Step} (h : Covers text list)
    {tokens : List Token} (hOk : outcome list = .ok tokens) : Boundary text [] := by
  induction h generalizing tokens with
  | finished hGap => exact .gap hGap []
  | invalid => exact absurd hOk (by simp [outcome])
  | @token gap lexeme rest t list hGap hLexeme _ ih =>
      obtain ⟨others, hOthers, -⟩ := Result.map_eq_ok_iff.1 hOk
      rw [← List.append_nil rest] at hLexeme
      exact .token hGap hLexeme (ih hOthers)

/-! ## Lexemes and layout -/

/--
The lexer reads a text lexeme by lexeme, and blanks between lexemes do not matter.

Its steps are the lexemes that cover the text up to its end or to the first place where none
starts; there the run of letters or the character that stands there is named.  A run of letters
is not taken apart by them.  Each step that reads a token moves the position on.  The tokens are
those of the steps, with minus signs resolved, and blanks at the start, at the end or between two
lexemes change neither them nor the error.
-/
theorem covered_by_lexemes :
    (∀ text list, steps text = list ↔ Covers text list) ∧
    (∀ lexeme t rest, Lexeme lexeme t rest → ¬ NoLetter rest →
      ∀ c, lexeme.getLast? = some c → isAsciiLetter c = false) ∧
    (∀ text, (0 :: (steps text).dropLast.map (·.position text)).Pairwise (· < ·)) ∧
    (∀ text : String, Engine.tokenize text =
      match outcome (steps text.toList) with
      | .ok tokens => .ok (resolveMinus true tokens)
      | .error fragment => .error (.invalidToken (String.ofList fragment))) ∧
    (∀ text tokens, Engine.tokenize (String.ofList text) = .ok tokens →
      Boundary [] text ∧ Boundary text []) ∧
    ∀ before gap after, Boundary before after → Blanks gap →
      Engine.tokenize (String.ofList (before ++ (gap ++ after))) =
        Engine.tokenize (String.ofList (before ++ after)) := by
  refine ⟨fun _ _ => steps_eq_iff, fun _ _ _ hLexeme hRest _ => hLexeme.last hRest, ?_, ?_, ?_, ?_⟩
  · intro text
    have hPositions := (covers_steps text).positions (Nat.le_refl text.length)
    rwa [Nat.sub_self] at hPositions
  · intro text
    unfold Engine.tokenize tokenize
    rw [(covers_steps text.toList).scan_eq]
    cases outcome (steps text.toList) <;> rfl
  · intro text tokens hOk
    obtain ⟨list, hScan, -⟩ := tokenize_eq_ok_iff.1 hOk
    rw [String.toList_ofList, (covers_steps text).scan_eq] at hScan
    exact ⟨.gap (by simp [Blanks]) text, (covers_steps text).boundary hScan⟩
  · intro before gap after hBoundary hGap
    unfold Engine.tokenize tokenize
    rw [String.toList_ofList, String.toList_ofList, hBoundary.scan_eq hGap]

/-- `-2.x*(-1.e5)cot(x)` up to the minus sign in brackets. -/
def cutBefore : List Char := "-2.x*(-".toList

/-- The rest of it: a number with a point and an exponent, and a name right behind. -/
def cutAfter : List Char := "1.e5)cot(x)".toList

theorem boundary_cut : Boundary cutBefore cutAfter := by
  have hMinus : Lexeme ['-'] (.op .sub) ("2.x*(-".toList ++ cutAfter) :=
    lexeme_of_next (by decide) (by decide +kernel)
  have hNumber : Lexeme ['2', '.'] (.number 2) ("x*(-".toList ++ cutAfter) :=
    lexeme_of_next (by decide) (by decide +kernel)
  have hVar : Lexeme ['x'] .var ("*(-".toList ++ cutAfter) :=
    lexeme_of_next (by decide) (by decide +kernel)
  have hTimes : Lexeme ['*'] (.op .mul) ("(-".toList ++ cutAfter) := .op .mul _
  have hOpen : Lexeme ['('] .openBracket ("-".toList ++ cutAfter) := .openBracket _
  have hInner : Lexeme ['-'] (.op .sub) ([] ++ cutAfter) := .op .sub _
  have hNone : Blanks [] := by simp [Blanks]
  exact .token hNone hMinus (.token hNone hNumber (.token hNone hVar (.token hNone hTimes
    (.token hNone hOpen (.token hNone hInner (.gap hNone cutAfter))))))

/-- A line break and an em space in the cut leave both minus signs what they are. -/
theorem tokenize_cut :
    Boundary cutBefore cutAfter ∧ Blanks ['\n', '\u2003'] ∧
      Engine.tokenize (String.ofList (cutBefore ++ (['\n', '\u2003'] ++ cutAfter))) =
        .ok [.func .neg, .number 2, .var, .op .mul, .openBracket, .func .neg, .number 100000,
          .closeBracket, .func .cot, .openBracket, .var, .closeBracket] := by
  have hGap : Blanks ['\n', '\u2003'] := by
    intro c hMem
    rcases List.mem_cons.1 hMem with rfl | hMem
    · rfl
    · rw [List.mem_singleton.1 hMem]
      rfl
  refine ⟨boundary_cut, hGap, ?_⟩
  rw [covered_by_lexemes.2.2.2.2.2 cutBefore _ cutAfter boundary_cut hGap]
  decide +kernel

end DerivCalc.Token.Lexer
