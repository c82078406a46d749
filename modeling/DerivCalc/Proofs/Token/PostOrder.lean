import DerivCalc.Token.PostOrder

/-!
# Taking in tokens piece by piece

`Yields tokens waiting emitted pending` describes what a piece of a formula does to the
stack: taken in on top of `waiting`, it releases `emitted` and leaves `pending` above
what waited before.  The lemmas say what the pieces of a formula yield together: two of
them in a row, one before an operator, one in brackets, one in the brackets of a function.

What has come out already does not influence a run, so the listing of the rest of a formula
depends on what waits alone (`listing_eq_map`).
-/

namespace DerivCalc.Token.PostOrder

/-- Taking in `tokens` on top of `waiting` releases `emitted` and leaves `pending` waiting. -/
def Yields (tokens waiting emitted pending : List Token) : Prop :=
  ∀ out, tokens.foldlM State.push ⟨out, waiting⟩ =
    .ok ⟨emitted.reverse ++ out, pending ++ waiting⟩

/-! ## Releasing -/

/-- The tokens on top that satisfy `p` are released, down to one that does not. -/
theorem releaseWhile_append {p : Token → Bool} {first rest : List Token} (out : List Token)
    (hFirst : ∀ t ∈ first, p t = true) (hRest : ∀ t, rest.head? = some t → p t = false) :
    State.releaseWhile p ⟨out, first ++ rest⟩ = ⟨first.reverse ++ out, rest⟩ := by
  have hTake : rest.takeWhile p = [] ∧ rest.dropWhile p = rest := by
    cases rest with
    | nil => exact ⟨rfl, rfl⟩
    | cons t tail =>
        have hT := hRest t rfl
        exact ⟨by rw [List.takeWhile_cons, hT]; rfl, by rw [List.dropWhile_cons, hT]; rfl⟩
  unfold State.releaseWhile
  rw [List.takeWhile_append_of_pos hFirst, List.dropWhile_append_of_pos hFirst, hTake.1, hTake.2,
    List.append_nil]

/-- A closing bracket releases everything down to its opening bracket. -/
theorem releaseWhile_openBracket {pending : List Token} (out waiting : List Token)
    (h : Token.openBracket ∉ pending) :
    State.releaseWhile (· ≠ .openBracket) ⟨out, pending ++ .openBracket :: waiting⟩ =
      ⟨pending.reverse ++ out, .openBracket :: waiting⟩ := by
  refine releaseWhile_append out ?_ ?_
  · intro t hMem
    refine decide_eq_true ?_
    intro hBracket
    exact h (hBracket ▸ hMem)
  · intro t hHead
    obtain rfl := Option.some.inj hHead
    rfl

/-- A closed group without a function in front of it leaves what waited before. -/
theorem closeGroup_of_head_ne {waiting : List Token} (out : List Token)
    (hFunc : ∀ f, waiting.head? ≠ some (.func f)) :
    State.closeGroup ⟨out, .openBracket :: waiting⟩ = .ok ⟨out, waiting⟩ := by
  cases waiting with
  | nil => rfl
  | cons t rest =>
      cases t with
      | func f => exact absurd rfl (hFunc f)
      | _ => rfl

/-- A release goes through `pending` and stops at what waits below, if that is not released. -/
theorem releaseWhile_above {p : Token → Bool} (out pending : List Token) {waiting : List Token}
    (h : ∀ t, waiting.head? = some t → p t = false) :
    State.releaseWhile p ⟨out, pending ++ waiting⟩ =
      ⟨(pending.takeWhile p).reverse ++ out, pending.dropWhile p ++ waiting⟩ := by
  induction pending generalizing out with
  | nil =>
      have hNone : ∀ t ∈ ([] : List Token), p t = true := fun t hMem => absurd hMem (by simp)
      exact releaseWhile_append out hNone h
  | cons t rest ih =>
      by_cases hT : p t = true
      · have hNext := ih (t :: out)
        unfold State.releaseWhile at hNext ⊢
        simp only [List.cons_append, List.takeWhile_cons, List.dropWhile_cons, hT, if_true,
          List.reverse_cons, List.append_assoc, List.nil_append]
        exact hNext
      · unfold State.releaseWhile
        simp only [List.cons_append, List.takeWhile_cons, List.dropWhile_cons, hT]
        rfl

/-! ## What has come out before -/

/-- The stack after `out` has come out before everything else. -/
def State.after (s : State) (out : List Token) : State := ⟨s.released ++ out, s.waiting⟩

/-- The listing that the stack yields in the end if these tokens follow. -/
def State.listing (s : State) (tokens : List Token) : Except Error (List Token) :=
  tokens.foldlM State.push s >>= State.finish

theorem closeGroup_after (s : State) (out : List Token) :
    (s.after out).closeGroup = s.closeGroup.map (·.after out) := by
  obtain ⟨released, waiting⟩ := s
  cases waiting with
  | nil => rfl
  | cons top rest =>
      cases rest with
      | nil => rfl
      | cons t rest => cases t <;> rfl

theorem releaseWhile_after (p : Token → Bool) (s : State) (out : List Token) :
    (s.after out).releaseWhile p = (s.releaseWhile p).after out := by
  unfold State.releaseWhile State.after
  rw [List.append_assoc]

/-- What has come out does not influence a step. -/
theorem push_after (s : State) (out : List Token) (t : Token) :
    (s.after out).push t = (s.push t).map (·.after out) := by
  cases t with
  | op o =>
      show Except.ok (State.mk ((s.after out).releaseWhile _).released _) = _
      rw [releaseWhile_after]
      rfl
  | closeBracket =>
      show State.closeGroup ((s.after out).releaseWhile _) = _
      rw [releaseWhile_after, closeGroup_after]
      rfl
  | _ => rfl

theorem listing_cons (s : State) (t : Token) (tokens : List Token) :
    s.listing (t :: tokens) = s.push t >>= (·.listing tokens) := by
  unfold State.listing
  rw [List.foldlM_cons, bind_assoc]

/-- What commutes with every step and with the end commutes with a whole run. -/
theorem listing_map {f : State → State} {g : Token → Token} {h : List Token → List Token}
    (hPush : ∀ s t, (f s).push (g t) = (s.push t).map f)
    (hFinish : ∀ s, (f s).finish = s.finish.map h) (tokens : List Token) :
    ∀ s, (f s).listing (tokens.map g) = (s.listing tokens).map h := by
  induction tokens with
  | nil => exact hFinish
  | cons t rest ih =>
      intro s
      rw [List.map_cons, listing_cons, listing_cons, hPush]
      cases s.push t with
      | error cause => rfl
      | ok s' => exact ih s'

theorem finish_after (s : State) (out : List Token) :
    (s.after out).finish = s.finish.map (out.reverse ++ ·) := by
  show State.finish ⟨s.released ++ out, s.waiting⟩ = _
  unfold State.finish
  split
  · rfl
  · show Except.ok _ = Except.ok _
    rw [List.reverse_append, List.append_assoc]

theorem listing_after (tokens : List Token) (s : State) (out : List Token) :
    (s.after out).listing tokens = (s.listing tokens).map (out.reverse ++ ·) := by
  have hRun := listing_map (f := (·.after out)) (g := id) (fun s t => push_after s out t)
    (fun s => finish_after s out) tokens s
  rw [List.map_id] at hRun
  exact hRun

/-- What comes out before the rest of the tokens stands before the listing of the rest. -/
theorem listing_eq_map (s : State) (tokens : List Token) :
    s.listing tokens = (State.listing ⟨[], s.waiting⟩ tokens).map (s.released.reverse ++ ·) :=
  listing_after tokens ⟨[], s.waiting⟩ s.released

theorem listing_append {s s' : State} {tokens : List Token}
    (h : tokens.foldlM State.push s = .ok s') (rest : List Token) :
    s.listing (tokens ++ rest) = s'.listing rest := by
  unfold State.listing
  rw [List.foldlM_append, h]
  rfl

theorem listing_append_error {s : State} {tokens : List Token} {cause : Error}
    (h : tokens.foldlM State.push s = .error cause) (rest : List Token) :
    s.listing (tokens ++ rest) = .error cause := by
  unfold State.listing
  rw [List.foldlM_append, h]
  rfl

/-! ## Pieces of a formula -/

section

variable {tokens first second waiting emitted emitted' pending pending' : List Token}

theorem Yields.append (hFirst : Yields first waiting emitted pending)
    (hSecond : Yields second (pending ++ waiting) emitted' pending') :
    Yields (first ++ second) waiting (emitted ++ emitted') (pending' ++ pending) := by
  intro out
  rw [List.foldlM_append, hFirst out]
  show second.foldlM State.push ⟨emitted.reverse ++ out, pending ++ waiting⟩ = _
  rw [hSecond, List.reverse_append, List.append_assoc, List.append_assoc]

/-- An operator releases all that is pending before it, if what waits below is not. -/
theorem Yields.operator {op : Operator} (h : Yields tokens waiting emitted pending)
    (hPending : ∀ t ∈ pending, appliesBefore t op = true)
    (hWaiting : ∀ t, waiting.head? = some t → appliesBefore t op = false) :
    Yields (tokens ++ [.op op]) waiting (emitted ++ pending) [.op op] := by
  intro out
  have hRelease : State.releaseWhile (appliesBefore · op)
      ⟨emitted.reverse ++ out, pending ++ waiting⟩ =
      ⟨(emitted ++ pending).reverse ++ out, waiting⟩ := by
    rw [releaseWhile_append _ hPending hWaiting, List.reverse_append, List.append_assoc]
  rw [List.foldlM_append, h out]
  show Except.ok (State.mk (State.releaseWhile _ _).released
    (.op op :: (State.releaseWhile _ _).waiting)) = _
  rw [hRelease]
  rfl

/-- What a closing bracket meets after the tokens of its group. -/
theorem Yields.foldlM_closeBracket (h : Yields tokens (.openBracket :: waiting) emitted pending)
    (hPending : Token.openBracket ∉ pending) (out : List Token) :
    (tokens ++ [Token.closeBracket]).foldlM State.push ⟨out, .openBracket :: waiting⟩ =
      State.closeGroup ⟨(emitted ++ pending).reverse ++ out, .openBracket :: waiting⟩ := by
  rw [List.foldlM_append, h out]
  show (do let s ← State.closeGroup (State.releaseWhile _ _); [].foldlM State.push s) = _
  rw [releaseWhile_openBracket _ _ hPending, List.reverse_append, List.append_assoc]
  exact bind_pure _

/-- Brackets release their group, if there is no function in front of them. -/
theorem Yields.brackets (h : Yields tokens (.openBracket :: waiting) emitted pending)
    (hPending : Token.openBracket ∉ pending) (hFunc : ∀ f, waiting.head? ≠ some (.func f)) :
    Yields (.openBracket :: (tokens ++ [.closeBracket])) waiting (emitted ++ pending) [] := by
  intro out
  show (tokens ++ [Token.closeBracket]).foldlM State.push ⟨out, .openBracket :: waiting⟩ = _
  rw [h.foldlM_closeBracket hPending, closeGroup_of_head_ne _ hFunc]
  rfl

/-- The brackets after a function release their group and the function. -/
theorem Yields.call {f : Func}
    (h : Yields tokens (.openBracket :: .func f :: waiting) emitted pending)
    (hPending : Token.openBracket ∉ pending) :
    Yields (.func f :: .openBracket :: (tokens ++ [.closeBracket])) waiting
      (emitted ++ pending ++ [.func f]) [] := by
  intro out
  show (tokens ++ [Token.closeBracket]).foldlM State.push
    ⟨out, .openBracket :: .func f :: waiting⟩ = _
  rw [h.foldlM_closeBracket hPending, List.reverse_concat]
  rfl

/-- A function that no bracket follows waits below all that comes after it. -/
theorem Yields.function {f : Func} (h : Yields tokens (.func f :: waiting) emitted pending) :
    Yields (.func f :: tokens) waiting emitted (pending ++ [.func f]) := by
  intro out
  show tokens.foldlM State.push ⟨out, .func f :: waiting⟩ = _
  rw [h out, List.append_assoc]
  rfl

/-- What is still pending after the last token comes out last. -/
theorem Yields.ofInfix (h : Yields tokens [] emitted pending)
    (hPending : Token.openBracket ∉ pending) : ofInfix tokens = .ok (emitted ++ pending) := by
  have hNoBracket : pending.contains .openBracket = false := by
    rw [List.contains_eq_mem]
    exact decide_eq_false hPending
  unfold PostOrder.ofInfix
  rw [h]
  show State.finish ⟨emitted.reverse ++ [], pending ++ []⟩ = _
  unfold State.finish
  rw [List.append_nil, List.append_nil, hNoBracket, if_neg (by decide), List.reverse_reverse]

end

end DerivCalc.Token.PostOrder
