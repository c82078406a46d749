import DerivCalc.Proofs.Infix.Reading
import DerivCalc.Proofs.Token.Conservation

/-!
# How far a leading minus reaches

A minus sign in front of a chain waits below the operators of the chain, so it comes out
after all of it.  If the chain starts with a group in plain brackets, the bracket that closes
this group takes the sign for the name of a function: it reaches to that bracket only.
`negationReach` says how much of a chain the sign is applied to, and
`ofInfix_negated` where it stands in the listing, for every chain and in all surroundings.
-/

namespace DerivCalc.Infix

open Token.PostOrder

/-! ## The rest of a chain -/

/-- Only operators are pending. -/
def OnlyOperators (pending : List Token) : Prop := ∀ t ∈ pending, ∃ o, t = .op o

theorem OnlyOperators.not_mem {pending : List Token} (h : OnlyOperators pending) {t : Token}
    (hT : ∀ o, t ≠ .op o) : t ∉ pending := by
  intro hMem
  obtain ⟨o, hO⟩ := h t hMem
  exact hT o hO

theorem appliesBefore_eq_false {t : Token} (h : ∀ o, t ≠ .op o) (incoming : Operator) :
    appliesBefore t incoming = false := by
  cases t with
  | op o => exact absurd rfl (h o)
  | _ => rfl

/--
Taking in `tokens` on top of `pending` releases `emitted` and leaves `pending'` instead, on top of
whatever waits below, if it is no operator.
-/
def Replaces (tokens pending emitted pending' : List Token) : Prop :=
  ∀ waiting, (∀ t, waiting.head? = some t → ∀ o, t ≠ .op o) → ∀ out,
    tokens.foldlM State.push ⟨out, pending ++ waiting⟩ =
      .ok ⟨emitted.reverse ++ out, pending' ++ waiting⟩

section

variable {tokens tokens' pending pending' pending'' emitted emitted' waiting : List Token}

theorem Replaces.append (hFirst : Replaces tokens pending emitted pending')
    (hSecond : Replaces tokens' pending' emitted' pending'') :
    Replaces (tokens ++ tokens') pending (emitted ++ emitted') pending'' := by
  intro waiting hWaiting out
  rw [List.foldlM_append, hFirst waiting hWaiting]
  show tokens'.foldlM State.push ⟨emitted.reverse ++ out, pending' ++ waiting⟩ = _
  rw [hSecond waiting hWaiting, List.reverse_append, List.append_assoc]

/-- What comes after a piece with nothing pending. -/
theorem Replaces.after (hFirst : Yields tokens waiting emitted [])
    (hSecond : Replaces tokens' [] emitted' pending)
    (hWaiting : ∀ t, waiting.head? = some t → ∀ o, t ≠ .op o) :
    Yields (tokens ++ tokens') waiting (emitted ++ emitted') pending := by
  have hBoth := hFirst.append fun out => hSecond waiting hWaiting out
  rw [List.append_nil] at hBoth
  exact hBoth

/-- An operator and its operand leave only operators pending. -/
theorem exists_replaces_operand {b : Operand} {listing : List Token} (op : Operator)
    (hOperand : b.Gives listing) (hPending : OnlyOperators pending) :
    ∃ emitted pending', OnlyOperators pending' ∧ pending' ≠ [] ∧
      Replaces (.op op :: b.tokens) pending emitted pending' := by
  refine ⟨pending.takeWhile (appliesBefore · op) ++ listing,
    .op op :: pending.dropWhile (appliesBefore · op), ?_, by simp, ?_⟩
  · intro t hMem
    rcases List.mem_cons.1 hMem with rfl | hMem
    · exact ⟨op, rfl⟩
    · exact hPending t (List.dropWhile_subset _ hMem)
  · intro waiting hWaiting out
    have hRelease := releaseWhile_above (p := (appliesBefore · op)) out pending
      fun t hHead => appliesBefore_eq_false (hWaiting t hHead) op
    have hYields := hOperand.alone
      (.op op :: (pending.dropWhile (appliesBefore · op) ++ waiting)) fun _ f => by simp
    show b.tokens.foldlM State.push ⟨(State.releaseWhile _ _).released,
      .op op :: (State.releaseWhile _ _).waiting⟩ = _
    rw [hRelease, hYields, List.reverse_append, List.append_assoc]
    rfl

/-- The rest of a chain leaves only operators pending, and at least one of its own. -/
theorem exists_replaces_rest (rest : List (Operator × Operand)) :
    (∀ p ∈ rest, ∃ listing, p.2.Gives listing) → ∀ {pending : List Token}, OnlyOperators pending →
      ∃ emitted pending', OnlyOperators pending' ∧
        (pending ≠ [] ∨ rest ≠ [] → pending' ≠ []) ∧
        Replaces (rest.flatMap fun p => .op p.1 :: p.2.tokens) pending emitted pending' := by
  induction rest with
  | nil =>
      intro _ pending hPending
      refine ⟨[], pending, hPending, ?_, fun waiting _ out => rfl⟩
      intro hSome
      exact hSome.resolve_right fun h => h rfl
  | cons p rest ih =>
      intro hOperands pending hPending
      obtain ⟨op, b⟩ := p
      obtain ⟨listing, hOperand⟩ := hOperands (op, b) (List.mem_cons_self ..)
      obtain ⟨emitted, pending₁, hPending₁, hSome, hStep⟩ :=
        exists_replaces_operand op hOperand hPending
      obtain ⟨emitted', pending₂, hPending₂, hSome', hRest⟩ :=
        ih (fun q hMem => hOperands q (List.mem_cons_of_mem _ hMem)) hPending₁
      refine ⟨emitted ++ emitted', pending₂, hPending₂, fun _ => hSome' (Or.inl hSome), ?_⟩
      rw [List.flatMap_cons]
      exact hStep.append hRest

end

/-! ## Chains with and without the sign -/

/-- What a minus sign in front of the chain is applied to. -/
def negationReach (first : Operand) (rest : Tail) : List Token :=
  if first.isBracketed then first.tokens else first.tokens ++ rest.tokens

/-- The listings of a chain without and with a minus sign, which comes out between the two parts. -/
structure SignBetween (first : Operand) (rest : Tail) (part remainder : List Token) : Prop where
  reach : ofInfix (negationReach first rest) = .ok part
  plain : (Group.chain first rest).Gives (part ++ remainder)
  signed : (Group.negated first rest).Gives (part ++ .func .neg :: remainder)
  remainder_ends : (first.isBracketed = true → rest = .nil) ∧ remainder = [] ∨
    ¬ (first.isBracketed = true → rest = .nil) ∧ ∃ init o, remainder = init ++ [.op o]

theorem Tail.toList_eq_nil_iff {rest : Tail} : rest.toList = [] ↔ rest = .nil := by
  cases rest with
  | nil => simp [Tail.toList]
  | cons op operand rest => simp [Tail.toList]

theorem exists_signBetween {first : Operand} {rest : Tail} {listing : List Token}
    (hFirst : first.Gives listing) (hRest : ∀ p ∈ rest.toList, ∃ l, p.2.Gives l) :
    ∃ part remainder, SignBetween first rest part remainder := by
  have hNone : OnlyOperators [] := fun t hMem => absurd hMem (by simp)
  obtain ⟨emitted, pending, hPending, hSome, hReplaces⟩ :=
    exists_replaces_rest rest.toList hRest hNone
  rw [← Tail.tokens_eq] at hReplaces
  have hBracket : Token.openBracket ∉ pending := hPending.not_mem (by simp)
  have hChain : ∀ waiting, (∀ t, waiting.head? = some t → ∀ o, t ≠ .op o) →
      (first.isBracketed = true → ∀ f, waiting.head? ≠ some (.func f)) →
      Yields (first.tokens ++ rest.tokens) waiting (listing ++ emitted) pending :=
    fun waiting hWaiting hFunc => hReplaces.after (hFirst.alone waiting hFunc) hWaiting
  have hPlain : (Group.chain first rest).Gives (listing ++ emitted ++ pending) := by
    intro waiting hHead
    refine ⟨listing ++ emitted, pending, rfl, hBracket, ?_⟩
    unfold Group.tokens
    refine hChain waiting (fun t hT o => by simp [hHead t hT]) fun _ f hF => ?_
    exact absurd (hHead _ hF) (by simp)
  by_cases hBracketed : first.isBracketed = true
  · -- the sign comes out with the bracket that closes the first operand
    have hAlone : ofInfix first.tokens = .ok (listing ++ []) :=
      (hFirst.alone [] fun _ f => by simp).ofInfix (by simp)
    rw [List.append_nil] at hAlone
    refine ⟨listing, emitted ++ pending, ?_, ?_, ?_, ?_⟩
    · rw [negationReach, if_pos hBracketed]
      exact hAlone
    · rw [← List.append_assoc]
      exact hPlain
    · intro waiting hHead
      refine ⟨listing ++ [.func .neg] ++ emitted, pending, by simp, hBracket, ?_⟩
      unfold Group.tokens
      exact hReplaces.after (hFirst.argument hBracketed .neg waiting)
        fun t hT o => by simp [hHead t hT]
    · by_cases hNil : rest = .nil
      · subst hNil
        have hSame := hPlain.ofInfix
        rw [Group.tokens, Tail.tokens, List.append_nil, hAlone, List.append_assoc] at hSame
        exact Or.inl ⟨fun _ => rfl, List.self_eq_append_right.1 (Except.ok.inj hSame)⟩
      · have hNonempty := hSome (Or.inr fun h => hNil (Tail.toList_eq_nil_iff.1 h))
        obtain ⟨o, hLast⟩ := hPending _ (List.getLast_mem hNonempty)
        refine Or.inr ⟨fun h => hNil (h hBracketed), emitted ++ pending.dropLast, o, ?_⟩
        rw [List.append_assoc, ← hLast, List.dropLast_append_getLast]
  · -- the sign waits below the chain
    refine ⟨listing ++ emitted ++ pending, [], ?_, ?_, ?_, ?_⟩
    · rw [negationReach, if_neg hBracketed]
      exact hPlain.ofInfix
    · rw [List.append_nil]
      exact hPlain
    · intro waiting hHead
      refine ⟨listing ++ emitted, pending ++ [.func .neg], by simp, by simp [hBracket], ?_⟩
      unfold Group.tokens
      refine (hChain (.func .neg :: waiting) ?_ fun h => absurd h hBracketed).function
      intro t hT o
      obtain rfl := Option.some.inj hT
      simp
    · exact Or.inl ⟨fun h => absurd h hBracketed, rfl⟩

/-! ## Operands of all kinds -/

mutual

theorem Group.exists_gives : ∀ g : Group, ∃ listing, g.Gives listing
  | .chain first rest => by
      obtain ⟨listing, hFirst⟩ := first.exists_gives
      obtain ⟨part, remainder, h⟩ := exists_signBetween hFirst rest.exists_gives
      exact ⟨_, h.plain⟩
  | .negated first rest => by
      obtain ⟨listing, hFirst⟩ := first.exists_gives
      obtain ⟨part, remainder, h⟩ := exists_signBetween hFirst rest.exists_gives
      exact ⟨_, h.signed⟩

theorem Operand.exists_gives : ∀ a : Operand, ∃ listing, a.Gives listing
  | .number value =>
      ⟨[.number value], fun _ _ _ => rfl, fun h => absurd h (by simp [Operand.isBracketed])⟩
  | .var => ⟨[.var], fun _ _ _ => rfl, fun h => absurd h (by simp [Operand.isBracketed])⟩
  | .bracketed inner => by
      obtain ⟨listing, hInner⟩ := inner.exists_gives
      exact ⟨listing, hInner.bracketed⟩
  | .call f hNamed inner => by
      obtain ⟨listing, hInner⟩ := inner.exists_gives
      exact ⟨_, hInner.call f hNamed⟩

theorem Tail.exists_gives : ∀ rest : Tail, ∀ p ∈ rest.toList, ∃ listing, p.2.Gives listing
  | .nil => fun p hMem => by simp [Tail.toList] at hMem
  | .cons op operand rest => by
      intro p hMem
      rcases List.mem_cons.1 hMem with rfl | hMem
      · exact operand.exists_gives
      · exact rest.exists_gives p hMem

end

/-! ## Groups inside brackets -/

/-- The group in brackets, with tokens before and after it. -/
def Group.enclosed (before : List Token) (g : Group) (after : List Token) : List Token :=
  before ++ .openBracket :: (g.tokens ++ .closeBracket :: after)

/-- A closing bracket acts on what waits, whatever has come out. -/
theorem exists_closeGroup (waiting : List Token) :
    ∃ called below, ∀ out, State.closeGroup ⟨out, .openBracket :: waiting⟩ =
      .ok ⟨called ++ out, below⟩ := by
  cases waiting with
  | nil => exact ⟨[], [], fun _ => rfl⟩
  | cons t rest =>
      cases t with
      | func f => exact ⟨[.func f], rest, fun _ => rfl⟩
      | _ => exact ⟨[], _, fun _ => rfl⟩

/-- A group in brackets adds its listing, and what its brackets release, to what has come out. -/
theorem Group.Gives.listing_enclosed {g : Group} {listing : List Token} (h : g.Gives listing)
    {s : State} {called below : List Token}
    (hClose : ∀ out, State.closeGroup ⟨out, .openBracket :: s.waiting⟩ = .ok ⟨called ++ out, below⟩)
    (after : List Token) :
    s.listing (.openBracket :: (g.tokens ++ .closeBracket :: after)) =
      (State.listing ⟨[], below⟩ after).map
        (s.released.reverse ++ (listing ++ called.reverse) ++ ·) := by
  obtain ⟨emitted, pending, rfl, hPending, hYields⟩ :=
    h (.openBracket :: s.waiting) fun t hHead => (Option.some.inj hHead).symm
  have hClosed := hYields.foldlM_closeBracket hPending s.released
  rw [hClose] at hClosed
  have hAfter := listing_append hClosed after
  rw [List.append_assoc] at hAfter
  show State.listing ⟨s.released, .openBracket :: s.waiting⟩
    (g.tokens ++ ([.closeBracket] ++ after)) = _
  rw [hAfter, listing_eq_map]
  simp only [List.reverse_append, List.reverse_reverse, List.append_assoc]

/--
The listing of a group in brackets stands in one piece in the listing of what is around
it, behind the operands before the group.
-/
theorem exists_around (before after : List Token) :
    (∃ cause, ∀ (g : Group) (listing : List Token), g.Gives listing →
      ofInfix (g.enclosed before after) = .error cause) ∨
    ∃ front back, front.filter Token.isOperand = before.filter Token.isOperand ∧
      ∀ (g : Group) (listing : List Token), g.Gives listing →
        ofInfix (g.enclosed before after) = .ok (front ++ listing ++ back) := by
  cases hBefore : before.foldlM State.push ⟨[], []⟩ with
  | error cause =>
      exact Or.inl ⟨cause, fun g listing _ => listing_append_error hBefore _⟩
  | ok s =>
      obtain ⟨called, below, hClose⟩ := exists_closeGroup s.waiting
      have hListing : ∀ (g : Group) (listing : List Token), g.Gives listing →
          ofInfix (g.enclosed before after) = (State.listing ⟨[], below⟩ after).map
            (s.released.reverse ++ (listing ++ called.reverse) ++ ·) :=
        fun g listing hGives =>
          (listing_append hBefore _).trans (hGives.listing_enclosed hClose after)
      cases hRest : State.listing ⟨[], below⟩ after with
      | error cause =>
          refine Or.inl ⟨cause, fun g listing hGives => ?_⟩
          rw [hListing g listing hGives, hRest]
          rfl
      | ok back =>
          refine Or.inr ⟨s.released.reverse, called.reverse ++ back, ?_, ?_⟩
          · exact (accounts_start.run hBefore).operands
          · intro g listing hGives
            rw [hListing g listing hGives, hRest]
            show Except.ok _ = _
            simp only [List.append_assoc]

/-! ## Where the sign comes out -/

/--
A minus sign in front of a chain comes out right behind what it reaches, at the start of a
formula and after every opening bracket; nothing else changes.  It comes out behind the whole
chain iff the chain does not start with a group in brackets that more follows.
-/
theorem ofInfix_negated (first : Operand) (rest : Tail) :
    ∃ part remainder,
      ofInfix (negationReach first rest) = .ok part ∧
      ofInfix (Group.chain first rest).tokens = .ok (part ++ remainder) ∧
      ofInfix (Group.negated first rest).tokens = .ok (part ++ .func .neg :: remainder) ∧
      (part ++ .func .neg :: remainder = part ++ remainder ++ [.func .neg] ↔
        (first.isBracketed = true → rest = .nil)) ∧
      ∀ before after,
        (∃ cause, ofInfix ((Group.chain first rest).enclosed before after) = .error cause ∧
          ofInfix ((Group.negated first rest).enclosed before after) = .error cause) ∨
        ∃ front back, front.filter Token.isOperand = before.filter Token.isOperand ∧
          ofInfix ((Group.chain first rest).enclosed before after) =
            .ok (front ++ (part ++ remainder) ++ back) ∧
          ofInfix ((Group.negated first rest).enclosed before after) =
            .ok (front ++ (part ++ .func .neg :: remainder) ++ back) := by
  obtain ⟨listing, hFirst⟩ := first.exists_gives
  obtain ⟨part, remainder, h⟩ := exists_signBetween hFirst rest.exists_gives
  refine ⟨part, remainder, h.reach, h.plain.ofInfix, h.signed.ofInfix, ?_, ?_⟩
  · rcases h.remainder_ends with ⟨hWhole, rfl⟩ | ⟨hPart, init, o, rfl⟩
    · rw [List.append_nil]
      exact iff_of_true rfl hWhole
    · refine iff_of_false ?_ hPart
      intro hSame
      have hLast := congrArg List.getLast? hSame
      exact absurd hLast (by simp [List.getLast?_cons])
  · intro before after
    rcases exists_around before after with ⟨cause, hFails⟩ | ⟨front, back, hFront, hAround⟩
    · exact Or.inl ⟨cause, hFails _ _ h.plain, hFails _ _ h.signed⟩
    · exact Or.inr ⟨front, back, hFront, hAround _ _ h.plain, hAround _ _ h.signed⟩

/-- In `-(x) + 1` the sign comes out before the sum. -/
theorem not_exists_negated_last :
    ¬ ∃ listing,
      ofInfix (Group.chain (.bracketed (.chain .var .nil)) (.cons .add (.number 1) .nil)).tokens =
        .ok listing ∧
      ofInfix (Group.negated (.bracketed (.chain .var .nil)) (.cons .add (.number 1) .nil)).tokens =
        .ok (listing ++ [.func .neg]) := by
  rintro ⟨listing, hPlain, hSigned⟩
  obtain rfl : [Token.var, .number 1, .op .add] = listing := Except.ok.inj hPlain
  have hSame : [Token.var, .func .neg, .number 1, .op .add] = _ := Except.ok.inj hSigned
  exact absurd hSame (by simp)

end DerivCalc.Infix
