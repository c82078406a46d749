import DerivCalc.Proofs.Token.Conservation

/-!
# Where each token goes

`Places tokens n s out held` follows the first `n` of the `tokens` by their places: `out` are the
places of the tokens released so far and `held` those of the tokens that wait, latest first.  No
place occurs twice, every token but the brackets has one, and only places from further left
have come out before that of an operand.

From this the outcome for any list of tokens follows.  Either a bracket lacks its counterpart, and
then the kind of the fault is decided by the brackets alone; or the listing is an arrangement of all
other tokens.
-/

namespace DerivCalc.Token.PostOrder

open Result (FailsWith)

/-! ## Arrangements -/

/-- The token at place `i` is an operand. -/
def OperandAt (tokens : List Token) (i : Nat) : Prop :=
  ∃ t, tokens[i]? = some t ∧ t.isOperand = true

/--
The listing takes up the tokens in the order of these places: each token that is no bracket once,
and before an operand only tokens from further left.  So operands keep their order, and an operator
or a function comes after all operands that stand before it.
-/
structure Arranges (tokens listing : List Token) (order : List Nat) : Prop where
  tokens_eq : order.map (tokens[·]?) = listing.map some
  nodup : order.Nodup
  mem_iff : ∀ i, i ∈ order ↔ ∃ t, tokens[i]? = some t ∧ t.isBracket = false
  operands : order.Pairwise fun i j => OperandAt tokens j → i < j

/-! ## The places of a stack -/

/-- Where the first `n` tokens are. -/
structure Places (tokens : List Token) (n : Nat) (s : State) (out held : List Nat) : Prop where
  released : out.map (tokens[·]?) = s.released.map some
  waiting : held.map (tokens[·]?) = s.waiting.map some
  nodup : (out ++ held).Nodup
  lt : ∀ i ∈ out ++ held, i < n
  mem : ∀ i t, i < n → tokens[i]? = some t → t.isBracket = false → i ∈ out ++ held
  apart : ∀ i ∈ held, ¬ OperandAt tokens i
  operands : out.Pairwise fun j i => OperandAt tokens j → i < j

section

variable {tokens : List Token} {n : Nat} {s : State} {out held : List Nat}

theorem places_start (tokens : List Token) : Places tokens 0 ⟨[], []⟩ [] [] := by
  refine ⟨rfl, rfl, List.nodup_nil, ?_, ?_, ?_, List.Pairwise.nil⟩
  · intro i hMem
    exact absurd hMem (by simp)
  · intro i t hLt
    exact absurd hLt (Nat.not_lt_zero i)
  · intro i hMem
    exact absurd hMem (by simp)

theorem Places.operand (h : Places tokens n s out held) {t : Token} (hT : tokens[n]? = some t) :
    Places tokens (n + 1) ⟨t :: s.released, s.waiting⟩ (n :: out) held := by
  have hFresh : n ∉ out ++ held := fun hMem => Nat.lt_irrefl n (h.lt n hMem)
  refine ⟨?_, h.waiting, List.nodup_cons.2 ⟨hFresh, h.nodup⟩, ?_, ?_, h.apart, ?_⟩
  · rw [List.map_cons, List.map_cons, hT, h.released]
  · intro i hMem
    rcases List.mem_cons.1 hMem with rfl | hMem
    · exact Nat.lt_succ_self _
    · exact Nat.lt_succ_of_lt (h.lt i hMem)
  · intro i u hLt hU hWord
    by_cases hSame : i = n
    · exact hSame ▸ List.mem_cons_self ..
    · exact List.mem_cons_of_mem _ (h.mem i u (by omega) hU hWord)
  · refine List.pairwise_cons.2 ⟨?_, h.operands⟩
    intro i hMem _
    exact h.lt i (List.mem_append_left _ hMem)

theorem Places.wait (h : Places tokens n s out held) {t : Token} (hT : tokens[n]? = some t)
    (hOperand : t.isOperand = false) :
    Places tokens (n + 1) ⟨s.released, t :: s.waiting⟩ out (n :: held) := by
  have hFresh : n ∉ out ++ held := fun hMem => Nat.lt_irrefl n (h.lt n hMem)
  have hPerm : (out ++ n :: held).Perm (n :: (out ++ held)) := List.perm_middle
  refine ⟨h.released, ?_, hPerm.nodup_iff.2 (List.nodup_cons.2 ⟨hFresh, h.nodup⟩), ?_, ?_, ?_,
    h.operands⟩
  · rw [List.map_cons, List.map_cons, hT, h.waiting]
  · intro i hMem
    rcases List.mem_cons.1 (hPerm.mem_iff.1 hMem) with rfl | hMem
    · exact Nat.lt_succ_self _
    · exact Nat.lt_succ_of_lt (h.lt i hMem)
  · intro i u hLt hU hWord
    refine hPerm.mem_iff.2 ?_
    by_cases hSame : i = n
    · exact hSame ▸ List.mem_cons_self ..
    · exact List.mem_cons_of_mem _ (h.mem i u (by omega) hU hWord)
  · intro i hMem
    rcases List.mem_cons.1 hMem with rfl | hMem
    · rintro ⟨u, hU, hIs⟩
      rw [hT] at hU
      rw [← Option.some.inj hU, hOperand] at hIs
      exact absurd hIs (by decide)
    · exact h.apart i hMem

/-- The place of the topmost token that waits. -/
theorem Places.top {released rest : List Token} {t : Token}
    (h : Places tokens n ⟨released, t :: rest⟩ out held) :
    ∃ i tail, held = i :: tail ∧ tokens[i]? = some t ∧ tail.map (tokens[·]?) = rest.map some := by
  cases held with
  | nil => exact absurd h.waiting (by simp)
  | cons i tail =>
      have hWaiting := h.waiting
      rw [List.map_cons, List.map_cons] at hWaiting
      injection hWaiting with hT hTail
      exact ⟨i, tail, rfl, hT, hTail⟩

theorem Places.release {released rest : List Token} {t : Token}
    (h : Places tokens n ⟨released, t :: rest⟩ out held) :
    ∃ out' held', Places tokens n ⟨t :: released, rest⟩ out' held' := by
  obtain ⟨i, tail, rfl, hT, hTail⟩ := h.top
  have hPerm : (out ++ i :: tail).Perm (i :: out ++ tail) := List.perm_middle
  refine ⟨i :: out, tail, ?_, hTail, hPerm.nodup_iff.1 h.nodup, ?_, ?_, ?_, ?_⟩
  · rw [List.map_cons, List.map_cons, hT, h.released]
  · intro j hMem
    exact h.lt j (hPerm.mem_iff.2 hMem)
  · intro j u hLt hU hWord
    exact hPerm.mem_iff.1 (h.mem j u hLt hU hWord)
  · intro j hMem
    exact h.apart j (List.mem_cons_of_mem _ hMem)
  · refine List.pairwise_cons.2 ⟨?_, h.operands⟩
    intro j _ hOperand
    exact absurd hOperand (h.apart i (List.mem_cons_self ..))

/-- A closing bracket is read and the opening one on top is dropped. -/
theorem Places.close {released rest : List Token}
    (h : Places tokens n ⟨released, .openBracket :: rest⟩ out held)
    (hT : tokens[n]? = some .closeBracket) :
    ∃ out' held', Places tokens (n + 1) ⟨released, rest⟩ out' held' := by
  obtain ⟨i, tail, rfl, hOpen, hTail⟩ := h.top
  have hSublist : (out ++ tail).Sublist (out ++ i :: tail) :=
    List.Sublist.append_left (List.sublist_cons_self i tail) out
  refine ⟨out, tail, h.released, hTail, h.nodup.sublist hSublist, ?_, ?_, ?_, h.operands⟩
  · intro j hMem
    exact Nat.lt_succ_of_lt (h.lt j (hSublist.subset hMem))
  · intro j u hLt hU hWord
    have hNotLast : j ≠ n := by
      rintro rfl
      rw [hT] at hU
      rw [← Option.some.inj hU] at hWord
      exact absurd hWord (by decide)
    have hNotTop : j ≠ i := by
      rintro rfl
      rw [hOpen] at hU
      rw [← Option.some.inj hU] at hWord
      exact absurd hWord (by decide)
    have hMem := h.mem j u (by omega) hU hWord
    simp only [List.mem_append, List.mem_cons, hNotTop, false_or] at hMem ⊢
    exact hMem
  · intro j hMem
    exact h.apart j (List.mem_cons_of_mem _ hMem)

end

/-! ## A whole run -/

/-- What has been read is the beginning of `tokens`, and the tokens on the stack have places. -/
def Placed (tokens read : List Token) (s : State) : Prop :=
  read <+: tokens → ∃ out held, Places tokens read.length s out held

/-- The token after the beginning that has been read. -/
theorem getElem?_of_prefix {tokens read : List Token} {t : Token} (h : read ++ [t] <+: tokens) :
    read <+: tokens ∧ tokens[read.length]? = some t := by
  obtain ⟨rest, rfl⟩ := h
  refine ⟨⟨[t] ++ rest, by rw [List.append_assoc]⟩, ?_⟩
  rw [List.append_assoc, List.getElem?_append_right (Nat.le_refl _), Nat.sub_self]
  rfl

theorem placed_kept (tokens : List Token) : Kept (Placed tokens) := by
  refine ⟨?_, ?_, ?_, ?_⟩
  · intro read s t h _ hPrefix
    obtain ⟨hRead, hT⟩ := getElem?_of_prefix hPrefix
    obtain ⟨out, held, hPlaces⟩ := h hRead
    rw [List.length_append]
    exact ⟨_, _, hPlaces.operand hT⟩
  · intro read s t h hOperand _ hPrefix
    obtain ⟨hRead, hT⟩ := getElem?_of_prefix hPrefix
    obtain ⟨out, held, hPlaces⟩ := h hRead
    rw [List.length_append]
    exact ⟨_, _, hPlaces.wait hT hOperand⟩
  · intro read out rest t h _ hPrefix
    obtain ⟨places, held, hPlaces⟩ := h hPrefix
    exact hPlaces.release
  · intro read out rest h hPrefix
    obtain ⟨hRead, hT⟩ := getElem?_of_prefix hPrefix
    obtain ⟨places, held, hPlaces⟩ := h hRead
    rw [List.length_append]
    exact hPlaces.close hT

/-- The listing of a formula is an arrangement of its tokens other than brackets. -/
theorem exists_arranges {tokens listing : List Token} (h : ofInfix tokens = .ok listing) :
    ∃ order, Arranges tokens listing order := by
  obtain ⟨s, hRun, -, rfl⟩ := exists_of_ofInfix h
  have hStart : Placed tokens [] ⟨[], []⟩ := fun _ => ⟨[], [], places_start tokens⟩
  obtain ⟨out, held, hPlaces⟩ := (placed_kept tokens).run hStart hRun (List.prefix_refl tokens)
  have hTokens : (out.reverse ++ held).map (tokens[·]?) =
      (s.released.reverse ++ s.waiting).map some := by
    rw [List.map_append, List.map_append, List.map_reverse, List.map_reverse, hPlaces.released,
      hPlaces.waiting]
  have hPerm : (out.reverse ++ held).Perm (out ++ held) :=
    (List.reverse_perm out).append_right held
  refine ⟨out.reverse ++ held, hTokens, hPerm.nodup_iff.2 hPlaces.nodup, ?_, ?_⟩
  · intro i
    constructor
    · intro hMem
      have hListed : tokens[i]? ∈ (s.released.reverse ++ s.waiting).map some := by
        rw [← hTokens]
        exact List.mem_map_of_mem hMem
      obtain ⟨t, hT, hSome⟩ := List.mem_map.1 hListed
      exact ⟨t, hSome.symm, isBracket_of_mem_ofInfix h t hT⟩
    · rintro ⟨t, hT, hWord⟩
      have hLt := (List.getElem?_eq_some_iff.1 hT).1
      exact hPerm.mem_iff.2 (hPlaces.mem i t hLt hT hWord)
  · refine List.pairwise_append.2 ⟨List.pairwise_reverse.2 hPlaces.operands, ?_, ?_⟩
    · refine List.pairwise_of_forall_mem_list ?_
      intro i _ j hMem hOperand
      exact absurd hOperand (hPlaces.apart j hMem)
    · intro i _ j hMem hOperand
      exact absurd hOperand (hPlaces.apart j hMem)

/-! ## The outcome -/

/-- A closing bracket without an opening one is what fails first, wherever it stands. -/
theorem ofInfix_unopened_iff {tokens : List Token} :
    ofInfix tokens = .error .unopenedBracket ↔
      ∃ first, first <+: tokens ∧ first.count .openBracket < first.count .closeBracket := by
  constructor
  · intro h
    rcases of_ofInfix_eq_error h with ⟨-, hFirst⟩ | ⟨hCause, -⟩
    · exact hFirst
    · exact absurd hCause (by decide)
  · rintro ⟨first, hPrefix, hMore⟩
    cases hRun : tokens.foldlM State.push ⟨[], []⟩ with
    | ok s =>
        have hLe := count_closeBracket_le hRun hPrefix
        omega
    | error cause =>
        obtain ⟨rfl, -⟩ := accounts_start.run_error tokens hRun
        unfold ofInfix
        rw [hRun]
        rfl

/-- An opening bracket without a closing one fails at the end. -/
theorem ofInfix_unclosed_iff {tokens : List Token} :
    ofInfix tokens = .error .unclosedBracket ↔
      (∀ first, first <+: tokens → first.count .closeBracket ≤ first.count .openBracket) ∧
        tokens.count .closeBracket < tokens.count .openBracket := by
  constructor
  · intro h
    rcases of_ofInfix_eq_error h with ⟨hCause, -⟩ | ⟨-, hMore⟩
    · exact absurd hCause (by decide)
    · refine ⟨?_, hMore⟩
      intro first hPrefix
      by_contra hNot
      have hUnopened := ofInfix_unopened_iff.2 ⟨first, hPrefix, Nat.lt_of_not_le hNot⟩
      rw [h] at hUnopened
      exact absurd hUnopened (by simp)
  · rintro ⟨hPrefixes, hMore⟩
    cases h : ofInfix tokens with
    | ok listing =>
        have hMatch := (bracketsMatch_of_ofInfix h).2
        omega
    | error cause =>
        rcases of_ofInfix_eq_error h with ⟨-, first, hPrefix, hFirst⟩ | ⟨rfl, -⟩
        · have hLe := hPrefixes first hPrefix
          omega
        · rfl

/-- Which error a code stands for, among those of putting tokens in post-order. -/
theorem failsWith_ofInfix_iff {tokens : List Token} {code : String} :
    FailsWith code (ofInfix tokens) ↔
      (code = "3001" ∧ ofInfix tokens = .error .unopenedBracket) ∨
        (code = "3002" ∧ ofInfix tokens = .error .unclosedBracket) := by
  constructor
  · rintro ⟨cause, h, rfl⟩
    rcases of_ofInfix_eq_error h with ⟨rfl, -⟩ | ⟨rfl, -⟩
    · exact Or.inl ⟨rfl, h⟩
    · exact Or.inr ⟨rfl, h⟩
  · rintro (⟨rfl, h⟩ | ⟨rfl, h⟩)
    · exact ⟨_, h, rfl⟩
    · exact ⟨_, h, rfl⟩

/--
The brackets alone decide whether tokens are put in post-order: error 3001 if at some place more
have been closed than opened, else error 3002 if not all are closed at the end, and otherwise the
listing arranges all other tokens.
-/
theorem brackets_decide_outcome (tokens : List Token) :
    (FailsWith "3001" (ofInfix tokens) ↔
      ∃ first, first <+: tokens ∧ first.count .openBracket < first.count .closeBracket) ∧
    (FailsWith "3002" (ofInfix tokens) ↔
      (∀ first, first <+: tokens → first.count .closeBracket ≤ first.count .openBracket) ∧
        tokens.count .closeBracket < tokens.count .openBracket) ∧
    (BracketsMatch tokens ↔
      ∃ listing order, ofInfix tokens = .ok listing ∧ Arranges tokens listing order) := by
  refine ⟨?_, ?_, ?_⟩
  · rw [failsWith_ofInfix_iff, ← ofInfix_unopened_iff]
    simp
  · rw [failsWith_ofInfix_iff, ← ofInfix_unclosed_iff]
    simp
  · constructor
    · intro hMatch
      obtain ⟨listing, h⟩ := exists_ofInfix_iff.2 hMatch
      obtain ⟨order, hOrder⟩ := exists_arranges h
      exact ⟨listing, order, h, hOrder⟩
    · rintro ⟨listing, order, h, -⟩
      exact bracketsMatch_of_ofInfix h

end DerivCalc.Token.PostOrder
