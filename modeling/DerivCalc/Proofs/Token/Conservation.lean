import DerivCalc.Proofs.Result
import DerivCalc.Token.PostOrder
import Mathlib.Data.List.Perm.Basic
import Mathlib.Data.List.TakeWhile

/-!
# No token is lost or made up on the way to post-order

Every step of the stack is made of four moves, and what is `Kept` by these holds along a whole
run.  One such statement is `Accounts read s`, about the tokens read so far: those that are no
brackets have come out or wait, operands have come out in their order, and the opening
brackets that wait are those not closed yet.  So a formula that is put in post-order has
matching brackets, and its listing holds its other tokens.
-/

namespace DerivCalc.Token

/-- The token is a number or the variable. -/
def isOperand : Token → Bool
  | number _ => true
  | var => true
  | _ => false

/-- The token is a bracket. -/
def isBracket : Token → Bool
  | openBracket => true
  | closeBracket => true
  | _ => false

theorem ne_of_isBracket {t : Token} (h : t.isBracket = false) :
    t ≠ .openBracket ∧ t ≠ .closeBracket := by
  refine ⟨?_, ?_⟩
  · rintro rfl
    exact absurd h (by decide)
  · rintro rfl
    exact absurd h (by decide)

theorem isBracket_of_isOperand {t : Token} (h : t.isOperand = true) : t.isBracket = false := by
  cases t with
  | openBracket => exact absurd h (by decide)
  | closeBracket => exact absurd h (by decide)
  | _ => rfl

/-- No bracket is closed before it is opened, and all are closed. -/
def BracketsMatch (tokens : List Token) : Prop :=
  (∀ first, first <+: tokens → first.count .closeBracket ≤ first.count .openBracket) ∧
    tokens.count .openBracket = tokens.count .closeBracket

namespace PostOrder

/-! ## What every step keeps up -/

/--
A statement about the tokens read so far and the stack that is kept up by the four moves
which steps are made of: an operand comes out, another token waits, the topmost token that waits
comes out, and an opening bracket is dropped for a closing one.
-/
structure Kept (Inv : List Token → State → Prop) : Prop where
  operand : ∀ {read : List Token} {s : State} {t : Token}, Inv read s → t.isOperand = true →
    Inv (read ++ [t]) ⟨t :: s.released, s.waiting⟩
  wait : ∀ {read : List Token} {s : State} {t : Token}, Inv read s → t.isOperand = false →
    t ≠ .closeBracket → Inv (read ++ [t]) ⟨s.released, t :: s.waiting⟩
  release : ∀ {read out rest : List Token} {t : Token}, Inv read ⟨out, t :: rest⟩ →
    t ≠ .openBracket → Inv read ⟨t :: out, rest⟩
  close : ∀ {read out rest : List Token}, Inv read ⟨out, .openBracket :: rest⟩ →
    Inv (read ++ [.closeBracket]) ⟨out, rest⟩

section

variable {Inv : List Token → State → Prop} {read tokens : List Token} {s s' : State}

/-- Tokens other than opening brackets come out one after the other. -/
theorem Kept.releaseWhile (hKept : Kept Inv) {p : Token → Bool} (hP : p .openBracket = false)
    (waiting : List Token) : ∀ out, Inv read ⟨out, waiting⟩ →
      Inv read (State.releaseWhile p ⟨out, waiting⟩) := by
  induction waiting with
  | nil =>
      intro out h
      exact h
  | cons t rest ih =>
      intro out h
      unfold State.releaseWhile
      by_cases hT : p t = true
      · have hNe : t ≠ .openBracket := by
          rintro rfl
          exact absurd hT (by simp [hP])
        have hNext := ih (t :: out) (hKept.release h hNe)
        unfold State.releaseWhile at hNext
        simp only [List.takeWhile_cons, List.dropWhile_cons, hT, if_true, List.reverse_cons,
          List.append_assoc, List.singleton_append]
        exact hNext
      · simp only [List.takeWhile_cons, List.dropWhile_cons, hT]
        exact h

/-- A closing bracket drops the opening bracket and releases the function before it. -/
theorem Kept.closeGroup (hKept : Kept Inv) (h : Inv read s)
    (hTop : ∀ t, s.waiting.head? = some t → t = .openBracket) (hClose : s.closeGroup = .ok s') :
    Inv (read ++ [.closeBracket]) s' := by
  obtain ⟨out, waiting⟩ := s
  cases waiting with
  | nil => exact absurd hClose (by simp [State.closeGroup])
  | cons top rest =>
      obtain rfl := hTop top rfl
      have hRest := hKept.close h
      cases rest with
      | nil =>
          rw [← Except.ok.inj hClose]
          exact hRest
      | cons t rest =>
          cases t with
          | func f =>
              rw [← Except.ok.inj hClose]
              exact hKept.release hRest (by simp)
          | _ =>
              rw [← Except.ok.inj hClose]
              exact hRest

/-- The first token that is left over by a release does not satisfy the condition. -/
theorem head_dropWhile {p : Token → Bool} (waiting : List Token) :
    ∀ t, (waiting.dropWhile p).head? = some t → p t = false := by
  intro t hHead
  have hNot := List.head?_dropWhile_not p waiting
  rw [hHead] at hNot
  exact hNot

/-- A step is made of the four moves. -/
theorem Kept.push (hKept : Kept Inv) {t : Token} (h : Inv read s) (hPush : s.push t = .ok s') :
    Inv (read ++ [t]) s' := by
  cases t with
  | number v =>
      rw [← Except.ok.inj hPush]
      exact hKept.operand h rfl
  | var =>
      rw [← Except.ok.inj hPush]
      exact hKept.operand h rfl
  | func f =>
      rw [← Except.ok.inj hPush]
      exact hKept.wait h rfl (by simp)
  | openBracket =>
      rw [← Except.ok.inj hPush]
      exact hKept.wait h rfl (by simp)
  | op o =>
      rw [← Except.ok.inj hPush]
      have hReleased := hKept.releaseWhile (p := (appliesBefore · o)) rfl s.waiting s.released h
      exact hKept.wait hReleased rfl (by simp)
  | closeBracket =>
      have hReleased := hKept.releaseWhile (p := (· ≠ .openBracket)) rfl s.waiting s.released h
      refine hKept.closeGroup hReleased ?_ hPush
      intro t hHead
      have hNot := head_dropWhile s.waiting t hHead
      simpa using hNot

theorem Kept.run (hKept : Kept Inv) (h : Inv read s)
    (hRun : tokens.foldlM State.push s = .ok s') : Inv (read ++ tokens) s' :=
  Result.foldlM_invariant hKept.push tokens h hRun

end

/-! ## The accounts -/

/-- Where the tokens that have been read are. -/
structure Accounts (read : List Token) (s : State) : Prop where
  words : ∀ t, t.isBracket = false → s.released.count t + s.waiting.count t = read.count t
  operands : s.released.reverse.filter isOperand = read.filter isOperand
  brackets : s.waiting.count .openBracket + read.count .closeBracket = read.count .openBracket
  released_words : ∀ t ∈ s.released, t.isBracket = false
  waiting_apart : ∀ t ∈ s.waiting, t.isOperand = false ∧ t ≠ .closeBracket

theorem accounts_start : Accounts [] ⟨[], []⟩ := by
  refine ⟨?_, rfl, rfl, ?_, ?_⟩
  · intro t _
    rfl
  · intro t hMem
    exact absurd hMem (by simp)
  · intro t hMem
    exact absurd hMem (by simp)

section

variable {read : List Token} {s s' : State}

/-- An operand comes out at once. -/
theorem Accounts.operand (h : Accounts read s) {t : Token} (hT : t.isOperand = true) :
    Accounts (read ++ [t]) ⟨t :: s.released, s.waiting⟩ := by
  have hWord := isBracket_of_isOperand hT
  have hNe := ne_of_isBracket hWord
  refine ⟨?_, ?_, ?_, ?_, h.waiting_apart⟩
  · intro u hU
    have hWords := h.words u hU
    simp only [List.count_append, List.count_cons, List.count_nil]
    omega
  · show (t :: s.released).reverse.filter isOperand = _
    rw [List.reverse_cons, List.filter_append, h.operands, List.filter_append]
  · have hBrackets := h.brackets
    simp only [List.count_append, List.count_singleton, beq_iff_eq, hNe.1, hNe.2, if_false]
    omega
  · intro u hMem
    rcases List.mem_cons.1 hMem with rfl | hMem
    · exact hWord
    · exact h.released_words u hMem

/-- An operator, a function or an opening bracket waits. -/
theorem Accounts.wait (h : Accounts read s) {t : Token} (hT : t.isOperand = false)
    (hClose : t ≠ .closeBracket) : Accounts (read ++ [t]) ⟨s.released, t :: s.waiting⟩ := by
  refine ⟨?_, ?_, ?_, h.released_words, ?_⟩
  · intro u hU
    have hWords := h.words u hU
    simp only [List.count_append, List.count_cons, List.count_nil]
    omega
  · have hNone : [t].filter isOperand = [] := by simp [hT]
    rw [List.filter_append, hNone, List.append_nil, h.operands]
  · have hBrackets := h.brackets
    simp only [List.count_append, List.count_cons, List.count_nil, beq_iff_eq, hClose, if_false]
    omega
  · intro u hMem
    rcases List.mem_cons.1 hMem with rfl | hMem
    · exact ⟨hT, hClose⟩
    · exact h.waiting_apart u hMem

/-- The topmost token that waits comes out. -/
theorem Accounts.release {t : Token} {out rest : List Token}
    (h : Accounts read ⟨out, t :: rest⟩) (hT : t ≠ .openBracket) :
    Accounts read ⟨t :: out, rest⟩ := by
  obtain ⟨hOperand, hClose⟩ := h.waiting_apart t (List.mem_cons_self ..)
  refine ⟨?_, ?_, ?_, ?_, ?_⟩
  · intro u hU
    have hWords := h.words u hU
    simp only [List.count_cons] at hWords ⊢
    omega
  · have hNone : [t].filter isOperand = [] := by simp [hOperand]
    rw [List.reverse_cons, List.filter_append, hNone, List.append_nil]
    exact h.operands
  · have hBrackets := h.brackets
    simp only [List.count_cons, beq_iff_eq, hT, if_false] at hBrackets
    exact hBrackets
  · intro u hMem
    rcases List.mem_cons.1 hMem with rfl | hMem
    · cases u with
      | openBracket => exact absurd rfl hT
      | closeBracket => exact absurd rfl hClose
      | _ => rfl
    · exact h.released_words u hMem
  · intro u hMem
    exact h.waiting_apart u (List.mem_cons_of_mem _ hMem)

/-- The opening bracket that waits on top is dropped for the closing bracket that is read. -/
theorem Accounts.close {out rest : List Token} (h : Accounts read ⟨out, .openBracket :: rest⟩) :
    Accounts (read ++ [.closeBracket]) ⟨out, rest⟩ := by
  refine ⟨?_, ?_, ?_, h.released_words, ?_⟩
  · intro u hU
    have hWords := h.words u hU
    have hNe := ne_of_isBracket hU
    simp only [List.count_append, List.count_cons, List.count_nil, beq_iff_eq, hNe.1.symm,
      hNe.2.symm, if_false] at hWords ⊢
    omega
  · rw [List.filter_append, ← h.operands]
    exact (List.append_nil _).symm
  · have hBrackets := h.brackets
    have hOpen : (read ++ [Token.closeBracket]).count .openBracket = read.count .openBracket := by
      simp
    have hClose : (read ++ [Token.closeBracket]).count .closeBracket =
        read.count .closeBracket + 1 := by
      simp
    rw [List.count_cons_self] at hBrackets
    show rest.count .openBracket + _ = _
    omega
  · intro u hMem
    exact h.waiting_apart u (List.mem_cons_of_mem _ hMem)

theorem accounts_kept : Kept Accounts := by
  refine ⟨?_, ?_, ?_, ?_⟩
  · intro read s t h hT
    exact h.operand hT
  · intro read s t h hT hClose
    exact h.wait hT hClose
  · intro read out rest t h hT
    exact h.release hT
  · intro read out rest h
    exact h.close

/-- Every step accounts for the token that it takes in. -/
theorem Accounts.push {t : Token} (h : Accounts read s) (hPush : s.push t = .ok s') :
    Accounts (read ++ [t]) s' :=
  accounts_kept.push h hPush

end

/-! ## A whole run -/

/-- A run accounts for all the tokens that it takes in. -/
theorem Accounts.run {read tokens : List Token} {s s' : State} (h : Accounts read s)
    (hRun : tokens.foldlM State.push s = .ok s') : Accounts (read ++ tokens) s' :=
  accounts_kept.run h hRun

/-- The tokens that are no brackets have come out or wait. -/
theorem Accounts.perm {read : List Token} {s : State} (h : Accounts read s) :
    (s.released ++ s.waiting.filter (!·.isBracket)).Perm (read.filter (!·.isBracket)) := by
  refine List.perm_iff_count.2 ?_
  intro t
  by_cases hBracket : t.isBracket = true
  · have hReleased : t ∉ s.released := by
      intro hMem
      rw [h.released_words t hMem] at hBracket
      exact absurd hBracket (by decide)
    have hFilter : ∀ tokens : List Token, t ∉ tokens.filter (!·.isBracket) := by
      intro tokens
      simp [hBracket]
    rw [List.count_append, List.count_eq_zero.2 hReleased, List.count_eq_zero.2 (hFilter _),
      List.count_eq_zero.2 (hFilter _)]
  · have hWords := h.words t (Bool.eq_false_iff.2 hBracket)
    rw [List.count_append, List.count_filter (by simp [hBracket]),
      List.count_filter (by simp [hBracket])]
    exact hWords

theorem Accounts.length_released {read : List Token} {s : State} (h : Accounts read s) :
    s.released.length + s.waiting.countP (!·.isBracket) = read.countP (!·.isBracket) := by
  have hLength := h.perm.length_eq
  rw [List.length_append, ← List.countP_eq_length_filter, ← List.countP_eq_length_filter] at hLength
  exact hLength

/-- Along a run no bracket is closed before it is opened. -/
theorem count_closeBracket_le {tokens first : List Token} {s : State}
    (hRun : tokens.foldlM State.push ⟨[], []⟩ = .ok s) (hPrefix : first <+: tokens) :
    first.count .closeBracket ≤ first.count .openBracket := by
  obtain ⟨rest, rfl⟩ := hPrefix
  rw [List.foldlM_append] at hRun
  obtain ⟨s₁, hFirst, -⟩ := Result.bind_eq_ok_iff.1 hRun
  have hBrackets := (accounts_start.run hFirst).brackets
  rw [List.nil_append] at hBrackets
  omega

/-- The stack at the end of a formula that is put in post-order. -/
theorem exists_of_ofInfix {tokens listing : List Token} (h : ofInfix tokens = .ok listing) :
    ∃ s, tokens.foldlM State.push ⟨[], []⟩ = .ok s ∧ Token.openBracket ∉ s.waiting ∧
      listing = s.released.reverse ++ s.waiting := by
  obtain ⟨s, hRun, hFinish⟩ := Result.bind_eq_ok_iff.1 h
  refine ⟨s, hRun, ?_⟩
  unfold State.finish at hFinish
  by_cases hContains : s.waiting.contains .openBracket = true
  · rw [if_pos hContains] at hFinish
    exact absurd hFinish (by simp)
  · rw [if_neg hContains] at hFinish
    rw [List.contains_iff_mem] at hContains
    exact ⟨hContains, (Except.ok.inj hFinish).symm⟩

/-- A formula that is put in post-order has matching brackets. -/
theorem bracketsMatch_of_ofInfix {tokens listing : List Token} (h : ofInfix tokens = .ok listing) :
    BracketsMatch tokens := by
  obtain ⟨s, hRun, hNone, -⟩ := exists_of_ofInfix h
  refine ⟨fun first hPrefix => count_closeBracket_le hRun hPrefix, ?_⟩
  have hBrackets := (accounts_start.run hRun).brackets
  rw [List.nil_append, List.count_eq_zero.2 hNone] at hBrackets
  omega

/-- The operands of a formula stand in its listing in the same order. -/
theorem filter_isOperand_of_ofInfix {tokens listing : List Token}
    (h : ofInfix tokens = .ok listing) : listing.filter isOperand = tokens.filter isOperand := by
  obtain ⟨s, hRun, -, rfl⟩ := exists_of_ofInfix h
  have hAccounts := accounts_start.run hRun
  have hWaiting : s.waiting.filter isOperand = [] := by
    refine List.filter_eq_nil_iff.2 ?_
    intro t hMem
    rw [(hAccounts.waiting_apart t hMem).1]
    decide
  rw [List.filter_append, hWaiting, List.append_nil]
  exact hAccounts.operands

/-- No bracket gets into a listing. -/
theorem isBracket_of_mem_ofInfix {tokens listing : List Token}
    (h : ofInfix tokens = .ok listing) : ∀ t ∈ listing, t.isBracket = false := by
  obtain ⟨s, hRun, hNone, rfl⟩ := exists_of_ofInfix h
  have hAccounts := accounts_start.run hRun
  intro t hMem
  rcases List.mem_append.1 hMem with hMem | hMem
  · exact hAccounts.released_words t (List.mem_reverse.1 hMem)
  · cases t with
    | openBracket => exact absurd hMem hNone
    | closeBracket => exact absurd rfl (hAccounts.waiting_apart _ hMem).2
    | _ => rfl

/-- The listing of a formula holds its tokens except the brackets, each as often. -/
theorem perm_of_ofInfix {tokens listing : List Token} (h : ofInfix tokens = .ok listing) :
    listing.Perm (tokens.filter (!·.isBracket)) := by
  have hBracket := isBracket_of_mem_ofInfix h
  obtain ⟨s, hRun, -, rfl⟩ := exists_of_ofInfix h
  have hAll := (accounts_start.run hRun).perm
  rw [List.filter_eq_self.2 fun t hMem => by simp [hBracket t (List.mem_append_right _ hMem)],
    List.nil_append] at hAll
  exact ((List.reverse_perm _).append_right _).trans hAll

/-! ## Failures -/

/-- Only a closing bracket without an opening one fails. -/
theorem Accounts.push_error {read : List Token} {s : State} {t : Token} {cause : Error}
    (h : Accounts read s) (hPush : s.push t = .error cause) :
    cause = .unopenedBracket ∧ t = .closeBracket ∧
      read.count .openBracket = read.count .closeBracket := by
  cases t with
  | closeBracket =>
      change (s.releaseWhile (· ≠ .openBracket)).closeGroup = .error cause at hPush
      unfold State.closeGroup at hPush
      split at hPush
      · rename_i hEmpty
        refine ⟨(Except.error.inj hPush).symm, rfl, ?_⟩
        have hNone : s.waiting.count .openBracket = 0 := by
          refine List.count_eq_zero.2 ?_
          intro hMem
          have hReleased := List.dropWhile_eq_nil_iff.1 hEmpty _ hMem
          exact absurd hReleased (by decide)
        have hBrackets := h.brackets
        omega
      · exact absurd hPush (by simp)
      · exact absurd hPush (by simp)
  | _ => exact absurd hPush (by simp [State.push])

/-- A run that fails has met more closing than opening brackets. -/
theorem Accounts.run_error (tokens : List Token) {cause : Error} :
    ∀ {read : List Token} {s : State}, Accounts read s →
      tokens.foldlM State.push s = .error cause → cause = .unopenedBracket ∧
        ∃ first, first <+: tokens ∧
          (read ++ first).count .openBracket < (read ++ first).count .closeBracket := by
  induction tokens with
  | nil =>
      intro read s _ hRun
      exact absurd hRun (by simp [pure, Except.pure])
  | cons t rest ih =>
      intro read s h hRun
      rcases Result.bind_eq_error_iff.1 hRun with hPush | ⟨s₁, hPush, hRest⟩
      · obtain ⟨hCause, rfl, hEqual⟩ := h.push_error hPush
        refine ⟨hCause, [.closeBracket], ⟨rest, rfl⟩, ?_⟩
        simp only [List.count_append, List.count_cons_self, List.count_nil]
        rw [List.count_cons_of_ne (by decide), List.count_nil]
        omega
      · obtain ⟨hCause, first, hPrefix, hMore⟩ := ih (h.push hPush) hRest
        refine ⟨hCause, t :: first, List.cons_prefix_cons.2 ⟨rfl, hPrefix⟩, ?_⟩
        rw [List.append_assoc] at hMore
        exact hMore

/-- A formula that is not put in post-order has a bracket without its counterpart. -/
theorem of_ofInfix_eq_error {tokens : List Token} {cause : Error}
    (h : ofInfix tokens = .error cause) :
    (cause = .unopenedBracket ∧ ∃ first, first <+: tokens ∧
      first.count .openBracket < first.count .closeBracket) ∨
    (cause = .unclosedBracket ∧ tokens.count .closeBracket < tokens.count .openBracket) := by
  rcases Result.bind_eq_error_iff.1 h with hRun | ⟨s, hRun, hFinish⟩
  · exact Or.inl (accounts_start.run_error tokens hRun)
  · refine Or.inr ?_
    unfold State.finish at hFinish
    by_cases hContains : s.waiting.contains .openBracket = true
    · rw [if_pos hContains] at hFinish
      refine ⟨(Except.error.inj hFinish).symm, ?_⟩
      have hOpen := List.count_pos_iff.2 (List.contains_iff_mem.1 hContains)
      have hBrackets := (accounts_start.run hRun).brackets
      rw [List.nil_append] at hBrackets
      omega
    · rw [if_neg hContains] at hFinish
      exact absurd hFinish (by simp)

/-- Exactly the formulas with matching brackets are put in post-order. -/
theorem exists_ofInfix_iff {tokens : List Token} :
    (∃ listing, ofInfix tokens = .ok listing) ↔ BracketsMatch tokens := by
  constructor
  · rintro ⟨listing, h⟩
    exact bracketsMatch_of_ofInfix h
  · rintro ⟨hPrefixes, hEqual⟩
    cases h : ofInfix tokens with
    | ok listing => exact ⟨listing, rfl⟩
    | error cause =>
        rcases of_ofInfix_eq_error h with ⟨-, first, hPrefix, hMore⟩ | ⟨-, hMore⟩
        · have hLe := hPrefixes first hPrefix
          omega
        · omega

end PostOrder

end DerivCalc.Token
