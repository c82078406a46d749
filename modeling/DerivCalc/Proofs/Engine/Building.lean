import DerivCalc.Engine
import DerivCalc.Proofs.Expr.Listing
import DerivCalc.Proofs.Token.Conservation

/-!
# What is built from a list of tokens

A list of tokens that lists an expression in post-order is built as the simplified form of that
expression, and no other list is built.  `pendingCount` counts operands and operators and so says,
without the expressions, how many operands are complete; `faultCode?` compares it with what the
next token takes.  The first token that takes too much decides the error.
-/

namespace DerivCalc

open Result (FailsWith)

/-- The token is an operator. -/
def Token.isOperator : Token → Bool
  | .op _ => true
  | _ => false

namespace Expr

open Token (isOperand isOperator)

/-! ## Faults -/

/-- The count of complete operands after the tokens: an operator makes one of two. -/
def pendingCount (tokens : List Token) : Nat :=
  tokens.countP isOperand - tokens.countP isOperator

/-- The code of what is wrong with a token that follows `count` complete operands. -/
def faultCode? (count : Nat) : Token → Option String
  | .number _ => none
  | .var => none
  | .func _ => if count = 0 then some "3004" else none
  | .op _ => if count < 2 then some "3003" else none
  | .openBracket => some "3005"
  | .closeBracket => some "3005"

/-- No token is wrong where it stands. -/
def Faultless (tokens : List Token) : Prop :=
  ∀ first t rest, tokens = first ++ t :: rest → faultCode? (pendingCount first) t = none

/-- The first token that is wrong where it stands, and the code of what is wrong with it. -/
def FirstFault (tokens : List Token) (code : String) : Prop :=
  ∃ first t rest, tokens = first ++ t :: rest ∧ Faultless first ∧
    faultCode? (pendingCount first) t = some code

theorem faultless_nil : Faultless [] := by
  intro first t rest hSplit
  exact absurd hSplit (by simp)

theorem Faultless.concat {tokens : List Token} {t : Token} (h : Faultless tokens)
    (hT : faultCode? (pendingCount tokens) t = none) : Faultless (tokens ++ [t]) := by
  intro first u rest hSplit
  rcases List.eq_nil_or_concat rest with rfl | ⟨rest, last, rfl⟩
  · obtain ⟨rfl, hLast⟩ := List.append_inj' hSplit rfl
    obtain rfl := List.head_eq_of_cons_eq hLast
    exact hT
  · rw [List.concat_eq_append, ← List.cons_append, ← List.append_assoc] at hSplit
    exact h first u rest (List.append_inj' hSplit rfl).1

theorem Faultless.first {first rest : List Token} (h : Faultless (first ++ rest)) :
    Faultless first := by
  rintro before t after rfl
  exact h before t (after ++ rest) (by rw [List.append_assoc, List.cons_append])

/-! ## One step -/

section

variable {operands result : List Expr} {t : Token}

/-- A token is taken in iff it is not wrong after the operands on the stack. -/
theorem failsWith_push_iff {code : String} :
    FailsWith code (push operands t) ↔ faultCode? operands.length t = some code := by
  cases t with
  | func f => cases operands <;> simp [FailsWith, push, faultCode?, Error.code]
  | op o =>
      rcases operands with _ | ⟨right, _ | ⟨left, rest⟩⟩
      · simp [FailsWith, push, faultCode?, Error.code]
      · simp [FailsWith, push, faultCode?, Error.code]
      · have hTwo : ¬ (right :: left :: rest).length < 2 := by simp
        unfold faultCode?
        rw [if_neg hTwo]
        simp [FailsWith, push]
  | _ => simp [FailsWith, push, faultCode?, Error.code]

theorem faultCode?_of_push (h : push operands t = .ok result) :
    faultCode? operands.length t = none := by
  cases hCode : faultCode? operands.length t with
  | none => rfl
  | some code =>
      obtain ⟨cause, hError, -⟩ := failsWith_push_iff.2 hCode
      rw [h] at hError
      exact absurd hError (by simp)

/-- An operand adds one to the stack, an operator takes one away, a function neither. -/
theorem length_push (h : push operands t = .ok result) :
    result.length + [t].countP isOperator = operands.length + [t].countP isOperand := by
  cases t with
  | number v => rw [← Except.ok.inj h]; rfl
  | var => rw [← Except.ok.inj h]; rfl
  | func f =>
      cases operands with
      | nil => exact absurd h (by simp [push])
      | cons arg rest => rw [← Except.ok.inj h]; rfl
  | op o =>
      rcases operands with _ | ⟨right, _ | ⟨left, rest⟩⟩
      · exact absurd h (by simp [push])
      · exact absurd h (by simp [push])
      · rw [← Except.ok.inj h]; rfl
  | openBracket => exact absurd h (by simp [push])
  | closeBracket => exact absurd h (by simp [push])

end

/-! ## A whole run -/

section

variable {tokens : List Token}

/-- After a run, no token was wrong and the stack holds the operands that are counted. -/
structure Counted (read : List Token) (operands : List Expr) : Prop where
  faultless : Faultless read
  length : operands.length + read.countP isOperator = read.countP isOperand

theorem Counted.pendingCount_eq {read : List Token} {operands : List Expr}
    (h : Counted read operands) : pendingCount read = operands.length := by
  have hLength := h.length
  unfold pendingCount
  omega

theorem Counted.push {read : List Token} {operands result : List Expr} {t : Token}
    (h : Counted read operands) (hPush : push operands t = .ok result) :
    Counted (read ++ [t]) result := by
  refine ⟨h.faultless.concat ?_, ?_⟩
  · rw [h.pendingCount_eq]
    exact faultCode?_of_push hPush
  · have hStep := length_push hPush
    have hLength := h.length
    rw [List.countP_append, List.countP_append]
    omega

theorem counted_run {operands : List Expr} (hRun : tokens.foldlM push [] = .ok operands) :
    Counted tokens operands := by
  have hStart : Counted [] [] := ⟨faultless_nil, rfl⟩
  exact Result.foldlM_invariant Counted.push tokens hStart hRun

/-- A run fails at its first fault. -/
theorem firstFault_of_run {cause : Error} (h : tokens.foldlM push [] = .error cause) :
    FirstFault tokens cause.code := by
  obtain ⟨first, t, rest, operands, rfl, hFirst, hPush⟩ := Result.split_of_foldlM_eq_error h
  have hCounted := counted_run hFirst
  refine ⟨first, t, rest, rfl, hCounted.faultless, ?_⟩
  rw [hCounted.pendingCount_eq]
  exact failsWith_push_iff.1 ⟨cause, hPush, rfl⟩

theorem exists_run_of_faultless (h : Faultless tokens) :
    ∃ operands, tokens.foldlM push [] = .ok operands := by
  cases hRun : tokens.foldlM push [] with
  | ok operands => exact ⟨operands, rfl⟩
  | error cause =>
      obtain ⟨first, t, rest, hSplit, -, hFault⟩ := firstFault_of_run hRun
      rw [h first t rest hSplit] at hFault
      exact absurd hFault (by simp)

theorem failsWith_of_firstFault {code : String} (h : FirstFault tokens code) :
    FailsWith code (tokens.foldlM push []) := by
  obtain ⟨first, t, rest, rfl, hFaultless, hFault⟩ := h
  obtain ⟨operands, hFirst⟩ := exists_run_of_faultless hFaultless
  rw [(counted_run hFirst).pendingCount_eq] at hFault
  obtain ⟨cause, hPush, hCode⟩ := failsWith_push_iff.2 hFault
  refine ⟨cause, ?_, hCode⟩
  rw [List.foldlM_append, hFirst]
  show push operands t >>= _ = _
  rw [hPush]
  rfl

end

/-! ## Exactly one expression -/

/-- The tokens list the expression, none of whose nodes is settled. -/
structure Lists (tokens : List Token) (e : Expr) : Prop where
  postOrder_eq : tokens = e.postOrder
  fresh : e.unsettled = e

theorem lists_iff {tokens : List Token} {e : Expr} :
    Lists tokens e ↔ ofPostOrder tokens = .ok e := by
  rw [ofPostOrder_eq_ok_iff]
  exact ⟨fun h => ⟨h.postOrder_eq, h.fresh⟩, fun h => ⟨h.1, h.2⟩⟩

/-- Tokens list at most one expression. -/
theorem Lists.unique {tokens : List Token} {e e' : Expr} (h : Lists tokens e)
    (h' : Lists tokens e') : e' = e := by
  have hSame := lists_iff.1 h
  rw [lists_iff.1 h'] at hSame
  exact Except.ok.inj hSame

/-- What a run without a fault leaves decides whether an expression is read. -/
theorem failsWith_of_run {tokens : List Token} {operands : List Expr} {code : String}
    (hRun : tokens.foldlM push [] = .ok operands) :
    FailsWith code (ofPostOrder tokens) ↔
      (tokens = [] ∧ code = "3006") ∨ (2 ≤ pendingCount tokens ∧ code = "3005") := by
  have hCount := (counted_run hRun).pendingCount_eq
  have hSpells := (spells_nil.run hRun).listings
  unfold ofPostOrder
  rw [hRun, hCount]
  rcases operands with _ | ⟨e, _ | ⟨e', rest⟩⟩
  · obtain rfl : tokens = [] := hSpells.symm
    simp [FailsWith, bind, Except.bind, throw, throwThe, MonadExceptOf.throw, Error.code, eq_comm]
  · have hNe : tokens ≠ [] := by
      rintro rfl
      exact absurd (Except.ok.inj hRun) (by simp)
    simp [FailsWith, bind, Except.bind, pure, Except.pure, hNe]
  · have hNe : tokens ≠ [] := by
      rintro rfl
      exact absurd (Except.ok.inj hRun) (by simp)
    have hTwo : 2 ≤ (e :: e' :: rest).length := by simp
    simp only [hNe, hTwo, false_and, true_and, false_or]
    simp [FailsWith, bind, Except.bind, throw, throwThe, MonadExceptOf.throw, Error.code, eq_comm]

/-- The first fault decides the error; without a fault it is the count of operands left over. -/
theorem failsWith_ofPostOrder_iff {tokens : List Token} {code : String} :
    FailsWith code (ofPostOrder tokens) ↔
      FirstFault tokens code ∨ Faultless tokens ∧
        ((tokens = [] ∧ code = "3006") ∨ (2 ≤ pendingCount tokens ∧ code = "3005")) := by
  cases hRun : tokens.foldlM push [] with
  | ok operands =>
      have hFaultless := (counted_run hRun).faultless
      have hNone : ¬ FirstFault tokens code := by
        rintro ⟨first, t, rest, hSplit, -, hFault⟩
        rw [hFaultless first t rest hSplit] at hFault
        exact absurd hFault (by simp)
      rw [failsWith_of_run hRun]
      simp [hNone, hFaultless]
  | error cause =>
      have hFault := firstFault_of_run hRun
      have hNot : ¬ Faultless tokens := by
        intro hFaultless
        obtain ⟨operands, hOk⟩ := exists_run_of_faultless hFaultless
        rw [hRun] at hOk
        exact absurd hOk (by simp)
      have hRead : ofPostOrder tokens = .error cause := by
        unfold ofPostOrder
        rw [hRun]
        rfl
      simp only [hNot, false_and, or_false, FailsWith, hRead, Except.error.injEq,
        exists_eq_left']
      constructor
      · rintro rfl
        exact hFault
      · intro hCode
        obtain ⟨cause', hError, rfl⟩ := failsWith_of_firstFault hCode
        rw [hRun] at hError
        rw [Except.error.inj hError]

end Expr

namespace Engine

open DerivCalc.Expr

variable [Elementary]

/--
A list of tokens is built iff it lists an expression in post-order, as the simplified form of this
expression, the only one that it lists.  Otherwise the first token that finds too few operands, or
is a bracket, decides the error; if there is none, nothing has been listed or too much.
-/
theorem build_inverts_listing (tokens : List Token) :
    (∀ result, build tokens = .ok result ↔
      ∃ e, Lists tokens e ∧ (∀ e', Lists tokens e' → e' = e) ∧ result = e.simplify) ∧
    ∀ code, FailsWith code (build tokens) ↔
      FirstFault tokens code ∨ Faultless tokens ∧
        ((tokens = [] ∧ code = "3006") ∨ (2 ≤ pendingCount tokens ∧ code = "3005")) := by
  refine ⟨?_, ?_⟩
  · intro result
    constructor
    · intro hBuild
      obtain ⟨e, hRead, hResult⟩ := Result.bind_eq_ok_iff.1 hBuild
      have hLists := lists_iff.2 hRead
      exact ⟨e, hLists, fun e' h' => hLists.unique h', (Except.ok.inj hResult).symm⟩
    · rintro ⟨e, hLists, -, rfl⟩
      exact Result.bind_eq_ok_iff.2 ⟨e, lists_iff.1 hLists, rfl⟩
  · intro code
    rw [← failsWith_ofPostOrder_iff]
    unfold build
    cases ofPostOrder tokens with
    | ok e => simp [FailsWith, bind, Except.bind, pure, Except.pure]
    | error cause => rfl

end Engine

end DerivCalc
