import DerivCalc.Proofs.Expr.Reading
import DerivCalc.Proofs.Token.Conservation

/-!
# An operation without its brackets

On a stack that interferes with it, an operation is not read as one piece: the operators that
are to be applied before its own are released ahead of its right operand, or its own one
waits beyond its end.  Either way the count of tokens that wait is another one when the
next operand comes out, so the operands stand at different places of the two listings.
-/

namespace DerivCalc.Expr

open Token.PostOrder

/-! ## Listings with operands at different places -/

section

variable {before before' after after' : List Token} {t t' : Token}

theorem map_isOperand_ne_of_lt (hT : t.isOperand = true)
    (hOperands : before.countP Token.isOperand = before'.countP Token.isOperand)
    (hLength : before.length < before'.length) :
    (before ++ t :: after).map Token.isOperand ≠ (before' ++ t' :: after').map Token.isOperand := by
  intro hEq
  -- up to its operand the shorter front holds one operand more than the longer one
  have hTake := congrArg (fun marks => (marks.take (before.length + 1)).countP id) hEq
  have hShort : ((before ++ t :: after).map Token.isOperand).take (before.length + 1) =
      before.map Token.isOperand ++ [true] := by
    rw [List.map_append, List.map_cons, hT, List.take_append, List.length_map]
    simp
  have hLong : ((before' ++ t' :: after').map Token.isOperand).take (before.length + 1) =
      (before'.map Token.isOperand).take (before.length + 1) := by
    rw [List.map_append, List.take_append_of_le_length]
    rw [List.length_map]
    omega
  have hMarks : ∀ tokens : List Token,
      (tokens.map Token.isOperand).countP id = tokens.countP Token.isOperand :=
    fun tokens => List.countP_map ..
  have hLe := (List.take_sublist (before.length + 1) (before'.map Token.isOperand)).countP_le
    (p := id)
  simp only [hShort, hLong, List.countP_append, hMarks] at hTake hLe
  have hOne : [true].countP id = 1 := rfl
  omega

/-- Operands behind as many operands, but not behind as many tokens, stand at different places. -/
theorem map_isOperand_ne (hT : t.isOperand = true) (hT' : t'.isOperand = true)
    (hOperands : before.countP Token.isOperand = before'.countP Token.isOperand)
    (hLength : before.length ≠ before'.length) :
    (before ++ t :: after).map Token.isOperand ≠ (before' ++ t' :: after').map Token.isOperand := by
  rcases Nat.lt_or_gt_of_ne hLength with hLt | hGt
  · exact map_isOperand_ne_of_lt hT hOperands hLt
  · exact (map_isOperand_ne_of_lt hT' hOperands.symm hGt).symm

end

/-! ## The next operand -/

/-- Nothing but opening brackets and functions comes before the next operand. -/
inductive OperandNext : List Token → Prop
  | operand {t : Token} (rest : List Token) : t.isOperand = true → OperandNext (t :: rest)
  | openBracket {rest : List Token} : OperandNext rest → OperandNext (.openBracket :: rest)
  | func (f : Func) {rest : List Token} : OperandNext rest → OperandNext (.func f :: rest)

theorem OperandNext.append {tokens : List Token} (h : OperandNext tokens) (rest : List Token) :
    OperandNext (tokens ++ rest) := by
  induction h with
  | operand tail hT => exact .operand (tail ++ rest) hT
  | openBracket _ ih => exact .openBracket ih
  | func f _ ih => exact .func f ih

theorem OperandNext.group {tokens : List Token} (h : OperandNext tokens) (needed : Bool) :
    OperandNext (group needed tokens) := by
  cases needed with
  | false => exact h
  | true => exact .openBracket (h.append [.closeBracket])

theorem operandNext_formula (e : Expr) : OperandNext (e.formula (.func .neg)) := by
  induction e with
  | const settled v =>
      unfold formula
      by_cases hLt : v < 0
      · rw [if_pos hLt]
        exact .func .neg (.operand [] rfl)
      · rw [if_neg hLt]
        exact .operand [] rfl
  | var settled => exact .operand [] rfl
  | binary settled op left right ihLeft ihRight =>
      exact (ihLeft.group (left.bracketsLeft op)).append _
  | apply settled f arg ih =>
      unfold formula
      split
      · exact .func .neg (ih.group true)
      · exact .func f (ih.group true)

/-- The next operand comes out right behind what has come out. -/
theorem OperandNext.exists_of_listing {tokens : List Token} (h : OperandNext tokens) :
    ∀ {s : State} {listing : List Token}, s.listing tokens = .ok listing →
      ∃ t after, t.isOperand = true ∧ listing = s.released.reverse ++ t :: after := by
  induction h with
  | @operand t rest hT =>
      intro s listing hListing
      have hPush : s.push t = .ok ⟨t :: s.released, s.waiting⟩ := by
        cases t with
        | number v => rfl
        | var => rfl
        | _ => exact absurd hT (by simp [Token.isOperand])
      rw [listing_cons, hPush] at hListing
      change State.listing _ rest = .ok listing at hListing
      rw [listing_eq_map] at hListing
      obtain ⟨after, -, rfl⟩ := Result.map_eq_ok_iff.1 hListing
      refine ⟨t, after, hT, ?_⟩
      show (t :: s.released).reverse ++ after = _
      rw [List.reverse_cons, List.append_assoc, List.singleton_append]
  | openBracket _ ih =>
      intro s listing hListing
      exact ih (s := ⟨s.released, .openBracket :: s.waiting⟩) hListing
  | func f _ ih =>
      intro s listing hListing
      exact ih (s := ⟨s.released, .func f :: s.waiting⟩) hListing

theorem filter_isOperand_filter (tokens : List Token) :
    (tokens.filter (!·.isBracket)).filter Token.isOperand = tokens.filter Token.isOperand := by
  rw [List.filter_filter]
  refine List.filter_congr fun t _ => ?_
  cases t <;> rfl

/--
Two runs that have read the same tokens up to brackets, of which different counts wait when
the next operand comes: their listings have operands at different places.
-/
theorem map_isOperand_ne_of_waiting {read read' : List Token} {s s' : State}
    (hAccounts : Accounts read s) (hAccounts' : Accounts read' s')
    (hRead : read.filter (!·.isBracket) = read'.filter (!·.isBracket))
    (hWaiting : s.waiting.countP (!·.isBracket) ≠ s'.waiting.countP (!·.isBracket))
    {tokens tokens' listing listing' : List Token}
    (hNext : OperandNext tokens) (hNext' : OperandNext tokens')
    (hListing : s.listing tokens = .ok listing) (hListing' : s'.listing tokens' = .ok listing') :
    listing.map Token.isOperand ≠ listing'.map Token.isOperand := by
  obtain ⟨t, after, hT, rfl⟩ := hNext.exists_of_listing hListing
  obtain ⟨t', after', hT', rfl⟩ := hNext'.exists_of_listing hListing'
  have hLength := hAccounts.length_released
  have hLength' := hAccounts'.length_released
  rw [List.countP_eq_length_filter (l := read), hRead, ← List.countP_eq_length_filter,
    ← hLength'] at hLength
  have hOperands : s.released.reverse.countP Token.isOperand =
      s'.released.reverse.countP Token.isOperand := by
    rw [List.countP_eq_length_filter, List.countP_eq_length_filter, hAccounts.operands,
      hAccounts'.operands, ← filter_isOperand_filter read, hRead, filter_isOperand_filter]
  refine map_isOperand_ne hT hT' hOperands ?_
  rw [List.length_reverse, List.length_reverse]
  omega

/-! ## Reading on any stack -/

theorem dropWhile_dropWhile {p q : Token → Bool} (h : ∀ t, p t = true → q t = true)
    (tokens : List Token) : (tokens.dropWhile p).dropWhile q = tokens.dropWhile q := by
  induction tokens with
  | nil => rfl
  | cons t rest ih =>
      by_cases hP : p t = true
      · rw [List.dropWhile_cons_of_pos hP, List.dropWhile_cons_of_pos (h t hP), ih]
      · rw [List.dropWhile_cons_of_neg hP]

/-- What comes before the operator of a left operand without brackets comes before `op`. -/
theorem appliesBefore_of_not_bracketsLeft {settled : Bool} {inner op : Operator} {left right : Expr}
    (h : (binary settled inner left right).bracketsLeft op = false) (t : Token)
    (hBefore : appliesBefore t inner = true) : appliesBefore t op = true := by
  cases t with
  | op o =>
      simp only [bracketsLeft, Bool.or_eq_false_iff, decide_eq_false_iff_not,
        Bool.and_eq_false_imp, beq_iff_eq, Bool.not_eq_false'] at h
      obtain ⟨hPriority, hGroups⟩ := h
      simp only [appliesBefore, Bool.or_eq_true, decide_eq_true_eq, Bool.and_eq_true,
        beq_iff_eq] at hBefore ⊢
      by_cases hSame : inner.priority = op.priority
      · rw [← hSame]
        refine hBefore.imp_right fun hEqual => ⟨hEqual.1, hGroups hSame⟩
      · exact Or.inl (by omega)
  | _ => exact absurd hBefore (by simp [appliesBefore])

/-- The operator of a left operand that needs brackets is not applied before `op`. -/
theorem appliesBefore_of_bracketsLeft {settled : Bool} {inner op : Operator} {left right : Expr}
    (h : (binary settled inner left right).bracketsLeft op = true) :
    appliesBefore (.op inner) op = false := by
  simp only [bracketsLeft, Bool.or_eq_true, decide_eq_true_eq, Bool.and_eq_true, beq_iff_eq,
    Bool.not_eq_true'] at h
  simp only [appliesBefore, Bool.or_eq_false_iff, decide_eq_false_iff_not, Bool.and_eq_false_imp,
    beq_iff_eq]
  rcases h with hLower | ⟨hSame, hGroups⟩
  · exact ⟨by omega, fun hEqual => by omega⟩
  · exact ⟨by omega, fun _ => hGroups⟩

/-- Before the operator of a right operand that needs brackets, `op` is applied. -/
theorem appliesBefore_of_bracketsRight {settled : Bool} {inner op : Operator} {left right : Expr}
    (h : (binary settled inner left right).bracketsRight op = true) :
    appliesBefore (.op op) inner = true := by
  simp only [bracketsRight, Bool.or_eq_true, decide_eq_true_eq, Bool.and_eq_true,
    beq_iff_eq] at h
  simp only [appliesBefore, Bool.or_eq_true, decide_eq_true_eq, Bool.and_eq_true, beq_iff_eq]
  refine h.imp_right ?_
  rintro ⟨hSame, hGroups⟩
  exact ⟨hSame.symm, (groupsLeft_eq_of_priority_eq hSame).trans hGroups⟩

/-- The tokens of a left operand and its operator. -/
def upTo (left : Expr) (op : Operator) : List Token :=
  group (left.bracketsLeft op) (left.formula (.func .neg)) ++ [.op op]

theorem formula_binary (settled : Bool) (op : Operator) (left right : Expr) :
    (binary settled op left right).formula (.func .neg) =
      left.upTo op ++ group (right.bracketsRight op) (right.formula (.func .neg)) := by
  unfold upTo
  rw [List.append_assoc]
  rfl

/-- With its left operand, the operator takes the place of all that is applied before it. -/
def Sinks (left : Expr) (op : Operator) : Prop :=
  ∀ s : State, (∀ f, s.waiting.head? ≠ some (.func f)) → ∃ released,
    (left.upTo op).foldlM State.push s =
      .ok ⟨released, .op op :: s.waiting.dropWhile (appliesBefore · op)⟩

/-- After an operation all is gone from below that is applied before its operator. -/
theorem Sinks.operation {op : Operator} {left : Expr} (h : left.Sinks op) (settled : Bool)
    (right : Expr) {s : State} (hFunc : ∀ f, s.waiting.head? ≠ some (.func f)) :
    ∃ released, ((binary settled op left right).formula (.func .neg)).foldlM State.push s =
      .ok ⟨released, (binary settled op left right).pending ++
        s.waiting.dropWhile (appliesBefore · op)⟩ := by
  obtain ⟨released, hRead⟩ := h s hFunc
  have hFits : right.bracketsRight op = false →
      right.Fits (.op op :: s.waiting.dropWhile (appliesBefore · op)) :=
    fits_of_not_bracketsRight _
  have hRight := (reads right).yields_operand (fun f => by simp) hFits released
  refine ⟨(if right.bracketsRight op then right.spelled.postOrder else right.emitted).reverse ++
    released, ?_⟩
  unfold pending
  rw [formula_binary, List.foldlM_append, hRead, List.append_assoc]
  exact hRight

/-- The operator releases what its left operand has left, and goes on below. -/
theorem exists_foldlM_upTo {left : Expr} {op : Operator} {s : State}
    {released pending waiting : List Token}
    (hRead : (group (left.bracketsLeft op) (left.formula (.func .neg))).foldlM State.push s =
      .ok ⟨released, pending ++ waiting⟩)
    (hPending : ∀ t ∈ pending, appliesBefore t op = true) :
    ∃ released', (left.upTo op).foldlM State.push s =
      .ok ⟨released', .op op :: waiting.dropWhile (appliesBefore · op)⟩ := by
  refine ⟨(State.releaseWhile (appliesBefore · op) ⟨released, pending ++ waiting⟩).released, ?_⟩
  unfold upTo
  rw [List.foldlM_append, hRead]
  show Except.ok (State.mk _ (.op op :: (pending ++ waiting).dropWhile _)) = _
  rw [List.dropWhile_append_of_pos hPending]

/-- A left operand that nothing interferes with releases nothing from below. -/
theorem sinks_of_fits {left : Expr} {op : Operator}
    (hFits : ∀ waiting, left.bracketsLeft op = false → left.Fits waiting) : left.Sinks op := by
  intro s hFunc
  have hRead := (reads left).yields_operand hFunc (hFits s.waiting) s.released
  refine exists_foldlM_upTo hRead ?_
  intro t hMem
  by_cases hNeeded : left.bracketsLeft op = true
  · rw [if_pos hNeeded] at hMem
    exact absurd hMem (by simp)
  · rw [if_neg hNeeded] at hMem
    exact appliesBefore_of_mem_pending (Bool.eq_false_iff.2 hNeeded) t hMem

theorem sinks (left : Expr) : ∀ op, left.Sinks op := by
  induction left with
  | binary settled inner left right ihLeft ihRight =>
      intro op
      by_cases hNeeded : (binary settled inner left right).bracketsLeft op = true
      · exact sinks_of_fits fun _ h => absurd hNeeded (by simp [h])
      · have hNot := Bool.eq_false_iff.2 hNeeded
        intro s hFunc
        obtain ⟨released, hRead⟩ := (ihLeft inner).operation settled right hFunc
        have hGroup : group ((binary settled inner left right).bracketsLeft op)
            ((binary settled inner left right).formula (.func .neg)) =
            (binary settled inner left right).formula (.func .neg) := by
          rw [hNot]
          rfl
        rw [← hGroup] at hRead
        have hSink := exists_foldlM_upTo hRead (appliesBefore_of_mem_pending hNot)
        rw [dropWhile_dropWhile (appliesBefore_of_not_bracketsLeft hNot)] at hSink
        exact hSink
  | const settled v => exact fun op => sinks_of_fits fun _ _ => trivial
  | var settled => exact fun op => sinks_of_fits fun _ _ => trivial
  | apply settled f arg ih => exact fun op => sinks_of_fits fun _ _ => trivial

/-! ## With and without brackets -/

theorem countP_cons_word {t : Token} (h : t.isBracket = false) (tokens : List Token) :
    (t :: tokens).countP (!·.isBracket) = tokens.countP (!·.isBracket) + 1 :=
  List.countP_cons_of_pos (by simp [h])

theorem countP_cons_openBracket (tokens : List Token) :
    (Token.openBracket :: tokens).countP (!·.isBracket) = tokens.countP (!·.isBracket) :=
  List.countP_cons_of_neg (by decide)

theorem isBracket_of_appliesBefore {t : Token} {incoming : Operator}
    (h : appliesBefore t incoming = true) : t.isBracket = false := by
  cases t with
  | op o => rfl
  | _ => exact absurd h (by simp [appliesBefore])

section

variable {read : List Token} {s : State} {settled : Bool} {inner : Operator} {left right : Expr}
  {rest rest' listing listing' : List Token}

/--
What is to be applied before the operator of an operation comes out ahead of its right
operand, except with brackets around the operation.
-/
theorem map_isOperand_ne_of_released (hAccounts : Accounts read s)
    (hFunc : ∀ f, s.waiting.head? ≠ some (.func f))
    (hTop : ∃ t, s.waiting.head? = some t ∧ appliesBefore t inner = true)
    (hWith : s.listing (group true ((binary settled inner left right).formula (.func .neg)) ++
      rest) = .ok listing)
    (hWithout : s.listing ((binary settled inner left right).formula (.func .neg) ++ rest') =
      .ok listing') :
    listing'.map Token.isOperand ≠ listing.map Token.isOperand := by
  have hOpened : Accounts (read ++ [.openBracket]) ⟨s.released, .openBracket :: s.waiting⟩ :=
    hAccounts.wait rfl (by simp)
  obtain ⟨released, hRun⟩ := sinks left inner ⟨s.released, .openBracket :: s.waiting⟩ (by simp)
  obtain ⟨released', hRun'⟩ := sinks left inner s hFunc
  have hTokens : group true ((binary settled inner left right).formula (.func .neg)) ++ rest =
      .openBracket :: (left.upTo inner ++ (group (right.bracketsRight inner)
        (right.formula (.func .neg)) ++ .closeBracket :: rest)) := by
    rw [formula_binary]
    simp [group]
  rw [hTokens, listing_cons] at hWith
  change State.listing ⟨s.released, .openBracket :: s.waiting⟩ _ = .ok listing at hWith
  rw [listing_append hRun] at hWith
  rw [formula_binary, List.append_assoc, listing_append hRun'] at hWithout
  have hNext := (operandNext_formula right).group (right.bracketsRight inner)
  refine map_isOperand_ne_of_waiting (hAccounts.run hRun') (hOpened.run hRun) ?_ ?_
    (hNext.append _) (hNext.append _) hWithout hWith
  · simp [Token.isBracket]
  · -- without brackets fewer tokens wait
    obtain ⟨t, hHead, hBefore⟩ := hTop
    obtain ⟨waiting, hWaiting⟩ := List.head?_eq_some_iff.1 hHead
    have hFewer := (List.dropWhile_sublist (appliesBefore · inner) (l := waiting)).countP_le
      (p := (!·.isBracket))
    have hDrop : (t :: waiting).dropWhile (appliesBefore · inner) =
        waiting.dropWhile (appliesBefore · inner) := List.dropWhile_cons_of_pos hBefore
    have hBracket := isBracket_of_appliesBefore hBefore
    rw [hWaiting, hDrop]
    show (Token.op inner :: waiting.dropWhile (appliesBefore · inner)).countP (!·.isBracket) ≠
      (Token.op inner :: .openBracket :: t :: waiting).countP (!·.isBracket)
    rw [countP_cons_word rfl, countP_cons_word rfl, countP_cons_openBracket,
      countP_cons_word hBracket]
    omega

/-- Without brackets that it needs, the operator of a left operand waits below the next one. -/
theorem exists_foldlM_unbracketed {op : Operator}
    (hNeeded : (binary settled inner left right).bracketsLeft op = true)
    (hFunc : ∀ f, s.waiting.head? ≠ some (.func f))
    (hTop : ∀ t, s.waiting.head? = some t → appliesBefore t inner = false) :
    ∃ released above,
      ((binary settled inner left right).formula (.func .neg) ++ [Token.op op]).foldlM
          State.push s =
        .ok ⟨released, .op op :: (above ++ .op inner :: s.waiting)⟩ := by
  obtain ⟨released, hOperation⟩ := (sinks left inner).operation settled right hFunc
  have hKeep : s.waiting.dropWhile (appliesBefore · inner) = s.waiting := by
    cases hWaiting : s.waiting with
    | nil => rfl
    | cons t waiting =>
        have hT := hTop t (by rw [hWaiting]; rfl)
        exact List.dropWhile_cons_of_neg (by simp [hT])
  have hStays : ∀ t, (Token.op inner :: s.waiting).head? = some t →
      appliesBefore t op = false := by
    intro t hHead
    obtain rfl := Option.some.inj hHead
    exact appliesBefore_of_bracketsLeft hNeeded
  unfold pending at hOperation
  generalize (if right.bracketsRight inner then [] else right.pending) = above at hOperation
  rw [hKeep, List.append_assoc] at hOperation
  have hRelease := releaseWhile_above (p := (appliesBefore · op)) released above hStays
  rw [List.foldlM_append, hOperation]
  show ∃ released' above', Except.ok (State.mk (State.releaseWhile _ _).released
    (.op op :: (State.releaseWhile _ ⟨released, above ++ .op inner :: s.waiting⟩).waiting)) = _
  rw [hRelease]
  exact ⟨_, _, rfl⟩

/--
The operator of a left operand that needs brackets still waits when the next operand comes,
except with brackets around it.
-/
theorem map_isOperand_ne_of_waits (hAccounts : Accounts read s) {op : Operator}
    (hBelow : Below op s.waiting)
    (hNeeded : (binary settled inner left right).bracketsLeft op = true)
    (hTop : ∀ t, s.waiting.head? = some t → appliesBefore t inner = false)
    (hNext : OperandNext rest)
    (hWith : s.listing (group true ((binary settled inner left right).formula (.func .neg)) ++
      .op op :: rest) = .ok listing)
    (hWithout : s.listing ((binary settled inner left right).formula (.func .neg) ++
      .op op :: rest) = .ok listing') :
    listing'.map Token.isOperand ≠ listing.map Token.isOperand := by
  have hFunc : ∀ f, s.waiting.head? ≠ some (.func f) := fun f hHead => (hBelow _ hHead).1 f rfl
  have hRun := (reads (binary settled inner left right)).yields_operator hBelow s.released
  rw [hNeeded] at hRun
  obtain ⟨released, above, hRun'⟩ := exists_foldlM_unbracketed hNeeded hFunc hTop
  rw [List.append_cons, listing_append hRun] at hWith
  rw [List.append_cons, listing_append hRun'] at hWithout
  refine map_isOperand_ne_of_waiting (hAccounts.run hRun') (hAccounts.run hRun) ?_ ?_
    hNext hNext hWithout hWith
  · simp [group, Token.isBracket]
  · show (Token.op op :: (above ++ .op inner :: s.waiting)).countP (!·.isBracket) ≠
      (Token.op op :: s.waiting).countP (!·.isBracket)
    rw [countP_cons_word rfl, countP_cons_word rfl, List.countP_append, countP_cons_word rfl]
    omega

end

end DerivCalc.Expr
