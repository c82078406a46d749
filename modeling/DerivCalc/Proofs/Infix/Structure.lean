import DerivCalc.Proofs.Infix.Phrase

/-!
# The structure of a list of tokens

The tokens of a well-placed phrase come out in the order of its listing, by induction on the
phrase: whatever waits below it neither is released by its operators nor takes one of its
groups.  And the phrases are all there is.  A list of tokens is read from its end, and each token
before it finds its place in the phrase of what follows; a closing bracket starts a phrase
of its own, which its opening bracket completes.
-/

namespace DerivCalc.Infix.Phrase

open Token.PostOrder

/-! ## From tokens to the listing -/

/-- A function whose argument in brackets comes after a row. -/
theorem yields_call {between inner waiting emitted emitted' pending : List Token} {f : Func}
    (hBetween : Yields between (.func f :: waiting) emitted [])
    (hInner : Yields inner (.openBracket :: .func f :: waiting) emitted' pending)
    (hPending : Token.openBracket ∉ pending) :
    Yields (.func f :: (between ++ .openBracket :: (inner ++ [.closeBracket]))) waiting
      (emitted ++ (emitted' ++ pending) ++ [.func f]) [] := by
  intro out
  show (between ++ _).foldlM State.push ⟨out, .func f :: waiting⟩ = _
  rw [List.foldlM_append, hBetween]
  show (inner ++ [Token.closeBracket]).foldlM State.push
    ⟨emitted.reverse ++ out, .openBracket :: .func f :: waiting⟩ = _
  rw [hInner.foldlM_closeBracket hPending]
  simp [State.closeGroup]

/--
A well-placed phrase comes out in the order of its listing, but for what is pending at its end:
operators between its rows, and what a function that reaches to the end holds back.
-/
theorem exists_yields (p : Phrase) : p.Placed → ∀ waiting : List Token,
    (∀ o ∈ p.operators, ∀ t, waiting.head? = some t → appliesBefore t o = false) →
    (p.offersGroup = true → ∀ f, waiting.head? ≠ some (.func f)) →
    ∃ emitted pending, emitted ++ pending = p.listing ∧ Token.openBracket ∉ pending ∧
      (p.endsReaching = false → ∀ t ∈ pending, ∃ o ∈ p.operators, t = .op o) ∧
      Yields p.tokens waiting emitted pending := by
  have hRow {p : Phrase} {pending : List Token} (h : p.IsRow)
      (hOps : p.endsReaching = false → ∀ t ∈ pending, ∃ o ∈ p.operators, t = .op o) :
      pending = [] := by
    refine List.eq_nil_iff_forall_not_mem.2 fun t hMem => ?_
    obtain ⟨o, hO, -⟩ := hOps h.2 t hMem
    rw [h.1] at hO
    exact absurd hO List.not_mem_nil
  induction p with
  | empty => exact fun _ _ _ _ => ⟨[], [], rfl, by simp, by simp, fun _ => rfl⟩
  | number value => exact fun _ _ _ _ => ⟨[.number value], [], rfl, by simp, by simp, fun _ => rfl⟩
  | var => exact fun _ _ _ _ => ⟨[.var], [], rfl, by simp, by simp, fun _ => rfl⟩
  | bracketed inner ih =>
      intro hPlaced waiting _ hOffers
      obtain ⟨emitted, pending, hListing, hNone, -, hYields⟩ :=
        ih hPlaced (.openBracket :: waiting)
          (fun o _ t hHead => by rw [← Option.some.inj hHead]; rfl) (by simp)
      exact ⟨emitted ++ pending, [], by rw [List.append_nil, hListing]; rfl, by simp, by simp,
        hYields.brackets hNone (hOffers rfl)⟩
  | beside left right ihLeft ihRight =>
      rintro ⟨hLeft, hRight, hIsRow, hNoOps⟩ waiting _ hOffers
      obtain ⟨emitted, pending, hListing, -, hOps, hYields⟩ :=
        ihLeft hLeft waiting (by simp [hIsRow.1]) fun hOffer => hOffers (by simp [offersGroup, hOffer])
      obtain rfl := hRow hIsRow hOps
      obtain ⟨emitted', pending', hListing', hNone', hOps', hYields'⟩ :=
        ihRight hRight waiting (by simp [hNoOps]) fun hOffer => hOffers (by simp [offersGroup, hOffer])
      refine ⟨emitted ++ emitted', pending', ?_, hNone', ?_, ?_⟩
      · rw [List.append_assoc, hListing', ← List.append_nil emitted, hListing]
        rfl
      · intro hEnds t hMem
        obtain ⟨o, hO, -⟩ := hOps' hEnds t hMem
        rw [hNoOps] at hO
        exact absurd hO List.not_mem_nil
      · have hBoth := hYields.append hYields'
        rw [List.append_nil] at hBoth
        exact hBoth
  | call f between inner ihBetween ihInner =>
      rintro ⟨hBetween, hInner, hIsRow, hOffersNone⟩ waiting _ _
      obtain ⟨emitted, pending, hListing, -, hOps, hYields⟩ :=
        ihBetween hBetween (.func f :: waiting) (by simp [hIsRow.1]) (by simp [hOffersNone])
      obtain rfl := hRow hIsRow hOps
      obtain ⟨emitted', pending', hListing', hNone', -, hYields'⟩ :=
        ihInner hInner (.openBracket :: .func f :: waiting)
          (fun o _ t hHead => by rw [← Option.some.inj hHead]; rfl) (by simp)
      refine ⟨_, [], ?_, by simp, by simp, yields_call hYields hYields' hNone'⟩
      rw [List.append_nil] at hListing
      rw [List.append_nil, hListing, hListing']
      rfl
  | reaching f rest ih =>
      rintro ⟨hRest, hOffersNone⟩ waiting _ _
      obtain ⟨emitted, pending, hListing, hNone, -, hYields⟩ :=
        ih hRest (.func f :: waiting)
          (fun o _ t hHead => by rw [← Option.some.inj hHead]; rfl) (by simp [hOffersNone])
      refine ⟨emitted, pending ++ [.func f], ?_, by simp [hNone], by simp [endsReaching], ?_⟩
      · rw [← List.append_assoc, hListing]
        rfl
      · exact hYields.function
  | joined op left right ihLeft ihRight =>
      rintro ⟨hLeft, hRight, hEnds, hBefore, hAfter⟩ waiting hWaiting hOffers
      obtain ⟨emitted, pending, hListing, -, hOps, hYields⟩ :=
        ihLeft hLeft waiting (fun o hO => hWaiting o (by simp [operators, hO])) hOffers
      have hReleased : ∀ t ∈ pending, appliesBefore t op = true := by
        intro t hMem
        obtain ⟨o, hO, rfl⟩ := hOps hEnds t hMem
        exact hBefore o hO
      have hOperator := hYields.operator hReleased (hWaiting op (by simp [operators]))
      obtain ⟨emitted', pending', hListing', hNone', hOps', hYields'⟩ :=
        ihRight hRight (.op op :: waiting)
          (fun o hO t hHead => by rw [← Option.some.inj hHead]; exact hAfter o hO) (by simp)
      refine ⟨left.listing ++ emitted', pending' ++ [.op op], ?_, by simp [hNone'], ?_, ?_⟩
      · show _ = left.listing ++ right.listing ++ [.op op]
        rw [← hListing']
        simp only [List.append_assoc]
      · intro hEnds' t hMem
        rcases List.mem_append.1 hMem with hMem | hMem
        · obtain ⟨o, hO, rfl⟩ := hOps' hEnds' t hMem
          exact ⟨o, by simp [operators, hO], rfl⟩
        · exact ⟨op, by simp [operators], List.mem_singleton.1 hMem⟩
      · have hAll := hOperator.append hYields'
        rw [hListing, List.append_assoc] at hAll
        exact hAll

/-- The tokens of a well-placed phrase are put in the order of its listing. -/
theorem ofInfix_tokens {p : Phrase} (h : p.Placed) : ofInfix p.tokens = .ok p.listing := by
  obtain ⟨emitted, pending, hListing, hNone, -, hYields⟩ :=
    p.exists_yields h [] (by simp) (by simp)
  rw [hYields.ofInfix hNone, hListing]

/-! ## Placing one more token before a phrase -/

/-- Puts a piece at the start of the first row. -/
def putFirst (piece : Phrase) : Phrase → Phrase
  | joined op left right => joined op (putFirst piece left) right
  | p => beside piece p

/-- Puts an operator in front: what binds tighter than it comes on its right side. -/
def putOperator (o : Operator) : Phrase → Phrase
  | joined op left right =>
    if appliesBefore (.op o) op then joined op (putOperator o left) right
    else joined o empty (joined op left right)
  | p => joined o empty p

/-- Lets a function take the group in brackets that the first row offers; `between` comes before it. -/
def takeGroup (f : Func) (between : Phrase) : Phrase → Phrase
  | bracketed inner => call f between inner
  | beside left right =>
    if left.offersGroup then beside (takeGroup f between left) right
    else takeGroup f (beside between left) right
  | joined op left right => joined op (takeGroup f between left) right
  | p => beside between p

/-- Puts a function in front. -/
def putFunction (f : Func) (p : Phrase) : Phrase :=
  if p.offersGroup then takeGroup f empty p else reaching f p

theorem isRow_empty : empty.IsRow := ⟨rfl, rfl⟩

/-- A phrase with a piece before it: the operators and the end are the same. -/
theorem putFirst_spec (piece : Phrase) (hPiece : piece.Placed) (hRow : piece.IsRow) (p : Phrase) :
    p.Placed → (putFirst piece p).Placed ∧
      (putFirst piece p).tokens = piece.tokens ++ p.tokens ∧
      (putFirst piece p).operators = p.operators ∧
      (putFirst piece p).endsReaching = p.endsReaching := by
  induction p with
  | joined op left right ihLeft ihRight =>
      rintro ⟨hLeft, hRight, hEnds, hBefore, hAfter⟩
      obtain ⟨hPlaced, hTokens, hOps, hSame⟩ := ihLeft hLeft
      refine ⟨⟨hPlaced, hRight, hSame.trans hEnds, by rwa [hOps], hAfter⟩, ?_, ?_, rfl⟩
      · simp only [putFirst, tokens, hTokens, List.append_assoc]
      · simp only [putFirst, operators, hOps]
  | _ => exact fun h => ⟨⟨hPiece, h, hRow, rfl⟩, rfl, rfl, rfl⟩

/-- Which operators are applied before which is a matter of their priorities. -/
theorem appliesBefore_of_not {o op : Operator} (h : appliesBefore (.op o) op = false)
    {o' : Operator}
    (hOp : appliesBefore (.op o') op = true ∨ appliesBefore (.op op) o' = false) :
    appliesBefore (.op o) o' = false := by
  cases o <;> cases op <;> cases o' <;> simp_all [appliesBefore, Operator.priority, Operator.groupsLeft]

/-- A phrase with an operator before it. -/
theorem putOperator_spec (o : Operator) (p : Phrase) :
    p.Placed → (putOperator o p).Placed ∧
      (putOperator o p).tokens = .op o :: p.tokens ∧
      (putOperator o p).operators = o :: p.operators ∧
      (putOperator o p).endsReaching = p.endsReaching := by
  have hFirst {p : Phrase} (h : p.Placed)
      (hLoose : ∀ o' ∈ p.operators, appliesBefore (.op o) o' = false) :
      (joined o empty p).Placed :=
    ⟨trivial, h, rfl, by simp [operators], hLoose⟩
  induction p with
  | joined op left right ihLeft ihRight =>
      intro h
      obtain ⟨hLeft, hRight, hEnds, hBefore, hAfter⟩ := h
      unfold putOperator
      cases hBinds : appliesBefore (.op o) op with
      | true =>
          obtain ⟨hPlaced, hTokens, hOps, hSame⟩ := ihLeft hLeft
          refine ⟨⟨hPlaced, hRight, hSame.trans hEnds, ?_, hAfter⟩, ?_, ?_, rfl⟩
          · rw [hOps]
            exact List.forall_mem_cons.2 ⟨hBinds, hBefore⟩
          · simp only [if_true, tokens, hTokens, List.cons_append]
          · simp only [if_true, operators, hOps, List.cons_append]
      | false =>
          refine ⟨hFirst ⟨hLeft, hRight, hEnds, hBefore, hAfter⟩ ?_, rfl, rfl, rfl⟩
          intro o' hMem
          simp only [operators, List.mem_append, List.mem_cons] at hMem
          rcases hMem with hOld | rfl | hOld
          · exact appliesBefore_of_not hBinds (Or.inl (hBefore o' hOld))
          · exact hBinds
          · exact appliesBefore_of_not hBinds (Or.inr (hAfter o' hOld))
  | _ => exact fun h => ⟨hFirst h (by simp [operators]), rfl, rfl, rfl⟩

/-- A phrase whose first row offers a group in brackets, with a function that takes it. -/
theorem takeGroup_spec (f : Func) (p : Phrase) :
    ∀ between : Phrase, between.Placed → between.IsRow → between.offersGroup = false →
      p.Placed → p.offersGroup = true →
      (takeGroup f between p).Placed ∧
        (takeGroup f between p).tokens = .func f :: (between.tokens ++ p.tokens) ∧
        (takeGroup f between p).operators = p.operators ∧
        (takeGroup f between p).endsReaching = p.endsReaching := by
  induction p with
  | bracketed inner ih =>
      intro between hBetween hRow hNone h _
      exact ⟨⟨hBetween, h, hRow, hNone⟩, rfl, rfl, rfl⟩
  | beside left right ihLeft ihRight =>
      intro between hBetween hRow hNone h hOffers
      obtain ⟨hLeft, hRight, hIsRow, hNoOps⟩ := h
      unfold takeGroup
      cases hFirst : left.offersGroup with
      | true =>
          obtain ⟨hPlaced, hTokens, hOps, hSame⟩ := ihLeft between hBetween hRow hNone hLeft hFirst
          refine ⟨⟨hPlaced, hRight, ⟨hOps.trans hIsRow.1, hSame.trans hIsRow.2⟩, hNoOps⟩, ?_, rfl,
            rfl⟩
          simp only [if_true, tokens, hTokens, List.cons_append, List.append_assoc]
      | false =>
          have hMore : right.offersGroup = true := by simpa [offersGroup, hFirst] using hOffers
          obtain ⟨hPlaced, hTokens, hOps, hSame⟩ := ihRight (beside between left)
            ⟨hBetween, hLeft, hRow, hIsRow.1⟩ ⟨rfl, hIsRow.2⟩
            (by simp [offersGroup, hNone, hFirst]) hRight hMore
          refine ⟨hPlaced, ?_, hOps.trans hNoOps, hSame⟩
          rw [if_neg (by simp), hTokens]
          simp only [tokens, List.append_assoc]
  | joined op left right ihLeft ihRight =>
      intro between hBetween hRow hNone h hOffers
      obtain ⟨hLeft, hRight, hEnds, hBefore, hAfter⟩ := h
      obtain ⟨hPlaced, hTokens, hOps, hSame⟩ := ihLeft between hBetween hRow hNone hLeft hOffers
      refine ⟨⟨hPlaced, hRight, hSame.trans hEnds, by rwa [hOps], hAfter⟩, ?_, ?_, rfl⟩
      · simp only [takeGroup, tokens, hTokens, List.cons_append, List.append_assoc]
      · simp only [takeGroup, operators, hOps]
  | _ =>
      intro between _ _ _ _ hOffers
      exact absurd hOffers (by simp [offersGroup])

theorem putFunction_spec (f : Func) {p : Phrase} (h : p.Placed) :
    (putFunction f p).Placed ∧ (putFunction f p).tokens = .func f :: p.tokens := by
  unfold putFunction
  cases hOffers : p.offersGroup with
  | true =>
      obtain ⟨hPlaced, hTokens, -, -⟩ :=
        takeGroup_spec f p empty trivial isRow_empty rfl h hOffers
      exact ⟨hPlaced, hTokens⟩
  | false => exact ⟨⟨h, hOffers⟩, rfl⟩

/-! ## From tokens to the phrase -/

/-- The phrases that closing brackets start, one after the other. -/
def closedTokens (outer : List Phrase) : List Token :=
  outer.flatMap fun p => .closeBracket :: p.tokens

/--
Tokens of which no end opens more brackets than it closes are a phrase, and for each bracket that
is closed only another phrase.
-/
theorem exists_phrases (tokens : List Token)
    (h : ∀ last, last <:+ tokens → last.count .openBracket ≤ last.count .closeBracket) :
    ∃ (p : Phrase) (outer : List Phrase), p.Placed ∧ (∀ q ∈ outer, q.Placed) ∧
      tokens = p.tokens ++ closedTokens outer ∧
      outer.length + tokens.count .openBracket = tokens.count .closeBracket := by
  induction tokens with
  | nil => exact ⟨empty, [], trivial, by simp, rfl, rfl⟩
  | cons t rest ih =>
      obtain ⟨p, outer, hPlaced, hOuter, rfl, hCount⟩ :=
        ih fun last hSuffix => h last (hSuffix.trans (List.suffix_cons t rest))
      have hPiece (piece : Phrase) (hIs : piece.Placed) (hRow : piece.IsRow)
          (hTokens : piece.tokens = [t]) (hOpen : t ≠ .openBracket) (hClose : t ≠ .closeBracket) :
          ∃ (p' : Phrase) (outer' : List Phrase), p'.Placed ∧ (∀ q ∈ outer', q.Placed) ∧
            t :: (p.tokens ++ closedTokens outer) = p'.tokens ++ closedTokens outer' ∧
            outer'.length + (t :: (p.tokens ++ closedTokens outer)).count .openBracket =
              (t :: (p.tokens ++ closedTokens outer)).count .closeBracket := by
        obtain ⟨hNew, hSame, -, -⟩ := putFirst_spec piece hIs hRow p hPlaced
        refine ⟨putFirst piece p, outer, hNew, hOuter, ?_, ?_⟩
        · rw [hSame, hTokens]
          rfl
        · rwa [List.count_cons_of_ne hOpen, List.count_cons_of_ne hClose]
      cases t with
      | number value => exact hPiece (number value) trivial ⟨rfl, rfl⟩ rfl (by simp) (by simp)
      | var => exact hPiece var trivial ⟨rfl, rfl⟩ rfl (by simp) (by simp)
      | func f =>
          obtain ⟨hNew, hTokens⟩ := putFunction_spec f hPlaced
          refine ⟨putFunction f p, outer, hNew, hOuter, ?_, ?_⟩
          · rw [hTokens]
            rfl
          · rwa [List.count_cons_of_ne (by simp), List.count_cons_of_ne (by simp)]
      | op o =>
          obtain ⟨hNew, hTokens, -, -⟩ := putOperator_spec o p hPlaced
          refine ⟨putOperator o p, outer, hNew, hOuter, ?_, ?_⟩
          · rw [hTokens]
            rfl
          · rwa [List.count_cons_of_ne (by simp), List.count_cons_of_ne (by simp)]
      | closeBracket =>
          refine ⟨empty, p :: outer, trivial, List.forall_mem_cons.2 ⟨hPlaced, hOuter⟩, rfl, ?_⟩
          rw [List.count_cons_of_ne (by simp), List.count_cons_self, List.length_cons]
          omega
      | openBracket =>
          have hWhole := h _ (List.suffix_refl _)
          rw [List.count_cons_self, List.count_cons_of_ne (by simp)] at hWhole
          -- so some bracket is still closed only, and its phrase goes on after the new group
          cases outer with
          | nil =>
              rw [List.length_nil] at hCount
              omega
          | cons q outer =>
              obtain ⟨hQ, hOthers⟩ := List.forall_mem_cons.1 hOuter
              obtain ⟨hNew, hTokens, -, -⟩ :=
                putFirst_spec (bracketed p) hPlaced ⟨rfl, rfl⟩ q hQ
              refine ⟨putFirst (bracketed p) q, outer, hNew, hOthers, ?_, ?_⟩
              · rw [hTokens]
                simp [closedTokens, Phrase.tokens]
              · rw [List.count_cons_self, List.count_cons_of_ne (by simp)]
                rw [List.length_cons] at hCount
                omega

/-- Every list of tokens with matching brackets is a phrase. -/
theorem exists_tokens_eq {tokens : List Token} (h : Token.BracketsMatch tokens) :
    ∃ p : Phrase, p.Placed ∧ p.tokens = tokens := by
  obtain ⟨hPrefixes, hEqual⟩ := h
  have hSuffixes : ∀ last, last <:+ tokens →
      last.count .openBracket ≤ last.count .closeBracket := by
    rintro last ⟨first, rfl⟩
    have hFirst := hPrefixes first (List.prefix_append first last)
    rw [List.count_append, List.count_append] at hEqual
    omega
  obtain ⟨p, outer, hPlaced, -, hTokens, hCount⟩ := exists_phrases tokens hSuffixes
  have hNone : outer = [] := List.length_eq_zero_iff.1 (by omega)
  subst hNone
  exact ⟨p, hPlaced, by rw [hTokens, closedTokens, List.flatMap_nil, List.append_nil]⟩

end DerivCalc.Infix.Phrase
