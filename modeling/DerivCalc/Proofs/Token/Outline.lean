import DerivCalc.Proofs.Token.Conservation
import DerivCalc.Proofs.Token.PostOrder
import DerivCalc.Token.Lexer

/-!
# Token lists up to their numbers

Which number a token stands for decides nothing about the order of the tokens: neither
which minus signs are negations nor what comes out of the stack when.  So lists with the same
`outline` are put in post-order in the same way.
-/

namespace DerivCalc.Token

/-- The token with its number left out. -/
def outline : Token → Token
  | number _ => number 0
  | t => t

theorem isOperand_outline (t : Token) : t.outline.isOperand = t.isOperand := by
  cases t <;> rfl

theorem outline_eq_iff {t u : Token} (h : ∀ v, u ≠ number v) : t.outline = u ↔ t = u := by
  cases t with
  | number v =>
      constructor
      · intro hEq
        exact absurd hEq.symm (h 0)
      · intro hEq
        exact absurd hEq.symm (h v)
  | _ => exact Iff.rfl

/-- The same tokens are operands in lists with the same outline. -/
theorem map_isOperand_congr {first second : List Token}
    (h : first.map outline = second.map outline) :
    first.map isOperand = second.map isOperand := by
  have hOutline : ∀ tokens : List Token,
      (tokens.map outline).map isOperand = tokens.map isOperand := by
    intro tokens
    rw [List.map_map]
    exact List.map_congr_left fun t _ => isOperand_outline t
  rw [← hOutline first, h, hOutline]

/-- A minus sign is a negation or not, whatever numbers stand around it. -/
theorem resolveMinus_outline (tokens : List Token) : ∀ opening,
    Lexer.resolveMinus opening (tokens.map outline) =
      (Lexer.resolveMinus opening tokens).map outline := by
  induction tokens with
  | nil =>
      intro opening
      rfl
  | cons t rest ih =>
      intro opening
      rw [List.map_cons, Lexer.resolveMinus, Lexer.resolveMinus, List.map_cons, ih]
      simp only [outline_eq_iff (u := .openBracket) (by simp), outline_eq_iff (u := .op .sub)
        (by simp)]
      split
      · rfl
      · rfl

namespace PostOrder

/-- The stack with the numbers left out. -/
def State.outline (s : State) : State := ⟨s.released.map Token.outline, s.waiting.map Token.outline⟩

theorem releaseWhile_outline {p : Token → Bool} (hP : ∀ t : Token, p t.outline = p t) (s : State) :
    s.outline.releaseWhile p = (s.releaseWhile p).outline := by
  have hComp : p ∘ Token.outline = p := funext hP
  unfold State.releaseWhile State.outline
  simp only [List.takeWhile_map, List.dropWhile_map, hComp, List.map_append, List.map_reverse]

theorem closeGroup_outline (s : State) :
    s.outline.closeGroup = s.closeGroup.map State.outline := by
  obtain ⟨released, waiting⟩ := s
  cases waiting with
  | nil => rfl
  | cons top rest =>
      cases rest with
      | nil => rfl
      | cons t rest => cases t <;> rfl

/-- A step does not look at numbers. -/
theorem push_outline (s : State) (t : Token) :
    s.outline.push t.outline = (s.push t).map State.outline := by
  cases t with
  | op o =>
      show Except.ok (State.mk (s.outline.releaseWhile _).released
        (.op o :: (s.outline.releaseWhile _).waiting)) = _
      rw [releaseWhile_outline fun t => by cases t <;> rfl]
      rfl
  | closeBracket =>
      show (s.outline.releaseWhile _).closeGroup = _
      rw [releaseWhile_outline fun t => by cases t <;> rfl, closeGroup_outline]
      rfl
  | _ => rfl

theorem finish_outline (s : State) : s.outline.finish = s.finish.map (·.map Token.outline) := by
  have hContains : (s.waiting.map Token.outline).contains .openBracket =
      s.waiting.contains .openBracket := by
    rw [List.contains_eq_mem, List.contains_eq_mem, decide_eq_decide, List.mem_map]
    constructor
    · rintro ⟨t, hMem, hT⟩
      rw [outline_eq_iff (by simp)] at hT
      exact hT ▸ hMem
    · intro hMem
      exact ⟨.openBracket, hMem, rfl⟩
  show State.finish ⟨s.released.map Token.outline, s.waiting.map Token.outline⟩ = _
  unfold State.finish
  simp only [hContains]
  split
  · rfl
  · show Except.ok _ = Except.ok ((s.released.reverse ++ s.waiting).map Token.outline)
    rw [List.map_append, List.map_reverse]

/-- Numbers do not influence the order in which tokens come out. -/
theorem ofInfix_outline (tokens : List Token) :
    ofInfix (tokens.map Token.outline) = (ofInfix tokens).map (·.map Token.outline) :=
  listing_map push_outline finish_outline tokens ⟨[], []⟩

/-- Lists with the same outline are put in post-order alike. -/
theorem exists_ofInfix_of_outline {tokens tokens' listing : List Token}
    (h : tokens.map Token.outline = tokens'.map Token.outline)
    (hListing : ofInfix tokens = .ok listing) :
    ∃ listing', ofInfix tokens' = .ok listing' ∧
      listing'.map Token.isOperand = listing.map Token.isOperand := by
  have hOutline := ofInfix_outline tokens
  rw [h, ofInfix_outline tokens', hListing] at hOutline
  obtain ⟨listing', hListing', hSame⟩ := Result.map_eq_ok_iff.1 hOutline
  exact ⟨listing', hListing', map_isOperand_congr hSame⟩

end PostOrder

end DerivCalc.Token
