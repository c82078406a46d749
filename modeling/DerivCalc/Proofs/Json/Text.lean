import DerivCalc.Json.Text
import Mathlib.Data.Nat.Notation

/-!
# A written string is read back

A string is read in two steps, so what lies between them is named: `Spells c parts` says that
the first step finds the pieces `parts` in the written character `c`, and that the second step
joins them to `c` again, whatever comes after them.  Every character is spelled by some pieces.
A code unit stands for a character on its own because no character is half of a surrogate pair.
-/

namespace DerivCalc.Json.Text

open DerivCalc.Text (Quoted.hexDigits)

/-! ## Code units -/

theorem hexDigit?_digitChar {d : ℕ} (h : d < 16) : hexDigit? (Nat.digitChar d) = some d := by
  have hAll : ∀ d < 16, hexDigit? (Nat.digitChar d) = some d := by decide
  exact hAll d h

/-- Four hexadecimal digits are enough for a code unit. -/
theorem hexValue?_hexDigits {n : ℕ} (h : n < 0x10000) :
    hexValue? (Quoted.hexDigits 4 n) = some n := by
  have hDigit (k : ℕ) := hexDigit?_digitChar (Nat.mod_lt k (by decide : 0 < 16))
  simp only [Quoted.hexDigits, List.nil_append, List.cons_append, hexValue?, List.foldlM_cons,
    List.foldlM_nil, hDigit, Option.map_some, bind, Option.bind, pure]
  congr 1
  omega

/-! ## Taking a string apart -/

variable {rest after : List Char} {parts : List Piece}

theorem pieces_unitEscape {n : ℕ} (hUnit : n < 0x10000) (h : pieces rest = some (parts, after)) :
    pieces (unitEscape n ++ rest) = some (.unit n :: parts, after) := by
  have hValue := hexValue?_hexDigits hUnit
  simp only [Quoted.hexDigits, List.nil_append, List.cons_append] at hValue
  simp only [unitEscape, Quoted.hexDigits, List.nil_append, List.cons_append, pieces, hValue, h]
  rfl

theorem pieces_shortEscape {e c : Char} (hEscape : shortEscape? e = some c)
    (h : pieces rest = some (parts, after)) :
    pieces ('\\' :: e :: rest) = some (.char c :: parts, after) := by
  have hU : e ≠ 'u' := by
    rintro rfl
    have hNone : shortEscape? 'u' = none := rfl
    rw [hNone] at hEscape
    exact absurd hEscape (by simp)
  rw [pieces.eq_def]
  simp [hU, hEscape, h]

theorem pieces_char {c : Char} (hQuote : c ≠ '"') (hSlash : c ≠ '\\') (hVisible : ¬ c < ' ')
    (h : pieces rest = some (parts, after)) :
    pieces (c :: rest) = some (.char c :: parts, after) := by
  rw [pieces.eq_def]
  split
  · exact absurd ‹_› (by simp)
  · exact absurd (List.cons.inj ‹_›).1 hQuote
  · exact absurd (List.cons.inj ‹_›).1 hSlash
  · exact absurd (List.cons.inj ‹_›).1 hSlash
  · obtain ⟨rfl, rfl⟩ := List.cons.inj ‹c :: rest = _›
    simp [hVisible, h]

/-! ## Joining the pieces -/

/-- A unit that is no high surrogate is joined to nothing. -/
theorem join_unit {n : ℕ} (hSingle : n < 0xD800 ∨ 0xDBFF < n) (tail : List Piece) :
    join (.unit n :: tail) = unitChar n :: join tail := by
  have hNoPair (low : ℕ) :
      (0xD800 ≤ n && n < 0xDC00 && 0xDC00 ≤ low && low < 0xE000) = false := by
    simp only [Bool.and_eq_false_iff, decide_eq_false_iff_not]
    omega
  cases tail with
  | nil => rfl
  | cons part tail =>
      cases part with
      | char c => rfl
      | unit low => simp [join, hNoPair]

/-- No character is a surrogate. -/
theorem toNat_range (c : Char) : c.toNat < 0xD800 ∨ 0xDFFF < c.toNat ∧ c.toNat < 0x110000 :=
  c.valid

theorem unitChar_toNat (c : Char) : unitChar c.toNat = c := by
  have hRange := toNat_range c
  have hNoSurrogate : (0xD800 ≤ c.toNat && c.toNat < 0xE000) = false := by
    simp only [Bool.and_eq_false_iff, decide_eq_false_iff_not]
    omega
  rw [unitChar, hNoSurrogate]
  exact Char.ofNat_toNat c

/-- The surrogates of a character are joined to it. -/
theorem join_surrogates {c : Char} (h : 0x10000 ≤ c.toNat) (tail : List Piece) :
    join (.unit (0xD800 + (c.toNat - 0x10000) / 0x400) ::
      .unit (0xDC00 + (c.toNat - 0x10000) % 0x400) :: tail) = c :: join tail := by
  have hRange := toNat_range c
  generalize hHigh : 0xD800 + (c.toNat - 0x10000) / 0x400 = high
  generalize hLow : 0xDC00 + (c.toNat - 0x10000) % 0x400 = low
  have hPair : (0xD800 ≤ high && high < 0xDC00 && 0xDC00 ≤ low && low < 0xE000) = true := by
    simp only [Bool.and_eq_true, decide_eq_true_eq]
    omega
  have hCode : 0x10000 + (high - 0xD800) * 0x400 + (low - 0xDC00) = c.toNat := by omega
  simp only [join, hPair, if_true, hCode, Char.ofNat_toNat]

/-! ## The round trip -/

/-- The written character is taken apart into these pieces, and they are joined to it again. -/
structure Spells (c : Char) (parts : List Piece) : Prop where
  found : ∀ {rest after : List Char} {tail : List Piece}, pieces rest = some (tail, after) →
    pieces (encodeChar c ++ rest) = some (parts ++ tail, after)
  joined : ∀ tail : List Piece, join (parts ++ tail) = c :: join tail

theorem spells_shortEscape {c e : Char} (hEncode : encodeChar c = ['\\', e])
    (hEscape : shortEscape? e = some c) : Spells c [.char c] where
  found h := by
    rw [hEncode]
    exact pieces_shortEscape hEscape h
  joined _ := rfl

theorem spells_self {c : Char} (hEncode : encodeChar c = [c]) (hQuote : c ≠ '"')
    (hSlash : c ≠ '\\') (hVisible : ¬ c < ' ') : Spells c [.char c] where
  found h := by
    rw [hEncode]
    exact pieces_char hQuote hSlash hVisible h
  joined _ := rfl

theorem spells_unit {c : Char} (hEncode : encodeChar c = unitEscape c.toNat)
    (h : c.toNat < 0x10000) : Spells c [.unit c.toNat] where
  found hRest := by
    rw [hEncode]
    exact pieces_unitEscape h hRest
  joined tail := by
    have hRange := toNat_range c
    rw [List.singleton_append, join_unit (by omega), unitChar_toNat]

theorem spells_surrogates {c : Char}
    (hEncode : encodeChar c = unitEscape (0xD800 + (c.toNat - 0x10000) / 0x400) ++
      unitEscape (0xDC00 + (c.toNat - 0x10000) % 0x400))
    (h : 0x10000 ≤ c.toNat) :
    Spells c [.unit (0xD800 + (c.toNat - 0x10000) / 0x400),
      .unit (0xDC00 + (c.toNat - 0x10000) % 0x400)] where
  found hRest := by
    have hRange := toNat_range c
    rw [hEncode, List.append_assoc]
    exact pieces_unitEscape (by omega) (pieces_unitEscape (by omega) hRest)
  joined tail := join_surrogates h tail

/-- Every character is spelled by some pieces. -/
theorem exists_spells (c : Char) : ∃ parts, Spells c parts := by
  by_cases hShort : c ∈ ['"', '\\', '\n', '\r', '\t', '\x08', '\x0c']
  · simp only [List.mem_cons, List.not_mem_nil, or_false] at hShort
    refine ⟨[.char c], ?_⟩
    rcases hShort with rfl | rfl | rfl | rfl | rfl | rfl | rfl <;>
      exact spells_shortEscape rfl rfl
  simp only [List.mem_cons, List.not_mem_nil, or_false, not_or] at hShort
  obtain ⟨hQuote, hSlash, hLine, hReturn, hTab, hBack, hFeed⟩ := hShort
  have hEncode : encodeChar c =
      if ' ' ≤ c && c ≤ '~' then [c]
      else if c.toNat < 0x10000 then unitEscape c.toNat
      else unitEscape (0xD800 + (c.toNat - 0x10000) / 0x400) ++
        unitEscape (0xDC00 + (c.toNat - 0x10000) % 0x400) := by
    rw [encodeChar, if_neg hQuote, if_neg hSlash, if_neg hLine, if_neg hReturn, if_neg hTab,
      if_neg hBack, if_neg hFeed]
  split at hEncode
  · rename_i hVisible
    have hBlank : ' ' ≤ c := of_decide_eq_true (Bool.and_eq_true_iff.1 hVisible).1
    exact ⟨_, spells_self hEncode hQuote hSlash (Char.not_lt.2 hBlank)⟩
  · split at hEncode
    · exact ⟨_, spells_unit hEncode ‹_›⟩
    · exact ⟨_, spells_surrogates hEncode (by omega)⟩

/-- A string that is written in quotes is read up to its closing quote. -/
theorem decode_written (text rest : List Char) :
    decode (text.flatMap encodeChar ++ '"' :: rest) = some (text, rest) := by
  have hPieces : ∃ parts, pieces (text.flatMap encodeChar ++ '"' :: rest) = some (parts, rest) ∧
      join parts = text := by
    induction text with
    | nil => exact ⟨[], by simp [pieces], rfl⟩
    | cons c text ih =>
        obtain ⟨parts, hFound, hJoined⟩ := ih
        obtain ⟨first, hSpells⟩ := exists_spells c
        refine ⟨first ++ parts, ?_, ?_⟩
        · rw [List.flatMap_cons, List.append_assoc]
          exact hSpells.found hFound
        · rw [hSpells.joined, hJoined]
  obtain ⟨parts, hFound, hJoined⟩ := hPieces
  rw [decode, hFound]
  show some (join parts, rest) = some (text, rest)
  rw [hJoined]

end DerivCalc.Json.Text
