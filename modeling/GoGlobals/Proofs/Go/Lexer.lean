import GoGlobals.Go.Lexer
import GoGlobals.Proofs.Grammar.Production
import GoGlobals.Proofs.Text.Cursor
import GoGlobals.Text.Blank

/-!
# Tokens are cut out of the text

A token found at a cursor starts behind the white space there and covers the pieces that follow, and
it is taken for an identifier only if these pieces spell one.  The latter is not a matter of course:
a word of fixed spelling that is not reserved is offered as an identifier too, so the number under
which a word is looked up must not be that of identifiers, and no other token may have it either.

## What is here

* `IsIdentifier` says what an identifier is; `IsIdentifier.not_blank` that it holds no white space.
* `CutAt` says how a token lies in the text.
* `Vocabulary.token?_cut` is the specification of the lexer.
-/

set_option autoImplicit false

namespace GoGlobals.Text

/-! ## Identifiers -/

/-- The characters spell an identifier. -/
inductive IsIdentifier : List Char → Prop
  | intro {c : Char} {cs : List Char} (hc : isIdentifierStart c = true)
      (hcs : ∀ d ∈ cs, isIdentifierPart d = true) : IsIdentifier (c :: cs)

theorem IsIdentifier.isPart {cs : List Char} (h : IsIdentifier cs) :
    ∀ c ∈ cs, isIdentifierPart c = true := by
  cases h with
  | intro hc hcs =>
    intro d hd
    rcases List.mem_cons.1 hd with rfl | hd
    · exact isIdentifierPart_of_start hc
    · exact hcs d hd

/-- No range of the first list meets one of the second. -/
def apart (rs ss : List (Nat × Nat)) : Bool :=
  rs.all fun r => ss.all fun s => r.2 < s.1 || s.2 < r.1

theorem not_inRanges_of_apart {rs : List (Nat × Nat)} (ss : List (Nat × Nat))
    (h : apart rs ss = true) {n : Nat} (hr : inRanges rs n = true) : inRanges ss n = false := by
  rw [Bool.eq_false_iff]
  intro hs
  obtain ⟨r, hr, hlo, hhi⟩ := inRanges_iff.1 hr
  obtain ⟨s, hs, hlo', hhi'⟩ := inRanges_iff.1 hs
  have hrs := List.all_eq_true.1 (List.all_eq_true.1 h r hr) s hs
  simp only [Bool.or_eq_true, decide_eq_true_eq] at hrs
  omega

/-- No character of an identifier is white space, in the wider sense. -/
theorem isBlank_of_isIdentifierPart {c : Char} (h : isIdentifierPart c = true) :
    isBlank c = false := by
  rw [isIdentifierPart] at h
  by_cases hc : c.toNat < 0x80
  · have hascii : ∀ n < 0x80, ((Char.ofNat n).isAlphanum || Char.ofNat n == '_') = true →
        isBlank (Char.ofNat n) = false := by decide
    rw [if_pos hc] at h
    have := hascii c.toNat hc
    rw [Char.ofNat_toNat] at this
    exact this h
  · rw [if_neg hc, Bool.or_eq_true] at h
    have hspace : isWhiteSpace c = false := by
      rcases h with h | h
      · exact not_inRanges_of_apart whiteSpaceRanges (by decide +kernel) h
      · exact not_inRanges_of_apart whiteSpaceRanges (by decide +kernel) h
    rw [isBlank, hspace, Bool.false_or, Bool.and_eq_false_iff, decide_eq_false_iff_not]
    exact .inr (by simp; omega)

theorem IsIdentifier.not_blank {cs : List Char} (h : IsIdentifier cs) :
    ∀ c ∈ cs, isBlank c = false :=
  fun c hc => isBlank_of_isIdentifierPart (h.isPart c hc)

end GoGlobals.Text

namespace GoGlobals.Go

open Text (Piece Place Cursor IsIdentifier)
open Grammar (Symbol Compiled Token compile)

/-! ## Words -/

theorem countWhile_eq (p : Piece → Bool) (n : Nat) (ps : List Piece) :
    countWhile p n ps = n + (ps.takeWhile p).length := by
  induction ps generalizing n with
  | nil => rfl
  | cons c cs ih =>
    rw [countWhile, List.takeWhile_cons]
    split
    · rw [ih, List.length_cons]; omega
    · rfl

/-- Leading pieces of a class are characters of the class. -/
theorem takeWhile_is (q : Char → Bool) (ps : List Piece) :
    ∃ cs : List Char, ps.takeWhile (Piece.is q) = cs.map Piece.char ∧ ∀ c ∈ cs, q c = true := by
  induction ps with
  | nil => exact ⟨[], rfl, fun _ h => absurd h List.not_mem_nil⟩
  | cons p ps ih =>
    obtain ⟨cs, hcs, hq⟩ := ih
    rw [List.takeWhile_cons]
    split
    · rename_i hp
      cases p with
      | broken w => exact absurd hp (by simp [Piece.is])
      | char c =>
        refine ⟨c :: cs, by rw [hcs, List.map_cons], fun d hd => ?_⟩
        rcases List.mem_cons.1 hd with rfl | hd
        · exact hp
        · exact hq d hd
    · exact ⟨[], rfl, fun _ h => absurd h List.not_mem_nil⟩

/-- The pieces of a word are the characters of an identifier. -/
theorem take_countWhile {first : Char} (h : Text.isIdentifierStart first = true)
    (rest : List Piece) :
    ∃ cs, IsIdentifier cs ∧
      (.char first :: rest).take (countWhile (Piece.is Text.isIdentifierPart) 1 rest) =
        cs.map Piece.char := by
  obtain ⟨cs, hcs, hpart⟩ := takeWhile_is Text.isIdentifierPart rest
  refine ⟨first :: cs, .intro h hpart, ?_⟩
  rw [countWhile_eq, Nat.add_comm, List.take_succ_cons, List.map_cons, ← hcs,
    ← List.prefix_iff_eq_take.1 (List.takeWhile_prefix _)]

/-! ## How tokens lie in the text -/

/-- The symbol is a token, and an identifier only if the pieces are one. -/
def Suits (g : Compiled) (ps : List Piece) (symbol : Nat) : Prop :=
  (g.symbol symbol).isTerminal = true ∧
    (g.symbol symbol = identifier → ∃ cs, IsIdentifier cs ∧ ps = cs.map Piece.char)

/-- The token is cut out of the text at the cursor, and its pieces suit whatever it can be. -/
def CutAt (g : Compiled) (c : Cursor) (t : Token) : Prop :=
  ∃ n, t.start = c.place ∧ t.stop = c.skip n ∧
    ∀ symbol, t.symbol = symbol ∨ t.otherwise = some symbol → Suits g (c.rest.take n) symbol

theorem CutAt.otherwise {g : Compiled} {c : Cursor} {t : Token} {symbol : Nat} (h : CutAt g c t)
    (hother : t.otherwise = some symbol) :
    CutAt g c { t with symbol := symbol, otherwise := none } := by
  obtain ⟨n, hstart, hstop, hsuits⟩ := h
  refine ⟨n, hstart, hstop, fun s hs => ?_⟩
  rcases hs with rfl | hs
  · exact hsuits symbol (.inr hother)
  · exact absurd hs (by simp)

theorem CutAt.extra {g : Compiled} {c : Cursor} {t : Token} (h : CutAt g c t) (extra : Bool) :
    CutAt g c { t with extra := extra } :=
  h

section

variable {first : List Symbol} {definitions : List Grammar.Definition}

/-- Any token but an identifier suits any pieces. -/
theorem suits_number {s : Symbol} (hterminal : s.isTerminal = true) (hne : s ≠ identifier)
    (ps : List Piece) :
    Suits (compile first definitions) ps ((compile first definitions).number s) := by
  rcases Grammar.symbol_number first definitions s with h | h
  · exact ⟨by rw [h, hterminal], fun heq => absurd (h.symm.trans heq) hne⟩
  · exact ⟨by rw [h]; rfl, fun heq => absurd (h.symm.trans heq) (by decide)⟩

theorem suits_zero (ps : List Piece) : Suits (compile first definitions) ps 0 := by
  have h := Grammar.symbol_zero first definitions
  exact ⟨by rw [h]; rfl, fun heq => absurd (h.symm.trans heq) (by decide)⟩

/-- A word suits the number of identifiers. -/
theorem suits_identifier {ps : List Piece} (h : ∃ cs, IsIdentifier cs ∧ ps = cs.map Piece.char) :
    Suits (compile first definitions) ps ((compile first definitions).number identifier) := by
  refine ⟨?_, fun _ => h⟩
  rcases Grammar.symbol_number first definitions identifier with h | h
  · rw [h]; rfl
  · rw [h]; rfl

/-- A token of fixed spelling is not an identifier. -/
theorem suits_spelled {s : Symbol} {spelling : String} (h : s.spelling? = some spelling)
    (ps : List Piece) :
    Suits (compile first definitions) ps ((compile first definitions).number s) := by
  cases s with
  | text spelling => exact suits_number rfl (by simp [identifier]) ps
  | constant kind spelling => exact suits_number rfl (by simp [identifier]) ps
  | finish => exact absurd h (by simp [Symbol.spelling?])
  | lexeme kind => exact absurd h (by simp [Symbol.spelling?])
  | construct kind => exact absurd h (by simp [Symbol.spelling?])
  | family name => exact absurd h (by simp [Symbol.spelling?])
  | repetition name index => exact absurd h (by simp [Symbol.spelling?])

theorem cutAt_tokenOf {symbol n : Nat} {c : Cursor}
    (h : Suits (compile first definitions) (c.rest.take n) symbol) :
    CutAt (compile first definitions) c (Vocabulary.tokenOf symbol n c) := by
  refine ⟨n, rfl, rfl, fun s hs => ?_⟩
  rcases hs with rfl | hs
  · exact h
  · exact absurd hs (by simp [Vocabulary.tokenOf])

/-! ## Finding a token -/

theorem suits_of_mem_spelled {symbols : List Symbol} {entry : String × Nat}
    (h : entry ∈ symbols.filterMap fun s =>
      s.spelling?.map fun spelling => (spelling, (compile first definitions).number s))
    (ps : List Piece) : Suits (compile first definitions) ps entry.2 := by
  obtain ⟨s, -, hs⟩ := List.mem_filterMap.1 h
  obtain ⟨spelling, hspelling, rfl⟩ := Option.map_eq_some_iff.1 hs
  exact suits_spelled hspelling ps

theorem mem_words {entry : String × Nat}
    (h : entry ∈ (Vocabulary.ofGrammar (compile first definitions)).words) (ps : List Piece) :
    Suits (compile first definitions) ps entry.2 :=
  suits_of_mem_spelled (List.mem_filter.1 h).1 ps

theorem mem_operators {entry : List Char × Nat}
    (h : entry ∈ (Vocabulary.ofGrammar (compile first definitions)).operators)
    (ps : List Piece) : Suits (compile first definitions) ps entry.2 := by
  obtain ⟨mark, hmark, rfl⟩ := List.mem_map.1 (List.mem_mergeSort.1 h)
  exact suits_of_mem_spelled (List.mem_filter.1 hmark).1 ps

namespace Vocabulary

theorem wordToken_cut {expects : Nat → Bool} {n : Nat} {c : Cursor}
    (h : ∃ cs, IsIdentifier cs ∧ c.rest.take n = cs.map Piece.char) :
    CutAt (compile first definitions) c
      ((ofGrammar (compile first definitions)).wordToken expects n c) := by
  rw [wordToken]
  simp only []
  split
  · exact cutAt_tokenOf (suits_identifier h)
  · rename_i symbol hlookup
    have hword : Suits (compile first definitions) (c.rest.take n) symbol := by
      obtain ⟨before, after, hwords, -⟩ := List.lookup_eq_some_iff.1 hlookup
      have hmem : (wordOf n c.rest, symbol) ∈ (ofGrammar (compile first definitions)).words := by
        rw [hwords]
        exact List.mem_append_right _ List.mem_cons_self
      exact mem_words hmem _
    split
    · exact cutAt_tokenOf hword
    split
    · refine ⟨n, rfl, rfl, fun s hs => ?_⟩
      rcases hs with rfl | hs
      · exact hword
      · obtain rfl := Option.some.inj hs
        exact suits_identifier h
    · exact cutAt_tokenOf (suits_identifier h)

theorem operatorToken?_cut {expects : Nat → Bool} {c : Cursor} {t : Token}
    (h : (ofGrammar (compile first definitions)).operatorToken? expects c = some t) :
    CutAt (compile first definitions) c t := by
  obtain ⟨entry, hfind, rfl⟩ := Option.map_eq_some_iff.1 h
  exact cutAt_tokenOf (mem_operators (List.mem_of_find?_eq_some hfind) _)

/-- A number is never taken for an identifier. -/
theorem numberAt?_ne {ps : List Piece} {kind : String} {n : Nat}
    (h : numberAt? ps = some (kind, n)) : kind ≠ "identifier" := by
  rw [numberAt?] at h
  split at h
  · obtain ⟨rfl, -⟩ := Prod.mk.inj (Option.some.inj h); decide
  split at h
  · obtain ⟨rfl, -⟩ := Prod.mk.inj (Option.some.inj h); decide
  split at h
  · obtain ⟨rfl, -⟩ := Prod.mk.inj (Option.some.inj h); decide
  · exact absurd h (by simp)

theorem suits_literal {kind : String} (h : kind ≠ "identifier") (ps : List Piece) :
    Suits (compile first definitions) ps
      ((ofGrammar (compile first definitions)).literal kind) :=
  suits_number rfl (fun heq => h (Symbol.lexeme.inj heq)) ps

theorem suits_endOfText (expects : Nat → Bool) (ps : List Piece) :
    Suits (compile first definitions) ps
      ((ofGrammar (compile first definitions)).endOfText expects) := by
  rw [endOfText]
  split
  · exact suits_number rfl (by decide) ps
  · exact suits_zero ps

theorem tokenAt?_cut {expects : Nat → Bool} {c : Cursor} {t : Token}
    (h : (ofGrammar (compile first definitions)).tokenAt? expects c = some t) :
    CutAt (compile first definitions) c t := by
  rw [tokenAt?] at h
  split at h
  · obtain rfl := Option.some.inj h
    exact cutAt_tokenOf (suits_endOfText expects _)
  · exact absurd h (by simp)
  · rename_i first' rest hrest
    split at h
    · obtain rfl := Option.some.inj h
      exact cutAt_tokenOf (suits_number rfl (by decide) _)
    split at h
    · obtain rfl := Option.some.inj h
      exact cutAt_tokenOf (suits_number rfl (by decide) _)
    split at h
    · rename_i hstart
      obtain rfl := Option.some.inj h
      refine wordToken_cut ?_
      rw [hrest]
      exact take_countWhile hstart rest
    split at h
    · obtain ⟨n, -, rfl⟩ := Option.map_eq_some_iff.1 h
      exact cutAt_tokenOf (suits_literal (by decide) _)
    split at h
    · obtain ⟨n, -, rfl⟩ := Option.map_eq_some_iff.1 h
      exact cutAt_tokenOf (suits_literal (by decide) _)
    split at h
    · obtain ⟨n, -, rfl⟩ := Option.map_eq_some_iff.1 h
      exact cutAt_tokenOf (suits_literal (by decide) _)
    split at h
    · obtain rfl := Option.some.inj h
      exact CutAt.extra (cutAt_tokenOf (suits_number rfl (by decide) _)) true
    · rename_i kind n hnumber
      split at h
      · obtain rfl := Option.some.inj h
        exact cutAt_tokenOf (suits_literal (numberAt?_ne hnumber) _)
      · exact operatorToken?_cut h
    · exact operatorToken?_cut h

end Vocabulary

/-- White space is passed by. -/
theorem skipSpace_ahead (newlineEnds : Bool) (c : Cursor) :
    ∃ ps, c.Ahead (skipSpace newlineEnds c) ps := by
  rw [skipSpace]
  split
  · exact ⟨_, (c.ahead_skip 1).trans (Text.Cursor.ahead_skipWhile _ _)⟩
  · exact ⟨_, Text.Cursor.ahead_skipWhile _ _⟩

/-- **A token is cut out of the text behind white space**, and what is taken for an identifier
spells one. -/
theorem Vocabulary.token?_cut {expects : Nat → Bool} {c : Cursor} {t : Token}
    (h : (ofGrammar (compile first definitions)).token? expects c = some t) :
    ∃ ps d, c.Ahead d ps ∧ CutAt (compile first definitions) d t := by
  obtain ⟨ps, hahead⟩ := skipSpace_ahead
    (expects (ofGrammar (compile first definitions)).newline) c
  exact ⟨ps, _, hahead, tokenAt?_cut h⟩

end

end GoGlobals.Go
