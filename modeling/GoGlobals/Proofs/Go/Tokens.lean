import GoGlobals.Proofs.Go.Lexer
import GoGlobals.Proofs.Go.Printing
import GoGlobals.Proofs.Go.Stages

/-!
# The tokens of printed declarations

Which token the lexer finds at a place depends on the characters there and on what the parser
expects.  A name is taken for a keyword or for the blank identifier if it is spelled like one, a
mark for the longest operator that stands there, and a line feed for white space where it ends
nothing.  What is found in printed declarations does not hang on any of this: every stage that
awaits a part finds it.

## What is here

* `spelledRight`: the spellings of the symbols of the grammar do not get in the way of each other,
  which is checked symbol by symbol.
* `tokenAt?_name`, `tokenAt?_keyword`, `tokenAt?_mark`, `tokenAt?_integer`, `tokenAt?_string`,
  `tokenAt?_lineFeed` and `tokenAt?_finish`: what is found at the start of each kind of part.
* `Spells` says that characters are a part in front of others, and `Spells.token?` that the part is
  found, also behind white space.
-/

set_option autoImplicit false

namespace GoGlobals.Go

open Text (Piece Place Cursor)
open Grammar

/-! ## Spellings -/

/-- The character of a part that is spelled with a single one. -/
def Part.mark? : Part → Option Char
  | .comma => some ','
  | .equals => some '='
  | .dot => some '.'
  | .parenthesis => some '('
  | .closingParenthesis => some ')'
  | .brace => some '\x7b'
  | .closingBrace => some '\x7d'
  | _ => none

/-- The characters of these parts. -/
def marks : List Char :=
  [',', '=', '.', '(', ')', '\x7b', '\x7d']

/-- What is asked of the spelling of a symbol.  A reserved word belongs to one symbol, and every
other word is a fixed one or the blank identifier.  A mark belongs to one symbol, and a longer
operator that starts with a mark repeats it. -/
def spelledRight (s : Symbol) : Bool :=
  match s.spelling? with
  | none => true
  | some w =>
    if isWord w then
      if keywords.contains w then s == .text w
      else fixedWords.contains w || s == Part.blank.symbol
    else
      match w.toList with
      | [] => false
      | [c] => !marks.contains c || s == .text w
      | c :: d :: _ => !marks.contains c || d == c

theorem spelledRight_definitions :
    ((unfoldAll definitions).all fun d => !d.symbol.isTerminal && d.alternatives.all fun a =>
      a.rule.symbols.all spelledRight) = true := by
  decide +kernel

theorem spelledRight_of_mem {s : Symbol} (h : s ∈ grammar.symbols) : spelledRight s = true := by
  rcases mem_symbols_iff.1 h with rfl | hs | ⟨d, hd, a, ha, hs, -⟩ | ⟨d, hd, rfl⟩
  · rfl
  · simp only [List.mem_cons, List.not_mem_nil, or_false] at hs
    rcases hs with rfl | rfl <;> rfl
  · have hright := List.all_eq_true.1 spelledRight_definitions d hd
    rw [Bool.and_eq_true] at hright
    exact List.all_eq_true.1 (List.all_eq_true.1 hright.2 a ha) s hs
  · have hright := List.all_eq_true.1 spelledRight_definitions d hd
    rw [Bool.and_eq_true, Bool.not_eq_true'] at hright
    have hnone : d.symbol.spelling? = none := by
      cases hsymbol : d.symbol with
      | construct | family | repetition => rfl
      | finish | text | constant | lexeme => simp [hsymbol, Symbol.isTerminal] at hright
    rw [spelledRight, hnone]

section

variable {g : Compiled}

theorem mem_words_iff {w : String} {n : Nat} : (w, n) ∈ (Vocabulary.ofGrammar g).words ↔
    ∃ s ∈ g.symbols, s.spelling? = some w ∧ g.number s = n ∧ isWord w = true := by
  simp only [Vocabulary.ofGrammar, List.mem_filter, List.mem_filterMap, Option.map_eq_some_iff,
    Prod.mk.injEq, Array.mem_toList_iff]
  constructor
  · rintro ⟨⟨s, hs, w, hspelling, rfl, hn⟩, hword⟩
    exact ⟨s, hs, hspelling, hn, hword⟩
  · rintro ⟨s, hs, hspelling, hn, hword⟩
    exact ⟨⟨s, hs, w, hspelling, rfl, hn⟩, hword⟩

theorem mem_operators_iff {cs : List Char} {n : Nat} :
    (cs, n) ∈ (Vocabulary.ofGrammar g).operators ↔
      ∃ s ∈ g.symbols, ∃ w, s.spelling? = some w ∧ g.number s = n ∧ w.toList = cs ∧
        isWord w = false ∧ w ≠ "\n" ∧ w ≠ "\x00" := by
  simp only [Vocabulary.ofGrammar, List.mem_mergeSort, List.mem_map, List.mem_filter,
    List.mem_filterMap, Option.map_eq_some_iff, Prod.mk.injEq, Array.mem_toList_iff, Prod.exists,
    Bool.and_eq_true, Bool.not_eq_true', bne_iff_ne]
  constructor
  · rintro ⟨w, _, ⟨⟨s, hs, _, hspelling, rfl, hn⟩, ⟨hword, hfeed⟩, hnul⟩, hcs, rfl⟩
    exact ⟨s, hs, _, hspelling, hn, hcs, hword, hfeed, hnul⟩
  · rintro ⟨s, hs, w, hspelling, hn, hcs, hword, hfeed, hnul⟩
    exact ⟨w, n, ⟨⟨s, hs, w, hspelling, rfl, hn⟩, ⟨hword, hfeed⟩, hnul⟩, hcs, rfl⟩

end

/-- The symbols that the vocabulary has for itself. -/
theorem vocabulary_symbols :
    vocabulary.newline = Part.lineFeed.number ∧ vocabulary.nul = Part.nul.number ∧
      vocabulary.identifier = Part.name.number ∧
      vocabulary.literal "int_literal" = Part.integer.number ∧
      vocabulary.literal "interpreted_string_literal" = Part.text.number := by
  rw [vocabulary, Vocabulary.ofGrammar]
  simp only [← Part.number_symbol, Part.symbol, and_self]

theorem vocabulary_newline : vocabulary.newline = Part.lineFeed.number :=
  vocabulary_symbols.1

theorem vocabulary_nul : vocabulary.nul = Part.nul.number :=
  vocabulary_symbols.2.1

theorem vocabulary_identifier : vocabulary.identifier = Part.name.number :=
  vocabulary_symbols.2.2.1

theorem vocabulary_integer : vocabulary.literal "int_literal" = Part.integer.number :=
  vocabulary_symbols.2.2.2.1

theorem vocabulary_text :
    vocabulary.literal "interpreted_string_literal" = Part.text.number :=
  vocabulary_symbols.2.2.2.2

/-- The symbol of a word that is in the vocabulary. -/
theorem lookup_words {w : String} {n : Nat} (h : vocabulary.words.lookup w = some n) :
    ∃ s ∈ grammar.symbols, s.spelling? = some w ∧ grammar.number s = n ∧ isWord w = true := by
  obtain ⟨before, after, hwords, -⟩ := List.lookup_eq_some_iff.1 h
  refine mem_words_iff.1 (show (w, n) ∈ vocabulary.words from ?_)
  rw [hwords]
  exact List.mem_append_right _ List.mem_cons_self

/-- A reserved word is the token of its own symbol. -/
theorem lookup_keyword {w : String} (hkeyword : keywords.contains w = true)
    (hmem : Symbol.text w ∈ grammar.symbols) (hword : isWord w = true) :
    vocabulary.words.lookup w = some (grammar.number (.text w)) := by
  cases h : vocabulary.words.lookup w with
  | none =>
    have hentry : (w, grammar.number (.text w)) ∈ vocabulary.words :=
      mem_words_iff.2 ⟨_, hmem, rfl, rfl, hword⟩
    exact absurd (List.lookup_eq_none_iff.1 h _ hentry) (by simp)
  | some n =>
    obtain ⟨s, hs, hspelling, rfl, -⟩ := lookup_words h
    have hright := spelledRight_of_mem hs
    rw [spelledRight, hspelling] at hright
    simp only [hword, hkeyword, if_true, beq_iff_eq] at hright
    rw [hright]

/-- A name is no token of fixed spelling, unless it is the blank identifier. -/
theorem lookup_name (x : Name) {n : Nat} (h : vocabulary.words.lookup x.text = some n) :
    n = Part.blank.number ∧ x.text = "_" := by
  obtain ⟨s, hs, hspelling, rfl, hword⟩ := lookup_words h
  have hfree : fixedWords.contains x.text = false := by
    have hfree := x.free
    rw [isFreeName] at hfree
    split at hfree
    · exact absurd hfree (by simp)
    · simp only [Bool.and_eq_true, Bool.not_eq_true'] at hfree
      exact hfree.2
  have hkeyword : keywords.contains x.text = false := by
    rw [fixedWords, List.contains_eq_any_beq, List.any_append, Bool.or_eq_false_iff] at hfree
    rw [List.contains_eq_any_beq]
    exact hfree.1
  have hright := spelledRight_of_mem hs
  rw [spelledRight, hspelling] at hright
  simp only [hword, hkeyword, hfree, if_true, Bool.false_or, beq_iff_eq, Bool.false_eq_true,
    if_false] at hright
  subst hright
  exact ⟨Part.blank.number_symbol, (Option.some.inj hspelling).symm⟩

/-! ## Words -/

/-- The characters of a word. -/
structure IsWord (w : String) (c : Char) (cs : List Char) : Prop where
  toList_eq : w.toList = c :: cs
  start : Text.isIdentifierStart c = true
  parts : ∀ d ∈ cs, Text.isIdentifierPart d = true

theorem isIdentifierStart_of_ascii {c : Char} (h : (c.isAlpha || c == '_') = true) :
    Text.isIdentifierStart c = true := by
  have hlt : c.toNat < 0x80 := by
    delta Char.isAlpha Char.isUpper Char.isLower at h
    simp only [Bool.or_eq_true, Bool.and_eq_true, decide_eq_true_eq, beq_iff_eq,
      UInt32.le_iff_toNat_le] at h
    rcases h with (⟨-, h⟩ | ⟨-, h⟩) | rfl
    · exact Nat.lt_of_le_of_lt h (by decide)
    · exact Nat.lt_of_le_of_lt h (by decide)
    · decide
  rw [Text.isIdentifierStart, if_pos hlt, h]

theorem isIdentifierPart_of_ascii {c : Char} (h : (c.isAlphanum || c == '_') = true) :
    Text.isIdentifierPart c = true := by
  have hlt : c.toNat < 0x80 := by
    delta Char.isAlphanum Char.isAlpha Char.isUpper Char.isLower Char.isDigit at h
    simp only [Bool.or_eq_true, Bool.and_eq_true, decide_eq_true_eq, beq_iff_eq,
      UInt32.le_iff_toNat_le] at h
    rcases h with ((⟨-, h⟩ | ⟨-, h⟩) | ⟨-, h⟩) | rfl
    · exact Nat.lt_of_le_of_lt h (by decide)
    · exact Nat.lt_of_le_of_lt h (by decide)
    · exact Nat.lt_of_le_of_lt h (by decide)
    · decide
  rw [Text.isIdentifierPart, if_pos hlt, h]

theorem IsWord.of_ascii {w : String} {c : Char} {cs : List Char} (htext : w.toList = c :: cs)
    (hstart : (c.isAlpha || c == '_') = true)
    (hparts : cs.all (fun d => d.isAlphanum || d == '_') = true) : IsWord w c cs :=
  ⟨htext, isIdentifierStart_of_ascii hstart, fun d hd =>
    isIdentifierPart_of_ascii (List.all_eq_true.1 hparts d hd)⟩

theorem Name.isWord (x : Name) : ∃ c cs, IsWord x.text c cs := by
  have hfree := x.free
  rw [isFreeName] at hfree
  split at hfree
  · exact absurd hfree (by simp)
  · rename_i c cs heq
    rw [Bool.and_eq_true, Bool.and_eq_true] at hfree
    obtain ⟨⟨hstart, hparts⟩, -⟩ := hfree
    exact ⟨c, cs, .of_ascii heq hstart hparts⟩

/-- Behind a word stands nothing that could belong to it. -/
def EndsWord (rest : List Char) : Prop :=
  ∀ c ∈ rest.head?, Text.isIdentifierPart c = false

theorem IsWord.tokenAt? {w : String} {c : Char} {cs : List Char} (h : IsWord w c cs)
    (expects : Nat → Bool) (gone : List Char) {rest : List Char} (hrest : EndsWord rest) :
    vocabulary.tokenAt? expects (.between gone (w.toList ++ rest)) =
        some (vocabulary.wordToken expects w.toList.length (.between gone (w.toList ++ rest))) ∧
      wordOf w.toList.length (Cursor.between gone (w.toList ++ rest)).rest = w := by
  have hcount : countWhile (Piece.is Text.isIdentifierPart) 1 ((cs ++ rest).map .char) =
      w.toList.length := by
    have htake : ((cs ++ rest).map Piece.char).takeWhile (Piece.is Text.isIdentifierPart) =
        cs.map .char := by
      rw [List.map_append, List.takeWhile_append_of_pos (by simpa [Piece.is] using h.parts)]
      cases rest with
      | nil => simp
      | cons d rest => simp [Piece.is, hrest d rfl]
    rw [countWhile_eq, htake, h.toList_eq, List.length_map, List.length_cons, Nat.add_comm]
  have hne : c ≠ '\n' ∧ c ≠ '\x00' := by
    constructor <;> rintro rfl <;> exact absurd h.start (by decide)
  refine ⟨?_, ?_⟩
  · rw [Vocabulary.tokenAt?, Cursor.rest_between, ← hcount, h.toList_eq, List.cons_append,
      List.map_cons]
    simp [hne, h.start]
  · have htake : ((w.toList ++ rest).map Piece.char).take w.toList.length = w.toList.map .char := by
      simp
    rw [wordOf, Cursor.rest_between, htake, List.map_map]
    exact (congrArg String.ofList (List.map_id _)).trans String.ofList_toList

/-- A token that stands behind white space. -/
def tokenOver (x : Part) (gone blanks cs rest : List Char) : Token :=
  { symbol := x.number
    start := (Cursor.between (gone ++ blanks) (cs ++ rest)).place
    stop := .between (gone ++ blanks ++ cs) rest }

theorem tokenOf_eq (x : Part) (gone cs rest : List Char) :
    Vocabulary.tokenOf x.number cs.length (.between gone (cs ++ rest)) =
      tokenOver x gone [] cs rest := by
  rw [Vocabulary.tokenOf, tokenOver, Cursor.skip_between, List.append_nil]

theorem tokenAt?_name (x : Name) {expects : Nat → Bool}
    (hblank : expects Part.blank.number = false) (gone : List Char) {rest : List Char}
    (hrest : EndsWord rest) :
    vocabulary.tokenAt? expects (.between gone (x.text.toList ++ rest)) =
      some (tokenOver .name gone [] x.text.toList rest) := by
  obtain ⟨c, cs, hword⟩ := x.isWord
  obtain ⟨htoken, htext⟩ := hword.tokenAt? expects gone hrest
  rw [htoken, Vocabulary.wordToken, htext, ← tokenOf_eq]
  cases h : vocabulary.words.lookup x.text with
  | none => simp only [vocabulary_identifier]
  | some n =>
    obtain ⟨hn, hx⟩ := lookup_name x h
    have hkeyword : keywords.contains "_" = false := by decide
    simp only [hn, hx, hkeyword, hblank, vocabulary_identifier, Bool.false_eq_true, if_false]

theorem tokenAt?_keyword {w : String} {c : Char} {cs : List Char} (hword : IsWord w c cs)
    {x : Part} (hx : x.symbol = .text w) (hkeyword : keywords.contains w = true)
    (expects : Nat → Bool) (gone : List Char) {rest : List Char} (hrest : EndsWord rest) :
    vocabulary.tokenAt? expects (.between gone (w.toList ++ rest)) =
      some (tokenOver x gone [] w.toList rest) := by
  obtain ⟨htoken, htext⟩ := hword.tokenAt? expects gone hrest
  have hisWord : isWord w = true := by
    rw [isWord, hword.toList_eq]
    exact hword.start
  have hlookup := lookup_keyword hkeyword (hx ▸ x.symbol_mem) hisWord
  rw [htoken, Vocabulary.wordToken, htext, ← tokenOf_eq, ← Part.number_symbol, hx]
  simp only [hlookup, hkeyword, if_true]

/-! ## Marks -/

theorem startsWith_iff {cs ds : List Char} :
    startsWith cs (ds.map .char) = true ↔ cs <+: ds := by
  induction cs generalizing ds with
  | nil => simp [startsWith]
  | cons c cs ih =>
    cases ds with
    | nil => simp [startsWith]
    | cons d ds =>
      have hchar : isChar c (.char d) = (d == c) := rfl
      rw [List.map_cons, startsWith, Bool.and_eq_true, ih, List.cons_prefix_cons, hchar,
        beq_iff_eq, eq_comm]

/-- Behind a mark stands nothing that could belong to it. -/
def EndsMark (c : Char) (rest : List Char) : Prop :=
  ∀ d ∈ rest.head?, d ≠ c ∧ d.isDigit = false

variable {x : Part} {c : Char}

theorem Part.mem_marks (hx : x.mark? = some c) : c ∈ marks := by
  cases x <;> simp only [Part.mark?, Option.some.injEq, reduceCtorEq] at hx <;> subst hx <;> decide

theorem Part.symbol_eq_mark (hx : x.mark? = some c) : x.symbol = .text (String.ofList [c]) := by
  cases x <;> simp only [Part.mark?, Option.some.injEq, reduceCtorEq] at hx <;> subst hx <;> rfl

theorem Part.mark_mem_operators (hx : x.mark? = some c) :
    ([c], x.number) ∈ vocabulary.operators := by
  refine mem_operators_iff.2
    ⟨x.symbol, x.symbol_mem, String.ofList [c], ?_, x.number_symbol, ?_, ?_⟩
  · rw [x.symbol_eq_mark hx]
    rfl
  · exact String.toList_ofList
  · have hmem := Part.mem_marks hx
    simp only [marks, List.mem_cons, List.not_mem_nil, or_false] at hmem
    rcases hmem with rfl | rfl | rfl | rfl | rfl | rfl | rfl <;> decide

theorem eq_of_mem_operators (hx : x.mark? = some c) {rest : List Char} (hrest : EndsMark c rest)
    {cs : List Char} {n : Nat} (hmem : (cs, n) ∈ vocabulary.operators)
    (hstarts : startsWith cs ((c :: rest).map .char) = true) : cs = [c] ∧ n = x.number := by
  obtain ⟨s, hs, w, hspelling, hn, hcs, hword, -⟩ := mem_operators_iff.1 hmem
  have hmark : marks.contains c = true := by simpa using Part.mem_marks hx
  have hright := spelledRight_of_mem hs
  rw [spelledRight, hspelling] at hright
  simp only [hword, Bool.false_eq_true, if_false, hcs] at hright
  rw [startsWith_iff] at hstarts
  cases cs with
  | nil => simp at hright
  | cons c' cs =>
    obtain ⟨rfl, hprefix⟩ := List.cons_prefix_cons.1 hstarts
    cases cs with
    | nil =>
      simp only [hmark, Bool.not_true, Bool.false_or, beq_iff_eq] at hright
      have hw : w = String.ofList [c'] := by rw [← hcs, String.ofList_toList]
      refine ⟨rfl, ?_⟩
      rw [← hn, hright, hw, ← Part.number_symbol, x.symbol_eq_mark hx]
    | cons d cs =>
      obtain ⟨rest', rfl⟩ := hprefix
      simp only [hmark, Bool.not_true, Bool.false_or, beq_iff_eq] at hright
      exact absurd hright (hrest d rfl).1

theorem operatorToken?_mark (hx : x.mark? = some c) (expects : Nat → Bool) (gone : List Char)
    {rest : List Char} (hrest : EndsMark c rest) :
    vocabulary.operatorToken? expects (.between gone (c :: rest)) =
      if expects x.number then some (tokenOver x gone [] [c] rest) else none := by
  rw [Vocabulary.operatorToken?]
  cases hfind : vocabulary.operators.find? fun entry =>
      startsWith entry.1 (Cursor.between gone (c :: rest)).rest && expects entry.2 with
  | none =>
    have hnone := List.find?_eq_none.1 hfind _ (x.mark_mem_operators hx)
    have hstarts : startsWith [c] ((c :: rest).map .char) = true :=
      startsWith_iff.2 (List.prefix_append [c] rest)
    rw [Cursor.rest_between, hstarts, Bool.true_and] at hnone
    rw [if_neg hnone]
    rfl
  | some entry =>
    obtain ⟨cs, n⟩ := entry
    have hentry := List.find?_some hfind
    rw [Cursor.rest_between, Bool.and_eq_true] at hentry
    obtain ⟨rfl, hn⟩ := eq_of_mem_operators hx hrest (List.mem_of_find?_eq_some hfind) hentry.1
    rw [hn] at hentry
    rw [if_pos hentry.2, Option.map_some, ← tokenOf_eq]
    simp only [hn]
    rfl

theorem numberAt?_mark (hc : c ∈ marks) {rest : List Char} (hrest : EndsMark c rest) :
    numberAt? ((c :: rest).map .char) = none := by
  have hdigits : digitRun Char.isDigit (rest.map .char) = 0 := by
    cases rest with
    | nil => rfl
    | cons d rest => simp [digitRun, digitRunFrom, Piece.is, (hrest d rfl).2]
  by_cases hdot : c = '.'
  · subst hdot
    have hfloat : decimalFloatLength (('.' :: rest).map .char) = 0 := by
      simp only [List.map_cons, decimalFloatLength]
      rw [show digitRun Char.isDigit (.char '.' :: rest.map .char) = 0 from rfl]
      simp [hdigits]
    rw [numberAt?, hfloat]
    rfl
  · simp only [marks, List.mem_cons, List.not_mem_nil, or_false] at hc
    rcases hc with rfl | rfl | rfl | rfl | rfl | rfl | rfl
    · rfl
    · rfl
    · exact absurd rfl hdot
    all_goals rfl

/-- **A mark is found where it is expected.** -/
theorem tokenAt?_mark (hx : x.mark? = some c) (expects : Nat → Bool) (gone : List Char)
    {rest : List Char} (hrest : EndsMark c rest) :
    vocabulary.tokenAt? expects (.between gone (c :: rest)) =
      if expects x.number then some (tokenOver x gone [] [c] rest) else none := by
  rw [← operatorToken?_mark hx expects gone hrest, Vocabulary.tokenAt?]
  have hnumber := numberAt?_mark (Part.mem_marks hx) hrest
  have hmem := Part.mem_marks hx
  simp only [marks, List.mem_cons, List.not_mem_nil, or_false] at hmem
  rw [Cursor.rest_between, hnumber]
  rcases hmem with rfl | rfl | rfl | rfl | rfl | rfl | rfl <;> rfl

/-! ## Literals -/

/-- Behind a value stands a comma or the end of the line. -/
def EndsValue (rest : List Char) : Prop :=
  ∀ c ∈ rest.head?, c = ',' ∨ c = '\n'

theorem digitRunFrom_append {ds : List Char} (hds : areMoreDigits ds = true) {rest : List Char}
    (hrest : EndsValue rest) (n : Nat) :
    digitRunFrom Char.isDigit true n ((ds ++ rest).map .char) = n + ds.length := by
  fun_induction areMoreDigits ds generalizing n with
  | case1 =>
    cases rest with
    | nil => rfl
    | cons c rest => rcases hrest c rfl with rfl | rfl <;> rfl
  | case2 d ds ih =>
    rw [Bool.and_eq_true] at hds
    have hstep : digitRunFrom Char.isDigit true n ((('_' :: d :: ds) ++ rest).map .char) =
        digitRunFrom Char.isDigit true (n + 1 + 1) ((ds ++ rest).map .char) := by
      simp [digitRunFrom, Piece.is, isChar, hds.1]
    rw [hstep, ih hds.2]
    simp only [List.length_cons]
    omega
  | case3 d ds _ ih =>
    rw [Bool.and_eq_true] at hds
    have hstep : digitRunFrom Char.isDigit true n (((d :: ds) ++ rest).map .char) =
        digitRunFrom Char.isDigit true (n + 1) ((ds ++ rest).map .char) := by
      simp [digitRunFrom, Piece.is, hds.1]
    rw [hstep, ih hds.2]
    simp only [List.length_cons]
    omega

theorem digitRun_append {d : Char} (hd : d.isDigit = true) {ds : List Char}
    (hds : areMoreDigits ds = true) {rest : List Char} (hrest : EndsValue rest) :
    digitRun Char.isDigit ((d :: ds ++ rest).map .char) = (d :: ds).length := by
  have hstep : digitRun Char.isDigit ((d :: ds ++ rest).map .char) =
      digitRunFrom Char.isDigit true 1 ((ds ++ rest).map .char) := by
    simp [digitRun, digitRunFrom, Piece.is, hd]
  rw [hstep, digitRunFrom_append hds hrest, List.length_cons, Nat.add_comm]

/-- A number whose digits end at the end of the value is an integer. -/
theorem numberAt?_eq {ds rest : List Char} (hne : ds ≠ []) (hrest : EndsValue rest)
    (hdigits : digitRun Char.isDigit ((ds ++ rest).map .char) = ds.length)
    (hint : intLength ((ds ++ rest).map .char) = ds.length)
    (hhex : hexFloatLength ((ds ++ rest).map .char) = 0) :
    numberAt? ((ds ++ rest).map .char) = some ("int_literal", ds.length) := by
  have hpos : 0 < ds.length := List.length_pos_iff.2 hne
  have hdrop : ((ds ++ rest).map Piece.char).drop ds.length = rest.map .char := by simp
  have hfloat : decimalFloatLength ((ds ++ rest).map .char) = 0 := by
    rw [decimalFloatLength, hdigits]
    simp only [hdrop]
    cases rest with
    | nil => simp [exponentLength]
    | cons c rest => rcases hrest c rfl with rfl | rfl <;> simp [exponentLength, isChar, Piece.is]
  have himaginary : imaginaryLength ds.length ((ds ++ rest).map .char) = 0 := by
    rw [imaginaryLength, hdrop]
    cases rest with
    | nil => simp
    | cons c rest => rcases hrest c rfl with rfl | rfl <;> simp
  have hzero : imaginaryLength 0 ((ds ++ rest).map .char) = 0 := rfl
  rw [numberAt?, hint, hfloat, hhex, hdigits, himaginary, Nat.max_self, hzero]
  simp [hpos]

theorem Numeral.numberAt? (n : Numeral) {rest : List Char} (hrest : EndsValue rest) :
    Go.numberAt? ((n.text.toList ++ rest).map .char) =
      some ("int_literal", n.text.toList.length) := by
  have hdecimal := n.decimal
  rw [isDecimal] at hdecimal
  generalize n.text.toList = cs at hdecimal
  cases cs with
  | nil => simp at hdecimal
  | cons d ds =>
    simp only [Bool.or_eq_true, Bool.and_eq_true, beq_iff_eq, List.isEmpty_iff, bne_iff_ne] at hdecimal
    rcases hdecimal with ⟨rfl, rfl⟩ | ⟨⟨hd, hzero⟩, hds⟩
    · refine numberAt?_eq (by simp) hrest (digitRun_append rfl rfl hrest) ?_ ?_ <;>
        cases rest with
        | nil => rfl
        | cons c rest => rcases hrest c rfl with rfl | rfl <;> rfl
    · have hdigits := digitRun_append hd hds hrest
      refine numberAt?_eq (by simp) hrest hdigits ?_ ?_
      · rw [intLength]
        · exact hdigits
        · rintro _ heq
          simp at heq
          exact hzero heq.1
      · rw [hexFloatLength]
        rintro _ _ heq
        simp at heq
        exact absurd heq.1 hzero

theorem stringTail?_append {cs : List Char} (hcs : cs.all Char.isAlphanum = true)
    (rest : List Char) (n : Nat) :
    stringTail? .plain n ((cs ++ '"' :: rest).map .char) = some (n + cs.length + 1) := by
  induction cs generalizing n with
  | nil => rfl
  | cons c cs ih =>
    rw [List.all_cons, Bool.and_eq_true] at hcs
    have hne : c ≠ '"' ∧ c ≠ '\\' ∧ c ≠ '\n' ∧ c ≠ '\x00' := by
      refine ⟨?_, ?_, ?_, ?_⟩ <;> rintro rfl <;> exact absurd hcs.1 (by decide)
    have hstep : stringTail? .plain n ((c :: cs ++ '"' :: rest).map .char) =
        stringTail? .plain (n + 1) ((cs ++ '"' :: rest).map .char) := by
      simp [stringTail?, isChar, isNul, Piece.is, hne]
    rw [hstep, ih hcs.2, List.length_cons]
    congr 1
    omega

theorem Numeral.head (n : Numeral) : ∃ d ds, n.text.toList = d :: ds ∧ d.isDigit = true := by
  have hdecimal := n.decimal
  rw [isDecimal] at hdecimal
  split at hdecimal
  · exact absurd hdecimal (by simp)
  · rename_i d ds hcs
    refine ⟨d, ds, hcs, ?_⟩
    simp only [Bool.or_eq_true, Bool.and_eq_true, beq_iff_eq] at hdecimal
    rcases hdecimal with ⟨rfl, -⟩ | ⟨⟨hd, -⟩, -⟩
    · rfl
    · exact hd

theorem not_isIdentifierStart_of_isDigit {d : Char} (h : d.isDigit = true) :
    Text.isIdentifierStart d = false := by
  delta Char.isDigit at h
  simp only [ge_iff_le, Bool.and_eq_true, decide_eq_true_eq, UInt32.le_iff_toNat_le] at h
  have hhigh : d.toNat ≤ 57 := h.2
  have hunderscore : d ≠ '_' := by
    rintro rfl
    exact absurd hhigh (by decide)
  have halpha : d.isAlpha = false := by
    delta Char.isAlpha Char.isUpper Char.isLower
    simp only [ge_iff_le, UInt32.le_iff_toNat_le, Bool.or_eq_false_iff, ← Bool.decide_and,
      decide_eq_false_iff_not]
    exact ⟨fun h => absurd (Nat.le_trans h.1 hhigh) (by decide),
      fun h => absurd (Nat.le_trans h.1 hhigh) (by decide)⟩
  rw [Text.isIdentifierStart, if_pos (by omega), halpha]
  simpa using hunderscore

theorem tokenAt?_integer (n : Numeral) {expects : Nat → Bool}
    (hexpects : expects Part.integer.number = true) (gone : List Char) {rest : List Char}
    (hrest : EndsValue rest) :
    vocabulary.tokenAt? expects (.between gone (n.text.toList ++ rest)) =
      some (tokenOver .integer gone [] n.text.toList rest) := by
  have hnumber := n.numberAt? hrest
  obtain ⟨d, ds, hcs, hdigit⟩ := n.head
  have hstart := not_isIdentifierStart_of_isDigit hdigit
  have hne : d ≠ '\n' ∧ d ≠ '\x00' ∧ d ≠ '"' ∧ d ≠ '\x60' ∧ d ≠ '\'' ∧ d ≠ '/' := by
    refine ⟨?_, ?_, ?_, ?_, ?_, ?_⟩ <;> rintro rfl <;> exact absurd hdigit (by decide)
  have hcomment : commentLength? ((d :: ds ++ rest).map .char) = none := by
    rw [commentLength?]
    · simp [hne]
    · simp [hne]
  rw [← tokenOf_eq, Vocabulary.tokenAt?, Cursor.rest_between, hnumber, hcs, hcomment]
  simp [hne, hstart, vocabulary_integer, hexpects]

theorem tokenAt?_string (s : Letters) (expects : Nat → Bool) (gone rest : List Char) :
    vocabulary.tokenAt? expects (.between gone (('"' :: s.text.toList ++ ['"']) ++ rest)) =
      some (tokenOver .text gone [] ('"' :: s.text.toList ++ ['"']) rest) := by
  have hquote : Text.isIdentifierStart '"' = false := by decide
  have htail := stringTail?_append s.plain rest 1
  have hrest : ('"' :: s.text.toList ++ ['"']) ++ rest = '"' :: (s.text.toList ++ '"' :: rest) := by
    simp
  rw [← tokenOf_eq, hrest, Vocabulary.tokenAt?, Cursor.rest_between, List.map_cons]
  simp only [hquote, htail, vocabulary_text]
  simp [Nat.add_comm]

/-! ## White space and the ends of lines -/

theorem tokenAt?_lineFeed (expects : Nat → Bool) (gone rest : List Char) :
    vocabulary.tokenAt? expects (.between gone ('\n' :: rest)) =
      some (tokenOver .lineFeed gone [] ['\n'] rest) := by
  rw [← tokenOf_eq, Vocabulary.tokenAt?, Cursor.rest_between, List.map_cons, vocabulary_newline]
  rfl

/-- The end of the text has the least number. -/
theorem number_finish (first : List Symbol) (definitions : List Definition) :
    (compile first definitions).number .finish = 0 := by
  rw [Compiled.number, compile, terminalsOf, List.cons_append, List.eraseDups_cons]
  rfl

theorem tokenAt?_finish {expects : Nat → Bool} (hnul : expects Part.nul.number = false)
    (gone : List Char) :
    vocabulary.tokenAt? expects (.between gone []) = some (tokenOver .finish gone [] [] []) := by
  have hzero : Part.finish.number = 0 := by
    rw [← Part.number_symbol]
    exact number_finish _ _
  rw [← tokenOf_eq, Vocabulary.tokenAt?, Cursor.rest_between, List.map_nil, Vocabulary.endOfText,
    vocabulary_nul, hnul, hzero]
  rfl

theorem skipSpace_eq {c : Cursor} (h : ∀ rest, c.rest ≠ .char '\uFEFF' :: rest)
    (newlineEnds : Bool) :
    skipSpace newlineEnds c =
      c.skipWhile fun p => isBlank p || (!newlineEnds && isChar '\n' p) := by
  rw [skipSpace]
  split
  · rename_i hrest
    exact absurd hrest (h _)
  · rfl

/-- White space in front of a token is passed by. -/
theorem token?_between {expects : Nat → Bool} (gone blanks : List Char) {cs : List Char}
    (hblanks : ∀ c ∈ blanks, c = ' ' ∨ c = '\n' ∧ expects Part.lineFeed.number = false)
    (hcs : ∀ c ∈ cs.head?, isBlank (.char c) = false ∧ c ≠ '\uFEFF' ∧
      (c = '\n' → expects Part.lineFeed.number = true)) :
    vocabulary.token? expects (.between gone (blanks ++ cs)) =
      vocabulary.tokenAt? expects (.between (gone ++ blanks) cs) := by
  have hmark : ∀ rest, (Cursor.between gone (blanks ++ cs)).rest ≠ .char '\uFEFF' :: rest := by
    intro rest hrest
    rw [Cursor.rest_between] at hrest
    cases blanks with
    | nil =>
      cases cs with
      | nil => simp at hrest
      | cons c cs => exact (hcs c rfl).2.1 (Piece.char.inj (List.cons.inj hrest).1)
    | cons b blanks =>
      obtain rfl : b = '\uFEFF' := Piece.char.inj (List.cons.inj hrest).1
      rcases hblanks _ List.mem_cons_self with h | ⟨h, -⟩ <;> exact absurd h (by decide)
  rw [Vocabulary.token?, vocabulary_newline, skipSpace_eq hmark]
  congr 1
  refine Cursor.skipWhile_between gone (fun c hc => ?_) fun c hc => ?_
  · rcases hblanks c hc with rfl | ⟨rfl, hexpects⟩
    · rfl
    · simp [isChar, Piece.is, hexpects]
  · obtain ⟨hblank, -, hfeed⟩ := hcs c hc
    by_cases hc : c = '\n'
    · simp [hblank, hfeed hc]
    · simp [hblank, isChar, Piece.is, hc]

/-! ## Tokens at a stage -/

/-- Does a stage take a token as what it is?  A name must not be taken for the blank identifier, nor
the end of the text for the end of a statement. -/
def Stage.awaits (g : Stage) (x : Part) : Bool :=
  (match g.actions x with
    | some (_ :: _) => true
    | _ => false) &&
  (x != .name || g.actions .blank == some []) && (x != .finish || g.actions .nul == some [])

theorem expects_of_awaits {g : Stage} (h : g.awaits x = true) :
    language.expects g.label x.number = true := by
  rw [Stage.awaits, Bool.and_eq_true, Bool.and_eq_true] at h
  cases hactions : g.actions x with
  | none => simp [hactions] at h
  | some acts =>
    rw [expects_language hactions]
    cases acts with
    | nil => simp [hactions] at h
    | cons => rfl

theorem not_expects_of_actions {g : Stage} (h : g.actions x = some []) :
    language.expects g.label x.number = false :=
  expects_language h

/-- The characters are a token of this kind in front of these others. -/
inductive Spells : Part → List Char → List Char → Prop
  | package {rest : List Char} (h : EndsWord rest) : Spells .package "package".toList rest
  | var {rest : List Char} (h : EndsWord rest) : Spells .var "var".toList rest
  | name (x : Name) {rest : List Char} (h : EndsWord rest) : Spells .name x.text.toList rest
  | mark {x : Part} {c : Char} (hx : x.mark? = some c) {rest : List Char} (h : EndsMark c rest) :
      Spells x [c] rest
  | integer (n : Numeral) {rest : List Char} (h : EndsValue rest) :
      Spells .integer n.text.toList rest
  | string (s : Letters) {rest : List Char} :
      Spells .text ('"' :: s.text.toList ++ ['"']) rest
  | lineFeed {rest : List Char} : Spells .lineFeed ['\n'] rest
  | finish : Spells .finish [] []

/-- White space that a stage passes by. -/
def Stage.Skips (g : Stage) (blanks : List Char) : Prop :=
  ∀ c ∈ blanks, c = ' ' ∨ c = '\n' ∧ g.actions .lineFeed = some []

theorem Stage.Skips.not_expects {g : Stage} {blanks : List Char} (h : g.Skips blanks) :
    ∀ c ∈ blanks, c = ' ' ∨ c = '\n' ∧ language.expects g.label Part.lineFeed.number = false :=
  fun c hc => (h c hc).imp_right fun h => ⟨h.1, not_expects_of_actions h.2⟩

/-- White space is the start of no word. -/
theorem isBlank_of_start {c : Char} (h : Text.isIdentifierStart c = true) :
    isBlank (.char c) = false ∧ c ≠ '\uFEFF' ∧ c ≠ '\n' := by
  refine ⟨Bool.eq_false_iff.2 fun hblank => ?_, ?_, ?_⟩
  · simp only [isBlank, Piece.is, Bool.or_eq_true, beq_iff_eq] at hblank
    rcases hblank with (((rfl | rfl) | rfl) | rfl) | rfl <;> exact absurd h (by decide)
  · rintro rfl
    exact absurd h (by decide +kernel)
  · rintro rfl
    exact absurd h (by decide)

/-- No token starts with white space, and only the end of a line with a line feed. -/
theorem Spells.head {cs rest : List Char} (h : Spells x cs rest) :
    ∀ c ∈ (cs ++ rest).head?, isBlank (.char c) = false ∧ c ≠ '\uFEFF' ∧
      (c = '\n' → x = .lineFeed) := by
  have hstart : ∀ {c : Char} {y : Part}, Text.isIdentifierStart c = true →
      isBlank (.char c) = false ∧ c ≠ '\uFEFF' ∧ (c = '\n' → y = .lineFeed) := fun hc =>
    ⟨(isBlank_of_start hc).1, (isBlank_of_start hc).2.1, fun h =>
      absurd h (isBlank_of_start hc).2.2⟩
  intro c hc
  cases h with
  | package | var =>
    obtain rfl := Option.some.inj hc
    exact hstart (by decide)
  | name x =>
    obtain ⟨d, ds, hword⟩ := x.isWord
    rw [hword.toList_eq] at hc
    obtain rfl := Option.some.inj hc
    exact hstart hword.start
  | mark hx =>
    obtain rfl := Option.some.inj hc
    have hmem := Part.mem_marks hx
    simp only [marks, List.mem_cons, List.not_mem_nil, or_false] at hmem
    rcases hmem with rfl | rfl | rfl | rfl | rfl | rfl | rfl <;> simp [isBlank, Piece.is]
  | integer n =>
    obtain ⟨d, ds, hcs, hdigit⟩ := n.head
    rw [hcs] at hc
    obtain rfl := Option.some.inj hc
    refine ⟨Bool.eq_false_iff.2 fun hblank => ?_, ?_, ?_⟩
    · simp only [isBlank, Piece.is, Bool.or_eq_true, beq_iff_eq] at hblank
      rcases hblank with (((rfl | rfl) | rfl) | rfl) | rfl <;> exact absurd hdigit (by decide)
    · rintro rfl
      exact absurd hdigit (by decide)
    · rintro rfl
      exact absurd hdigit (by decide)
  | string =>
    obtain rfl := Option.some.inj hc
    simp [isBlank, Piece.is]
  | lineFeed =>
    obtain rfl := Option.some.inj hc
    simp [isBlank, Piece.is]
  | finish => simp at hc

/-- **A token is found by every stage that awaits it.** -/
theorem Spells.token? {cs rest : List Char} (h : Spells x cs rest) {g : Stage}
    (hg : g.awaits x = true) {blanks : List Char} (hblanks : g.Skips blanks) (gone : List Char) :
    vocabulary.token? (language.expects g.label) (.between gone (blanks ++ (cs ++ rest))) =
      some (tokenOver x gone blanks cs rest) := by
  have hexpects := expects_of_awaits hg
  have hfeed : ∀ c ∈ (cs ++ rest).head?, isBlank (.char c) = false ∧ c ≠ '\uFEFF' ∧
      (c = '\n' → language.expects g.label Part.lineFeed.number = true) := fun c hc =>
    ⟨(h.head c hc).1, (h.head c hc).2.1, fun hc' => (h.head c hc).2.2 hc' ▸ hexpects⟩
  have hover : tokenOver x gone blanks cs rest = tokenOver x (gone ++ blanks) [] cs rest := by
    rw [tokenOver, tokenOver, List.append_nil]
  rw [token?_between gone blanks hblanks.not_expects hfeed, hover]
  cases h with
  | package hrest =>
    exact tokenAt?_keyword (.of_ascii rfl (by decide) (by decide)) rfl (by decide) _ _ hrest
  | var hrest =>
    exact tokenAt?_keyword (.of_ascii rfl (by decide) (by decide)) rfl (by decide) _ _ hrest
  | name x hrest =>
    refine tokenAt?_name x (not_expects_of_actions ?_) _ hrest
    rw [Stage.awaits, Bool.and_eq_true, Bool.and_eq_true] at hg
    simpa using hg.1.2
  | mark hx hrest => exact (tokenAt?_mark hx _ _ hrest).trans (if_pos hexpects)
  | integer n hrest => exact tokenAt?_integer n hexpects _ hrest
  | string s => exact tokenAt?_string s _ _ _
  | lineFeed => exact tokenAt?_lineFeed _ _ _
  | finish =>
    refine tokenAt?_finish (not_expects_of_actions ?_) _
    rw [Stage.awaits, Bool.and_eq_true] at hg
    simpa using hg.2

/-- A stage has no use for a mark that it does not expect. -/
theorem token?_mark_eq_none (hx : x.mark? = some c) {g : Stage} (hg : g.actions x = some [])
    (gone : List Char) {rest : List Char} (hrest : EndsMark c rest) :
    vocabulary.token? (language.expects g.label) (.between gone (c :: rest)) = none := by
  have hhead : ∀ d ∈ (c :: rest).head?, isBlank (.char d) = false ∧ d ≠ '\uFEFF' ∧
      (d = '\n' → language.expects g.label Part.lineFeed.number = true) := fun d hd =>
    have hspells := (Spells.mark hx hrest).head d hd
    ⟨hspells.1, hspells.2.1, fun hfeed => by
      rw [hspells.2.2 hfeed] at hx
      exact absurd hx (by simp [Part.mark?])⟩
  have htoken := token?_between gone [] (by simp) hhead
  rw [List.nil_append, List.append_nil] at htoken
  rw [htoken, tokenAt?_mark hx _ _ hrest, not_expects_of_actions hg]
  rfl

end GoGlobals.Go
