import GoGlobals.Proofs.Text.Utf8
import GoGlobals.Text.Cursor
import Mathlib.Algebra.GroupWithZero.Nat
import Mathlib.Data.List.Count

/-!
# Cursors stand where they say

A cursor carries a place and the text behind it.  The two belong together: the place counts exactly
the pieces that are gone.  `Cursor.In` says so, moving a cursor keeps it so, and then the place
determines the cursor (`Cursor.In.eq_of_offset`), its row counts the line feeds before it
(`Cursor.In.row_eq_count`), and the bytes between two cursors are those of the pieces between them
(`Cursor.In.spelled_slice`).
-/

set_option autoImplicit false

namespace GoGlobals.Text

/-! ## Counting bytes and line feeds -/

/-- The number of bytes of pieces. -/
def widths (ps : List Piece) : Nat :=
  (ps.map Piece.width).sum

theorem Spelled.length_eq {bs : List UInt8} {ps : List Piece} (h : Spelled bs ps) :
    bs.length = widths ps := by
  induction h with
  | nil => rfl
  | cons hp _ ih => rw [List.length_append, hp.length_eq, ih]; rfl

theorem Spelled.width_pos {bs : List UInt8} {ps : List Piece} (h : Spelled bs ps) :
    ∀ p ∈ ps, 0 < p.width := by
  induction h with
  | nil => intro p hp; exact absurd hp List.not_mem_nil
  | cons hp _ ih =>
    intro q hq
    rcases List.mem_cons.1 hq with rfl | hq
    · exact hp.width_pos
    · exact ih q hq

/-- Pieces that are read one after the other are read from consecutive bytes. -/
theorem Spelled.split {bs : List UInt8} {ps qs : List Piece} (h : Spelled bs (ps ++ qs)) :
    ∃ bs₁ bs₂, bs = bs₁ ++ bs₂ ∧ Spelled bs₁ ps ∧ Spelled bs₂ qs := by
  induction ps generalizing bs with
  | nil => exact ⟨[], bs, rfl, .nil, h⟩
  | cons p ps ih =>
    cases h with
    | cons hp hrest =>
      rename_i bs₀ rest
      obtain ⟨bs₁, bs₂, rfl, h₁, h₂⟩ := ih hrest
      exact ⟨bs₀ ++ bs₁, bs₂, (List.append_assoc _ _ _).symm, .cons hp h₁, h₂⟩

theorem Spelled.eq_flatMap {bs : List UInt8} {cs : List Char}
    (h : Spelled bs (cs.map Piece.char)) : bs = cs.flatMap String.utf8EncodeChar := by
  induction cs generalizing bs with
  | nil => cases h; rfl
  | cons c cs ih =>
    cases h with
    | cons hp hrest =>
      cases hp
      rw [List.flatMap_cons, ih hrest]

/-- Bytes are read as characters and nothing else if they are the UTF-8 form of these. -/
theorem decode_eq_map_char_iff {bytes : List UInt8} {cs : List Char} :
    decode bytes = cs.map Piece.char ↔ bytes = cs.flatMap String.utf8EncodeChar := by
  constructor
  · intro h
    have hspelled := decode_spelled bytes
    rw [h] at hspelled
    exact hspelled.eq_flatMap
  · rintro rfl
    exact decode_flatMap cs

/-- Pieces that are all characters are those of their text. -/
theorem map_char_map_toChar {ps : List Piece} (h : ∀ width, Piece.broken width ∉ ps) :
    (ps.map Piece.toChar).map Piece.char = ps := by
  rw [List.map_map]
  refine (List.map_congr_left fun p hp => ?_).trans (List.map_id ps)
  cases p with
  | char c => rfl
  | broken width => exact absurd hp (h width)

/-- No byte of a character beyond ASCII is ASCII. -/
theorem high_of_mem_encode {c : Char} (hc : 0x7f < c.val.toNat) {b : UInt8}
    (hb : b ∈ String.utf8EncodeChar c) : 0x80 ≤ b.toNat := by
  have hle : c.val.toNat < 0x110000 := by
    have := c.valid
    rw [UInt32.isValidChar, Nat.isValidChar] at this
    omega
  rw [String.utf8EncodeChar, if_neg (by omega)] at hb
  split at hb
  · simp only [List.mem_cons, List.not_mem_nil, or_false] at hb
    rcases hb with rfl | rfl <;> rw [toNat_ofNat_byte (by omega)] <;> omega
  split at hb
  · simp only [List.mem_cons, List.not_mem_nil, or_false] at hb
    rcases hb with rfl | rfl | rfl <;> rw [toNat_ofNat_byte (by omega)] <;> omega
  · simp only [List.mem_cons, List.not_mem_nil, or_false] at hb
    rcases hb with rfl | rfl | rfl | rfl <;> rw [toNat_ofNat_byte (by omega)] <;> omega

theorem Spells.count_newline {bs : List UInt8} {p : Piece} (h : Spells bs p) :
    bs.count 10 = if p = .char '\n' then 1 else 0 := by
  have hhigh : ∀ bytes : List UInt8, (∀ b ∈ bytes, 0x80 ≤ b.toNat) → bytes.count 10 = 0 :=
    fun bytes hbytes => List.count_eq_zero.2 fun hmem => absurd (hbytes 10 hmem) (by decide)
  cases h with
  | char c =>
    by_cases hc : c.val.toNat ≤ 0x7f
    · rw [String.utf8EncodeChar, if_pos hc]
      by_cases hnl : c = '\n'
      · subst hnl; rfl
      · have hne : UInt8.ofNat c.val.toNat ≠ 10 := fun h10 => by
          have := congrArg UInt8.toNat h10
          rw [toNat_ofNat_byte (by omega)] at this
          exact hnl (Char.ext (UInt32.toNat_inj.1 this))
        rw [List.count_eq_zero.2 fun hmem => hne (List.mem_singleton.1 hmem).symm,
          if_neg fun h => hnl (Piece.char.inj h)]
    · rw [hhigh _ fun b hb => high_of_mem_encode (by omega) hb, if_neg]
      rintro ⟨⟩
      exact hc (by decide)
  | broken _ h => rw [hhigh _ h, if_neg (by simp)]

/-- The line feeds among the bytes are those among the pieces. -/
theorem Spelled.count_newline {bs : List UInt8} {ps : List Piece} (h : Spelled bs ps) :
    bs.count 10 = ps.count (.char '\n') := by
  induction h with
  | nil => rfl
  | cons hp _ ih =>
    rw [List.count_append, hp.count_newline, ih, List.count_cons, Nat.add_comm]
    simp only [beq_iff_eq]

/-! ## Places -/

/-- The place behind pieces. -/
def Place.behind (p : Place) (ps : List Piece) : Place :=
  ps.foldl Place.advance p

theorem Place.behind_append (p : Place) (ps qs : List Piece) :
    p.behind (ps ++ qs) = (p.behind ps).behind qs := by
  rw [behind, List.foldl_append, behind, behind]

theorem Place.offset_advance (p : Place) (piece : Piece) :
    (p.advance piece).offset = p.offset + piece.width := by
  rw [advance]
  split
  · rename_i h; rw [h]; rfl
  · rfl

theorem Place.offset_behind (p : Place) (ps : List Piece) :
    (p.behind ps).offset = p.offset + widths ps := by
  induction ps generalizing p with
  | nil => rfl
  | cons piece ps ih =>
    rw [behind, List.foldl_cons, ← behind, ih, offset_advance, widths, widths, List.map_cons,
      List.sum_cons, Nat.add_assoc]

theorem Place.row_behind (p : Place) (ps : List Piece) :
    (p.behind ps).row = p.row + ps.count (.char '\n') := by
  induction ps generalizing p with
  | nil => rfl
  | cons piece ps ih =>
    rw [behind, List.foldl_cons, ← behind, ih, advance, List.count_cons]
    by_cases h : piece = .char '\n'
    · rw [if_pos h, h, beq_self_eq_true, if_pos rfl]
      show p.row + 1 + _ = _
      omega
    · rw [if_neg h, if_neg (by simpa using h), Nat.add_zero]

/-! ## Cursors -/

namespace Cursor

/-- The cursor stands in the text: its place counts what is gone of the text. -/
def In (c : Cursor) (text : List Piece) : Prop :=
  ∃ gone, text = gone ++ c.rest ∧ c.place = Place.behind {} gone

/-- The second cursor is the first one after some more pieces. -/
structure Ahead (c d : Cursor) (ps : List Piece) : Prop where
  rest_eq : c.rest = ps ++ d.rest
  place_eq : d.place = c.place.behind ps

theorem in_ofBytes (bytes : List UInt8) : (ofBytes bytes).In (decode bytes) :=
  ⟨[], rfl, rfl⟩

theorem ahead_skip (n : Nat) (c : Cursor) : c.Ahead (c.skip n) (c.rest.take n) := by
  induction n generalizing c with
  | zero => exact ⟨rfl, rfl⟩
  | succ n ih =>
    obtain ⟨place, rest⟩ := c
    cases rest with
    | nil => exact ⟨rfl, rfl⟩
    | cons piece rest =>
      have h := ih ⟨place.advance piece, rest⟩
      exact ⟨congrArg (piece :: ·) h.rest_eq, h.place_eq⟩

theorem ahead_skipWhile (p : Piece → Bool) (c : Cursor) :
    c.Ahead (c.skipWhile p) (c.rest.takeWhile p) := by
  fun_induction skipWhile p c with
  | case1 place => exact ⟨rfl, rfl⟩
  | case2 place piece rest hp ih =>
    rw [List.takeWhile_cons, if_pos hp]
    exact ⟨congrArg (piece :: ·) ih.rest_eq, ih.place_eq⟩
  | case3 place piece rest hp =>
    rw [List.takeWhile_cons, if_neg hp]
    exact ⟨rfl, rfl⟩

theorem Ahead.trans {c d e : Cursor} {ps qs : List Piece} (h : c.Ahead d ps)
    (h' : d.Ahead e qs) : c.Ahead e (ps ++ qs) := by
  refine ⟨?_, ?_⟩
  · rw [h.rest_eq, h'.rest_eq, List.append_assoc]
  · rw [h'.place_eq, h.place_eq, Place.behind_append]

theorem Ahead.offset_eq {c d : Cursor} {ps : List Piece} (h : c.Ahead d ps) :
    d.offset = c.offset + widths ps := by
  rw [offset, h.place_eq, Place.offset_behind, offset]

theorem Ahead.offset_le {c d : Cursor} {ps : List Piece} (h : c.Ahead d ps) :
    c.offset ≤ d.offset := by
  rw [h.offset_eq]
  exact Nat.le_add_right _ _

theorem In.ahead {c d : Cursor} {ps text : List Piece} (h : c.In text) (ha : c.Ahead d ps) :
    d.In text := by
  obtain ⟨gone, htext, hplace⟩ := h
  refine ⟨gone ++ ps, ?_, ?_⟩
  · rw [htext, ha.rest_eq, List.append_assoc]
  · rw [ha.place_eq, hplace, Place.behind_append]

/-! ### What a place says -/

variable {bytes : List UInt8} {c d : Cursor}

theorem In.offset_eq_widths {gone : List Piece} (hplace : c.place = Place.behind {} gone) :
    c.offset = widths gone := by
  rw [offset, hplace, Place.offset_behind]
  exact Nat.zero_add _

/-- Of two cursors in a text, one is ahead of the other. -/
theorem In.ahead_or {text : List Piece} (hc : c.In text) (hd : d.In text) :
    (∃ ps, c.Ahead d ps) ∨ ∃ ps, d.Ahead c ps := by
  obtain ⟨gone, htext, hplace⟩ := hc
  obtain ⟨gone', htext', hplace'⟩ := hd
  rw [htext] at htext'
  rcases List.append_eq_append_iff.1 htext' with ⟨ps, hgone, hrest⟩ | ⟨ps, hgone, hrest⟩
  · exact .inl ⟨ps, hrest, by rw [hplace', hgone, Place.behind_append, hplace]⟩
  · exact .inr ⟨ps, hrest, by rw [hplace, hgone, Place.behind_append, hplace']⟩

theorem Ahead.eq_of_offset {ps : List Piece} (hps : ∀ p ∈ ps, 0 < p.width) (h : c.Ahead d ps)
    (hoffset : c.offset = d.offset) : c = d := by
  have hzero : widths ps = 0 := by have := h.offset_eq; omega
  have hnil : ps = [] := by
    cases ps with
    | nil => rfl
    | cons p ps =>
      have hp := hps p List.mem_cons_self
      rw [widths, List.map_cons, List.sum_cons] at hzero
      omega
  subst hnil
  obtain ⟨place, rest⟩ := c
  obtain ⟨place', rest'⟩ := d
  have hplace : place' = place := h.place_eq
  have hrest : rest = rest' := h.rest_eq
  rw [hplace, hrest]

theorem In.width_pos_of_ahead {ps : List Piece} (hc : c.In (decode bytes)) (h : c.Ahead d ps) :
    ∀ p ∈ ps, 0 < p.width := by
  obtain ⟨gone, htext, -⟩ := hc
  intro p hp
  refine (decode_spelled bytes).width_pos p ?_
  rw [htext, h.rest_eq]
  exact List.mem_append_right _ (List.mem_append_left _ hp)

/-- **The offset determines the cursor.** -/
theorem In.eq_of_offset (hc : c.In (decode bytes)) (hd : d.In (decode bytes))
    (h : c.offset = d.offset) : c = d := by
  rcases hc.ahead_or hd with ⟨ps, ha⟩ | ⟨ps, ha⟩
  · exact ha.eq_of_offset (hc.width_pos_of_ahead ha) h
  · exact (ha.eq_of_offset (hd.width_pos_of_ahead ha) h.symm).symm

/-- The bytes before a cursor and those behind it. -/
theorem In.spelled_split (hc : c.In (decode bytes)) :
    ∃ gone, c.place = Place.behind {} gone ∧ Spelled (bytes.take c.offset) gone ∧
      Spelled (bytes.drop c.offset) c.rest := by
  obtain ⟨gone, htext, hplace⟩ := hc
  obtain ⟨bs₁, bs₂, rfl, h₁, h₂⟩ := (htext ▸ decode_spelled bytes).split
  have hoffset : c.offset = bs₁.length := by
    rw [offset_eq_widths hplace, h₁.length_eq]
  exact ⟨gone, hplace, by rwa [hoffset, List.take_left], by rwa [hoffset, List.drop_left]⟩

/-- **The row counts the line feeds before the place.** -/
theorem In.row_eq_count (hc : c.In (decode bytes)) :
    c.place.row = (bytes.take c.offset).count 10 := by
  obtain ⟨gone, hplace, hgone, -⟩ := hc.spelled_split
  rw [hgone.count_newline, hplace, Place.row_behind]
  exact Nat.zero_add _

/-- **The bytes between two cursors are those of the pieces between them.** -/
theorem In.spelled_slice {source : Source} {ps : List Piece} (hc : c.In (decode source.toList))
    (h : c.Ahead d ps) : Spelled (slice source c.offset d.offset) ps := by
  obtain ⟨-, -, -, hrest⟩ := hc.spelled_split
  rw [h.rest_eq] at hrest
  obtain ⟨bs₁, bs₂, hdrop, h₁, -⟩ := hrest.split
  have hslice : slice source c.offset d.offset = bs₁ := by
    rw [slice, Array.toList_extract, List.extract_eq_take_drop, hdrop, h.offset_eq,
      Nat.add_sub_cancel_left, ← h₁.length_eq, List.take_left]
  rwa [hslice]

/-! ### Texts of characters -/

/-- The cursor in a text of characters, behind the first of them and before the others. -/
def between (gone rest : List Char) : Cursor :=
  ⟨Place.behind {} (gone.map .char), rest.map .char⟩

@[simp] theorem rest_between (gone rest : List Char) :
    (between gone rest).rest = rest.map .char := rfl

theorem between_nil (cs : List Char) :
    between [] cs = ofBytes (cs.flatMap String.utf8EncodeChar) := by
  rw [ofBytes, decode_flatMap]
  rfl

theorem ahead_between (gone cs rest : List Char) :
    (between gone (cs ++ rest)).Ahead (between (gone ++ cs) rest) (cs.map .char) := by
  refine ⟨?_, ?_⟩
  · simp
  · rw [between, List.map_append, Place.behind_append, between]

theorem in_between (gone rest : List Char) :
    (between gone rest).In ((gone ++ rest).map .char) :=
  ⟨gone.map .char, by simp, rfl⟩

theorem eq_of_place_rest {c d : Cursor} (hplace : c.place = d.place) (hrest : c.rest = d.rest) :
    c = d := by
  obtain ⟨place, rest⟩ := c
  obtain ⟨place', rest'⟩ := d
  obtain rfl : place = place' := hplace
  obtain rfl : rest = rest' := hrest
  rfl

theorem skip_between (gone cs rest : List Char) :
    (between gone (cs ++ rest)).skip cs.length = between (gone ++ cs) rest := by
  have hskip := ahead_skip cs.length (between gone (cs ++ rest))
  have htake : (between gone (cs ++ rest)).rest.take cs.length = cs.map .char := by
    simp
  rw [htake] at hskip
  have hahead := ahead_between gone cs rest
  refine eq_of_place_rest (hskip.place_eq.trans hahead.place_eq.symm) ?_
  exact List.append_cancel_left (hskip.rest_eq.symm.trans hahead.rest_eq)

theorem skipWhile_between {p : Piece → Bool} (gone : List Char) {cs rest : List Char}
    (hcs : ∀ c ∈ cs, p (.char c) = true) (hrest : ∀ c ∈ rest.head?, p (.char c) = false) :
    (between gone (cs ++ rest)).skipWhile p = between (gone ++ cs) rest := by
  have hskip := ahead_skipWhile p (between gone (cs ++ rest))
  have htake : (between gone (cs ++ rest)).rest.takeWhile p = cs.map .char := by
    rw [rest_between, List.map_append, List.takeWhile_append_of_pos (by simpa using hcs)]
    cases rest with
    | nil => simp
    | cons c rest => simp [hrest c rfl]
  rw [htake] at hskip
  have hahead := ahead_between gone cs rest
  refine eq_of_place_rest (hskip.place_eq.trans hahead.place_eq.symm) ?_
  exact List.append_cancel_left (hskip.rest_eq.symm.trans hahead.rest_eq)

theorem offset_between_lt (gone : List Char) {cs : List Char} (hcs : cs ≠ []) (rest : List Char) :
    (between gone (cs ++ rest)).offset < (between (gone ++ cs) rest).offset := by
  rw [(ahead_between gone cs rest).offset_eq]
  cases cs with
  | nil => exact absurd rfl hcs
  | cons c cs =>
    have hpos := c.utf8Size_pos
    simp only [widths, List.map_cons, List.sum_cons, Piece.width]
    omega

/-- The bytes of a text between two places. -/
theorem lossyText_slice_between (gone cs rest : List Char) :
    lossyText (slice ((gone ++ (cs ++ rest)).flatMap String.utf8EncodeChar).toArray
      (between gone (cs ++ rest)).offset (between (gone ++ cs) rest).offset) =
      String.ofList cs := by
  have hin : (between gone (cs ++ rest)).In
      (decode ((gone ++ (cs ++ rest)).flatMap String.utf8EncodeChar).toArray.toList) := by
    rw [List.toList_toArray, decode_flatMap]
    exact in_between gone (cs ++ rest)
  rw [(hin.spelled_slice (ahead_between gone cs rest)).eq_flatMap, lossyText_flatMap]

theorem row_between (gone rest : List Char) : (between gone rest).place.row = gone.count '\n' := by
  have hcount : (gone.map Piece.char).count (.char '\n') = gone.count '\n' :=
    List.count_map_of_injective gone Piece.char (fun a b h => Piece.char.inj h) '\n'
  rw [between, Place.row_behind, hcount]
  exact Nat.zero_add _

end Cursor

end GoGlobals.Text
