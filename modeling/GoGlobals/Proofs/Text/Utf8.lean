import GoGlobals.Text.Utf8

/-!
# The decoder loses nothing

The pieces of a byte string are read off it one after the other, without gaps: every byte belongs
to exactly one piece (`decode_spelled`).  The bytes of a character are its UTF-8 form and those of
an invalid subpart are not ASCII.  In the other direction, a text is read back from its UTF-8 form
(`decode_flatMap`, `lossyText_flatMap`).

The decoder is a machine that remembers an unfinished sequence.  `Pending.Promises` says what that
memory is worth: whatever bytes of the right ranges complete the sequence, the result is the UTF-8
form of the character that the machine then announces.
-/

set_option autoImplicit false

namespace GoGlobals.Text

/-! ## Bytes of pieces -/

/-- The bytes are those of the piece. -/
inductive Spells : List UInt8 → Piece → Prop
  | char (c : Char) : Spells (String.utf8EncodeChar c) (.char c)
  | broken {bytes : List UInt8} (hne : bytes ≠ []) (hhigh : ∀ b ∈ bytes, 0x80 ≤ b.toNat) :
      Spells bytes (.broken bytes.length)

/-- The bytes are those of the pieces, one after the other. -/
inductive Spelled : List UInt8 → List Piece → Prop
  | nil : Spelled [] []
  | cons {bs rest : List UInt8} {p : Piece} {ps : List Piece} (h : Spells bs p)
      (hrest : Spelled rest ps) : Spelled (bs ++ rest) (p :: ps)

theorem Spells.length_eq {bs : List UInt8} {p : Piece} (h : Spells bs p) : bs.length = p.width := by
  cases h with
  | char c => exact String.length_utf8EncodeChar c
  | broken => rfl

theorem Spells.width_pos {bs : List UInt8} {p : Piece} (h : Spells bs p) : 0 < p.width := by
  cases h with
  | char c => exact c.utf8Size_pos
  | broken hne _ => exact List.length_pos_iff.2 hne

theorem Spelled.append {bs bs' : List UInt8} {ps ps' : List Piece} (h : Spelled bs ps)
    (h' : Spelled bs' ps') : Spelled (bs ++ bs') (ps ++ ps') := by
  induction h with
  | nil => exact h'
  | cons hp _ ih => rw [List.append_assoc]; exact .cons hp ih

theorem Spelled.concat {bs bs' : List UInt8} {ps : List Piece} {p : Piece} (h : Spelled bs ps)
    (hp : Spells bs' p) : Spelled (bs ++ bs') (ps ++ [p]) := by
  have h1 : Spelled (bs' ++ []) [p] := .cons hp .nil
  rw [List.append_nil] at h1
  exact h.append h1

/-! ## The memory of the decoder -/

/-- The bytes complete an unfinished sequence: there are as many as are wanted, the first is in
its range, and the others continue a sequence. -/
inductive Pending.Completes : Pending → List UInt8 → Prop
  | last {p : Pending} {b : UInt8} (hneed : p.need = 1) (hlo : p.lo ≤ b) (hhi : b ≤ p.hi) :
      Completes p [b]
  | more {p : Pending} {b : UInt8} {bs : List UInt8} {n : Nat} (hneed : p.need = n + 2)
      (hlo : p.lo ≤ b) (hhi : b ≤ p.hi)
      (h : Completes ⟨n + 1, 0x80, 0xBF, p.point * 64 + (b.toNat - 0x80), p.seen + 1⟩ bs) :
      Completes p (b :: bs)

/-- The code point once the bytes are read. -/
def pointAfter (point : Nat) (bs : List UInt8) : Nat :=
  bs.foldl (fun point b => point * 64 + (b.toNat - 0x80)) point

theorem pointAfter_cons (point : Nat) (b : UInt8) (bs : List UInt8) :
    pointAfter point (b :: bs) = pointAfter (point * 64 + (b.toNat - 0x80)) bs := by
  rw [pointAfter, List.foldl_cons, pointAfter]

/-- What an unfinished sequence is worth: its bytes so far are counted and none is ASCII, and any
completion makes them the UTF-8 form of the code point that is announced. -/
structure Pending.Promises (p : Pending) (bytes : List UInt8) : Prop where
  need_pos : 0 < p.need
  seen_eq : p.seen = bytes.length
  nonempty : bytes ≠ []
  high : ∀ b ∈ bytes, 0x80 ≤ b.toNat
  lo_high : 0x80 ≤ p.lo.toNat
  encodes : ∀ more, p.Completes more →
    String.utf8EncodeChar (Char.ofNat (pointAfter p.point more)) = bytes ++ more

theorem val_ofNat {v : Nat} (hv : v.isValidChar) : (Char.ofNat v).val.toNat = v := by
  rw [Char.ofNat, dif_pos hv]
  rfl

theorem ofNat_eq_byte {n : Nat} {b : UInt8} (h : n = b.toNat) : UInt8.ofNat n = b := by
  rw [h, UInt8.ofNat_toNat]

theorem encode_one {b : UInt8} (hb : b.toNat < 0x80) :
    String.utf8EncodeChar (Char.ofNat b.toNat) = [b] := by
  have hv : b.toNat.isValidChar := by left; omega
  rw [String.utf8EncodeChar, val_ofNat hv, if_pos (by omega), UInt8.ofNat_toNat]

theorem encode_two {b x : UInt8} (hb : 0xC2 ≤ b.toNat) (hb' : b.toNat < 0xE0)
    (hx : 0x80 ≤ x.toNat) (hx' : x.toNat ≤ 0xBF) :
    String.utf8EncodeChar (Char.ofNat ((b.toNat - 0xC0) * 64 + (x.toNat - 0x80))) = [b, x] := by
  have hv : ((b.toNat - 0xC0) * 64 + (x.toNat - 0x80)).isValidChar := by left; omega
  rw [String.utf8EncodeChar, val_ofNat hv, if_neg (by omega), if_pos (by omega),
    ofNat_eq_byte (b := b) (by omega), ofNat_eq_byte (b := x) (by omega)]

/-- Three bytes are a UTF-8 form if their code point needs three bytes and is no surrogate. -/
theorem encode_three {b x y : UInt8} {v : Nat} (hb : 0xE0 ≤ b.toNat) (hb' : b.toNat < 0xF0)
    (hx : 0x80 ≤ x.toNat) (hx' : x.toNat ≤ 0xBF) (hy : 0x80 ≤ y.toNat) (hy' : y.toNat ≤ 0xBF)
    (hv : v = ((b.toNat - 0xE0) * 64 + (x.toNat - 0x80)) * 64 + (y.toNat - 0x80))
    (hlong : 0x7FF < v) (hvalid : v.isValidChar) :
    String.utf8EncodeChar (Char.ofNat v) = [b, x, y] := by
  rw [String.utf8EncodeChar, val_ofNat hvalid, if_neg (by omega), if_neg (by omega),
    if_pos (by omega), ofNat_eq_byte (b := b) (by omega), ofNat_eq_byte (b := x) (by omega),
    ofNat_eq_byte (b := y) (by omega)]

/-- Four bytes are a UTF-8 form if their code point needs four bytes and is in range. -/
theorem encode_four {b x y z : UInt8} {v : Nat} (hb : 0xF0 ≤ b.toNat) (hb' : b.toNat < 0xF8)
    (hx : 0x80 ≤ x.toNat) (hx' : x.toNat ≤ 0xBF) (hy : 0x80 ≤ y.toNat) (hy' : y.toNat ≤ 0xBF)
    (hz : 0x80 ≤ z.toNat) (hz' : z.toNat ≤ 0xBF)
    (hv : v = (((b.toNat - 0xF0) * 64 + (x.toNat - 0x80)) * 64 + (y.toNat - 0x80)) * 64 +
      (z.toNat - 0x80))
    (hlong : 0xFFFF < v) (hrange : v < 0x110000) :
    String.utf8EncodeChar (Char.ofNat v) = [b, x, y, z] := by
  have hvalid : v.isValidChar := by right; omega
  rw [String.utf8EncodeChar, val_ofNat hvalid, if_neg (by omega), if_neg (by omega),
    if_neg (by omega), ofNat_eq_byte (b := b) (by omega), ofNat_eq_byte (b := x) (by omega),
    ofNat_eq_byte (b := y) (by omega), ofNat_eq_byte (b := z) (by omega)]

namespace Pending

/-! ### Lead bytes -/

theorem ofLead_two {b : UInt8} (hb : 0xC2 ≤ b.toNat) (hb' : b.toNat < 0xE0) :
    ofLead b = some ⟨1, 0x80, 0xBF, b.toNat - 0xC0, 1⟩ := by
  rw [ofLead, if_neg (by omega), if_pos hb']

/-- Behind a lead byte of three the second byte must not make the form overlong or a surrogate. -/
theorem ofLead_three {b : UInt8} (hb : 0xE0 ≤ b.toNat) (hb' : b.toNat < 0xF0) :
    ofLead b = some ⟨2, if b.toNat = 0xE0 then 0xA0 else 0x80,
      if b.toNat = 0xED then 0x9F else 0xBF, b.toNat - 0xE0, 1⟩ := by
  rw [ofLead, if_neg (by omega), if_neg (by omega)]
  by_cases h1 : b.toNat = 0xE0
  · simp [h1]
  by_cases h2 : b.toNat = 0xED
  · simp [h2]
  · simp [h1, h2, hb']

/-- Behind a lead byte of four the second byte must not make the form overlong or too great. -/
theorem ofLead_four {b : UInt8} (hb : 0xF0 ≤ b.toNat) (hb' : b.toNat < 0xF5) :
    ofLead b = some ⟨3, if b.toNat = 0xF0 then 0x90 else 0x80,
      if b.toNat = 0xF4 then 0x8F else 0xBF, b.toNat - 0xF0, 1⟩ := by
  have h0 : ¬ b.toNat < 0xF0 := by omega
  have h1 : b.toNat ≠ 0xE0 := by omega
  have h2 : b.toNat ≠ 0xED := by omega
  rw [ofLead, if_neg (by omega), if_neg (by omega)]
  by_cases h3 : b.toNat = 0xF0
  · simp [h3]
  by_cases h4 : b.toNat = 0xF4
  · simp [h4]
  · have h5 : b.toNat < 0xF4 := by omega
    simp [h0, h1, h2, h3, h4, h5]

theorem ofLead_eq_none {b : UInt8} (hb : b.toNat < 0xC2 ∨ 0xF5 ≤ b.toNat) : ofLead b = none := by
  rw [ofLead]
  by_cases h : b.toNat < 0xC2
  · rw [if_pos h]
  · have h1 : 0xF5 ≤ b.toNat := hb.resolve_left h
    have h2 : ¬ b.toNat < 0xE0 := by omega
    have h3 : ¬ b.toNat < 0xF0 := by omega
    have h4 : ¬ b.toNat < 0xF4 := by omega
    have h5 : b.toNat ≠ 0xE0 ∧ b.toNat ≠ 0xED ∧ b.toNat ≠ 0xF0 ∧ b.toNat ≠ 0xF4 := by omega
    simp [h, h2, h3, h4, h5]

/-! ### Completions -/

theorem completes_one_iff {lo hi : UInt8} {point seen : Nat} {bs : List UInt8} :
    Completes ⟨1, lo, hi, point, seen⟩ bs ↔
      ∃ x, bs = [x] ∧ lo.toNat ≤ x.toNat ∧ x.toNat ≤ hi.toNat := by
  constructor
  · intro h
    cases h with
    | last _ hlo hhi =>
      exact ⟨_, rfl, UInt8.le_iff_toNat_le.1 hlo, UInt8.le_iff_toNat_le.1 hhi⟩
    | more hneed => simp at hneed
  · rintro ⟨x, rfl, hlo, hhi⟩
    exact .last rfl (UInt8.le_iff_toNat_le.2 hlo) (UInt8.le_iff_toNat_le.2 hhi)

/-- A sequence that wants more than one byte takes the first and then wants one less. -/
theorem completes_succ_iff {n : Nat} {lo hi : UInt8} {point seen : Nat} {bs : List UInt8} :
    Completes ⟨n + 2, lo, hi, point, seen⟩ bs ↔
      ∃ x rest, bs = x :: rest ∧ lo.toNat ≤ x.toNat ∧ x.toNat ≤ hi.toNat ∧
        Completes ⟨n + 1, 0x80, 0xBF, point * 64 + (x.toNat - 0x80), seen + 1⟩ rest := by
  constructor
  · intro h
    cases h with
    | last hneed => simp at hneed
    | more hneed hlo hhi h =>
      obtain rfl := Nat.add_right_cancel hneed
      exact ⟨_, _, rfl, UInt8.le_iff_toNat_le.1 hlo, UInt8.le_iff_toNat_le.1 hhi, h⟩
  · rintro ⟨x, rest, rfl, hlo, hhi, h⟩
    exact .more rfl (UInt8.le_iff_toNat_le.2 hlo) (UInt8.le_iff_toNat_le.2 hhi) h

theorem completes_two_iff {lo hi : UInt8} {point seen : Nat} {bs : List UInt8} :
    Completes ⟨2, lo, hi, point, seen⟩ bs ↔
      ∃ x y, bs = [x, y] ∧ (lo.toNat ≤ x.toNat ∧ x.toNat ≤ hi.toNat) ∧
        (0x80 ≤ y.toNat ∧ y.toNat ≤ 0xBF) := by
  rw [completes_succ_iff (n := 0)]
  constructor
  · rintro ⟨x, rest, rfl, hlo, hhi, h⟩
    obtain ⟨y, rfl, hy⟩ := completes_one_iff.1 h
    exact ⟨x, y, rfl, ⟨hlo, hhi⟩, hy⟩
  · rintro ⟨x, y, rfl, ⟨hlo, hhi⟩, hy⟩
    exact ⟨x, [y], rfl, hlo, hhi, completes_one_iff.2 ⟨y, rfl, hy⟩⟩

theorem completes_three_iff {lo hi : UInt8} {point seen : Nat} {bs : List UInt8} :
    Completes ⟨3, lo, hi, point, seen⟩ bs ↔
      ∃ x y z, bs = [x, y, z] ∧ (lo.toNat ≤ x.toNat ∧ x.toNat ≤ hi.toNat) ∧
        (0x80 ≤ y.toNat ∧ y.toNat ≤ 0xBF) ∧ (0x80 ≤ z.toNat ∧ z.toNat ≤ 0xBF) := by
  rw [completes_succ_iff (n := 1)]
  constructor
  · rintro ⟨x, rest, rfl, hlo, hhi, h⟩
    obtain ⟨y, z, rfl, hyz⟩ := completes_two_iff.1 h
    exact ⟨x, y, z, rfl, ⟨hlo, hhi⟩, hyz⟩
  · rintro ⟨x, y, z, rfl, ⟨hlo, hhi⟩, hyz⟩
    exact ⟨x, [y, z], rfl, hlo, hhi, completes_two_iff.2 ⟨y, z, rfl, hyz⟩⟩

/-- A sequence after its lead byte promises what its completions encode. -/
theorem promises_lead {b : UInt8} {need point : Nat} {lo hi : UInt8} (hneed : 0 < need)
    (hb : 0x80 ≤ b.toNat) (hlo : 0x80 ≤ lo.toNat)
    (h : ∀ more, Completes ⟨need, lo, hi, point, 1⟩ more →
      String.utf8EncodeChar (Char.ofNat (pointAfter point more)) = b :: more) :
    Promises ⟨need, lo, hi, point, 1⟩ [b] :=
  ⟨hneed, rfl, List.cons_ne_nil _ _, by simpa using hb, hlo, h⟩

/-- A byte in a range whose ends are moved inwards for certain lead bytes. -/
theorem in_narrowed {p q : Prop} [Decidable p] [Decidable q] {lo lo' hi hi' x : UInt8}
    (hlo : lo.toNat ≤ lo'.toNat) (hhi : hi'.toNat ≤ hi.toNat) :
    ((if p then lo' else lo).toNat ≤ x.toNat ∧ x.toNat ≤ (if q then hi' else hi).toNat) ↔
      (lo.toNat ≤ x.toNat ∧ x.toNat ≤ hi.toNat) ∧ (p → lo'.toNat ≤ x.toNat) ∧
        (q → x.toNat ≤ hi'.toNat) := by
  by_cases hp : p <;> by_cases hq : q <;>
    simp only [hp, hq, if_true, if_false, true_implies, false_implies, and_true, true_and] <;>
    omega

/-- A lead byte promises a character of the length that it announces. -/
theorem promises_ofLead {b : UInt8} {p : Pending} (h : ofLead b = some p) : p.Promises [b] := by
  by_cases hnone : b.toNat < 0xC2 ∨ 0xF5 ≤ b.toNat
  · rw [ofLead_eq_none hnone] at h
    exact absurd h (by simp)
  by_cases h2 : b.toNat < 0xE0
  · rw [ofLead_two (by omega) h2, Option.some_inj] at h
    subst h
    refine promises_lead Nat.one_pos (by omega) (by decide) fun more hmore => ?_
    obtain ⟨x, rfl, hx⟩ := completes_one_iff.1 hmore
    exact encode_two (by omega) h2 hx.1 hx.2
  by_cases h3 : b.toNat < 0xF0
  · rw [ofLead_three (by omega) h3, Option.some_inj] at h
    subst h
    refine promises_lead Nat.two_pos (by omega) (by split <;> decide)
      fun more hmore => ?_
    obtain ⟨x, y, rfl, hx, hy⟩ := completes_two_iff.1 hmore
    rw [in_narrowed (by decide) (by decide)] at hx
    simp only [UInt8.reduceToNat] at hx
    rw [pointAfter_cons, pointAfter_cons, pointAfter, List.foldl_nil]
    exact encode_three (by omega) h3 (by omega) (by omega) hy.1 hy.2 rfl (by omega)
      (by rw [Nat.isValidChar]; omega)
  · rw [ofLead_four (by omega) (by omega), Option.some_inj] at h
    subst h
    refine promises_lead (Nat.succ_pos 2) (by omega) (by split <;> decide)
      fun more hmore => ?_
    obtain ⟨x, y, z, rfl, hx, hy, hz⟩ := completes_three_iff.1 hmore
    rw [in_narrowed (by decide) (by decide)] at hx
    simp only [UInt8.reduceToNat] at hx
    rw [pointAfter_cons, pointAfter_cons, pointAfter_cons, pointAfter, List.foldl_nil]
    exact encode_four (by omega) (by omega) (by omega) (by omega) hy.1 hy.2 hz.1 hz.2 rfl
      (by omega) (by omega)

/-- One more byte of the right range keeps the promise. -/
theorem Promises.step {p : Pending} {bytes : List UInt8} {b : UInt8} (h : p.Promises bytes)
    (hneed : 1 < p.need) (hlo : p.lo ≤ b) (hhi : b ≤ p.hi) :
    Promises ⟨p.need - 1, 0x80, 0xBF, p.point * 64 + (b.toNat - 0x80), p.seen + 1⟩
      (bytes ++ [b]) where
  need_pos := Nat.sub_pos_of_lt hneed
  seen_eq := by rw [h.seen_eq, List.length_append]; rfl
  nonempty := by simp
  high := by
    intro x hx
    rcases List.mem_append.1 hx with hx | hx
    · exact h.high x hx
    · obtain rfl := List.mem_singleton.1 hx
      exact Nat.le_trans h.lo_high (UInt8.le_iff_toNat_le.1 hlo)
  lo_high := Nat.le_refl _
  encodes := by
    intro more hmore
    obtain ⟨n, hn⟩ : ∃ n, p.need = n + 2 := ⟨p.need - 2, by omega⟩
    rw [hn] at hmore
    have hencodes := h.encodes (b :: more) (.more hn hlo hhi hmore)
    rw [pointAfter_cons] at hencodes
    rw [hencodes, List.append_assoc]
    rfl

end Pending

/-! ## Reading byte by byte -/

/-- The decoder stands behind these bytes: all but an unfinished sequence are in its pieces. -/
structure Decoder.Reads (d : Decoder) (bytes : List UInt8) : Prop where
  split : ∃ done tail, bytes = done ++ tail ∧ Spelled done d.pieces.reverse ∧
    match d.pending with
    | none => tail = []
    | some p => p.Promises tail

namespace Decoder

theorem begin_reads {pieces : List Piece} {bytes : List UInt8} (h : Spelled bytes pieces.reverse)
    (b : UInt8) : (begin pieces b).Reads (bytes ++ [b]) := by
  rw [begin]
  split
  · rename_i hascii
    refine ⟨bytes ++ [b], [], (List.append_nil _).symm, ?_, rfl⟩
    rw [List.reverse_cons]
    exact h.concat (encode_one hascii ▸ Spells.char (Char.ofNat b.toNat))
  · rename_i hhigh
    split
    · rename_i p hlead
      exact ⟨bytes, [b], rfl, h, Pending.promises_ofLead hlead⟩
    · refine ⟨bytes ++ [b], [], (List.append_nil _).symm, ?_, rfl⟩
      rw [List.reverse_cons]
      exact h.concat (Spells.broken (List.cons_ne_nil b []) (by simpa using by omega))

/-- **One byte more.**  A byte that continues the unfinished sequence adds to it or completes it,
and any other byte leaves it broken and begins anew. -/
theorem feed_reads {d : Decoder} {bytes : List UInt8} (h : d.Reads bytes) (b : UInt8) :
    (d.feed b).Reads (bytes ++ [b]) := by
  obtain ⟨done, tail, rfl, hdone, htail⟩ := h
  rw [feed]
  split
  · rename_i hnone
    simp only [hnone] at htail
    rw [htail, List.append_nil]
    exact begin_reads hdone b
  · rename_i p hsome
    simp only [hsome] at htail
    split
    · rename_i hrange
      rw [List.append_assoc]
      split
      · rename_i hneed
        have hone : p.need = 1 := by have := htail.need_pos; omega
        refine ⟨done ++ (tail ++ [b]), [], (List.append_nil _).symm, ?_, rfl⟩
        rw [List.reverse_cons, ← htail.encodes [b] (.last hone hrange.1 hrange.2)]
        exact hdone.concat (Spells.char _)
      · rename_i hneed
        exact ⟨done, tail ++ [b], rfl, hdone,
          htail.step (by omega) hrange.1 hrange.2⟩
    · refine begin_reads ?_ b
      rw [List.reverse_cons, htail.seen_eq]
      exact hdone.concat (Spells.broken htail.nonempty htail.high)

theorem foldl_feed_reads {d : Decoder} {bytes : List UInt8} (h : d.Reads bytes)
    (more : List UInt8) : (more.foldl feed d).Reads (bytes ++ more) := by
  induction more generalizing d bytes with
  | nil => rwa [List.append_nil]
  | cons b more ih =>
    rw [List.foldl_cons, ← List.singleton_append, ← List.append_assoc]
    exact ih (feed_reads h b)

theorem spelled_finish {d : Decoder} {bytes : List UInt8} (h : d.Reads bytes) :
    Spelled bytes d.finish := by
  obtain ⟨done, tail, rfl, hdone, htail⟩ := h
  rw [finish]
  split
  · rename_i hnone
    simp only [hnone] at htail
    rwa [htail, List.append_nil]
  · rename_i p hsome
    simp only [hsome] at htail
    rw [List.reverse_cons, htail.seen_eq]
    exact hdone.concat (Spells.broken htail.nonempty htail.high)

end Decoder

/-- **The pieces of a byte string account for all of its bytes**, in order. -/
theorem decode_spelled (bytes : List UInt8) : Spelled bytes (decode bytes) := by
  have hstart : Decoder.Reads {} [] := ⟨[], [], rfl, .nil, rfl⟩
  exact Decoder.spelled_finish (Decoder.foldl_feed_reads hstart bytes)

/-! ## Reading back a text -/

namespace Decoder

/-- The bytes that complete a sequence make its character. -/
theorem foldl_feed_completes {p : Pending} {bs : List UInt8} (h : p.Completes bs)
    (pieces : List Piece) :
    bs.foldl feed ⟨pieces, some p⟩ =
      ⟨.char (Char.ofNat (pointAfter p.point bs)) :: pieces, none⟩ := by
  induction h with
  | last hneed hlo hhi =>
    rw [List.foldl_cons, List.foldl_nil, feed]
    simp only [hlo, hhi, and_self, if_true, hneed, Nat.le_refl]
    rw [pointAfter, List.foldl_cons, List.foldl_nil]
  | more hneed hlo hhi _ ih =>
    rw [List.foldl_cons, feed, pointAfter_cons, ← ih]
    simp only [hlo, hhi, and_self, if_true, hneed, Nat.reduceLeDiff, if_false,
      Nat.add_one_sub_one]

end Decoder

theorem toNat_ofNat_byte {n : Nat} (h : n < 256) : (UInt8.ofNat n).toNat = n := by
  rw [UInt8.toNat_ofNat', Nat.mod_eq_of_lt h]

theorem toNat_continuation (n : Nat) :
    0x80 ≤ (UInt8.ofNat (n % 0x40 + 0x80)).toNat ∧
      (UInt8.ofNat (n % 0x40 + 0x80)).toNat ≤ 0xBF := by
  rw [toNat_ofNat_byte (by omega)]
  omega

/-- The UTF-8 form of a character that is not ASCII is a lead byte and a completion. -/
theorem exists_lead {c : Char} (h : 0x7f < c.val.toNat) :
    ∃ b more p, String.utf8EncodeChar c = b :: more ∧ Pending.ofLead b = some p ∧
      p.Completes more := by
  have hvalid : c.val.toNat.isValidChar := c.valid
  rw [Nat.isValidChar] at hvalid
  rw [String.utf8EncodeChar, if_neg (by omega)]
  generalize c.val.toNat = v at h hvalid
  by_cases h2 : v ≤ 0x7ff
  · have hlead : (UInt8.ofNat (v / 64 % 0x20 + 0xc0)).toNat = v / 64 + 0xc0 := by
      rw [toNat_ofNat_byte (by omega)]; omega
    rw [if_pos h2]
    exact ⟨_, _, _, rfl, Pending.ofLead_two (by omega) (by omega),
      Pending.completes_one_iff.2 ⟨_, rfl, toNat_continuation v⟩⟩
  by_cases h3 : v ≤ 0xffff
  · have hlead : (UInt8.ofNat (v / 4096 % 0x10 + 0xe0)).toNat = v / 4096 + 0xe0 := by
      rw [toNat_ofNat_byte (by omega)]; omega
    have hsecond : (UInt8.ofNat (v / 64 % 0x40 + 0x80)).toNat = v / 64 % 0x40 + 0x80 :=
      toNat_ofNat_byte (by omega)
    rw [if_neg h2, if_pos h3]
    refine ⟨_, _, _, rfl, Pending.ofLead_three (by omega) (by omega),
      Pending.completes_two_iff.2 ⟨_, _, rfl, ?_, toNat_continuation v⟩⟩
    rw [Pending.in_narrowed (by decide) (by decide), hlead, hsecond]
    simp only [UInt8.reduceToNat]
    omega
  · have hlead : (UInt8.ofNat (v / 262144 % 0x08 + 0xf0)).toNat = v / 262144 + 0xf0 := by
      rw [toNat_ofNat_byte (by omega)]; omega
    have hsecond : (UInt8.ofNat (v / 4096 % 0x40 + 0x80)).toNat = v / 4096 % 0x40 + 0x80 :=
      toNat_ofNat_byte (by omega)
    rw [if_neg h2, if_neg h3]
    refine ⟨_, _, _, rfl, Pending.ofLead_four (by omega) (by omega),
      Pending.completes_three_iff.2 ⟨_, _, _, rfl, ?_, toNat_continuation _,
        toNat_continuation v⟩⟩
    rw [Pending.in_narrowed (by decide) (by decide), hlead, hsecond]
    simp only [UInt8.reduceToNat]
    omega

theorem utf8EncodeChar_injective {c d : Char}
    (h : String.utf8EncodeChar c = String.utf8EncodeChar d) : c = d := by
  have hc := ByteArray.utf8DecodeChar?_utf8EncodeChar_append (b := .empty) (c := c)
  rw [h, ByteArray.utf8DecodeChar?_utf8EncodeChar_append] at hc
  exact (Option.some.inj hc).symm

/-- **A character is read back from its UTF-8 form.** -/
theorem foldl_feed_encode (c : Char) (pieces : List Piece) :
    (String.utf8EncodeChar c).foldl Decoder.feed ⟨pieces, none⟩ = ⟨.char c :: pieces, none⟩ := by
  by_cases h : c.val.toNat ≤ 0x7f
  · have hc : (UInt8.ofNat c.val.toNat).toNat = c.val.toNat := toNat_ofNat_byte (by omega)
    rw [String.utf8EncodeChar, if_pos h, List.foldl_cons, List.foldl_nil, Decoder.feed,
      Decoder.begin, hc, if_pos (by omega)]
    exact congrArg (fun d => (⟨.char d :: pieces, none⟩ : Decoder)) (Char.ofNat_toNat c)
  · obtain ⟨b, more, p, hencode, hlead, hcomplete⟩ := exists_lead (by omega : 0x7f < c.val.toNat)
    have hpromise := Pending.promises_ofLead hlead
    have hpoint : Char.ofNat (pointAfter p.point more) = c :=
      utf8EncodeChar_injective ((hpromise.encodes more hcomplete).trans hencode.symm)
    have hhigh : ¬ b.toNat < 0x80 := Nat.not_lt.2 (hpromise.high b List.mem_cons_self)
    rw [hencode, List.foldl_cons, Decoder.feed]
    simp only [Decoder.begin, hhigh, if_false, hlead]
    rw [Decoder.foldl_feed_completes hcomplete, hpoint]

theorem foldl_feed_flatMap (cs : List Char) (pieces : List Piece) :
    (cs.flatMap String.utf8EncodeChar).foldl Decoder.feed ⟨pieces, none⟩ =
      ⟨(cs.map Piece.char).reverse ++ pieces, none⟩ := by
  induction cs generalizing pieces with
  | nil => rfl
  | cons c cs ih =>
    rw [List.flatMap_cons, List.foldl_append, foldl_feed_encode, ih, List.map_cons,
      List.reverse_cons, List.append_assoc, List.singleton_append]

theorem decode_flatMap (cs : List Char) :
    decode (cs.flatMap String.utf8EncodeChar) = cs.map Piece.char := by
  rw [decode, show ({} : Decoder) = ⟨[], none⟩ from rfl, foldl_feed_flatMap, Decoder.finish,
    List.append_nil]
  exact List.reverse_reverse _

/-- **A text is read back from its UTF-8 form.** -/
theorem lossyText_flatMap (cs : List Char) :
    lossyText (cs.flatMap String.utf8EncodeChar) = String.ofList cs := by
  rw [lossyText, decode_flatMap, List.map_map]
  exact congrArg String.ofList (List.map_id cs)

end GoGlobals.Text
