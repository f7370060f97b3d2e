import GoGlobals.Proofs.Text.Cursor
import Mathlib.Tactic.IntervalCases
import Mathlib.Tactic.Ring

/-!
# Malformed sequences

A decoder that is too generous reads one character from several byte strings.  It takes a code point
in more bytes than it needs, a surrogate, a code point beyond the last one, or it fills up a sequence
that breaks off.  Two byte strings then have one text, and a test of the text is no test of the
bytes.

What rules this out is that each of these sequences leaves a mark: if the text of a byte string has
no replacement character, the bytes are the UTF-8 form of the text (`bytesOf_lossyText`), and the
UTF-8 form of a text holds no malformed sequence, wherever one is looked for
(`HoldsMalformed.ne_bytesOf`).  The second half needs care where the sequence does not begin the
string, as the bytes before it could be in the middle of a character.  They cannot: a lead byte
continues nothing, so a character begins there (`exists_chars_from`).

## What is here

* `form`, the bytes of a code point behind a lead byte of any length, whether that is its own form
  or not.  `exists_form` says that the UTF-8 forms are among them, and `form_injective` that the code
  point can be read off.
* `Malformed`, the four kinds of malformed sequences, in terms of `form` and not of the decoder.
* `lossyText_eq_iff`: a text without replacement characters is read from its own form only.
-/

set_option autoImplicit false

namespace GoGlobals.Text

/-! ## Forms of code points -/

/-- A byte that stands behind a lead byte, and nowhere else. -/
def IsContinuation (b : UInt8) : Prop :=
  0x80 ≤ b.toNat ∧ b.toNat ≤ 0xBF

/-- The low bits of a number in `n` bytes, six in each. -/
def continuation : (n v : Nat) → List UInt8
  | 0, _ => []
  | n + 1, v => continuation n (v / 64) ++ [UInt8.ofNat (0x80 + v % 64)]

/-- A lead byte starts with a one for itself and for each of the `n` bytes that it announces, and
then a zero. -/
def leadMark (n : Nat) : Nat :=
  0x100 - 2 ^ (7 - n)

/-- The lead byte before `n` bytes with the low bits of a number. -/
def lead (n v : Nat) : UInt8 :=
  UInt8.ofNat (leadMark n + v / 64 ^ n)

/-- A number in a lead byte and `n` bytes behind it. -/
def form (n v : Nat) : List UInt8 :=
  lead n v :: continuation n v

/-- The least number with no room in a first byte and `n` bytes behind it. -/
def room : (n : Nat) → Nat
  | 0 => 0x80
  | n + 1 => 2 ^ (5 * n + 11)

/-- The number has room in a lead byte and `n` bytes behind it.  No lead byte announces more than
five. -/
structure Fits (n v : Nat) : Prop where
  pos : 1 ≤ n
  le_five : n ≤ 5
  lt_room : v < room n

theorem length_continuation (n v : Nat) : (continuation n v).length = n := by
  induction n generalizing v with
  | zero => rfl
  | succ n ih => rw [continuation, List.length_append, ih, List.length_singleton]

theorem isContinuation_of_mem {n v : Nat} {b : UInt8} (h : b ∈ continuation n v) :
    IsContinuation b := by
  induction n generalizing v with
  | zero => exact absurd h List.not_mem_nil
  | succ n ih =>
    rw [continuation, List.mem_append, List.mem_singleton] at h
    rcases h with h | rfl
    · exact ih h
    · rw [IsContinuation, toNat_ofNat_byte (by omega)]
      omega

theorem pointAfter_append (point : Nat) (bs bs' : List UInt8) :
    pointAfter point (bs ++ bs') = pointAfter (pointAfter point bs) bs' :=
  List.foldl_append

theorem pointAfter_continuation (point n v : Nat) :
    pointAfter point (continuation n v) = point * 64 ^ n + v % 64 ^ n := by
  induction n generalizing v with
  | zero => simp [continuation, pointAfter, Nat.mod_one]
  | succ n ih =>
    have hbyte : (UInt8.ofNat (0x80 + v % 64)).toNat - 0x80 = v % 64 := by
      rw [toNat_ofNat_byte (by omega), Nat.add_sub_cancel_left]
    calc pointAfter point (continuation (n + 1) v)
        = pointAfter point (continuation n (v / 64)) * 64 + v % 64 := by
          rw [continuation, pointAfter_append, pointAfter_cons, hbyte, pointAfter, List.foldl_nil]
      _ = (point * 64 ^ n + v / 64 % 64 ^ n) * 64 + v % 64 := by rw [ih]
      _ = point * 64 ^ (n + 1) + v % 64 ^ (n + 1) := by
          rw [Nat.pow_succ', Nat.mod_mul]
          ring

namespace Fits

variable {n m v w : Nat}

/-- The bits that fall to the lead byte fit in behind its mark. -/
theorem toNat_lead (h : Fits n v) : (lead n v).toNat = leadMark n + v / 64 ^ n := by
  obtain ⟨hpos, hle, hroom⟩ := h
  rw [lead, toNat_ofNat_byte]
  interval_cases n <;> simp only [room, leadMark, Nat.reduceAdd, Nat.reduceMul, Nat.reduceSub,
    Nat.reducePow] at hroom ⊢ <;> omega

theorem le_toNat_lead (h : Fits n v) : 0xC0 ≤ (lead n v).toNat := by
  rw [h.toNat_lead]
  obtain ⟨hpos, hle, -⟩ := h
  interval_cases n <;> simp only [leadMark, Nat.reduceSub, Nat.reducePow] <;> omega

/-- A lead byte tells how many bytes are behind it. -/
theorem eq_of_lead_eq (h : Fits n v) (h' : Fits m w) (heq : lead n v = lead m w) : n = m := by
  have hnat := congrArg UInt8.toNat heq
  rw [h.toNat_lead, h'.toNat_lead] at hnat
  obtain ⟨hpos, hle, hroom⟩ := h
  obtain ⟨hpos', hle', hroom'⟩ := h'
  interval_cases n <;> interval_cases m <;> simp only [room, leadMark, Nat.reduceAdd,
    Nat.reduceMul, Nat.reduceSub, Nat.reducePow] at hroom hroom' hnat ⊢ <;> omega

/-- The number is read off its form. -/
theorem pointAfter_lead (h : Fits n v) :
    pointAfter ((lead n v).toNat - leadMark n) (continuation n v) = v := by
  rw [h.toNat_lead, Nat.add_sub_cancel_left, pointAfter_continuation, Nat.div_add_mod']

theorem form_injective (h : Fits n v) (h' : Fits n w) (heq : form n v = form n w) : v = w := by
  obtain ⟨hlead, hmore⟩ := List.cons.inj heq
  rw [← h.pointAfter_lead, hlead, hmore, h'.pointAfter_lead]

end Fits

/-- **A UTF-8 form is the shortest form** of its code point, if it is longer than a byte. -/
theorem exists_form {c : Char} (hc : 0x7f < c.val.toNat) :
    ∃ n, Fits n c.val.toNat ∧ room (n - 1) ≤ c.val.toNat ∧
      String.utf8EncodeChar c = form n c.val.toNat := by
  have hvalid : c.val.toNat.isValidChar := c.valid
  rw [Nat.isValidChar] at hvalid
  rw [String.utf8EncodeChar, if_neg (by omega)]
  generalize c.val.toNat = v at hc hvalid
  by_cases h2 : v ≤ 0x7ff
  · refine ⟨1, ⟨by decide, by decide, Nat.lt_succ_of_le h2⟩, hc, ?_⟩
    rw [if_pos h2]
    simp only [form, lead, leadMark, continuation, List.nil_append, Nat.reduceSub, Nat.reducePow,
      List.cons.injEq, and_true]
    constructor <;> congr 1 <;> omega
  by_cases h3 : v ≤ 0xffff
  · refine ⟨2, ⟨by decide, by decide, Nat.lt_succ_of_le h3⟩, Nat.lt_of_not_le h2, ?_⟩
    rw [if_neg h2, if_pos h3]
    simp only [form, lead, leadMark, continuation, List.nil_append, List.cons_append,
      Nat.reduceSub, Nat.reducePow, List.cons.injEq, and_true]
    refine ⟨?_, ?_, ?_⟩ <;> congr 1 <;> omega
  · refine ⟨3, ⟨by decide, by decide, ?_⟩, Nat.lt_of_not_le h3, ?_⟩
    · show v < 0x200000
      omega
    rw [if_neg h2, if_neg h3]
    simp only [form, lead, leadMark, continuation, List.nil_append, List.cons_append,
      Nat.reduceSub, Nat.reducePow, List.cons.injEq, and_true]
    refine ⟨?_, ?_, ?_, ?_⟩ <;> congr 1 <;> omega

/-- A slash in two bytes, the first surrogate, and the first number that is no code point. -/
example : form 1 0x2F = [0xC0, 0xAF] ∧ form 2 0xD800 = [0xED, 0xA0, 0x80] ∧
    form 3 0x110000 = [0xF4, 0x90, 0x80, 0x80] := by
  decide

/-! ## Where a character begins -/

theorem isContinuation_of_mem_tail {c : Char} {b : UInt8}
    (h : b ∈ (String.utf8EncodeChar c).tail) : IsContinuation b := by
  by_cases hc : c.val.toNat ≤ 0x7f
  · rw [String.utf8EncodeChar, if_pos hc] at h
    exact absurd h List.not_mem_nil
  · obtain ⟨n, -, -, hform⟩ := exists_form (Nat.lt_of_not_le hc)
    rw [hform] at h
    exact isContinuation_of_mem h

/-- **A byte that continues nothing begins a character**, whatever stands before it. -/
theorem exists_chars_from {before rest : List UInt8} {b : UInt8} {cs : List Char}
    (h : before ++ b :: rest = cs.flatMap String.utf8EncodeChar) (hb : ¬ IsContinuation b) :
    ∃ cs' : List Char, b :: rest = cs'.flatMap String.utf8EncodeChar := by
  induction cs generalizing before with
  | nil => exact absurd h (by simp)
  | cons c cs ih =>
    cases before with
    | nil => exact ⟨c :: cs, h⟩
    | cons b₀ before =>
      rw [List.flatMap_cons] at h
      rcases List.append_eq_append_iff.1 h with ⟨mid, hencode, hrest⟩ | ⟨mid, -, hrest⟩
      · cases mid with
        | nil => exact @ih [] hrest
        | cons b₁ mid =>
          -- the byte would be in the middle of a character
          obtain ⟨rfl, -⟩ := List.cons.inj hrest
          refine absurd (isContinuation_of_mem_tail (c := c) ?_) hb
          rw [hencode]
          simp
      · exact ih hrest.symm

/-- Where a text has a lead byte, it has the shortest form of a code point, with as many bytes as
the lead byte announces. -/
theorem Fits.exists_char {n v : Nat} {more : List UInt8} {cs : List Char} (hfits : Fits n v)
    (h : lead n v :: more = cs.flatMap String.utf8EncodeChar) :
    ∃ (c : Char) (rest : List UInt8), Fits n c.val.toNat ∧ room (n - 1) ≤ c.val.toNat ∧
      lead n v :: more = form n c.val.toNat ++ rest := by
  cases cs with
  | nil => exact absurd h (by simp)
  | cons c cs =>
    rw [List.flatMap_cons] at h
    by_cases hc : c.val.toNat ≤ 0x7f
    · have hlead := hfits.le_toNat_lead
      rw [String.utf8EncodeChar, if_pos hc] at h
      rw [(List.cons.inj h).1, toNat_ofNat_byte (by omega)] at hlead
      omega
    · obtain ⟨m, hfits', hshort, hform⟩ := exists_form (Nat.lt_of_not_le hc)
      rw [hform] at h
      obtain rfl : n = m := hfits.eq_of_lead_eq hfits' (List.cons.inj h).1
      exact ⟨c, _, hfits', hshort, h⟩

/-- A form with which a text begins is the shortest one of a character. -/
theorem Fits.isValidChar_of_form {n v : Nat} {after : List UInt8} {cs : List Char}
    (hfits : Fits n v) (h : form n v ++ after = cs.flatMap String.utf8EncodeChar) :
    v.isValidChar ∧ room (n - 1) ≤ v := by
  obtain ⟨c, rest, hfits', hshort, heq⟩ := hfits.exists_char h
  have hlength : (form n v).length = (form n c.val.toNat).length := by
    rw [form, form, List.length_cons, List.length_cons, length_continuation, length_continuation]
  have hforms : form n v ++ after = form n c.val.toNat ++ rest := heq
  obtain ⟨hsame, -⟩ := List.append_inj hforms hlength
  obtain rfl : v = c.val.toNat := hfits.form_injective hfits' hsame
  exact ⟨c.valid, hshort⟩

/-! ## Malformed sequences -/

/-- The bytes, with these behind them, stand for no character, though they begin like one. -/
inductive Malformed : (bytes after : List UInt8) → Prop
  /-- A code point that has room in fewer bytes. -/
  | overlong {n v : Nat} {after : List UInt8} (hfits : Fits n v) (hshort : v < room (n - 1)) :
      Malformed (form n v) after
  /-- One half of a pair of UTF-16. -/
  | surrogate {v : Nat} {after : List UInt8} (hlo : 0xD800 ≤ v) (hhi : v ≤ 0xDFFF) :
      Malformed (form 2 v) after
  /-- A number beyond the last code point. -/
  | outOfRange {n v : Nat} {after : List UInt8} (hfits : Fits n v) (hv : 0x10FFFF < v) :
      Malformed (form n v) after
  /-- A lead byte with fewer bytes behind it than it announces. -/
  | truncated {n v k : Nat} {after : List UInt8} (hfits : Fits n v) (hk : k < n)
      (hafter : ∀ b ∈ after.head?, ¬ IsContinuation b) :
      Malformed (lead n v :: (continuation n v).take k) after

/-- The bytes hold a malformed sequence, at any place. -/
def HoldsMalformed (bytes : List UInt8) : Prop :=
  ∃ before sequence after, bytes = before ++ (sequence ++ after) ∧ Malformed sequence after

theorem fits_surrogate {v : Nat} (hhi : v ≤ 0xDFFF) : Fits 2 v := by
  have hroom : v < 0x10000 := by omega
  exact ⟨by decide, by decide, hroom⟩

/-- A malformed sequence begins with a lead byte. -/
theorem Malformed.exists_lead {bytes after : List UInt8} (h : Malformed bytes after) :
    ∃ n v more, Fits n v ∧ bytes = lead n v :: more := by
  cases h with
  | overlong hfits | outOfRange hfits | truncated hfits => exact ⟨_, _, _, hfits, rfl⟩
  | surrogate _ hhi => exact ⟨_, _, _, fits_surrogate hhi, rfl⟩

/-- **No text begins with a malformed sequence.** -/
theorem Malformed.append_ne {bytes after : List UInt8} (h : Malformed bytes after)
    (cs : List Char) : bytes ++ after ≠ cs.flatMap String.utf8EncodeChar := by
  intro heq
  cases h with
  | overlong hfits hshort =>
    have hroom := (hfits.isValidChar_of_form heq).2
    omega
  | surrogate hlo hhi =>
    have hvalid := ((fits_surrogate hhi).isValidChar_of_form heq).1
    rw [Nat.isValidChar] at hvalid
    omega
  | outOfRange hfits hv =>
    have hvalid := (hfits.isValidChar_of_form heq).1
    rw [Nat.isValidChar] at hvalid
    omega
  | @truncated n v k _ hfits hk hafter =>
    obtain ⟨c, rest, -, -, hform⟩ := hfits.exists_char heq
    generalize c.val.toNat = w at hform
    have hlength : ((continuation n v).take k).length = k := by
      rw [List.length_take, length_continuation, Nat.min_eq_left hk.le]
    -- what is behind the sequence is the rest of the character
    have hrest : after = (continuation n w).drop k ++ rest := by
      have hmore : (continuation n v).take k ++ after = continuation n w ++ rest :=
        (List.cons.inj hform).2
      have hdrop := congrArg (List.drop k) hmore
      rwa [List.drop_left' hlength, List.drop_append_of_le_length
        (by rw [length_continuation]; exact hk.le)] at hdrop
    rw [hrest, List.drop_eq_getElem_cons (by rwa [length_continuation])] at hafter
    exact hafter _ rfl (isContinuation_of_mem (List.getElem_mem _))

/-- **The UTF-8 form of a text holds no malformed sequence.** -/
theorem HoldsMalformed.ne_bytesOf {bytes : List UInt8} (h : HoldsMalformed bytes) (s : String) :
    bytes ≠ bytesOf s := by
  intro heq
  obtain ⟨before, sequence, after, rfl, hmalformed⟩ := h
  obtain ⟨n, v, more, hfits, rfl⟩ := hmalformed.exists_lead
  have hlead : ¬ IsContinuation (lead n v) := fun hcontinuation =>
    absurd (Nat.le_trans hfits.le_toNat_lead hcontinuation.2) (by decide)
  have htext : before ++ lead n v :: (more ++ after) = s.toList.flatMap String.utf8EncodeChar :=
    heq
  obtain ⟨cs, hcs⟩ := exists_chars_from htext hlead
  exact hmalformed.append_ne cs hcs

/-! ## Texts without replacement characters -/

theorem bytesOf_append (s t : String) : bytesOf (s ++ t) = bytesOf s ++ bytesOf t := by
  rw [bytesOf, String.toList_append, List.flatMap_append, bytesOf, bytesOf]

/-- A text is read back from its UTF-8 form. -/
theorem lossyText_bytesOf (s : String) : lossyText (bytesOf s) = s := by
  rw [bytesOf, lossyText_flatMap, String.ofList_toList]

/-- **Bytes are the UTF-8 form of their text** if nothing was replaced in it. -/
theorem bytesOf_lossyText {bytes : List UInt8} (h : '\uFFFD' ∉ (lossyText bytes).toList) :
    bytesOf (lossyText bytes) = bytes := by
  rw [lossyText, String.toList_ofList] at h
  have hchars : ∀ width, Piece.broken width ∉ decode bytes := fun width hmem =>
    h (List.mem_map_of_mem (f := Piece.toChar) hmem)
  rw [bytesOf, lossyText, String.toList_ofList]
  exact (decode_eq_map_char_iff.1 (map_char_map_toChar hchars).symm).symm

/-- A text without replacement characters is read from its own UTF-8 form only. -/
theorem lossyText_eq_iff {bytes : List UInt8} {s : String} (hs : '\uFFFD' ∉ s.toList) :
    lossyText bytes = s ↔ bytes = bytesOf s := by
  constructor
  · rintro rfl
    exact (bytesOf_lossyText hs).symm
  · rintro rfl
    exact lossyText_bytesOf s

/-- Where there is a malformed sequence, something is replaced. -/
theorem HoldsMalformed.replaced {bytes : List UInt8} (h : HoldsMalformed bytes) :
    '\uFFFD' ∈ (lossyText bytes).toList := by
  by_contra hnone
  exact h.ne_bytesOf _ (bytesOf_lossyText hnone).symm

end GoGlobals.Text
