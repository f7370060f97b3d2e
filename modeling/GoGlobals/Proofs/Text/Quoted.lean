import GoGlobals.Text.Quoted

/-!
# Printable texts

A text of printable characters can be put on a line: none of them breaks it, and none controls the
terminal that it is written to.  Numerals are printable, and so is every quoted text, whatever it
holds (`printable_quoted`): what is not printable in it is written by its code point, in digits.

## What is here

* `Printable`, and `OneLine`, which asks for less: no character breaks the line or is a control.
* `printable_toString` for numerals and `printable_quoted` for quoted texts.
-/

set_option autoImplicit false

namespace GoGlobals.Text

/-- All characters of the text are printable. -/
def Printable (s : String) : Prop :=
  ∀ c ∈ s.toList, isPrintable c = true

instance (s : String) : Decidable (Printable s) :=
  decidable_of_iff (s.toList.all isPrintable = true) List.all_eq_true

/-- The control characters, which take in most characters that end a line, and the two other ones
that do. -/
def breakRanges : List (Nat × Nat) :=
  [(0x00, 0x1f), (0x7f, 0x9f), (0x2028, 0x2029)]

/-- No character of the text ends a line or is a control character. -/
def OneLine (s : String) : Prop :=
  ∀ c ∈ s.toList, inRanges breakRanges c.toNat = false

instance (s : String) : Decidable (OneLine s) :=
  decidable_of_iff (s.toList.all (fun c => !inRanges breakRanges c.toNat) = true) (by
    simp only [List.all_eq_true, Bool.not_eq_true', OneLine])

theorem printable_append {s t : String} : Printable (s ++ t) ↔ Printable s ∧ Printable t := by
  rw [Printable, String.toList_append, List.forall_mem_append, Printable, Printable]

theorem oneLine_append {s t : String} : OneLine (s ++ t) ↔ OneLine s ∧ OneLine t := by
  rw [OneLine, String.toList_append, List.forall_mem_append, OneLine, OneLine]

/-- What ends a line or is a control character is not printable. -/
theorem isPrintable_of_break {c : Char} (h : inRanges breakRanges c.toNat = true) :
    isPrintable c = false := by
  have hcases : c.toNat < 0x20 ∨ (0x7f ≤ c.toNat ∧ c.toNat ≤ 0x9f) ∨
      (0x2028 ≤ c.toNat ∧ c.toNat ≤ 0x2029) := by
    obtain ⟨r, hr, hlo, hhi⟩ := inRanges_iff.1 h
    simp only [breakRanges, List.mem_cons, List.not_mem_nil, or_false] at hr
    rcases hr with rfl | rfl | rfl <;> simp only at hlo hhi <;> omega
  rw [isPrintable]
  split
  · rw [Bool.and_eq_false_iff, decide_eq_false_iff_not, decide_eq_false_iff_not]
    omega
  · rw [Bool.not_eq_false', inRanges_iff]
    rcases hcases with h | h | h
    · omega
    · exact ⟨(0x80, 0xa0), by with_unfolding_all decide, by simp only; omega⟩
    · exact ⟨(0x2028, 0x202f), by with_unfolding_all decide, by simp only; omega⟩

theorem Printable.oneLine {s : String} (h : Printable s) : OneLine s := by
  intro c hc
  have hprintable := h c hc
  rw [Bool.eq_false_iff]
  intro hbreak
  rw [isPrintable_of_break hbreak] at hprintable
  exact Bool.false_ne_true hprintable

/-! ## Numerals -/

/-- An ASCII character that is no control character is printable. -/
theorem isPrintable_of_ascii {c : Char} (hlo : 0x20 ≤ c.toNat) (hhi : c.toNat < 0x7f) :
    isPrintable c = true := by
  rw [isPrintable, if_pos (by omega), Bool.and_eq_true, decide_eq_true_iff, decide_eq_true_iff]
  exact ⟨hlo, hhi⟩

theorem isPrintable_of_isDigit {c : Char} (h : c.isDigit = true) : isPrintable c = true := by
  rw [Char.isDigit, Bool.and_eq_true, decide_eq_true_iff, decide_eq_true_iff] at h
  have hlo : 48 ≤ c.toNat := UInt32.le_iff_toNat_le.1 h.1
  have hhi : c.toNat ≤ 57 := UInt32.le_iff_toNat_le.1 h.2
  exact isPrintable_of_ascii (by omega) (by omega)

theorem printable_repr (n : Nat) : Printable n.repr := by
  intro c hc
  rw [Nat.toList_repr] at hc
  exact isPrintable_of_isDigit (Nat.isDigit_of_mem_toDigits (by decide) (by decide) hc)

/-- A numeral is printable, its sign included. -/
theorem printable_toString (n : Int) : Printable (toString n) := by
  change Printable n.repr
  rw [Int.repr_eq_if]
  split
  · exact printable_repr _
  · exact printable_append.2 ⟨by decide, printable_repr _⟩

/-! ## Quoted texts -/

theorem isPrintable_digitChar : ∀ d < 16, isPrintable (Nat.digitChar d) = true := by
  decide

theorem isPrintable_of_mem_hexDigits {width n : Nat} {c : Char} (h : c ∈ hexDigits width n) :
    isPrintable c = true := by
  induction width generalizing n with
  | zero => exact absurd h List.not_mem_nil
  | succ width ih =>
    rw [hexDigits, List.mem_append, List.mem_singleton] at h
    rcases h with h | rfl
    · exact ih h
    · exact isPrintable_digitChar _ (Nat.mod_lt n (by decide))

/-- A code point is written by a backslash, a letter and digits. -/
theorem exists_escapeByCode (c : Char) : ∃ letter width,
    escapeByCode c = '\\' :: letter :: hexDigits width c.toNat ∧ isPrintable letter = true := by
  simp only [escapeByCode]
  split
  · exact ⟨_, _, rfl, by decide⟩
  split
  · exact ⟨_, _, rfl, by decide⟩
  · exact ⟨_, _, rfl, by decide⟩

theorem isPrintable_of_mem_escapeByCode {c d : Char} (h : d ∈ escapeByCode c) :
    isPrintable d = true := by
  obtain ⟨letter, width, hcode, hletter⟩ := exists_escapeByCode c
  rw [hcode, List.mem_cons, List.mem_cons] at h
  rcases h with rfl | rfl | h
  · decide
  · exact hletter
  · exact isPrintable_of_mem_hexDigits h

/-- However a character is written between printable quotes, it is written printably. -/
theorem isPrintable_of_mem_escape {q c d : Char} (hq : isPrintable q = true) (h : d ∈ escape q c) :
    isPrintable d = true := by
  rw [escape] at h
  split at h
  · rename_i hc
    rw [List.mem_cons, List.mem_singleton] at h
    rw [Bool.or_eq_true, beq_iff_eq, beq_iff_eq] at hc
    rcases h with rfl | rfl
    · decide
    · rcases hc with rfl | rfl
      · decide
      · exact hq
  -- line feed, carriage return and tab
  iterate 3
    split at h
    · exact List.all_eq_true.1 (by decide) d h
  split at h
  · rename_i hc
    rw [List.mem_singleton] at h
    rw [h, hc]
  · exact isPrintable_of_mem_escapeByCode h

theorem isPrintable_quoteFor (cs : List Char) : isPrintable (quoteFor cs) = true := by
  rw [quoteFor]
  split <;> decide

/-- **A quoted text is printable**, whatever characters it is made of. -/
theorem printable_quoted (s : String) : Printable (quoted s) := by
  intro d hd
  have hq := isPrintable_quoteFor s.toList
  simp only [quoted, String.toList_ofList, List.mem_cons, List.mem_append, List.mem_flatMap,
    List.not_mem_nil, or_false] at hd
  rcases hd with rfl | ⟨c, -, hd⟩ | rfl
  · exact hq
  · exact isPrintable_of_mem_escape hq hd
  · exact hq

end GoGlobals.Text
