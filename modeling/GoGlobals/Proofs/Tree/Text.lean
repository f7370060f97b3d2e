import GoGlobals.Proofs.Text.Malformed
import GoGlobals.Proofs.Tree.Report

/-!
# The text of a node is exact

The rule compares names, and a name is the text of a node, decoded from the bytes that the node
covers.  So what the rule says of a name holds of the bytes in the file only if the decoding can be
undone.  It cannot always be undone: bytes that are not UTF-8 have a text too.  But then the text
holds a replacement character, and none of the names that the rule asks for does.

A node may cover any range, also one that ends behind the source or that ends before it starts.  The
first is cut off at the end of the source and the second is empty (`Node.bytes`).

## What is here

* `Node.bytes`, the bytes that a node covers, and `Node.text_eq_iff`, that a text without
  replacement characters is the text of its own UTF-8 form only.
* `Node.ReadsExactly`, what is wanted of the text of a node, and `Node.readsExactly`, that all
  nodes have it in all sources.
-/

set_option autoImplicit false

namespace GoGlobals

open Text (Source bytesOf lossyText HoldsMalformed)

/-- The names that the rule asks for: the exempt names of variables, and the qualifiers and members
on the allow list. -/
def knownNames : List String :=
  exemptNames ++ allowRules.flatMap fun rule => [rule.qualifier, rule.member]

theorem replacement_notMem_knownNames : ∀ name ∈ knownNames, '\uFFFD' ∉ name.toList := by
  decide

theorem mem_knownNames_of_rule {rule : AllowRule} (h : rule ∈ allowRules) :
    rule.qualifier ∈ knownNames ∧ rule.member ∈ knownNames :=
  ⟨List.mem_append_right _ (List.mem_flatMap.2 ⟨rule, h, by simp⟩),
    List.mem_append_right _ (List.mem_flatMap.2 ⟨rule, h, by simp⟩)⟩

/-- A row that is found is one for the qualifier and the member that were looked up. -/
theorem mem_of_findRule? {qualifier member : String} {rule : AllowRule}
    (h : findRule? (some qualifier) (some member) = some rule) :
    rule ∈ allowRules ∧ qualifier = rule.qualifier ∧ member = rule.member := by
  rw [findRule?] at h
  have hkey := List.find?_some h
  rw [Bool.and_eq_true, beq_iff_eq, beq_iff_eq] at hkey
  exact ⟨List.mem_of_find?_eq_some h, hkey.1.symm, hkey.2.symm⟩

namespace Node

/-! ## The bytes of a node -/

/-- The bytes from the start of a node up to its end: those behind the end of the source are left
out, and there are none if the node does not start before its end. -/
def bytes (n : Node) (source : Source) : List UInt8 :=
  (source.toList.take n.stop).drop n.start

variable {n : Node} {source : Source}

theorem text_eq (n : Node) (source : Source) :
    n.text source = lossyText (n.bytes source) := by
  rw [text, bytes, Text.slice, Array.toList_extract, List.extract_eq_take_drop, List.drop_take]

theorem bytes_of_size_le (h : source.size ≤ n.stop) :
    n.bytes source = source.toList.drop n.start := by
  rw [bytes, List.take_of_length_le (by rwa [Array.length_toList])]

theorem bytes_of_stop_le (h : n.stop ≤ n.start) : n.bytes source = [] := by
  rw [bytes, List.drop_eq_nil_iff, List.length_take]
  omega

/-- The bytes of a node are found between those before it and those behind it. -/
theorem bytes_between {before range after : List UInt8} (hstart : n.start = before.length)
    (hstop : n.stop = before.length + range.length) :
    n.bytes (before ++ range ++ after).toArray = range := by
  rw [bytes, List.toList_toArray, hstart, hstop, ← List.length_append, List.take_left,
    List.drop_left]

/-- A text without replacement characters is the text of its own UTF-8 form only. -/
theorem text_eq_iff {s : String} (hs : '\uFFFD' ∉ s.toList) :
    n.text source = s ↔ n.bytes source = bytesOf s := by
  rw [text_eq, Text.lossyText_eq_iff hs]

/-! ## Exact texts -/

/-- Nothing about the bytes of a node is lost in its text that the rule could need. -/
structure ReadsExactly (n : Node) (source : Source) : Prop where
  /-- A node that covers a part of a text has this part as its text. -/
  part : ∀ a b c : String, source = (bytesOf (a ++ b ++ c)).toArray →
    n.start = (bytesOf a).length → n.stop = (bytesOf a).length + (bytesOf b).length →
    n.text source = b
  /-- A node that ends behind the source has the text up to its end. -/
  clamped : source.size ≤ n.stop → n.text source = lossyText (source.toList.drop n.start)
  /-- A node that does not start before its end has no text. -/
  empty : n.stop ≤ n.start → n.text source = ""
  /-- Where nothing was replaced, the bytes are the UTF-8 form of the text. -/
  encoded : '\uFFFD' ∉ (n.text source).toList → bytesOf (n.text source) = n.bytes source
  /-- A name that the rule asks for is read from its UTF-8 form, and from no other bytes. -/
  known : ∀ name ∈ knownNames, n.text source = name ↔ n.bytes source = bytesOf name
  /-- Bytes with a malformed sequence in them do not read as such a name. -/
  malformed : HoldsMalformed (n.bytes source) →
    '\uFFFD' ∈ (n.text source).toList ∧ n.text source ∉ knownNames
  /-- A row of the allow list is found only for a node that selects its member from its qualifier,
  both spelled in their UTF-8 forms. -/
  listed : ∀ rule, findRule? (selectorParts (some n) source).1
      (selectorParts (some n) source).2 = some rule →
    rule ∈ allowRules ∧ ∃ operand member, Selects n operand member ∧
      operand.bytes source = bytesOf rule.qualifier ∧
      member.bytes source = bytesOf rule.member

theorem text_of_part {a b c : String} (hsource : source = (bytesOf (a ++ b ++ c)).toArray)
    (hstart : n.start = (bytesOf a).length)
    (hstop : n.stop = (bytesOf a).length + (bytesOf b).length) : n.text source = b := by
  rw [text_eq, hsource, Text.bytesOf_append, Text.bytesOf_append, bytes_between hstart hstop,
    Text.lossyText_bytesOf]

theorem text_eq_known_iff {name : String} (h : name ∈ knownNames) :
    n.text source = name ↔ n.bytes source = bytesOf name :=
  text_eq_iff (replacement_notMem_knownNames name h)

theorem text_of_malformed (h : HoldsMalformed (n.bytes source)) :
    '\uFFFD' ∈ (n.text source).toList ∧ n.text source ∉ knownNames := by
  have hreplaced : '\uFFFD' ∈ (n.text source).toList := by
    rw [text_eq]
    exact h.replaced
  exact ⟨hreplaced, fun hknown => replacement_notMem_knownNames _ hknown hreplaced⟩

/-- The two sides of a selector that a row is found for are spelled like the row. -/
theorem bytes_of_findRule? {rule : AllowRule}
    (h : findRule? (selectorParts (some n) source).1 (selectorParts (some n) source).2 =
      some rule) :
    rule ∈ allowRules ∧ ∃ operand member, Selects n operand member ∧
      operand.bytes source = bytesOf rule.qualifier ∧
      member.bytes source = bytesOf rule.member := by
  rw [selectorParts, Option.bind_some] at h
  split at h
  · rename_i operand member hsides
    split at h
    · obtain ⟨hrule, hqualifier, hmember⟩ := mem_of_findRule? h
      obtain ⟨hknown, hknown'⟩ := mem_knownNames_of_rule hrule
      exact ⟨hrule, operand, member, selectorSides?_eq_some_iff.1 hsides,
        (text_eq_known_iff hknown).1 hqualifier, (text_eq_known_iff hknown').1 hmember⟩
    · exact absurd h (by simp [findRule?])
  · exact absurd h (by simp [findRule?])

/-- **The text of a node is exact.**  It is the part of the text that the node covers, and what it
covers can be had back from it unless something was replaced.  So the bytes of a name that the rule
asks for are the UTF-8 form of this name, and no malformed sequence reads as one. -/
theorem readsExactly (n : Node) (source : Source) : n.ReadsExactly source where
  part _ _ _ := text_of_part
  clamped h := by rw [text_eq, bytes_of_size_le h]
  empty h := by
    rw [text_eq, bytes_of_stop_le h]
    rfl
  encoded h := by
    rw [text_eq] at h ⊢
    exact Text.bytesOf_lossyText h
  known _ := text_eq_known_iff
  malformed := text_of_malformed
  listed _ := bytes_of_findRule?

end Node

/-- The start of a file in which a name begins with the overlong form of its first letter. -/
def overlongSource : Source :=
  (bytesOf "var é, ").toArray ++ #[0xC1, 0xB6] ++
    (bytesOf "ersion = 1, regexp.MustCompile").toArray

/-- The name that would be exempt. -/
def overlongName : Node :=
  { kind := "identifier", start := 8, stop := 16 }

/-- The name before it, in two bytes. -/
def accentedName : Node :=
  { kind := "identifier", start := 4, stop := 6 }

/-- The selector at the end. -/
def lastSelector : Node :=
  { kind := "selector_expression", start := 22, stop := 40
    children := [
      { kind := "identifier", start := 22, stop := 28, field := some "operand" },
      { kind := "field_identifier", start := 29, stop := 400, field := some "field" }] }

/-- The overlong name is not exempt, the accented one is its bytes, and the selector is on the allow
list by its bytes, though its last part ends behind the source. -/
theorem readsExactly_overlongSource :
    HoldsMalformed (overlongName.bytes overlongSource) ∧
      overlongName.text overlongSource ∉ knownNames ∧
      accentedName.text (bytesOf ("var " ++ "é" ++ " = 1")).toArray = "é" ∧
      accentedName.text overlongSource = "é" ∧
      bytesOf "é" = accentedName.bytes overlongSource ∧
      ∃ operand member, Selects lastSelector operand member ∧
        operand.bytes overlongSource = bytesOf "regexp" ∧
        member.bytes overlongSource = bytesOf "MustCompile" := by
  have hmalformed : HoldsMalformed (overlongName.bytes overlongSource) :=
    ⟨[], Text.form 1 0x76, bytesOf "ersion", by with_unfolding_all decide,
      .overlong ⟨by decide, by decide, by decide⟩ (by decide)⟩
  have htext : accentedName.text overlongSource = "é" := by with_unfolding_all decide
  have hencoded : bytesOf (accentedName.text overlongSource) =
      accentedName.bytes overlongSource :=
    (accentedName.readsExactly overlongSource).encoded (by rw [htext]; decide)
  rw [htext] at hencoded
  exact ⟨hmalformed, ((overlongName.readsExactly overlongSource).malformed hmalformed).2,
    (accentedName.readsExactly _).part "var " "é" " = 1" rfl (by with_unfolding_all decide)
      (by with_unfolding_all decide),
    htext, hencoded,
    ((lastSelector.readsExactly overlongSource).listed ⟨"regexp", "MustCompile", false⟩
      (by with_unfolding_all decide)).2⟩

end GoGlobals
