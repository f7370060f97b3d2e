import GoGlobals.Proofs.Opening
import Mathlib

/-!
# Reading diagnostics back

The line that reports a diagnostic quotes nothing.  A file may hold colons, spaces and numerals, and
may even read like a whole line of this kind, so nothing can be told from the beginning of a line.
It can be told from the end: the words there are fixed, a name holds no space, and a numeral holds
no colon.

`Diagnostic.ofMessage?` reads a line in this way, and every line gives its diagnostic back
(`ofMessage?_message`), so that different diagnostics are never reported by one line.  That names
hold no space is needed, and with a name that does it can fail.  The names that a scan finds are
identifiers that stand in a source text, so the lines that it prints hold everything that it found,
whatever the files are called (`scan_messages_read_back`).

## What is here

* `Text.cutLast?` cuts a text at the last place of a character, whatever is before it
  (`Text.cutLast?_append`).
* `Diagnostic.ofMessage?`, and `message_read_back`, the theorem.
* `scan_messages_read_back`, what follows for a scan.
-/

set_option autoImplicit false

namespace GoGlobals

open Text (Source)

/-! ## Cutting at the last place -/

namespace Text

/-- What is before the last place of a character in a text, and what is behind it. -/
def cutLast? (c : Char) : List Char → Option (List Char × List Char)
  | [] => none
  | d :: ds =>
    match cutLast? c ds with
    | some (before, after) => some (d :: before, after)
    | none => if d == c then some ([], ds) else none

theorem cutLast?_eq_none {c : Char} {cs : List Char} (h : c ∉ cs) : cutLast? c cs = none := by
  induction cs with
  | nil => rfl
  | cons d ds ih =>
    rw [List.mem_cons, not_or] at h
    rw [cutLast?, ih h.2, if_neg (by simpa using Ne.symm h.1)]

theorem cutLast?_append {c : Char} (before : List Char) {after : List Char} (h : c ∉ after) :
    cutLast? c (before ++ c :: after) = some (before, after) := by
  induction before with
  | nil => rw [List.nil_append, cutLast?, cutLast?_eq_none h, if_pos (beq_self_eq_true c)]
  | cons d before ih => rw [List.cons_append, cutLast?, ih]

end Text

/-! ## Reading a line from its end -/

namespace Diagnostic

/-- The words at the end of every line. -/
def verdict : String := " is a global variable"

/-- Reads a line that reports a diagnostic: the words at its end are taken off, the name is what
stands behind the last space, and the number of the line what stands behind the last colon. -/
def ofMessage? (message : String) : Option Diagnostic := do
  let place ← message.toList.dropSuffix? verdict.toList
  let (place, name) ← Text.cutLast? ' ' place
  let (file, number) ← Text.cutLast? ':' place
  let line ← (String.ofList number).toInt?
  return ⟨String.ofList file, line, String.ofList name⟩

theorem toList_message (d : Diagnostic) : d.message.toList =
    ((d.file.toList ++ ':' :: d.line.repr.toList) ++ ' ' :: d.name.toList) ++ verdict.toList := by
  simp [message, verdict, toString]

/-- A decimal numeral holds digits and perhaps a sign, so no colon. -/
theorem colon_notMem_repr (n : Int) : ':' ∉ n.repr.toList := by
  have hdigits : ∀ m : Nat, ':' ∉ m.repr.toList := by
    intro m hmem
    rw [Nat.toList_repr] at hmem
    exact absurd (Nat.isDigit_of_mem_toDigits (by decide) (by decide) hmem) (by decide)
  rw [Int.repr_eq_if]
  split
  · exact hdigits _
  · rw [String.toList_append, List.mem_append, not_or]
    exact ⟨by decide, hdigits _⟩

theorem ofMessage?_message {d : Diagnostic} (hd : ' ' ∉ d.name.toList) :
    ofMessage? d.message = some d := by
  have hverdict : d.message.toList.dropSuffix? verdict.toList =
      some ((d.file.toList ++ ':' :: d.line.repr.toList) ++ ' ' :: d.name.toList) :=
    List.dropSuffix?_eq_some_iff.2 ⟨_, d.toList_message, beq_self_eq_true _⟩
  have hname := Text.cutLast?_append (d.file.toList ++ ':' :: d.line.repr.toList) hd
  have hline := Text.cutLast?_append d.file.toList (colon_notMem_repr d.line)
  rw [ofMessage?, hverdict, Option.bind_eq_bind, Option.bind_some, hname]
  simp [hline, Int.toInt?_repr]

end Diagnostic

/-- **Diagnostics can be read back from the lines that report them.**  Let the names of two
diagnostics hold no space; their files may hold anything, and their lines be any integers.  If the
two are reported by the same line, they are the same, and reading the line from its end gives the
file, the number and the name again. -/
theorem message_read_back {d e : Diagnostic} (hd : ' ' ∉ d.name.toList)
    (he : ' ' ∉ e.name.toList) :
    (d.message = e.message → d = e) ∧ Diagnostic.ofMessage? d.message = some d := by
  refine ⟨fun h => ?_, Diagnostic.ofMessage?_message hd⟩
  have hsame : some d = some e := by
    rw [← Diagnostic.ofMessage?_message hd, h, Diagnostic.ofMessage?_message he]
  exact Option.some.inj hsame

/-- A file that reads like a line about another variable does not mislead. -/
theorem message_read_back_imitation :
    Diagnostic.ofMessage? "a.go:7 x is a global variable:-20 y is a global variable" =
      some ⟨"a.go:7 x is a global variable", -20, "y"⟩ := by
  have hmessage : (⟨"a.go:7 x is a global variable", -20, "y"⟩ : Diagnostic).message =
      "a.go:7 x is a global variable:-20 y is a global variable" := by with_unfolding_all decide
  have hread := (@message_read_back ⟨"a.go:7 x is a global variable", -20, "y"⟩ ⟨"a.go", 7, "x"⟩
    (by decide) (by decide)).2
  rwa [hmessage] at hread

/-- With a space in a name, two diagnostics share a line. -/
example : (⟨"a.go", 7, "x:20 y"⟩ : Diagnostic).message =
    (⟨"a.go:7 x", 20, "y"⟩ : Diagnostic).message := by
  with_unfolding_all decide

/-! ## The lines of a scan -/

/-- What is found in the tree of a text has names without spaces. -/
theorem Go.Root.space_notMem {source : Source} {root : Node} (hroot : Go.Root source root)
    {file : String} {ds : List Diagnostic} (h : check (root.extract source file) = .ok ds) :
    ∀ d ∈ ds, ' ' ∉ d.name.toList := by
  intro d hd
  rw [check_eq_ok h] at hd
  obtain ⟨g, hg, hd⟩ := List.mem_flatMap.1 ((findings_sublist _).subset hd)
  obtain ⟨i, hi, rfl⟩ := List.mem_map.1 hd
  have hname : i ∈ (root.extract source file).names := List.mem_flatMap.2 ⟨g, hg, hi⟩
  rw [Go.Root.names_extract] at hname
  obtain ⟨n, hn, rfl⟩ := List.mem_map.1 hname
  intro hspace
  exact absurd ((hroot.spellsName_of_mem n hn).standsAt.notBlank ' ' hspace) (by decide)

/-- The lines about a file that was checked can be read back. -/
theorem ofMessage?_of_checkFile {fs : FileSystem} {path : String} {ds : List Diagnostic}
    (h : (checkFile fs path).value = .ok ds) :
    ∀ d ∈ ds, Diagnostic.ofMessage? d.message = some d := by
  obtain ⟨content, root, hparse, hcheck⟩ := exists_root_of_checkFile h
  exact fun d hd =>
    Diagnostic.ofMessage?_message ((Go.root_of_parse? hparse).space_notMem hcheck d hd)

/-- **The lines that a scan prints can be read back.** -/
theorem scan_messages_read_back {fs : FileSystem} {endings : Path.Endings} {path : String}
    {includeTests : Bool} {r : ScanResult}
    (h : (scan fs endings path includeTests).value = .ok r) :
    r.messages.map Diagnostic.ofMessage? = r.diagnostics.map some := by
  obtain ⟨blocks, houtcome, rfl⟩ := (scan_eq_ok_iff rfl).1 h
  obtain ⟨-, -, hchecked⟩ := Walk.outcome_eq_ok_iff.1 houtcome
  rw [ScanResult.messages, List.map_map]
  refine List.map_congr_left fun d hd => ?_
  obtain ⟨b, hb, hd⟩ := List.mem_flatMap.1 hd
  exact ofMessage?_of_checkFile (hchecked b hb) d hd

end GoGlobals
