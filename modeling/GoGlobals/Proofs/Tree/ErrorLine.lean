import GoGlobals.Proofs.Text.Quoted
import GoGlobals.Proofs.Tree.Acceptance

/-!
# A parse error is one line

A parse error is printed as a line, so it must not hold characters that break a line or are controls.
It is put together from four things.  The words are fixed, the place is the path of the file and two
numerals, the text that a mistake covers is quoted, and the kind of a node that is missing or stray
is put in as it is.

Only the last can do harm, since the kind of a token of fixed spelling is its spelling: of all tokens
of Go text two are not printable, the line feed and the NUL byte that end a statement.  A stray node
is a named one, so it is not such a token, but a missing one may be.  A parse error is one line
exactly if it does not tell that such a token is missing (`render_oneLine_iff`).

## What is here

* `Fault.kind?`, the kind that a fault puts into its message, and what the rest of a line is made of.
* `Node.HasGoKind`, what is asked of the kinds of a tree.
* `Node.MissesControlEnd`, the one way to break the line.
-/

set_option autoImplicit false

namespace GoGlobals

open Text (Source Printable OneLine printable_append oneLine_append)

/-! ## The parts of a line -/

/-- The kind of node that a fault names as it is. -/
def Fault.kind? : Fault → Option String
  | unreadable | near _ | noPackageClause => none
  | missing kind | stray kind => some kind

theorem Fault.printable_message {fault : Fault}
    (h : ∀ kind, fault.kind? = some kind → Printable kind) : Printable fault.message := by
  cases fault with
  | unreadable | noPackageClause => decide
  | near text => exact printable_append.2 ⟨by decide, Text.printable_quoted _⟩
  | missing kind => exact printable_append.2 ⟨by decide, h kind rfl⟩
  | stray kind =>
    exact printable_append.2 ⟨printable_append.2 ⟨by decide, h kind rfl⟩, by decide⟩

/-- A kind that breaks the line breaks the message. -/
theorem Fault.oneLine_kind {fault : Fault} {kind : String} (hkind : fault.kind? = some kind)
    (h : OneLine fault.message) : OneLine kind := by
  cases fault with
  | unreadable | near | noPackageClause => exact absurd hkind (Option.some_ne_none _).symm
  | missing kind' =>
    obtain rfl := Option.some.inj hkind
    exact (oneLine_append.1 h).2
  | stray kind' =>
    obtain rfl := Option.some.inj hkind
    exact (oneLine_append.1 (oneLine_append.1 h).1).2

theorem ParseError.printable_location {e : ParseError} (hfile : Printable e.file) :
    Printable e.location := by
  have hcolon : Printable ":" := by decide
  have hnumber := Text.printable_toString
  rw [location]
  split
  · simp only [printable_append, hfile, hcolon, hnumber, and_self]
  · simp only [printable_append, hfile, hcolon, hnumber, and_self]
  · exact hfile

theorem Refusal.printable_render {r : Refusal} {file : String} (hfile : Printable file)
    (h : ∀ kind, r.fault.kind? = some kind → Printable kind) :
    Printable (r.error file).render := by
  have hlocation : Printable (r.error file).location :=
    ParseError.printable_location hfile
  exact printable_append.2 ⟨printable_append.2 ⟨hlocation, by decide⟩, Fault.printable_message h⟩

theorem Refusal.oneLine_kind {r : Refusal} {file kind : String}
    (hkind : r.fault.kind? = some kind) (h : OneLine (r.error file).render) : OneLine kind :=
  Fault.oneLine_kind hkind (oneLine_append.1 h).2

/-! ## The kinds of a tree -/

namespace Node

/-- The node is a token that ends a statement and is no printable character: a line feed or a NUL
byte. -/
def IsControlEnd (n : Node) : Prop :=
  n.kind = "\n" ∨ n.kind = "\x00"

instance (n : Node) : Decidable n.IsControlEnd :=
  inferInstanceAs (Decidable (_ ∨ _))

theorem IsControlEnd.not_oneLine {n : Node} (h : n.IsControlEnd) : ¬ OneLine n.kind := by
  rcases h with h | h <;> rw [h] <;> decide

/-- The kind of the node is one of Go text: it is printable, unless the node is a token that is none
of the named ones and ends a statement. -/
def HasGoKind (n : Node) : Prop :=
  Printable n.kind ∨ n.named = false ∧ n.IsControlEnd

instance (n : Node) : Decidable n.HasGoKind :=
  inferInstanceAs (Decidable (_ ∨ _))

theorem HasGoKind.printable_of_named {n : Node} (h : n.HasGoKind) (hnamed : n.named = true) :
    Printable n.kind := by
  rcases h with h | ⟨hnot, -⟩
  · exact h
  · exact absurd (hnot.symm.trans hnamed) Bool.false_ne_true

/-- The first mistake of the tree is that a line feed or a NUL byte is missing. -/
def MissesControlEnd (root : Node) : Prop :=
  root.hasError = true ∧
    ∃ bad, root.firstMistake? = some bad ∧ bad.missing = true ∧ bad.IsControlEnd

/-! ## The nodes that are told about -/

theorem exists_of_firstMistakeIn? {ns : List Node} {bad : Node}
    (h : firstMistakeIn? ns = some bad) : ∃ n ∈ ns, n.firstMistake? = some bad := by
  induction ns with
  | nil => exact absurd h (by rw [firstMistakeIn?]; simp)
  | cons n ns ih =>
    have hrest : firstMistakeIn? ns = some bad → ∃ m ∈ n :: ns, m.firstMistake? = some bad := by
      intro h
      obtain ⟨m, hm, hbad⟩ := ih h
      exact ⟨m, List.mem_cons_of_mem n hm, hbad⟩
    rw [firstMistakeIn?] at h
    split at h
    · split at h
      · rename_i found hfound
        exact ⟨n, List.mem_cons_self, hfound.trans h⟩
      · exact hrest h
    · exact hrest h

/-- What holds everywhere in a tree holds of its first mistake. -/
theorem Everywhere.firstMistake? {Q : Node → Prop} {n bad : Node} (h : Everywhere Q n)
    (hbad : n.firstMistake? = some bad) : Q bad := by
  induction h with
  | @intro n hn _ ih =>
    rw [firstMistake?_eq] at hbad
    split at hbad
    · exact Option.some.inj hbad ▸ hn
    · obtain ⟨m, hm, hbad⟩ := exists_of_firstMistakeIn? hbad
      exact ih m hm hbad

/-- A kind that is told of a mistake is that of a missing node. -/
theorem kind?_mistakeRefusal {root : Node} {source : Source} {kind : String}
    (h : (root.mistakeRefusal source).fault.kind? = some kind) :
    ∃ bad, root.firstMistake? = some bad ∧ bad.missing = true ∧ bad.kind = kind := by
  have hmissing : ∀ bad : Node, (bad.mistakeFault source).kind? = some kind →
      bad.missing = true ∧ bad.kind = kind := by
    intro bad h
    rw [mistakeFault] at h
    split at h
    · exact ⟨‹_›, Option.some.inj h⟩
    · exact absurd h (Option.some_ne_none _).symm
  cases hfirst : root.firstMistake? with
  | some bad =>
    rw [mistakeRefusal, hfirst] at h
    exact ⟨bad, rfl, hmissing bad h⟩
  | none =>
    -- the root stands in for a mistake that is not found, and would be found if it were missing
    rw [mistakeRefusal, hfirst] at h
    rw [firstMistake?_eq, isMistake, (hmissing root h).1, Bool.or_true, if_pos rfl] at hfirst
    exact absurd hfirst (Option.some_ne_none _)

/-- A kind that is told of a file without mistakes is that of a named node. -/
theorem kind?_layoutRefusal? {root : Node} {r : Refusal} {kind : String}
    (h : root.layoutRefusal? = some r) (hkind : r.fault.kind? = some kind) :
    ∃ n ∈ root.namedChildren, n.kind = kind := by
  rw [layoutRefusal?] at h
  split at h
  · obtain rfl := Option.some.inj h
    exact absurd hkind (Option.some_ne_none _).symm
  split at h
  · obtain rfl := Option.some.inj h
    exact absurd hkind (Option.some_ne_none _).symm
  · obtain ⟨n, hn, rfl⟩ := Option.map_eq_some_iff.1 h
    exact ⟨n, List.mem_of_find?_eq_some hn, Option.some.inj hkind⟩

/-- What is told of a file without mistakes is printable. -/
theorem printable_layoutRefusal? {root : Node} {r : Refusal} {file : String}
    (hfile : Printable file) (hkinds : Everywhere HasGoKind root)
    (h : root.layoutRefusal? = some r) : Printable (r.error file).render := by
  refine Refusal.printable_render hfile fun kind hkind => ?_
  obtain ⟨n, hn, rfl⟩ := kind?_layoutRefusal? h hkind
  obtain ⟨hn, hnamed⟩ := List.mem_filter.1 hn
  exact (hkinds.child hn).here.printable_of_named hnamed

end Node

/-- **A parse error is one line unless an end of statement is missing.**  Let the path of the file be
printable, and let the kinds of all nodes be those of Go text.  Then the line that reports a parse
error holds no character that breaks it or is a control, exactly if the error does not tell that a
line feed or a NUL byte is missing; and then all of it is printable, whatever the source holds. -/
theorem render_oneLine_iff {root : Node} {source : Source} {file : String} {e : ParseError}
    (hfile : Printable file) (hkinds : ∀ n ∈ root.preorder, n.HasGoKind)
    (herror : root.reported source file = .error e) :
    (OneLine e.render ↔ ¬ root.MissesControlEnd) ∧ (OneLine e.render → Printable e.render) := by
  have hall : Node.Everywhere Node.HasGoKind root := Node.everywhere_of_preorder hkinds
  -- a line with such a token is broken, and any other line is printable
  have hbroken : root.MissesControlEnd → ¬ OneLine e.render := by
    rintro ⟨hflag, bad, hbad, hmissing, hend⟩ hline
    rw [Node.reported_of_mistake hflag] at herror
    obtain rfl := Except.error.inj herror
    refine hend.not_oneLine (Refusal.oneLine_kind ?_ hline)
    rw [Node.mistakeRefusal, hbad, Option.getD_some, Node.mistakeFault, if_pos hmissing]
    rfl
  have hprintable : ¬ root.MissesControlEnd → Printable e.render := by
    intro hnot
    cases hflag : root.hasError with
    | true =>
      rw [Node.reported_of_mistake hflag] at herror
      obtain rfl := Except.error.inj herror
      refine Refusal.printable_render hfile fun kind hkind => ?_
      obtain ⟨bad, hbad, hmissing, rfl⟩ := Node.kind?_mistakeRefusal hkind
      rcases hall.firstMistake? hbad with hkind | ⟨-, hend⟩
      · exact hkind
      · exact absurd ⟨hflag, bad, hbad, hmissing, hend⟩ hnot
    | false =>
      rw [Node.reported_of_layout hflag] at herror
      split at herror
      · exact absurd herror (by simp)
      · rename_i r hr
        obtain rfl := Except.error.inj herror
        exact Node.printable_layoutRefusal? hfile hall hr
  refine ⟨⟨fun hline hmisses => hbroken hmisses hline, fun hnot => (hprintable hnot).oneLine⟩, ?_⟩
  exact fun hline => hprintable fun hmisses => hbroken hmisses hline

/-- The bytes behind a package clause: a line feed, a NUL byte, one that is not UTF-8, and a
quote. -/
def garbledSource : Source :=
  (Text.bytesOf "package p\n").toArray ++ #[0x0a, 0x00, 0xff, 0x27]

/-- A tree with an error over these bytes. -/
def garbledTree : Node where
  kind := "source_file"
  stop := 14
  hasError := true
  children := [
    { kind := "package_clause", stop := 9
      children := [
        { kind := "package", stop := 7, named := false },
        { kind := "package_identifier", start := 8, stop := 9, column := 8 }] },
    { kind := "\n", start := 9, stop := 10, column := 9, named := false },
    { kind := "ERROR", start := 10, stop := 14, row := 1, hasError := true }]

/-- All of it is quoted. -/
theorem render_garbledTree :
    garbledTree.reported garbledSource "a.go" =
        .error ⟨"syntax error near \"\\n\\x00\uFFFD'\"", "a.go", some 2, some 1⟩ ∧
      Printable "a.go:2:1: syntax error near \"\\n\\x00\uFFFD'\"" := by
  have hreported : garbledTree.reported garbledSource "a.go" =
      .error ⟨"syntax error near \"\\n\\x00\uFFFD'\"", "a.go", some 2, some 1⟩ := by
    decide +kernel
  have hline := render_oneLine_iff (by decide) (by with_unfolding_all decide) hreported
  refine ⟨hreported, hline.2 (hline.1.2 ?_)⟩
  rintro ⟨-, bad, hbad, hmissing, -⟩
  obtain rfl := Option.some.inj hbad
  exact absurd hmissing (by decide)

/-- The tree of `package p var x int`, with the line feed missing that would end the clause. -/
def runOnTree : Node where
  kind := "source_file"
  stop := 20
  hasError := true
  children := [
    { kind := "package_clause", stop := 9
      children := [
        { kind := "package", stop := 7, named := false },
        { kind := "package_identifier", start := 8, stop := 9, column := 8 }] },
    { kind := "\n", start := 9, stop := 9, column := 9, named := false, missing := true
      hasError := true },
    { kind := "var_declaration", start := 10, stop := 19, column := 10 },
    { kind := "\n", start := 19, stop := 20, column := 19, named := false }]

/-- What is missing is told by a line feed. -/
theorem render_runOnTree :
    Printable "a.go" ∧ (∀ n ∈ runOnTree.preorder, n.HasGoKind) ∧
      ∃ e, runOnTree.reported (Text.bytesOf "package p var x int\n").toArray "a.go" = .error e ∧
        e.render = "a.go:1:10: missing \n" ∧ ¬ OneLine e.render := by
  refine ⟨by decide, by with_unfolding_all decide, ⟨"missing \n", "a.go", some 1, some 10⟩,
    ?_, ?_, ?_⟩ <;>
    with_unfolding_all decide

end GoGlobals
