import GoGlobals.Proofs.Tree.Acceptance

/-!
# The name of the package

An accepted file has one package clause, and the clause declares one name.  A comment may stand
between the word `package` and the name, and then the clause has named children before the name.
The program records the first named child of the clause, whatever it is.  So it records the declared
name exactly if no comment stands before it (`package_recorded_iff`), and otherwise the text of a
comment (`package_coveredTree`).

Everywhere else the program passes comments by, and without comments the law has no exception: the
name recorded for a tree without its comments is the declared one, wherever they stood.

## What is here

* `Node.Declares`, which child of a package clause is the declared name.
* `Node.exists_clause`, the one package clause of an accepted tree.
* `Node.packageName_of_clause`, what is recorded for it.
-/

set_option autoImplicit false

namespace GoGlobals

open Text (Source)

namespace Node

/-- The package clause declares `name`: it is the one name in the clause, beside it there are
comments only, and no comment reads like it. -/
structure Declares (clause name : Node) (source : Source) : Prop where
  only : clause.namedChildren.filter (·.kind == "package_identifier") = [name]
  others : ∀ n ∈ clause.namedChildren, n.kind ≠ "package_identifier" →
    n.kind = "comment" ∧ n.text source ≠ name.text source

namespace Declares

variable {clause name : Node} {source : Source}

theorem name_mem (h : clause.Declares name source) :
    name ∈ clause.namedChildren ∧ name.kind = "package_identifier" := by
  have hmem : name ∈ clause.namedChildren.filter (·.kind == "package_identifier") := by
    rw [h.only]
    exact List.mem_singleton_self name
  exact ⟨(List.mem_filter.1 hmem).1, beq_iff_eq.1 (List.mem_filter.1 hmem).2⟩

theorem eq_name (h : clause.Declares name source) {n : Node} (hn : n ∈ clause.namedChildren)
    (hkind : n.kind = "package_identifier") : n = name := by
  have hmem : n ∈ clause.namedChildren.filter (·.kind == "package_identifier") :=
    List.mem_filter.2 ⟨hn, beq_iff_eq.2 hkind⟩
  rwa [h.only, List.mem_singleton] at hmem

/-- The name is what is left of the clause without its comments. -/
theorem filter_not_comment (h : clause.Declares name source) :
    (clause.namedChildren.filter fun n => !n.isComment) = [name] := by
  rw [← h.only]
  refine List.filter_congr fun n hn => ?_
  by_cases hkind : n.kind = "package_identifier"
  · simp [isComment, hkind]
  · simp [isComment, (h.others n hn hkind).1]

/-- A named child of the clause reads like the name only if it is the name. -/
theorem text_eq_iff (h : clause.Declares name source) {n : Node} (hn : n ∈ clause.namedChildren) :
    n.text source = name.text source ↔ n.kind = "package_identifier" := by
  constructor
  · intro htext
    by_contra hkind
    exact (h.others n hn hkind).2 htext
  · intro hkind
    rw [h.eq_name hn hkind]

end Declares

/-- An accepted tree has one package clause. -/
theorem exists_clause {root : Node} {source : Source} (haccept : root.accept source = .ok ())
    (hstarts : (root.namedChildren.map (·.start)).Pairwise (· < ·)) :
    ∃ clause, root.namedChildren.filter (·.kind == "package_clause") = [clause] := by
  have hreported : root.reported source "" = .ok () := by
    rw [reported, haccept]
    rfl
  have hflag : root.hasError = false := by
    rw [Bool.eq_false_iff]
    intro htrue
    rw [reported_of_mistake htrue] at hreported
    exact absurd hreported (by simp)
  obtain ⟨outcome, hlayout⟩ := exists_layout "" root.namedChildren
  rw [hlayout.reported_eq rfl hflag hstarts source] at hreported
  have hnone : ∀ ns : List Node, (∀ n ∈ ns, n.IsOrdinary) →
      ns.filter (·.kind == "package_clause") = [] := fun ns hns =>
    List.filter_eq_nil_iff.2 fun n hn hkind =>
      not_isOrdinary_of_package (beq_iff_eq.1 hkind) (hns n hn)
  generalize root.namedChildren = ns at hlayout
  cases hlayout with
  | @accepted comments rest clause hcomments hclause hrest =>
    refine ⟨clause, ?_⟩
    rw [List.filter_append, List.filter_cons_of_pos (by simp [hclause]), hnone rest hrest,
      hnone comments fun n hn => .inl (hcomments n hn), List.nil_append]
  | nothing | noClause | stray => exact absurd hreported (by simp)

/-- The text of the first named child of the one package clause is recorded. -/
theorem packageName_of_clause {root clause first : Node} {rest : List Node}
    (hroot : root.namedChildren.filter (·.kind == "package_clause") = [clause])
    (hclause : clause.namedChildren = first :: rest) (source : Source) :
    root.packageName source = first.text source := by
  rw [packageName, hroot, List.filterMap_cons, hclause]
  rfl

/-- The clause of the tree without comments is the clause without comments. -/
theorem clause_strip {root clause : Node}
    (hroot : root.namedChildren.filter (·.kind == "package_clause") = [clause]) :
    root.strip.namedChildren.filter (·.kind == "package_clause") = [clause.strip] := by
  rw [root.filter_namedChildren_strip (fun m => by rw [strip_kind]), hroot, List.map_singleton]
  intro m hm
  rw [isComment, beq_iff_eq.1 hm]
  rfl

end Node

/-- **The recorded package is the declared one exactly if no comment stands before it.**  Let a tree
be accepted, and let the named nodes at the level of the file start one behind the other.  Then it
has one package clause.  If the clause declares a name, then this name is recorded exactly if it is
the first named child of the clause.  In the tree without its comments it always is. -/
theorem package_recorded_iff {root : Node} {source : Source}
    (haccept : root.accept source = .ok ())
    (hstarts : (root.namedChildren.map (·.start)).Pairwise (· < ·)) (file : String) :
    ∃ clause, root.namedChildren.filter (·.kind == "package_clause") = [clause] ∧
      ∀ name, clause.Declares name source →
        ((root.extract source file).package = name.text source ↔
          clause.namedChildren.head? = some name) ∧
        (root.strip.extract source file).package = name.text source := by
  obtain ⟨clause, hroot⟩ := Node.exists_clause haccept hstarts
  refine ⟨clause, hroot, fun name hname => ⟨?_, ?_⟩⟩
  · rw [Node.extract]
    cases hclause : clause.namedChildren with
    | nil => exact absurd hname.name_mem.1 (by simp [hclause])
    | cons first rest =>
      have hfirst : first ∈ clause.namedChildren := by simp [hclause]
      rw [Node.packageName_of_clause hroot hclause, hname.text_eq_iff hfirst, List.head?_cons,
        Option.some.injEq]
      refine ⟨hname.eq_name hfirst, ?_⟩
      rintro rfl
      exact hname.name_mem.2
  · have hclause : clause.strip.namedChildren = name.strip :: [] := by
      rw [clause.namedChildren_strip, hname.filter_not_comment, List.map_singleton]
    rw [Node.extract, Node.packageName_of_clause (Node.clause_strip hroot) hclause,
      Node.strip_text]

/-- The name in the clause of `documentedText`. -/
def documentedName : Node where
  kind := "package_identifier"
  start := 13
  stop := 14
  row := 1
  column := 8

/-- The clause of `documentedText`. -/
def documentedClause : Node where
  kind := "package_clause"
  start := 5
  stop := 14
  row := 1
  children := [{ kind := "package", start := 5, stop := 12, row := 1, named := false },
    documentedName]

/-- The tree of `documentedText`, with a comment before the clause and one behind it. -/
def documentedTree : Node where
  kind := "source_file"
  stop := 20
  children := [
    { kind := "comment", stop := 4 },
    documentedClause,
    { kind := "comment", start := 15, stop := 19, row := 1, column := 10 }]

/-- The text of the tree. -/
def documentedText : String :=
  "// c\npackage p // d\n"

/-- Comments outside of the clause do no harm. -/
theorem package_documentedTree :
    documentedTree.accept (Text.bytesOf documentedText).toArray = .ok () ∧
      documentedClause.Declares documentedName (Text.bytesOf documentedText).toArray ∧
      (documentedTree.extract (Text.bytesOf documentedText).toArray "a.go").package = "p" := by
  have haccept : documentedTree.accept (Text.bytesOf documentedText).toArray = .ok () := by
    with_unfolding_all decide
  have hdeclares : documentedClause.Declares documentedName
      (Text.bytesOf documentedText).toArray := ⟨rfl, by with_unfolding_all decide⟩
  obtain ⟨clause, hroot, hname⟩ :=
    package_recorded_iff haccept (by with_unfolding_all decide) "a.go"
  obtain rfl : documentedClause = clause := List.singleton_inj.1 hroot
  refine ⟨haccept, hdeclares, ((hname _ hdeclares).1.2 rfl).trans ?_⟩
  with_unfolding_all decide

/-- The tree of `coveredText`, with a comment between the word `package` and the name. -/
def coveredTree : Node where
  kind := "source_file"
  stop := 18
  children := [
    { kind := "package_clause", stop := 17
      children := [
        { kind := "package", stop := 7, named := false },
        { kind := "comment", start := 8, stop := 15, column := 8 },
        { kind := "package_identifier", start := 16, stop := 17, column := 16 }] }]

/-- The text of the tree. -/
def coveredText : String :=
  "package /* c */ p\n"

/-- The tree is accepted and its clause declares `p`, but the comment is recorded. -/
theorem package_coveredTree :
    coveredTree.accept (Text.bytesOf coveredText).toArray = .ok () ∧
      (∃ clause name, coveredTree.namedChildren = [clause] ∧ clause.kind = "package_clause" ∧
        clause.Declares name (Text.bytesOf coveredText).toArray ∧
        name.text (Text.bytesOf coveredText).toArray = "p") ∧
      (coveredTree.extract (Text.bytesOf coveredText).toArray "a.go").package = "/* c */" := by
  refine ⟨by with_unfolding_all decide, ⟨_, _, rfl, rfl, ⟨rfl, ?_⟩, ?_⟩, ?_⟩ <;>
    with_unfolding_all decide

end GoGlobals
