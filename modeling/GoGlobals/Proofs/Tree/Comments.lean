import GoGlobals.Proofs.Tree.Order
import GoGlobals.Proofs.Tree.Report
import GoGlobals.Tree.Accept
import Mathlib.Data.List.Find

/-!
# Comments make no difference

A comment may stand between any two tokens, so it can turn up among the children of every node.
Whoever reads children has to pass it by: the search for mistakes, the look at the level of the
file, the look-up of fields and the list of values each do so in a way of their own.

`Node.strip` takes all comments out of a tree and leaves everything else where it is.  The lemmas
say what becomes of the children of a node, by kind, by field and as a whole, and from them every
reader is shown to find in the stripped tree what it found before, with the comments taken out of
it.  The name of the package is the one thing that can differ: it is read from the first named child
of its clause, which may be a comment.

## What is here

* `Node.strip`, and `Node.Quiet`, what is asked of comments: they stand under no field and hold no
  mistake.
* `refusal?_strip` and `groups_extract_strip`: acceptance and declarations stay.
* `verdict_strip` is the theorem.
-/

set_option autoImplicit false

namespace GoGlobals

open Text (Source)

/-- Filtering before searching is searching with both conditions; on a list where the first follows
from the second it may be left out. -/
theorem find?_filter_of_imp {α : Type} {p q : α → Bool} {l : List α}
    (h : ∀ a ∈ l, q a = true → p a = true) : (l.filter p).find? q = l.find? q := by
  rw [List.find?_filter]
  refine List.find?_congr fun a ha => ?_
  rw [Bool.eq_iff_iff, decide_eq_true_iff]
  exact and_iff_right_of_imp (h a ha)

namespace Node

/-! ## Taking comments out -/

mutual

/-- The tree without the comments below its root. -/
def strip (n : Node) : Node :=
  match n with
  | ⟨kind, start, stop, row, column, named, missing, hasError, field, children⟩ =>
    ⟨kind, start, stop, row, column, named, missing, hasError, field, stripAll children⟩

/-- The trees of a list that are no comments, without the comments in them. -/
def stripAll : List Node → List Node
  | [] => []
  | n :: ns => if n.isComment then stripAll ns else strip n :: stripAll ns

end

theorem stripAll_eq (ns : List Node) :
    stripAll ns = (ns.filter fun n => !n.isComment).map strip := by
  induction ns with
  | nil => rw [stripAll]; rfl
  | cons n ns ih =>
    rw [stripAll, ih, List.filter_cons]
    cases n.isComment <;> rfl

theorem strip_eq (n : Node) : n.strip =
    { n with children := (n.children.filter fun m => !m.isComment).map strip } := by
  cases n
  rw [strip, stripAll_eq]

section

variable (n : Node)

@[simp] theorem strip_kind : n.strip.kind = n.kind := by rw [strip_eq]
@[simp] theorem strip_start : n.strip.start = n.start := by rw [strip_eq]
@[simp] theorem strip_row : n.strip.row = n.row := by rw [strip_eq]
@[simp] theorem strip_column : n.strip.column = n.column := by rw [strip_eq]
@[simp] theorem strip_named : n.strip.named = n.named := by rw [strip_eq]
@[simp] theorem strip_missing : n.strip.missing = n.missing := by rw [strip_eq]
@[simp] theorem strip_hasError : n.strip.hasError = n.hasError := by rw [strip_eq]
@[simp] theorem strip_field : n.strip.field = n.field := by rw [strip_eq]

theorem strip_children :
    n.strip.children = (n.children.filter fun m => !m.isComment).map strip := by
  rw [strip_eq]

@[simp] theorem strip_isComment : n.strip.isComment = n.isComment := by
  rw [isComment, strip_kind, isComment]

@[simp] theorem strip_text (source : Source) : n.strip.text source = n.text source := by
  rw [strip_eq]
  rfl

@[simp] theorem strip_line : n.strip.line = n.line := by
  rw [line, strip_row, line]

@[simp] theorem strip_spot : n.strip.spot = n.spot := by
  rw [spot, strip_row, strip_column, spot]

end

/-! ## Children -/

/-- If the node is a comment, it stands under no field and holds no mistake. -/
def Quiet (n : Node) : Prop :=
  n.isComment = true → n.field = none ∧ n.hasError = false

theorem namedChildren_strip (n : Node) :
    n.strip.namedChildren = (n.namedChildren.filter fun m => !m.isComment).map strip := by
  rw [namedChildren, strip_children, List.filter_map, namedChildren, List.filter_filter,
    List.filter_filter]
  simp only [Function.comp_def, strip_named, Bool.and_comm]

/-- Named children of a kind that comments do not have. -/
theorem filter_namedChildren_strip (n : Node) {p : Node → Bool}
    (hstrip : ∀ m : Node, p m.strip = p m) (hp : ∀ m : Node, p m = true → m.isComment = false) :
    n.strip.namedChildren.filter p = (n.namedChildren.filter p).map strip := by
  rw [namedChildren_strip, List.filter_map, List.filter_filter]
  congr 1
  refine List.filter_congr fun m _ => ?_
  rw [Function.comp_apply, hstrip]
  cases hm : p m with
  | false => rfl
  | true => rw [hp m hm]; rfl

theorem find?_namedChildren_strip (n : Node) {p : Node → Bool}
    (hstrip : ∀ m : Node, p m.strip = p m) (hp : ∀ m : Node, p m = true → m.isComment = false) :
    n.strip.namedChildren.find? p = (n.namedChildren.find? p).map strip := by
  rw [namedChildren_strip, List.find?_map, find?_filter_of_imp]
  · simp only [Function.comp_def, hstrip]
  · intro m _ hm
    rw [Function.comp_apply, hstrip] at hm
    rw [hp m hm]
    rfl

section

/-- What stands under a field is no comment. -/
theorem Quiet.not_comment_of_field {n : Node} (h : n.Quiet) {field : String}
    (hfield : (n.field == some field) = true) : (!n.isComment) = true := by
  cases hcomment : n.isComment with
  | false => rfl
  | true =>
    rw [(h hcomment).1] at hfield
    exact absurd hfield (by simp)

variable {n : Node} (h : Everywhere Quiet n)

include h

theorem child?_strip (field : String) :
    n.strip.child? field = (n.child? field).map strip := by
  rw [child?, strip_children, List.find?_map, find?_filter_of_imp]
  · simp only [Function.comp_def, strip_field, child?]
  · intro m hm hfield
    rw [Function.comp_apply, strip_field] at hfield
    exact (h.child hm).here.not_comment_of_field hfield

theorem childrenAt_strip (field : String) :
    n.strip.childrenAt field = (n.childrenAt field).map strip := by
  rw [childrenAt, strip_children, List.filter_map, List.filter_filter, childrenAt]
  congr 1
  refine List.filter_congr fun m hm => ?_
  rw [Function.comp_apply, strip_field]
  cases hfield : m.field == some field with
  | false => rfl
  | true => rw [(h.child hm).here.not_comment_of_field hfield]; rfl

end

/-! ## Acceptance -/

theorem firstMistake?_eq (n : Node) :
    n.firstMistake? = if n.isMistake then some n else firstMistakeIn? n.children := by
  cases n
  rw [firstMistake?]
  rfl

/-- The search passes comments by, since they hold no mistake. -/
theorem firstMistakeIn?_strip {ns : List Node} (hquiet : ∀ n ∈ ns, n.Quiet)
    (hns : ∀ n ∈ ns, n.strip.firstMistake? = n.firstMistake?.map strip) :
    firstMistakeIn? ((ns.filter fun n => !n.isComment).map strip) =
      (firstMistakeIn? ns).map strip := by
  induction ns with
  | nil => simp only [List.filter_nil, List.map_nil, firstMistakeIn?, Option.map_none]
  | cons n ns ih =>
    have hrest := ih (fun m hm => hquiet m (List.mem_cons_of_mem n hm)) fun m hm =>
      hns m (List.mem_cons_of_mem n hm)
    rw [firstMistakeIn?]
    cases hcomment : n.isComment with
    | true =>
      rw [List.filter_cons_of_neg (by simp [hcomment]), (hquiet n List.mem_cons_self hcomment).2,
        hrest, if_neg Bool.false_ne_true]
    | false =>
      rw [List.filter_cons_of_pos (by simp [hcomment]), List.map_cons, firstMistakeIn?, hrest,
        hns n List.mem_cons_self, strip_hasError]
      split
      · cases n.firstMistake? <;> rfl
      · rfl

theorem firstMistake?_strip {n : Node} (h : Everywhere Quiet n) :
    n.strip.firstMistake? = n.firstMistake?.map strip := by
  induction h with
  | @intro n _ hchildren ih =>
    rw [firstMistake?_eq, firstMistake?_eq, strip_children,
      firstMistakeIn?_strip (fun m hm => (hchildren m hm).here) ih, isMistake, strip_kind,
      strip_missing, ← isMistake]
    split <;> rfl

theorem mistakeRefusal_strip {root : Node} (h : Everywhere Quiet root) (source : Source) :
    root.strip.mistakeRefusal source = root.mistakeRefusal source := by
  have hbad : (firstMistake? root.strip).getD root.strip =
      ((firstMistake? root).getD root).strip := by
    rw [firstMistake?_strip h]
    cases firstMistake? root <;> rfl
  rw [mistakeRefusal, hbad, mistakeRefusal]
  simp only [mistakeFault, strip_missing, strip_kind, strip_text, strip_spot]

theorem firstConstruct?_strip (root : Node) :
    root.strip.firstConstruct? = root.firstConstruct?.map strip :=
  root.find?_namedChildren_strip (fun m => by rw [strip_isComment]) fun m hm => by simpa using hm

/-- A comment may stand at the level of the file, so it is never the stray node there. -/
theorem firstStray?_strip (root clause : Node) :
    root.strip.firstStray? clause.strip = (root.firstStray? clause).map strip := by
  rw [firstStray?, firstStray?, strip_start]
  refine root.find?_namedChildren_strip (fun m => by rw [strip_start, strip_kind]) fun m hm => ?_
  rw [Bool.not_eq_true', Bool.or_eq_false_iff] at hm
  rw [isComment, beq_eq_false_iff_ne]
  intro hkind
  rw [hkind] at hm
  exact absurd hm.2 (by decide)

theorem layoutRefusal?_strip (root : Node) :
    root.strip.layoutRefusal? = root.layoutRefusal? := by
  rw [layoutRefusal?, firstConstruct?_strip, layoutRefusal?]
  cases root.firstConstruct? with
  | none => rfl
  | some first =>
    simp only [Option.map_some, strip_kind, strip_row, firstStray?_strip, Option.map_map,
      Function.comp_def, strip_spot]

/-- **A tree is refused with its comments exactly if it is refused without them**, for the same
reason and at the same place. -/
theorem refusal?_strip {root : Node} (h : Everywhere Quiet root) (source : Source) :
    root.strip.refusal? source = root.refusal? source := by
  rw [refusal?, strip_hasError, mistakeRefusal_strip h, layoutRefusal?_strip, refusal?]

/-! ## Declarations -/

theorem selectorSides?_strip {n : Node} (h : Everywhere Quiet n) :
    n.strip.selectorSides? = n.selectorSides?.map fun sides => (sides.1.strip, sides.2.strip) := by
  rw [selectorSides?, selectorSides?, strip_kind, child?_strip h, child?_strip h, child?_strip h,
    child?_strip h]
  split
  · cases n.child? "operand" <;> cases n.child? "field" <;> rfl
  split
  · cases n.child? "package" <;> cases n.child? "name" <;> rfl
  · rfl

theorem selectorParts_strip {n : Option Node} (h : ∀ m, n = some m → Everywhere Quiet m)
    (source : Source) : selectorParts (n.map strip) source = selectorParts n source := by
  cases n with
  | none => rfl
  | some m =>
    rw [selectorParts, selectorParts, Option.map_some, Option.bind_some, Option.bind_some,
      selectorSides?_strip (h m rfl)]
    cases m.selectorSides? with
    | none => rfl
    | some sides => simp only [Option.map_some, strip_kind, strip_text]

theorem Everywhere.child? {Q : Node → Prop} {n m : Node} (h : Everywhere Q n) {field : String}
    (hm : n.child? field = some m) : Everywhere Q m :=
  h.child (List.mem_of_find?_eq_some hm)

theorem classify_strip {n : Node} (h : Everywhere Quiet n) (source : Source) :
    n.strip.classify source = n.classify source := by
  have hparts : ∀ field, selectorParts (n.strip.child? field) source =
      selectorParts (n.child? field) source := by
    intro field
    rw [child?_strip h]
    exact selectorParts_strip (fun m hm => h.child? hm) source
  simp only [classify, strip_kind, hparts, strip_text]

/-- The values are the same nodes, and the comments between them were none. -/
theorem valueNodes_strip {spec : Node} (h : Everywhere Quiet spec) :
    spec.strip.valueNodes = spec.valueNodes.map strip := by
  rw [valueNodes, child?_strip h, valueNodes]
  cases spec.child? "value" with
  | none => rfl
  | some values =>
    exact values.filter_namedChildren_strip (fun m => by rw [strip_isComment]) fun m hm => by
      simpa using hm

theorem everywhere_of_mem_valueNodes {Q : Node → Prop} {spec v : Node} (h : Everywhere Q spec)
    (hv : v ∈ spec.valueNodes) : Everywhere Q v := by
  rw [valueNodes] at hv
  split at hv
  · exact absurd hv List.not_mem_nil
  · rename_i values hvalues
    exact (h.child? hvalues).child (List.mem_filter.1 (List.mem_filter.1 hv).1).1

theorem names_strip {spec : Node} (h : Everywhere Quiet spec) (source : Source) :
    spec.strip.names source = spec.names source := by
  rw [names, childrenAt_strip h, List.map_map, names]
  simp only [Function.comp_def, strip_text, strip_line]

theorem group_strip {spec : Node} (h : Everywhere Quiet spec) (source : Source) (file : String) :
    spec.strip.group source file = spec.group source file := by
  have hvalues : spec.strip.valueNodes.map (·.classify source) =
      spec.valueNodes.map (·.classify source) := by
    rw [valueNodes_strip h, List.map_map]
    exact List.map_congr_left fun v hv =>
      classify_strip (everywhere_of_mem_valueNodes h hv) source
  rw [group, names_strip h, hvalues, strip_line, group]

theorem varSpecs_strip (declaration : Node) :
    declaration.strip.varSpecs = declaration.varSpecs.map strip := by
  have hspec : ∀ m : Node, (m.kind == "var_spec") = true → m.isComment = false := by
    intro m hm
    rw [isComment, beq_iff_eq.1 hm]
    rfl
  rw [varSpecs, namedChildren_strip, List.flatMap_map, varSpecs, List.map_flatMap]
  -- a comment gives no specification, so it may be left in
  have hcomments : ∀ (ns : List Node) (f : Node → List Node),
      (∀ m : Node, m.isComment = true → f m = []) →
      (ns.filter fun m => !m.isComment).flatMap f = ns.flatMap f := by
    intro ns f hf
    induction ns with
    | nil => rfl
    | cons m ns ih =>
      rw [List.filter_cons, List.flatMap_cons, ← ih]
      cases hm : m.isComment with
      | true => rw [hf m hm]; rfl
      | false => rfl
  rw [hcomments]
  · congr 1
    funext m
    rw [strip_kind]
    split
    · rfl
    split
    · exact m.filter_namedChildren_strip (fun k => by rw [strip_kind]) hspec
    · rfl
  · intro m hm
    rw [strip_kind, beq_iff_eq.1 hm]
    rfl

theorem topLevelSpecs_strip (root : Node) :
    root.strip.topLevelSpecs = root.topLevelSpecs.map strip := by
  rw [topLevelSpecs, root.filter_namedChildren_strip (fun m => by rw [strip_kind]),
    List.flatMap_map, topLevelSpecs, List.map_flatMap]
  · simp only [varSpecs_strip]
  · intro m hm
    rw [isComment, beq_iff_eq.1 hm]
    rfl

theorem everywhere_of_mem_topLevelSpecs {Q : Node → Prop} {root spec : Node}
    (h : Everywhere Q root) (hspec : spec ∈ root.topLevelSpecs) : Everywhere Q spec := by
  obtain ⟨n, hn, hspec⟩ := List.mem_flatMap.1 hspec
  have hall := h.child (List.mem_filter.1 (List.mem_filter.1 hn).1).1
  obtain ⟨-, hmem | ⟨m, hm, hmem⟩⟩ := mem_varSpecs hspec
  · exact hall.child hmem
  · exact (hall.child hm).child hmem

/-- **The declarations of a tree are those of the tree without comments.** -/
theorem groups_extract_strip {root : Node} (h : Everywhere Quiet root) (source : Source)
    (file : String) :
    (root.strip.extract source file).groups = (root.extract source file).groups := by
  rw [extract, extract, topLevelSpecs_strip, List.map_map]
  exact List.map_congr_left fun spec hspec =>
    group_strip (everywhere_of_mem_topLevelSpecs h hspec) source file

mutual

theorem everywhere_of_occurrencesFrom {Q : Node → Prop} {above : List Node} {n : Node}
    (h : ∀ o ∈ n.occurrencesFrom above, Q o.node) : Everywhere Q n := by
  match n with
  | ⟨kind, start, stop, row, column, named, missing, hasError, field, children⟩ =>
    rw [occurrencesFrom] at h
    obtain ⟨hnode, hbelow⟩ := List.forall_mem_cons.1 h
    exact .intro hnode (everywhere_of_occurrencesIn hbelow)

theorem everywhere_of_occurrencesIn {Q : Node → Prop} {above ns : List Node}
    (h : ∀ o ∈ occurrencesIn above ns, Q o.node) : ∀ n ∈ ns, Everywhere Q n := by
  match ns with
  | [] => exact fun _ hn => absurd hn List.not_mem_nil
  | n :: ns =>
    rw [occurrencesIn] at h
    obtain ⟨hfirst, hrest⟩ := List.forall_mem_append.1 h
    exact List.forall_mem_cons.2
      ⟨everywhere_of_occurrencesFrom hfirst, everywhere_of_occurrencesIn hrest⟩

end

end Node

/-- **Comments never change the verdict.**  If no comment of a tree stands under a field or holds a
mistake, then the tree and the same tree without its comments are both accepted or both refused, with
the same fault at the same place, they have the same declarations, and the same is found in them. -/
theorem verdict_strip {root : Node}
    (hcomments : ∀ o ∈ root.occurrences, o.node.kind = "comment" →
      o.node.field = none ∧ o.node.hasError = false)
    (source : Source) (file : String) :
    root.strip.accept source = root.accept source ∧
      (root.strip.extract source file).groups = (root.extract source file).groups ∧
      check (root.strip.extract source file) = check (root.extract source file) := by
  have hquiet : Node.Everywhere Node.Quiet root :=
    Node.everywhere_of_occurrencesFrom fun o ho hcomment =>
      hcomments o ho (beq_iff_eq.1 hcomment)
  have hgroups := Node.groups_extract_strip hquiet source file
  refine ⟨?_, hgroups, ?_⟩
  · rw [Node.accept, Node.refusal?_strip hquiet, Node.accept]
  · rw [check, hgroups, check]

/-- A tree with comments at the level of the file, among the values and inside a selector. -/
def commentedTree : Node :=
  let selector : Node :=
    { kind := "selector_expression", field := some "function"
      children := [
        { kind := "identifier", start := 40, stop := 46, field := some "operand" },
        { kind := ".", named := false },
        { kind := "comment", start := 47, stop := 54 },
        { kind := "field_identifier", start := 54, stop := 57, field := some "field" }] }
  let values : Node :=
    { kind := "expression_list", field := some "value"
      children := [
        { kind := "int_literal", start := 29, stop := 30 },
        { kind := "comment", start := 32, stop := 39 },
        { kind := "call_expression", children := [selector] }] }
  let spec : Node :=
    { kind := "var_spec", row := 2
      children := [
        { kind := "identifier", start := 19, stop := 20, row := 2, field := some "name" },
        { kind := "identifier", start := 22, stop := 26, row := 2, field := some "name" },
        values] }
  { kind := "source_file"
    children := [
      { kind := "comment", stop := 4 },
      { kind := "package_clause", start := 5, row := 1 },
      { kind := "var_declaration", start := 15, row := 2, children := [spec] }] }

/-- The text of the tree. -/
def commentedText : String :=
  "// c\npackage p\nvar x, errY = 1, /* v */ errors./* d */New()\n"

/-- With and without comments the number is reported and the error is not. -/
theorem verdict_commentedTree :
    (∀ o ∈ commentedTree.occurrences, o.node.kind = "comment" →
        o.node.field = none ∧ o.node.hasError = false) ∧
      commentedTree.strip.accept (Text.bytesOf commentedText).toArray = .ok () ∧
      check (commentedTree.strip.extract (Text.bytesOf commentedText).toArray "a.go") =
        .ok [⟨"a.go", 3, "x"⟩] := by
  have hcomments : ∀ o ∈ commentedTree.occurrences, o.node.kind = "comment" →
      o.node.field = none ∧ o.node.hasError = false := by
    with_unfolding_all decide
  obtain ⟨haccept, -, hcheck⟩ :=
    verdict_strip hcomments (Text.bytesOf commentedText).toArray "a.go"
  refine ⟨hcomments, haccept.trans ?_, hcheck.trans ?_⟩
  · with_unfolding_all decide
  · with_unfolding_all decide

end GoGlobals
