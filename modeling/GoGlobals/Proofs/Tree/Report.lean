import GoGlobals.Proofs.Verdict
import GoGlobals.Tree.Extract

/-!
# What is reported about a tree

The rule reads declarations, and declarations are extracted from a tree.  This file says what the
two do together, without mentioning either: which nodes of a tree are global variables, which of
them may stay, and that the others are reported one by one in document order.

## What is here

* `Node.occurrences` lists every node of a tree in document order, each with the nodes above it.
  `Occurrence.isGlobalSpec` picks the specifications of global variables by what stands above
  them, and `globalSpecs_eq_topLevelSpecs` says that the extraction visits exactly those.
* `Sanctioned` says which bindings may stay, in terms of the nodes of the name and of the value.
  `isAllowed_classify_iff` says that classifying the value and looking it up decides this.
* `Node.report` is the reference list, and `check_extract_eq_report` the equality.
-/

set_option autoImplicit false

namespace GoGlobals

open Text (Source)

/-- Going through what a filter keeps is going through everything and passing by the rest. -/
theorem flatMap_filter {α β : Type} (p : α → Bool) (f : α → List β) (l : List α) :
    (l.filter p).flatMap f = l.flatMap fun a => if p a then f a else [] := by
  induction l with
  | nil => rfl
  | cons a l ih =>
    rw [List.filter_cons, List.flatMap_cons, ← ih]
    split <;> simp

/-! ## The nodes of a tree -/

/-- A node where it stands: the nodes above it are given from the innermost one to the root. -/
structure Occurrence where
  node : Node
  above : List Node

namespace Node

mutual

/-- The occurrences of a node and of all nodes below it, in document order. -/
def occurrencesFrom (above : List Node) (n : Node) : List Occurrence :=
  match n with
  | ⟨kind, start, stop, row, column, named, missing, hasError, field, children⟩ =>
    let n := ⟨kind, start, stop, row, column, named, missing, hasError, field, children⟩
    ⟨n, above⟩ :: occurrencesIn (n :: above) children

/-- The occurrences of the nodes of a list and of all nodes below them, in document order. -/
def occurrencesIn (above : List Node) : List Node → List Occurrence
  | [] => []
  | n :: ns => occurrencesFrom above n ++ occurrencesIn above ns

end

/-- The nodes of a tree in document order. -/
def occurrences (root : Node) : List Occurrence :=
  root.occurrencesFrom []

/-- Is the node a construct of this kind?  A token of the same spelling is none. -/
def isConstruct (n : Node) (kind : String) : Bool :=
  n.named && n.kind == kind

theorem occurrencesFrom_eq (above : List Node) (n : Node) :
    n.occurrencesFrom above = ⟨n, above⟩ :: occurrencesIn (n :: above) n.children := by
  cases n
  rw [occurrencesFrom]

mutual

/-- Every occurrence below a node has that node and the ones above it among those above it. -/
theorem suffix_above_of_mem_from {above : List Node} {n : Node} {o : Occurrence}
    (h : o ∈ n.occurrencesFrom above) : above <:+ o.above := by
  match n with
  | ⟨kind, start, stop, row, column, named, missing, hasError, field, children⟩ =>
    rw [occurrencesFrom, List.mem_cons] at h
    rcases h with rfl | h
    · exact List.suffix_refl _
    · exact (List.suffix_cons _ _).trans (suffix_above_of_mem_in h)

theorem suffix_above_of_mem_in {above ns : List Node} {o : Occurrence}
    (h : o ∈ occurrencesIn above ns) : above <:+ o.above := by
  match ns with
  | [] => rw [occurrencesIn] at h; exact absurd h List.not_mem_nil
  | n :: ns =>
    rw [occurrencesIn, List.mem_append] at h
    rcases h with h | h
    · exact suffix_above_of_mem_from h
    · exact suffix_above_of_mem_in h

end

/-- Selecting among the occurrences in a list goes through the list once: a node is selected
itself, and then selected below. -/
theorem map_filter_occurrencesIn (p : Occurrence → Bool) (above ns : List Node) :
    ((occurrencesIn above ns).filter p).map (·.node) =
      ns.flatMap fun n => (if p ⟨n, above⟩ then [n] else []) ++
        ((occurrencesIn (n :: above) n.children).filter p).map (·.node) := by
  induction ns with
  | nil => rw [occurrencesIn]; rfl
  | cons n ns ih =>
    rw [occurrencesIn, List.filter_append, List.map_append, ih, List.flatMap_cons,
      occurrencesFrom_eq, List.filter_cons]
    by_cases h : p ⟨n, above⟩ = true
    · simp only [h, if_true, List.map_cons, List.singleton_append]
    · simp only [h, if_false, List.nil_append, Bool.false_eq_true]

end Node

/-! ## Specifications of global variables -/

/-- Is the node a specification directly below a `var` declaration of the root, or in the
parentheses of one? -/
def Occurrence.isGlobalSpec (o : Occurrence) : Bool :=
  o.node.isConstruct "var_spec" &&
    match o.above with
    | [declaration, _] => declaration.isConstruct "var_declaration"
    | [list, declaration, _] =>
      list.isConstruct "var_spec_list" && declaration.isConstruct "var_declaration"
    | _ => false

/-- The specifications of the global variables of a tree, in document order. -/
def Node.globalSpecs (root : Node) : List Node :=
  (root.occurrences.filter Occurrence.isGlobalSpec).map (·.node)

theorem length_above_le_of_isGlobalSpec {o : Occurrence} (h : o.isGlobalSpec = true) :
    o.above.length ≤ 3 := by
  rw [Occurrence.isGlobalSpec, Bool.and_eq_true] at h
  split at h
  · rename_i habove; rw [habove]; exact Nat.le_succ 2
  · rename_i habove; rw [habove]; exact Nat.le_refl 3
  · exact absurd h.2 Bool.false_ne_true

/-- Nothing that stands deeper than in the parentheses of a declaration is a global variable. -/
theorem globalSpecs_below_parentheses (x list declaration root : Node) (ns : List Node) :
    (Node.occurrencesIn [x, list, declaration, root] ns).filter Occurrence.isGlobalSpec = [] := by
  refine List.filter_eq_nil_iff.2 fun o ho hspec => ?_
  have hlen := (Node.suffix_above_of_mem_in ho).length_le
  have hle := length_above_le_of_isGlobalSpec hspec
  simp only [List.length_cons, List.length_nil] at hlen
  omega

/-- What stands below a node of a declaration: a specification there is a global variable if the
node is a list in parentheses. -/
theorem globalSpecs_in_parentheses (list declaration root : Node) :
    ((Node.occurrencesIn [list, declaration, root] list.children).filter
        Occurrence.isGlobalSpec).map (·.node) =
      if list.isConstruct "var_spec_list" && declaration.isConstruct "var_declaration" then
        list.namedChildren.filter (·.kind == "var_spec")
      else [] := by
  have hnamed : list.namedChildren.filter (·.kind == "var_spec") =
      list.children.flatMap fun n => if n.isConstruct "var_spec" then [n] else [] := by
    rw [Node.namedChildren, List.filter_filter, ← flatMap_filter, List.flatMap_singleton']
    simp only [Node.isConstruct, Bool.and_comm]
  rw [Node.map_filter_occurrencesIn, hnamed]
  simp only [globalSpecs_below_parentheses, List.map_nil, List.append_nil,
    Occurrence.isGlobalSpec]
  by_cases h : (list.isConstruct "var_spec_list" &&
    declaration.isConstruct "var_declaration") = true
  · simp only [h, Bool.and_true, if_true]
  · simp [h]

/-- What stands below a node at the level of the file: the specifications of a `var` declaration
are global variables, and nothing else is. -/
theorem globalSpecs_in_declaration (declaration root : Node) :
    ((Node.occurrencesIn [declaration, root] declaration.children).filter
        Occurrence.isGlobalSpec).map (·.node) =
      if declaration.isConstruct "var_declaration" then declaration.varSpecs else [] := by
  rw [Node.map_filter_occurrencesIn]
  simp only [globalSpecs_in_parentheses, Occurrence.isGlobalSpec]
  by_cases hdecl : declaration.isConstruct "var_declaration" = true
  · rw [if_pos hdecl, Node.varSpecs, Node.namedChildren, flatMap_filter]
    congr 1
    funext n
    simp only [hdecl, Bool.and_true]
    by_cases hnamed : n.named = true
    · have hkind : ∀ kind, n.isConstruct kind = (n.kind == kind) := by
        simp [Node.isConstruct, hnamed]
      simp only [hkind, hnamed, if_true]
      by_cases hspec : n.kind = "var_spec"
      · simp [hspec]
      · simp [hspec]
    · simp [Node.isConstruct, hnamed]
  · simp [hdecl]

/-- **The extraction visits exactly the specifications of global variables**, in document
order. -/
theorem globalSpecs_eq_topLevelSpecs (root : Node) : root.globalSpecs = root.topLevelSpecs := by
  rw [Node.globalSpecs, Node.occurrences, Node.occurrencesFrom_eq, List.filter_cons_of_neg,
    Node.map_filter_occurrencesIn, Node.topLevelSpecs, Node.namedChildren, List.filter_filter,
    flatMap_filter]
  · congr 1
    funext n
    rw [globalSpecs_in_declaration, Bool.and_comm]
    simp [Occurrence.isGlobalSpec, Node.isConstruct]
  · simp [Occurrence.isGlobalSpec]

/-! ## Bindings that may stay -/

/-- What a value calls, converts to, or is a literal of. -/
inductive Callee : (value callee : Node) → Prop
  | call {value callee : Node} (hkind : value.kind = "call_expression")
      (h : value.child? "function" = some callee) : Callee value callee
  | conversion {value callee : Node} (hkind : value.kind = "type_conversion_expression")
      (h : value.child? "type" = some callee) : Callee value callee
  | composite {value callee : Node} (hkind : value.kind = "composite_literal")
      (h : value.child? "type" = some callee) : Callee value callee

/-- The two sides of `operand.member`, an expression or a type. -/
inductive Selects : (n operand member : Node) → Prop
  | expression {n operand member : Node} (hkind : n.kind = "selector_expression")
      (ho : n.child? "operand" = some operand) (hm : n.child? "field" = some member) :
      Selects n operand member
  | type {n operand member : Node} (hkind : n.kind = "qualified_type")
      (ho : n.child? "package" = some operand) (hm : n.child? "name" = some member) :
      Selects n operand member

/-- The name is one of an error: `Err…` if it is exported and `err…` if it is not. -/
def ErrorName (name : String) : Prop :=
  (Naming.isExported name = true ∧ "Err".toList <+: name.toList) ∨
    (Naming.isExported name = false ∧ "err".toList <+: name.toList)

/-- The members of other packages that may initialise a variable of a name. -/
inductive Initializes (name : String) : (qualifier member : String) → Prop
  | pattern : Initializes name "regexp" "MustCompile"
  | formatted (h : ErrorName name) : Initializes name "fmt" "Errorf"
  | plain (h : ErrorName name) : Initializes name "errors" "New"

/-- A variable of this name with this value may stay: the name is exempt, or the value calls or is
made of `qualifier.member` where the qualifier is a plain identifier. -/
def Sanctioned (source : Source) (name : String) (value : Node) : Prop :=
  name = "version" ∨ name = "_" ∨
    ∃ callee operand member, Callee value callee ∧ Selects callee operand member ∧
      (operand.kind = "identifier" ∨ operand.kind = "package_identifier") ∧
      Initializes name (operand.text source) (member.text source)

theorem looksLikeError_iff (name : String) :
    Naming.looksLikeError name = true ↔ ErrorName name := by
  rw [Naming.looksLikeError, ErrorName, Naming.errorBeginning, List.isPrefixOf_iff_prefix]
  cases Naming.isExported name <;> simp

/-- The table of allowed members, row by row. -/
theorem isAllowedMember_iff {name qualifier member : String} :
    isAllowedMember name (some qualifier) (some member) = true ↔
      Initializes name qualifier member := by
  constructor
  · intro h
    rw [isAllowedMember, findRule?] at h
    split at h
    · exact absurd h Bool.false_ne_true
    · rename_i rule hfind
      have hkey := List.find?_some hfind
      have hrow := List.mem_of_find?_eq_some hfind
      simp only [allowRules, List.mem_cons, List.not_mem_nil, or_false] at hrow
      rcases hrow with rfl | rfl | rfl
      · obtain ⟨rfl, rfl⟩ := by simpa using hkey
        exact .pattern
      · obtain ⟨rfl, rfl⟩ := by simpa using hkey
        exact .formatted ((looksLikeError_iff name).1 (by simpa using h))
      · obtain ⟨rfl, rfl⟩ := by simpa using hkey
        exact .plain ((looksLikeError_iff name).1 (by simpa using h))
  · intro h
    cases h with
    | pattern => rfl
    | formatted h => simp [isAllowedMember, findRule?, allowRules, (looksLikeError_iff name).2 h]
    | plain h => simp [isAllowedMember, findRule?, allowRules, (looksLikeError_iff name).2 h]

theorem selectorSides?_eq_some_iff {n operand member : Node} :
    n.selectorSides? = some (operand, member) ↔ Selects n operand member := by
  constructor
  · intro h
    rw [Node.selectorSides?] at h
    split at h
    · rename_i hkind
      split at h
      · rename_i ho hm
        obtain ⟨rfl, rfl⟩ := by simpa using h
        exact .expression (by simpa using hkind) ho hm
      · exact absurd h (by simp)
    · split at h
      · rename_i hkind
        split at h
        · rename_i ho hm
          obtain ⟨rfl, rfl⟩ := by simpa using h
          exact .type (by simpa using hkind) ho hm
        · exact absurd h (by simp)
      · exact absurd h (by simp)
  · intro h
    cases h with
    | expression hkind ho hm => simp [Node.selectorSides?, hkind, ho, hm]
    | type hkind ho hm => simp [Node.selectorSides?, hkind, ho, hm]

/-- A look-up by the parts of a selector succeeds exactly for a selector of a plain identifier. -/
theorem isAllowedMember_selectorParts_iff {source : Source} {name : String} {n : Option Node} :
    isAllowedMember name (Node.selectorParts n source).1 (Node.selectorParts n source).2 = true ↔
      ∃ callee operand member, n = some callee ∧ Selects callee operand member ∧
        (operand.kind = "identifier" ∨ operand.kind = "package_identifier") ∧
        Initializes name (operand.text source) (member.text source) := by
  rw [Node.selectorParts]
  split
  · rename_i operand member hsides
    obtain ⟨callee, rfl, hselects⟩ := Option.bind_eq_some_iff.1 hsides
    split
    · rename_i hkind
      have hplain : operand.kind = "identifier" ∨ operand.kind = "package_identifier" := by
        simpa [Node.identifierKinds] using hkind
      rw [isAllowedMember_iff]
      constructor
      · intro h
        exact ⟨callee, operand, member, rfl, selectorSides?_eq_some_iff.1 hselects, hplain, h⟩
      · rintro ⟨_, _, _, hcallee, hs, _, h⟩
        obtain rfl := Option.some.inj hcallee
        rw [selectorSides?_eq_some_iff.2 hs, Option.some_inj, Prod.mk.injEq] at hselects
        obtain ⟨rfl, rfl⟩ := hselects
        exact h
    · rename_i hkind
      refine ⟨fun h => absurd h Bool.false_ne_true, ?_⟩
      rintro ⟨_, _, _, hcallee, hs, hplain, _⟩
      obtain rfl := Option.some.inj hcallee
      rw [selectorSides?_eq_some_iff.2 hs, Option.some_inj, Prod.mk.injEq] at hselects
      obtain ⟨rfl, rfl⟩ := hselects
      exact absurd hplain (by simpa [Node.identifierKinds] using hkind)
  · rename_i hsides
    refine ⟨fun h => absurd h Bool.false_ne_true, ?_⟩
    rintro ⟨callee, operand, member, rfl, hs, _⟩
    rw [Option.bind_some, selectorSides?_eq_some_iff.2 hs] at hsides
    exact absurd hsides (by simp)

/-- What a value of a kind that calls something calls is found under one field. -/
theorem callee_iff {value callee : Node} :
    Callee value callee ↔
      (value.kind = "call_expression" ∧ value.child? "function" = some callee) ∨
      (value.kind = "type_conversion_expression" ∧ value.child? "type" = some callee) ∨
      (value.kind = "composite_literal" ∧ value.child? "type" = some callee) := by
  constructor
  · intro h
    cases h with
    | call hkind h => exact .inl ⟨hkind, h⟩
    | conversion hkind h => exact .inr (.inl ⟨hkind, h⟩)
    | composite hkind h => exact .inr (.inr ⟨hkind, h⟩)
  · rintro (⟨hkind, h⟩ | ⟨hkind, h⟩ | ⟨hkind, h⟩)
    · exact .call hkind h
    · exact .conversion hkind h
    · exact .composite hkind h

theorem exempt_iff {name : String} :
    exemptNames.contains name = true ↔ name = "version" ∨ name = "_" := by
  simp [exemptNames]

/-- **A value is classified for the rule.**  Looking up its shape decides whether a variable with
this value may stay. -/
theorem isAllowed_classify_iff (source : Source) (name : String) (value : Node) :
    isAllowed name (value.classify source) = true ↔ Sanctioned source name value := by
  unfold isAllowed
  rw [Bool.or_eq_true, exempt_iff, Sanctioned, or_assoc]
  refine or_congr_right (or_congr_right ?_)
  by_cases hcall : value.kind = "call_expression"
  · simp only [Node.classify, callee_iff, hcall]
    simpa using isAllowedMember_selectorParts_iff
  by_cases hconversion : value.kind = "type_conversion_expression"
  · simp only [Node.classify, callee_iff, hconversion]
    simpa using isAllowedMember_selectorParts_iff
  by_cases hcomposite : value.kind = "composite_literal"
  · simp only [Node.classify, callee_iff, hcomposite]
    simpa using isAllowedMember_selectorParts_iff
  -- what is left is neither a call nor a literal of a type, and has no callee
  have hshape : value.classify source = .literal (value.text source) ∨
      value.classify source = .other value.kind := by
    by_cases hliteral : value.kind ∈ Node.literalKinds
    · exact .inl (by simp [Node.classify, hcall, hconversion, hcomposite, hliteral])
    · exact .inr (by simp [Node.classify, hcall, hconversion, hcomposite, hliteral])
  rcases hshape with h | h <;> simp [h, callee_iff, hcall, hconversion, hcomposite]

instance (source : Source) (name : String) (value : Node) :
    Decidable (Sanctioned source name value) :=
  decidable_of_iff _ (isAllowed_classify_iff source name value)

/-! ## The report -/

namespace Node

/-- The nodes of the values that a specification gives: what stands under `value` and is neither a
comment nor a token of fixed spelling. -/
def initialValues (spec : Node) : List Node :=
  match spec.child? "value" with
  | none => []
  | some values => values.children.filter fun v => v.named && v.kind != "comment"

/-- The diagnostic of the node of a name. -/
def diagnostic (n : Node) (source : Source) (file : String) : Diagnostic :=
  ⟨file, n.row + 1, n.text source⟩

/-- What is reported about a specification: its first name if there are not as many values as
names, and otherwise each name that may not stay with the value of the same index. -/
def specReport (spec : Node) (source : Source) (file : String) : List Diagnostic :=
  let names := spec.childrenAt "name"
  let values := spec.initialValues
  if names.length ≠ values.length then (names.take 1).map (·.diagnostic source file)
  else ((names.zip values).filter fun b => ¬ Sanctioned source (b.1.text source) b.2).map
    (·.1.diagnostic source file)

/-- What is reported about a tree. -/
def report (root : Node) (source : Source) (file : String) : List Diagnostic :=
  root.globalSpecs.flatMap (·.specReport source file)

theorem initialValues_eq_valueNodes (spec : Node) : spec.initialValues = spec.valueNodes := by
  rw [initialValues, valueNodes]
  cases spec.child? "value" with
  | none => rfl
  | some values =>
    simp only [namedChildren, List.filter_filter, isComment, Bool.and_comm, bne]

/-- The findings of the group of a specification are what is reported about it. -/
theorem findings_group (spec : Node) (source : Source) (file : String) :
    (spec.group source file).findings = spec.specReport source file := by
  have hstays : ∀ b : Node × Node, (!isAllowed (b.1.text source) (b.2.classify source)) =
      decide (¬ Sanctioned source (b.1.text source) b.2) := by
    intro b
    rw [Bool.eq_iff_iff]
    simp [← isAllowed_classify_iff]
  simp only [Group.findings, group, names, specReport, initialValues_eq_valueNodes,
    List.length_map, ne_eq, ite_not]
  split
  · rw [List.zip_map, List.filter_map, List.map_map]
    simp only [Function.comp_def, Prod.map_fst, Prod.map_snd, hstays]
    rfl
  · rw [← List.map_take, List.map_map]
    rfl

theorem mem_occurrences_of_mem_globalSpecs {root spec : Node} (h : spec ∈ root.globalSpecs) :
    ∃ o ∈ root.occurrences, o.node = spec ∧ spec.kind = "var_spec" := by
  rw [globalSpecs, List.mem_map] at h
  obtain ⟨o, ho, rfl⟩ := h
  obtain ⟨hmem, hspec⟩ := List.mem_filter.1 ho
  rw [Occurrence.isGlobalSpec, isConstruct, Bool.and_eq_true, Bool.and_eq_true] at hspec
  exact ⟨o, hmem, rfl, by simpa using hspec.1.2⟩

end Node

/-- **What the rule finds in a tree is what is reported about it.**  If every specification binds a
name, then extracting the declarations of a tree and checking them does not fail, and it gives one
diagnostic for each global variable that may not stay, or for the first of a specification whose
names and values cannot be paired, in document order. -/
theorem check_extract_eq_report {root : Node} {source : Source} {file : String}
    (hnames : ∀ o ∈ root.occurrences, o.node.kind = "var_spec" → o.node.childrenAt "name" ≠ []) :
    check (root.extract source file) = .ok (root.report source file) := by
  have hgroups : ∀ g ∈ (root.extract source file).groups, g.names ≠ [] := by
    intro g hg
    obtain ⟨spec, hspec, rfl⟩ := List.mem_map.1 hg
    rw [← globalSpecs_eq_topLevelSpecs] at hspec
    obtain ⟨o, ho, rfl, hkind⟩ := Node.mem_occurrences_of_mem_globalSpecs hspec
    exact fun hnil => hnames o ho hkind (List.map_eq_nil_iff.1 hnil)
  rw [check_of_named hgroups, Node.extract, Node.report, globalSpecs_eq_topLevelSpecs,
    List.flatMap_map]
  simp only [Node.findings_group]

/-- A tree with two specifications in parentheses: an error, and two names for one value with a
comment behind it. -/
def sampleTree : Node :=
  let errorSpec : Node :=
    { kind := "var_spec", row := 2
      children := [
        { kind := "identifier", start := 17, stop := 21, row := 2, field := some "name" },
        { kind := "expression_list", row := 2, field := some "value"
          children := [
            { kind := "call_expression", row := 2
              children := [
                { kind := "selector_expression", row := 2, field := some "function"
                  children := [
                    { kind := "identifier", start := 24, stop := 30, field := some "operand" },
                    { kind := "field_identifier", start := 31, stop := 34,
                      field := some "field" }] }] }] }] }
  let pairSpec : Node :=
    { kind := "var_spec", row := 3
      children := [
        { kind := "identifier", start := 38, stop := 39, row := 3, field := some "name" },
        { kind := "identifier", start := 41, stop := 42, row := 3, field := some "name" },
        { kind := "expression_list", row := 3, field := some "value"
          children := [
            { kind := "int_literal", start := 45, stop := 46, row := 3 },
            { kind := "comment", start := 47, stop := 51, row := 3 }] }] }
  { kind := "source_file"
    children := [
      { kind := "package_clause" },
      { kind := "var_declaration", row := 1
        children := [{ kind := "var_spec_list", children := [errorSpec, pairSpec] }] }] }

/-- The text of the tree. -/
def sampleText : String :=
  "package p\nvar (\n\terrA = errors.New()\n\tx, y = 1 // z\n)\n"

/-- The error may stay, and the pair is reported once. -/
theorem check_extract_sampleTree :
    (∀ o ∈ sampleTree.occurrences, o.node.kind = "var_spec" → o.node.childrenAt "name" ≠ []) ∧
      check (sampleTree.extract (Text.bytesOf sampleText).toArray "a.go") =
        .ok [⟨"a.go", 4, "x"⟩] := by
  have hnames : ∀ o ∈ sampleTree.occurrences, o.node.kind = "var_spec" →
      o.node.childrenAt "name" ≠ [] := by
    with_unfolding_all decide
  refine ⟨hnames, (check_extract_eq_report hnames).trans (congrArg Except.ok ?_)⟩
  with_unfolding_all decide

end GoGlobals
