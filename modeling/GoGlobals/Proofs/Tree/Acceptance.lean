import GoGlobals.Proofs.Tree.Preorder

/-!
# When a tree is accepted

A tree is refused for the first mistake in it, or else for what stands at the level of the file.
This file says for every tree which of these happens and what is told about it, in words that do
not follow the program.

Mistakes come first, whatever else is wrong: a tree with a mistake is refused for the one that comes
first in preorder (`reported_mistake`), provided that its flags tell the truth.

Without mistakes it is the row of named nodes at the level of the file that counts.  `Layout` says
what becomes of such a row: it is accepted if it is made of comments, a package clause, and then
comments and declarations, and for every other row it gives the parse error.  The program tells the
package clause from the other nodes by where it starts, so nodes that start at different places are
asked for (`reported_layout`).

## What is here

* `Node.reported`, the outcome for a tree with the parse error that is reported.
* `ParseError.TellsMistake`, the errors that are about a mistake.
* `Node.Layout`, with one rule for each thing that can become of a file without mistakes.
-/

set_option autoImplicit false

namespace GoGlobals

open Text (Source)

/-- The outcome for a file with this tree, with the error that is reported. -/
def Node.reported (root : Node) (source : Source) (file : String) : Except ParseError Unit :=
  (root.accept source).mapError (·.error file)

theorem Node.reported_of_mistake {root : Node} (h : root.hasError = true) (source : Source)
    (file : String) : root.reported source file = .error ((root.mistakeRefusal source).error file) := by
  rw [reported, accept, refusal?, if_pos h]
  rfl

theorem Node.reported_of_layout {root : Node} (h : root.hasError = false) (source : Source)
    (file : String) :
    root.reported source file =
      match root.layoutRefusal? with
      | none => .ok ()
      | some refusal => .error (refusal.error file) := by
  rw [reported, accept, refusal?, h, if_neg Bool.false_ne_true]
  cases root.layoutRefusal? <;> rfl

/-! ## Mistakes -/

/-- The error is about a mistake in a tree. -/
def ParseError.TellsMistake (e : ParseError) : Prop :=
  ∃ what, e.message = "syntax error near " ++ what ∨ e.message = "missing " ++ what

/-- The error about a mistake: what is missing, or the beginning of the text that is wrong. -/
def Node.mistakeError (bad : Node) (source : Source) (file : String) : ParseError where
  message :=
    if bad.missing then "missing " ++ bad.kind
    else "syntax error near " ++
      Text.quoted (String.ofList ((bad.text source).toList.take 40))
  file
  line := some (bad.row + 1)
  column := some (bad.column + 1)

theorem Node.tellsMistake_mistakeError (bad : Node) (source : Source) (file : String) :
    (bad.mistakeError source file).TellsMistake := by
  rw [mistakeError, ParseError.TellsMistake]
  split
  · exact ⟨_, .inr rfl⟩
  · exact ⟨_, .inl rfl⟩

theorem Node.mistakeRefusal_error {root bad : Node} (h : root.firstMistake? = some bad)
    (source : Source) (file : String) :
    (root.mistakeRefusal source).error file = bad.mistakeError source file := by
  rw [mistakeRefusal, h, Option.getD_some, mistakeError, Refusal.error, mistakeFault]
  split <;> rfl

/-- What is told about a mistake begins in its own way. -/
theorem ParseError.TellsMistake.head {e : ParseError} (h : e.TellsMistake) :
    e.message.toList.head? = some 's' ∨ e.message.toList.head? = some 'm' := by
  obtain ⟨what, hmessage | hmessage⟩ := h
  · exact .inl (by rw [hmessage, String.toList_append]; rfl)
  · exact .inr (by rw [hmessage, String.toList_append]; rfl)

/-- A fault at the level of a file is told in other words than a mistake. -/
theorem Fault.not_tellsMistake {fault : Fault} (h : fault.isSyntactic = false) (spot : Option Spot)
    (file : String) : ¬ (Refusal.error ⟨fault, spot⟩ file).TellsMistake := by
  have hhead : fault.message.toList.head? = some 'e' ∨ fault.message.toList.head? = some 'n' := by
    cases fault with
    | unreadable | near | missing => exact absurd h (by simp [isSyntactic])
    | noPackageClause => exact .inl rfl
    | stray kind =>
      have hmessage : (stray kind).message =
          "non-declaration statement outside function body (" ++ (kind ++ ")") :=
        String.append_assoc
      exact .inr (by rw [hmessage, String.toList_append]; rfl)
  intro htells
  rcases htells.head with htold | htold <;>
    rcases hhead with hhead | hhead <;>
      exact absurd (hhead.symm.trans htold) (by decide)

theorem Node.isSyntactic_layoutRefusal? {root : Node} {refusal : Refusal}
    (h : root.layoutRefusal? = some refusal) : refusal.fault.isSyntactic = false := by
  rw [layoutRefusal?] at h
  split at h
  · rw [← Option.some.inj h]
    rfl
  split at h
  · rw [← Option.some.inj h]
    rfl
  · obtain ⟨n, -, rfl⟩ := Option.map_eq_some_iff.1 h
    rfl

/-- **A tree with mistakes is refused for the first of them.**  Let every node say that it holds a
mistake exactly if it is one or one is below it.  Then the search that passes by what holds none
finds the same node as the search through everything, and it finds one whenever the tree says that
there is one.  A mistake is told about exactly if there is one, whatever is wrong at the level of
the file, and it is the first one, with its place. -/
theorem reported_mistake {root : Node}
    (hflags : ∀ n ∈ root.preorder, (n.hasError = true ↔
      ∃ m ∈ n.preorder, m.kind = "ERROR" ∨ m.missing = true))
    (source : Source) (file : String) :
    root.firstMistake? = root.preorder.find? (fun n => n.kind == "ERROR" || n.missing) ∧
      root.hasError = root.firstMistake?.isSome ∧
      ((∃ e, root.reported source file = .error e ∧ e.TellsMistake) ↔
        ∃ n ∈ root.preorder, n.kind = "ERROR" ∨ n.missing = true) ∧
      ∀ bad, root.preorder.find? (fun n => n.kind == "ERROR" || n.missing) = some bad →
        root.reported source file = .error (bad.mistakeError source file) := by
  have hmistake : ∀ n : Node, n.isMistake = true ↔ n.kind = "ERROR" ∨ n.missing = true := by
    simp [Node.isMistake]
  have htruth : Node.Everywhere Node.TellsTruth root :=
    Node.everywhere_of_preorder fun n hn => by
      simp only [Node.TellsTruth, hmistake]
      exact hflags n hn
  have hfirst : root.firstMistake? =
      root.preorder.find? (fun n => n.kind == "ERROR" || n.missing) :=
    Node.firstMistake?_eq_find? htruth
  have hflag := Node.hasError_eq_isSome htruth
  have hreported : ∀ bad, root.firstMistake? = some bad →
      root.reported source file = .error (bad.mistakeError source file) := by
    intro bad hbad
    rw [Node.reported_of_mistake (by rw [hflag, hbad]; rfl), Node.mistakeRefusal_error hbad]
  refine ⟨hfirst, hflag, ?_, fun bad hbad => hreported bad (hfirst.trans hbad)⟩
  rw [← hflags root (by rw [Node.preorder_eq]; exact List.mem_cons_self), hflag]
  constructor
  · rintro ⟨e, he, htells⟩
    by_contra hnone
    rw [← hflag, Bool.not_eq_true] at hnone
    rw [Node.reported_of_layout hnone] at he
    split at he
    · exact absurd he (by simp)
    · rename_i refusal hrefusal
      obtain rfl := Except.error.inj he
      exact Fault.not_tellsMistake (Node.isSyntactic_layoutRefusal? hrefusal) _ file htells
  · intro hsome
    obtain ⟨bad, hbad⟩ := Option.isSome_iff_exists.1 hsome
    exact ⟨_, hreported bad hbad, bad.tellsMistake_mistakeError source file⟩

/-- A tree without a package clause, with an error inside another and a token that is missing. -/
def mistakenTree : Node :=
  let inner : Node :=
    { kind := "ERROR", start := 9, stop := 11, column := 9, hasError := true
      children := [{ kind := "ERROR", start := 10, stop := 11, column := 10, hasError := true }] }
  let call : Node :=
    { kind := "call_expression", hasError := true
      children := [
        { kind := "identifier", stop := 1 },
        { kind := ")", start := 3, stop := 3, row := 1, column := 3, named := false
          missing := true, hasError := true },
        inner] }
  { kind := "source_file", hasError := true
    children := [{ kind := "comment" }, { kind := "expression_statement", hasError := true
                                          children := [call] }] }

/-- The token is reported and not the errors behind it, nor the package clause. -/
theorem reported_mistakenTree :
    mistakenTree.reported #[] "a.go" = .error ⟨"missing )", "a.go", some 2, some 4⟩ :=
  (@reported_mistake mistakenTree (by with_unfolding_all decide) #[] "a.go").2.2.2
    { kind := ")", start := 3, stop := 3, row := 1, column := 3, named := false
      missing := true, hasError := true } (by with_unfolding_all rfl)

/-! ## The level of a file -/

namespace Node

/-- The node is a declaration of a file. -/
def IsDeclaration (n : Node) : Prop :=
  n.kind ∈ ["import_declaration", "function_declaration", "method_declaration",
    "const_declaration", "var_declaration", "type_declaration"]

/-- The node may stand anywhere behind the package clause. -/
def IsOrdinary (n : Node) : Prop :=
  n.kind = "comment" ∨ n.IsDeclaration

/-- What becomes of a file whose named nodes are these, if there is no mistake in it. -/
inductive Layout (file : String) : List Node → Except ParseError Unit → Prop
  | accepted {comments rest : List Node} {clause : Node}
      (hcomments : ∀ n ∈ comments, n.kind = "comment") (hclause : clause.kind = "package_clause")
      (hrest : ∀ n ∈ rest, n.IsOrdinary) : Layout file (comments ++ clause :: rest) (.ok ())
  | nothing {comments : List Node} (hcomments : ∀ n ∈ comments, n.kind = "comment") :
      Layout file comments (.error ⟨"expected 'package' clause", file, some 1, some 1⟩)
  | noClause {comments rest : List Node} {first : Node}
      (hcomments : ∀ n ∈ comments, n.kind = "comment") (hfirst : first.kind ≠ "comment")
      (hclause : first.kind ≠ "package_clause") :
      Layout file (comments ++ first :: rest)
        (.error ⟨"expected 'package' clause", file, some (first.row + 1), some 1⟩)
  | stray {comments before after : List Node} {clause n : Node}
      (hcomments : ∀ n ∈ comments, n.kind = "comment") (hclause : clause.kind = "package_clause")
      (hbefore : ∀ n ∈ before, n.IsOrdinary) (hstray : ¬ n.IsOrdinary) :
      Layout file (comments ++ clause :: (before ++ n :: after))
        (.error ⟨"non-declaration statement outside function body (" ++ n.kind ++ ")", file,
          some (n.row + 1), some (n.column + 1)⟩)

theorem contains_topLevelKinds_iff {n : Node} :
    topLevelKinds.contains n.kind = true ↔ n.IsOrdinary := by
  rw [List.contains_iff_mem, topLevelKinds, List.mem_cons, IsOrdinary, IsDeclaration]

theorem not_isOrdinary_of_package {n : Node} (h : n.kind = "package_clause") :
    ¬ n.IsOrdinary := by
  rw [← contains_topLevelKinds_iff, h]
  decide

/-- Every row of nodes has its layout. -/
theorem exists_layout (file : String) (ns : List Node) : ∃ outcome, Layout file ns outcome := by
  cases hfirst : ns.find? (fun n => !n.isComment) with
  | none =>
    exact ⟨_, .nothing fun n hn => by simpa [isComment] using List.find?_eq_none.1 hfirst n hn⟩
  | some first =>
    obtain ⟨hnot, comments, rest, rfl, hbefore⟩ := List.find?_eq_some_iff_append.1 hfirst
    have hcomments : ∀ n ∈ comments, n.kind = "comment" := fun n hn => by
      simpa [isComment] using hbefore n hn
    by_cases hclause : first.kind = "package_clause"
    · cases hstray : rest.find? (fun n => !topLevelKinds.contains n.kind) with
      | none =>
        refine ⟨_, .accepted hcomments hclause fun n hn => ?_⟩
        rw [← contains_topLevelKinds_iff]
        simpa using List.find?_eq_none.1 hstray n hn
      | some n =>
        obtain ⟨hn, before, after, rfl, hbefore⟩ := List.find?_eq_some_iff_append.1 hstray
        refine ⟨_, .stray hcomments hclause (fun m hm => ?_) ?_⟩
        · rw [← contains_topLevelKinds_iff]
          simpa using hbefore m hm
        · rw [← contains_topLevelKinds_iff]
          simpa using hn
    · exact ⟨_, .noClause hcomments (by simpa [isComment] using hnot) hclause⟩

section

variable {root clause : Node} {comments rest : List Node}

theorem firstConstruct?_of_comments (h : ∀ n ∈ comments, n.kind = "comment")
    (hroot : root.namedChildren = comments ++ rest) :
    root.firstConstruct? = rest.find? fun n => !n.isComment := by
  have hnone : comments.find? (fun n => !n.isComment) = none :=
    List.find?_eq_none.2 fun n hn => by simp [isComment, h n hn]
  rw [firstConstruct?, hroot, List.find?_append, hnone, Option.none_or]

/-- Behind the package clause, the first stray node is the first that is not ordinary: only the
clause itself starts where the clause starts. -/
theorem firstStray?_of_clause (h : ∀ n ∈ comments, n.kind = "comment")
    (hroot : root.namedChildren = comments ++ clause :: rest)
    (hstarts : (root.namedChildren.map (·.start)).Pairwise (· < ·)) :
    root.firstStray? clause = rest.find? fun n => !topLevelKinds.contains n.kind := by
  have hnone : comments.find?
      (fun n => !(n.start == clause.start || topLevelKinds.contains n.kind)) = none := by
    refine List.find?_eq_none.2 fun n hn => ?_
    rw [contains_topLevelKinds_iff.2 (.inl (h n hn)), Bool.or_true]
    exact Bool.false_ne_true
  have hbehind : ∀ n ∈ rest, (n.start == clause.start) = false := by
    intro n hn
    rw [hroot, List.map_append, List.map_cons] at hstarts
    have hlt := (List.pairwise_cons.1 (List.pairwise_append.1 hstarts).2.1).1 n.start
      (List.mem_map_of_mem hn)
    exact beq_eq_false_iff_ne.2 (Nat.ne_of_gt hlt)
  rw [firstStray?, hroot, List.find?_append, hnone, Option.none_or,
    List.find?_cons_of_neg (by simp)]
  refine List.find?_congr fun n hn => ?_
  rw [hbehind n hn, Bool.false_or]

theorem layoutRefusal?_of_clause (h : ∀ n ∈ comments, n.kind = "comment")
    (hclause : clause.kind = "package_clause")
    (hroot : root.namedChildren = comments ++ clause :: rest)
    (hstarts : (root.namedChildren.map (·.start)).Pairwise (· < ·)) :
    root.layoutRefusal? = (rest.find? fun n => !topLevelKinds.contains n.kind).map
      fun n => ⟨.stray n.kind, some n.spot⟩ := by
  have hfirst : root.firstConstruct? = some clause := by
    rw [firstConstruct?_of_comments h hroot, List.find?_cons_of_pos (by simp [isComment, hclause])]
  rw [layoutRefusal?, hfirst]
  simp only [hclause, bne_self_eq_false, Bool.false_eq_true, if_false]
  rw [firstStray?_of_clause h hroot hstarts]

/-- The layout of a file is what is reported about it. -/
theorem Layout.reported_eq {file : String} {outcome : Except ParseError Unit} {ns : List Node}
    (h : Layout file ns outcome) (hroot : root.namedChildren = ns) (hflag : root.hasError = false)
    (hstarts : (root.namedChildren.map (·.start)).Pairwise (· < ·)) (source : Source) :
    root.reported source file = outcome := by
  rw [reported_of_layout hflag]
  cases h with
  | @accepted comments rest clause hcomments hclause hrest =>
    have hnone : rest.find? (fun n => !topLevelKinds.contains n.kind) = none :=
      List.find?_eq_none.2 fun n hn => by
        rw [contains_topLevelKinds_iff.2 (hrest n hn)]
        exact Bool.false_ne_true
    rw [layoutRefusal?_of_clause hcomments hclause hroot hstarts, hnone]
    rfl
  | nothing hcomments =>
    have hnone : root.firstConstruct? = none :=
      firstConstruct?_of_comments hcomments (hroot.trans (List.append_nil _).symm)
    rw [layoutRefusal?, hnone]
    rfl
  | @noClause comments rest first hcomments hnot hclause =>
    have hfirst : root.firstConstruct? = some first := by
      rw [firstConstruct?_of_comments hcomments hroot,
        List.find?_cons_of_pos (by simp [isComment, hnot])]
    have hkind : (first.kind != "package_clause") = true := bne_iff_ne.2 hclause
    rw [layoutRefusal?, hfirst]
    simp only [hkind, if_true]
    rfl
  | @stray comments before after clause n hcomments hclause hbefore hstray =>
    have hfirst : (before ++ n :: after).find? (fun n => !topLevelKinds.contains n.kind) =
        some n := by
      refine List.find?_eq_some_iff_append.2 ⟨?_, before, after, rfl, fun m hm => ?_⟩
      · rw [← contains_topLevelKinds_iff, Bool.not_eq_true] at hstray
        rw [hstray, Bool.not_false]
      · rw [contains_topLevelKinds_iff.2 (hbefore m hm)]
        rfl
    rw [layoutRefusal?_of_clause hcomments hclause hroot hstarts, hfirst]
    rfl

end

/-- An accepted row of nodes has one package clause. -/
theorem countP_package_of_ordinary {comments rest : List Node} {clause : Node}
    (hcomments : ∀ n ∈ comments, n.kind = "comment") (hclause : clause.kind = "package_clause")
    (hrest : ∀ n ∈ rest, n.IsOrdinary) :
    (comments ++ clause :: rest).countP (·.kind == "package_clause") = 1 := by
  have hnone : ∀ ns : List Node, (∀ n ∈ ns, n.IsOrdinary) →
      ns.countP (·.kind == "package_clause") = 0 := fun ns hns =>
    List.countP_eq_zero.2 fun n hn hkind =>
      not_isOrdinary_of_package (beq_iff_eq.1 hkind) (hns n hn)
  rw [List.countP_append, List.countP_cons, hnone _ fun n hn => .inl (hcomments n hn),
    hnone _ hrest, if_pos (by simp [hclause])]

end Node

/-- **Which trees without mistakes are accepted, and what is told about the others.**  Let a tree
say that it holds a mistake only if it does, let it hold none, and let the named nodes at the level
of the file start one behind the other.  Then what is reported is the layout of these nodes and
nothing else.  The tree is accepted exactly if they are comments, a package clause, and then
comments and declarations, so that there is one package clause in all. -/
theorem reported_layout {root : Node}
    (hflag : root.hasError = true → ∃ n ∈ root.preorder, n.kind = "ERROR" ∨ n.missing = true)
    (hclean : ∀ n ∈ root.preorder, n.kind ≠ "ERROR" ∧ n.missing = false)
    (hstarts : (root.namedChildren.map (·.start)).Pairwise (· < ·)) (source : Source)
    (file : String) :
    (∀ outcome, root.reported source file = outcome ↔
        Node.Layout file root.namedChildren outcome) ∧
      (root.reported source file = .ok () ↔
        ∃ comments clause rest, root.namedChildren = comments ++ clause :: rest ∧
          (∀ n ∈ comments, n.kind = "comment") ∧ clause.kind = "package_clause" ∧
          ∀ n ∈ rest, n.kind = "comment" ∨ n.IsDeclaration) ∧
      (root.reported source file = .ok () →
        root.namedChildren.countP (·.kind == "package_clause") = 1) := by
  have hnone : root.hasError = false := by
    rw [Bool.eq_false_iff]
    intro htrue
    obtain ⟨n, hn, hmistake⟩ := hflag htrue
    rw [(hclean n hn).2] at hmistake
    exact hmistake.elim (hclean n hn).1 Bool.false_ne_true
  have hlayout : ∀ outcome, root.reported source file = outcome ↔
      Node.Layout file root.namedChildren outcome := by
    intro outcome
    refine ⟨?_, fun h => h.reported_eq rfl hnone hstarts source⟩
    rintro rfl
    obtain ⟨outcome, h⟩ := Node.exists_layout file root.namedChildren
    rwa [h.reported_eq rfl hnone hstarts source]
  have haccepted : root.reported source file = .ok () ↔
      ∃ comments clause rest, root.namedChildren = comments ++ clause :: rest ∧
        (∀ n ∈ comments, n.kind = "comment") ∧ clause.kind = "package_clause" ∧
        ∀ n ∈ rest, n.IsOrdinary := by
    rw [hlayout]
    constructor
    · intro h
      generalize hns : root.namedChildren = ns at h
      cases h with
      | accepted hcomments hclause hrest => exact ⟨_, _, _, rfl, hcomments, hclause, hrest⟩
    · rintro ⟨comments, clause, rest, hns, hcomments, hclause, hrest⟩
      rw [hns]
      exact .accepted hcomments hclause hrest
  refine ⟨hlayout, haccepted, fun h => ?_⟩
  obtain ⟨comments, clause, rest, hns, hcomments, hclause, hrest⟩ := haccepted.1 h
  rw [hns]
  exact Node.countP_package_of_ordinary hcomments hclause hrest

/-- A tree with two package clauses. -/
def doubleTree : Node where
  kind := "source_file"
  children := [
    { kind := "comment", stop := 4 },
    { kind := "package_clause", start := 5, stop := 14, row := 1 },
    { kind := "\n", start := 14, stop := 15, row := 1, named := false },
    { kind := "import_declaration", start := 15, stop := 25, row := 2 },
    { kind := "package_clause", start := 27, stop := 36, row := 2, column := 12 }]

/-- The second clause is refused where it stands. -/
theorem reported_doubleTree :
    doubleTree.reported #[] "a.go" = .error
      ⟨"non-declaration statement outside function body (package_clause)", "a.go", some 3,
        some 13⟩ := by
  refine ((@reported_layout doubleTree (by with_unfolding_all decide) (by with_unfolding_all decide)
    (by with_unfolding_all decide) #[] "a.go").1 _).2 ?_
  exact @Node.Layout.stray "a.go" [_] [_] [] _ _ (by decide) (by decide)
    (by simp [Node.IsOrdinary, Node.IsDeclaration]) (by simp [Node.IsOrdinary, Node.IsDeclaration])

end GoGlobals
