import GoGlobals.Proofs.Tree.Comments

/-!
# Preorder

`Node.preorder` lists the nodes of a tree as a search meets them that goes into everything: a node,
and then all that is below it, from its first child to its last.  Two things that the program does
with a tree are measured against it.

The search for the first mistake does not go into everything.  It trusts the flags of the children
and passes by those that say they hold no mistake.  If the flags tell the truth it finds what the
full search finds (`firstMistake?_eq_find?`), and if a tree says it holds a mistake, it finds one.

The names of the variables of a file are collected from declarations, with and without parentheses,
each from its specifications.  They come as the full search meets them (`nameNodes_sublist`), so
that whatever does not decrease in preorder does not decrease from name to name.
-/

set_option autoImplicit false

namespace GoGlobals.Node

/-- A node and all that is below it, every node before its children. -/
def preorder (n : Node) : List Node :=
  n.occurrences.map (·.node)

mutual

/-- What stands above a tree makes no difference to its nodes. -/
theorem map_node_occurrencesFrom (above : List Node) (n : Node) :
    (n.occurrencesFrom above).map (·.node) = n :: n.children.flatMap preorder := by
  match n with
  | ⟨kind, start, stop, row, column, named, missing, hasError, field, children⟩ =>
    rw [occurrencesFrom, List.map_cons, map_node_occurrencesIn]

theorem map_node_occurrencesIn (above ns : List Node) :
    (occurrencesIn above ns).map (·.node) = ns.flatMap preorder := by
  match ns with
  | [] => rw [occurrencesIn]; rfl
  | n :: ns =>
    rw [occurrencesIn, List.map_append, map_node_occurrencesFrom, map_node_occurrencesIn,
      List.flatMap_cons, preorder, occurrences, map_node_occurrencesFrom]

end

theorem preorder_eq (n : Node) : n.preorder = n :: n.children.flatMap preorder :=
  map_node_occurrencesFrom [] n

theorem everywhere_of_preorder {Q : Node → Prop} {root : Node} (h : ∀ n ∈ root.preorder, Q n) :
    Everywhere Q root :=
  everywhere_of_occurrencesFrom fun o ho => h o.node (List.mem_map_of_mem ho)

/-! ## The first mistake -/

/-- The node says that it holds a mistake exactly if one is at it or below it. -/
def TellsTruth (n : Node) : Prop :=
  n.hasError = true ↔ ∃ m ∈ n.preorder, m.isMistake = true

/-- Passing by the trees that hold no mistake loses nothing. -/
theorem firstMistakeIn?_eq_find? {ns : List Node} (htruth : ∀ n ∈ ns, n.TellsTruth)
    (hns : ∀ n ∈ ns, n.firstMistake? = n.preorder.find? (·.isMistake)) :
    firstMistakeIn? ns = (ns.flatMap preorder).find? (·.isMistake) := by
  induction ns with
  | nil => rw [firstMistakeIn?]; rfl
  | cons n ns ih =>
    obtain ⟨htruth, htruths⟩ := List.forall_mem_cons.1 htruth
    obtain ⟨hn, hns⟩ := List.forall_mem_cons.1 hns
    rw [firstMistakeIn?, ih htruths hns, List.flatMap_cons, List.find?_append, ← hn]
    split
    · cases n.firstMistake? <;> rfl
    · rename_i hflag
      -- no flag, no mistake: the full search finds nothing here either
      have hnone : n.firstMistake? = none := by
        rw [hn, List.find?_eq_none]
        exact fun m hm hmistake => hflag (htruth.2 ⟨m, hm, hmistake⟩)
      rw [hnone, Option.none_or]

/-- **The search that passes by finds the first mistake in preorder.** -/
theorem firstMistake?_eq_find? {n : Node} (h : Everywhere TellsTruth n) :
    n.firstMistake? = n.preorder.find? (·.isMistake) := by
  induction h with
  | @intro n _ hchildren ih =>
    rw [firstMistake?_eq, firstMistakeIn?_eq_find? (fun m hm => (hchildren m hm).here) ih,
      preorder_eq, List.find?_cons]
    cases n.isMistake <;> rfl

/-- A tree that says it holds a mistake is searched with success. -/
theorem hasError_eq_isSome {root : Node} (h : Everywhere TellsTruth root) :
    root.hasError = root.firstMistake?.isSome := by
  rw [firstMistake?_eq_find? h, Bool.eq_iff_iff, List.find?_isSome]
  exact h.here

/-! ## The names of a file -/

theorem sublist_preorder (n : Node) : (n.children.flatMap preorder).Sublist n.preorder := by
  rw [preorder_eq]
  exact List.sublist_cons_self ..

/-- What is collected from some nodes, from each in preorder, is collected from all in preorder. -/
theorem flatMap_sublist_preorder {f : Node → List Node} {ns ms : List Node}
    (hsub : ns.Sublist ms) (hf : ∀ n, (f n).Sublist n.preorder) :
    (ns.flatMap f).Sublist (ms.flatMap preorder) := by
  induction hsub with
  | slnil => exact .slnil
  | cons m _ ih =>
    rw [List.flatMap_cons]
    exact ih.trans (List.sublist_append_right ..)
  | cons_cons m _ ih =>
    rw [List.flatMap_cons, List.flatMap_cons]
    exact (hf m).append ih

/-- What is collected from children in preorder is collected from the node in preorder. -/
theorem flatMap_children_sublist {f : Node → List Node} {n : Node} {ns : List Node}
    (hsub : ns.Sublist n.children) (hf : ∀ m, (f m).Sublist m.preorder) :
    (ns.flatMap f).Sublist n.preorder :=
  (flatMap_sublist_preorder hsub hf).trans n.sublist_preorder

theorem childrenAt_sublist_preorder (n : Node) (field : String) :
    (n.childrenAt field).Sublist n.preorder := by
  have hself : ∀ m : Node, [m].Sublist m.preorder := by
    intro m
    rw [preorder_eq]
    exact (List.nil_sublist _).cons_cons m
  rw [← List.flatMap_singleton' (n.childrenAt field)]
  exact flatMap_children_sublist List.filter_sublist hself

/-- The specifications of a declaration, in parentheses or not, come in preorder. -/
theorem flatMap_varSpecs_sublist {f : Node → List Node} (hf : ∀ n, (f n).Sublist n.preorder)
    (declaration : Node) : (declaration.varSpecs.flatMap f).Sublist declaration.preorder := by
  rw [varSpecs, List.flatMap_assoc]
  refine flatMap_children_sublist List.filter_sublist fun child => ?_
  split
  · rw [List.flatMap_singleton]
    exact hf child
  split
  · exact flatMap_children_sublist (List.filter_sublist.trans List.filter_sublist) hf
  · exact List.nil_sublist _

/-- **The names of the variables of a file come in preorder.** -/
theorem nameNodes_sublist (root : Node) :
    (root.topLevelSpecs.flatMap (·.childrenAt "name")).Sublist root.preorder := by
  rw [topLevelSpecs, List.flatMap_assoc]
  refine flatMap_children_sublist (List.filter_sublist.trans List.filter_sublist) ?_
  exact flatMap_varSpecs_sublist fun spec => spec.childrenAt_sublist_preorder "name"

end GoGlobals.Node
