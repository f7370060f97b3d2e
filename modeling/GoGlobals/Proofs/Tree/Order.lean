import GoGlobals.Tree.Extract

/-!
# Nodes in document order

Nodes side by side are *in order* when each covers a range of the text and none starts before the
one in front of it ends.  A part of such a row is in order again, and so is the row in which every
node is replaced by nodes within it.  That is all that collecting nodes from a tree ever does, and
so the specifications at the level of a file are in order if the children of every node are
(`Node.inOrder_topLevelSpecs`).
-/

set_option autoImplicit false

namespace GoGlobals.Node

/-- Nodes one after the other between two offsets. -/
structure InOrder (lo : Nat) (ns : List Node) (hi : Nat) : Prop where
  le : lo ≤ hi
  within : ∀ n ∈ ns, lo ≤ n.start ∧ n.start ≤ n.stop ∧ n.stop ≤ hi
  apart : ns.Pairwise fun m n => m.stop ≤ n.start

namespace InOrder

variable {lo mid hi : Nat} {ns ms : List Node}

theorem nil (h : lo ≤ hi) : InOrder lo [] hi :=
  ⟨h, fun _ hn => absurd hn List.not_mem_nil, .nil⟩

theorem singleton {n : Node} (hlo : lo ≤ n.start) (hle : n.start ≤ n.stop) (hhi : n.stop ≤ hi) :
    InOrder lo [n] hi := by
  refine ⟨by omega, fun m hm => ?_, List.pairwise_singleton _ _⟩
  obtain rfl := List.mem_singleton.1 hm
  exact ⟨hlo, hle, hhi⟩

theorem append (h : InOrder lo ns mid) (h' : InOrder mid ms hi) : InOrder lo (ns ++ ms) hi := by
  have hle := h.le
  have hle' := h'.le
  refine ⟨by omega, fun n hn => ?_, List.pairwise_append.2 ⟨h.apart, h'.apart, ?_⟩⟩
  · rcases List.mem_append.1 hn with hn | hn
    · have := h.within n hn; omega
    · have := h'.within n hn; omega
  · intro m hm n hn
    have := h.within m hm
    have := h'.within n hn
    omega

theorem widen {lo' hi' : Nat} (h : InOrder lo ns hi) (hlo : lo' ≤ lo) (hhi : hi ≤ hi') :
    InOrder lo' ns hi' := by
  have hle := h.le
  refine ⟨by omega, fun n hn => ?_, h.apart⟩
  have := h.within n hn
  omega

theorem sublist (h : InOrder lo ns hi) (hsub : ms.Sublist ns) : InOrder lo ms hi :=
  ⟨h.le, fun n hn => h.within n (hsub.subset hn), h.apart.sublist hsub⟩

theorem filter (h : InOrder lo ns hi) (p : Node → Bool) : InOrder lo (ns.filter p) hi :=
  h.sublist List.filter_sublist

/-- Changing nodes where they stand. -/
theorem map {f : Node → Node} (h : InOrder lo ns hi) (hstart : ∀ n, (f n).start = n.start)
    (hstop : ∀ n, (f n).stop = n.stop) : InOrder lo (ns.map f) hi := by
  refine ⟨h.le, fun n hn => ?_, List.pairwise_map.2 (h.apart.imp fun hmn => ?_)⟩
  · obtain ⟨m, hm, rfl⟩ := List.mem_map.1 hn
    rw [hstart, hstop]
    exact h.within m hm
  · rwa [hstart, hstop]

/-- Putting nodes within each node in its place. -/
theorem flatMap {f : Node → List Node} (h : InOrder lo ns hi)
    (hf : ∀ n ∈ ns, InOrder n.start (f n) n.stop) : InOrder lo (ns.flatMap f) hi := by
  refine ⟨h.le, fun n hn => ?_, List.pairwise_flatMap.2 ⟨fun m hm => (hf m hm).apart, ?_⟩⟩
  · obtain ⟨m, hm, hn⟩ := List.mem_flatMap.1 hn
    have := h.within m hm
    have := (hf m hm).within n hn
    omega
  · refine h.apart.imp_of_mem fun {m n} hm hn hmn x hx y hy => ?_
    have := (hf m hm).within x hx
    have := (hf n hn).within y hy
    omega

/-- The starts of nodes that are not empty increase. -/
theorem starts_increase (h : InOrder lo ns hi) (hne : ∀ n ∈ ns, n.start < n.stop) :
    (ns.map (·.start)).Pairwise (· < ·) := by
  refine List.pairwise_map.2 (h.apart.imp_of_mem fun {m n} hm _ hmn => ?_)
  have := hne m hm
  omega

end InOrder

/-! ## All nodes of a tree -/

/-- The node and everything within have a property. -/
inductive Everywhere (Q : Node → Prop) : Node → Prop
  | intro {n : Node} (h : Q n) (hc : ∀ m ∈ n.children, Everywhere Q m) : Everywhere Q n

variable {Q R : Node → Prop}

theorem Everywhere.here {n : Node} (h : Everywhere Q n) : Q n := by
  cases h with
  | intro h _ => exact h

theorem Everywhere.child {n m : Node} (h : Everywhere Q n) (hm : m ∈ n.children) :
    Everywhere Q m := by
  cases h with
  | intro _ hc => exact hc m hm

theorem Everywhere.imp {n : Node} (h : Everywhere Q n) (hQR : ∀ n, Q n → R n) :
    Everywhere R n := by
  induction h with
  | intro h _ ih => exact .intro (hQR _ h) ih

/-- The children are in order. -/
def ChildrenInOrder (n : Node) : Prop :=
  InOrder n.start n.children n.stop

/-! ## Specifications -/

theorem mem_varSpecs {n spec : Node} (h : spec ∈ n.varSpecs) :
    spec.kind = "var_spec" ∧ (spec ∈ n.children ∨ ∃ m ∈ n.children, spec ∈ m.children) := by
  obtain ⟨m, hm, hspec⟩ := List.mem_flatMap.1 h
  obtain ⟨hm, -⟩ := List.mem_filter.1 hm
  split at hspec
  · rename_i hkind
    obtain rfl := List.mem_singleton.1 hspec
    exact ⟨beq_iff_eq.1 hkind, .inl hm⟩
  split at hspec
  · obtain ⟨hspec, hkind⟩ := List.mem_filter.1 hspec
    exact ⟨beq_iff_eq.1 hkind, .inr ⟨m, hm, (List.mem_filter.1 hspec).1⟩⟩
  · exact absurd hspec List.not_mem_nil

/-- What holds of all nodes below the root holds of the specifications of a file. -/
theorem of_mem_topLevelSpecs {root spec : Node} (hc : ∀ n ∈ root.children, Everywhere Q n)
    (h : spec ∈ root.topLevelSpecs) : spec.kind = "var_spec" ∧ Q spec := by
  obtain ⟨n, hn, hspec⟩ := List.mem_flatMap.1 h
  obtain ⟨hn, -⟩ := List.mem_filter.1 hn
  have hall := hc n (List.mem_filter.1 hn).1
  obtain ⟨hkind, hmem | ⟨m, hm, hmem⟩⟩ := mem_varSpecs hspec
  · exact ⟨hkind, (hall.child hmem).here⟩
  · exact ⟨hkind, ((hall.child hm).child hmem).here⟩

theorem inOrder_varSpecs {n : Node} (h : Everywhere ChildrenInOrder n) :
    InOrder n.start n.varSpecs n.stop := by
  refine (h.here.filter _).flatMap fun m hm => ?_
  obtain ⟨hm, -⟩ := List.mem_filter.1 hm
  have hle := (h.here.within m hm).2.1
  split
  · exact .singleton (Nat.le_refl _) hle (Nat.le_refl _)
  split
  · exact ((h.child hm).here.filter _).filter _
  · exact .nil hle

/-- **The specifications of a file are in document order.** -/
theorem inOrder_topLevelSpecs {lo hi : Nat} {root : Node} (h : InOrder lo root.children hi)
    (hc : ∀ n ∈ root.children, Everywhere ChildrenInOrder n) :
    InOrder lo root.topLevelSpecs hi := by
  refine ((h.filter _).filter _).flatMap fun n hn => ?_
  obtain ⟨hn, -⟩ := List.mem_filter.1 hn
  obtain ⟨hn, -⟩ := List.mem_filter.1 hn
  exact inOrder_varSpecs (hc n hn)

end GoGlobals.Node
