import GoGlobals.Proofs.Grammar.Stack
import GoGlobals.Proofs.Tree.Order

/-!
# The nodes of a reading

A forest is put together piece by piece and listed in one go.  `Forest.nodes` is the list, and the
lemmas here say what becomes of it when forests are joined and labelled, so that the nodes of a
construct are those of its parts, one part after the other (`nodes_forests_inOrder`), each with the
label that its symbol has in the rule (`mem_forests`).
-/

set_option autoImplicit false

namespace GoGlobals.Grammar

open Text (Cursor)
open Node (InOrder)

/-! ## Forests -/

/-- The nodes of a forest. -/
def Forest.nodes (t : Forest) : List Node :=
  t.listBefore id []

theorem Forest.listBefore_eq (f : Node → Node) (t : Forest) (after : List Node) :
    t.listBefore f after = t.nodes.map f ++ after := by
  induction t generalizing f after with
  | empty => rfl
  | node n => rfl
  | join left right ihl ihr =>
    rw [nodes, listBefore, listBefore, ihl, ihr, ihl, ihr]
    simp
  | labelled label inner ih =>
    rw [nodes, listBefore, listBefore, ih, ih]
    simp

@[simp] theorem Forest.nodes_empty : Forest.empty.nodes = [] := rfl

@[simp] theorem Forest.nodes_node (n : Node) : (Forest.node n).nodes = [n] := rfl

@[simp] theorem Forest.nodes_join (left right : Forest) :
    (Forest.join left right).nodes = left.nodes ++ right.nodes := by
  rw [nodes, listBefore, listBefore_eq, List.map_id]
  rfl

@[simp] theorem Forest.nodes_labelled (label : Label) (t : Forest) :
    (Forest.labelled label t).nodes = t.nodes.map label.apply := by
  rw [nodes, listBefore, listBefore_eq, List.append_nil]
  rfl

theorem Label.apply_empty (n : Node) : ({} : Label).apply n = n := by
  cases n
  simp [Label.apply]

@[simp] theorem Forest.nodes_label (label : Label) (t : Forest) :
    (t.label label).nodes = t.nodes.map label.apply := by
  rw [Forest.label]
  split
  · rename_i h
    rw [h, funext Label.apply_empty, List.map_id']
  · exact nodes_labelled label t

theorem Forest.foldr_listBefore (fs : List Forest) (after : List Node) :
    fs.foldr (fun f after => f.listBefore id after) after = fs.flatMap Forest.nodes ++ after := by
  induction fs with
  | nil => rfl
  | cons f fs ih =>
    rw [List.foldr_cons, ih, listBefore_eq, List.map_id, List.flatMap_cons, List.append_assoc]

theorem Forest.nodes_foldl_join (fs : List Forest) (t : Forest) :
    (fs.foldl .join t).nodes = t.nodes ++ fs.flatMap Forest.nodes := by
  induction fs generalizing t with
  | nil => simp
  | cons f fs ih => rw [List.foldl_cons, ih, nodes_join, List.flatMap_cons, List.append_assoc]

/-! ## Parts -/

namespace Reading

theorem forests_of_extra {p : Reading} (h : p.extra = true) (ps : List Reading)
    (labels : List Label) : forests (p :: ps) labels = p.forest :: forests ps labels := by
  cases labels with
  | nil => rw [forests, if_pos h]
  | cons label labels => rw [forests, if_pos h]

theorem symbols_of_extra {p : Reading} (h : p.extra = true) (ps : List Reading) :
    symbols (p :: ps) = symbols ps := by
  rw [symbols, List.filter_cons_of_neg (by simp [h]), symbols]

theorem symbols_of_not_extra {p : Reading} (h : p.extra = false) (ps : List Reading) :
    symbols (p :: ps) = p.symbol :: symbols ps := by
  rw [symbols, List.filter_cons_of_pos (by simp [h]), List.map_cons, symbols]

/-- A forest of a part is that of the part itself, or it has the label that goes with the part's
symbol. -/
theorem mem_forests {parts : List Reading} {labels : List Label} {f : Forest}
    (h : f ∈ forests parts labels) :
    ∃ r ∈ parts, f = r.forest ∨
      ∃ label, f = r.forest.label label ∧ (r.symbol, label) ∈ (symbols parts).zip labels := by
  induction parts generalizing labels with
  | nil => exact absurd h List.not_mem_nil
  | cons p ps ih =>
    cases hextra : p.extra with
    | true =>
      rw [forests_of_extra hextra] at h
      rw [symbols_of_extra hextra]
      rcases List.mem_cons.1 h with rfl | h
      · exact ⟨p, List.mem_cons_self, .inl rfl⟩
      · obtain ⟨r, hr, hf⟩ := ih h
        exact ⟨r, List.mem_cons_of_mem _ hr, hf⟩
    | false =>
      rw [symbols_of_not_extra hextra]
      cases labels with
      | nil =>
        rw [forests, hextra] at h
        rcases List.mem_cons.1 h with rfl | h
        · exact ⟨p, List.mem_cons_self, .inl rfl⟩
        · obtain ⟨r, hr, hf | ⟨label, -, hmem⟩⟩ := ih h
          · exact ⟨r, List.mem_cons_of_mem _ hr, .inl hf⟩
          · exact absurd hmem (by simp)
      | cons label labels =>
        rw [forests, hextra] at h
        rcases List.mem_cons.1 h with rfl | h
        · exact ⟨p, List.mem_cons_self, .inr ⟨label, rfl, List.mem_cons_self⟩⟩
        · obtain ⟨r, hr, hf | ⟨label', hf, hmem⟩⟩ := ih h
          · exact ⟨r, List.mem_cons_of_mem _ hr, .inl hf⟩
          · exact ⟨r, List.mem_cons_of_mem _ hr, .inr ⟨label', hf, List.mem_cons_of_mem _ hmem⟩⟩

/-- The first part that counts has the first label. -/
theorem exists_first_forest {parts : List Reading} {s : Nat} {ss : List Nat}
    (h : symbols parts = s :: ss) (label : Label) (labels : List Label) :
    ∃ r ∈ parts, r.symbol = s ∧ r.forest.label label ∈ forests parts (label :: labels) := by
  induction parts with
  | nil => exact absurd h (by simp [symbols])
  | cons p ps ih =>
    cases hextra : p.extra with
    | true =>
      rw [symbols_of_extra hextra] at h
      rw [forests_of_extra hextra]
      obtain ⟨r, hr, hs, hmem⟩ := ih h
      exact ⟨r, List.mem_cons_of_mem _ hr, hs, List.mem_cons_of_mem _ hmem⟩
    | false =>
      rw [symbols_of_not_extra hextra] at h
      rw [forests, hextra]
      exact ⟨p, List.mem_cons_self, (List.cons.inj h).1, List.mem_cons_self⟩

theorem inOrder_label {lo hi : Nat} {t : Forest} (h : InOrder lo t.nodes hi) (label : Label) :
    InOrder lo (t.label label).nodes hi := by
  rw [Forest.nodes_label]
  exact h.map (fun _ => rfl) fun _ => rfl

/-- **The nodes of parts that follow one another are in order.** -/
theorem nodes_forests_inOrder {P : Reading → Prop} {c d : Cursor} {parts : List Reading}
    (h : Chain P c parts d)
    (hP : ∀ r ∈ parts, InOrder r.start.offset r.forest.nodes r.stop.offset)
    (labels : List Label) {lo : Nat} (hlo : ∀ r, parts.head? = some r → lo ≤ r.start.offset)
    (hlo' : lo ≤ d.offset) :
    InOrder lo ((forests parts labels).flatMap Forest.nodes) d.offset := by
  induction h generalizing lo labels with
  | nil c => exact .nil hlo'
  | @cons c e d r rs hr hrest ih =>
    have hfirst : ∀ f : Forest, InOrder r.start.offset f.nodes r.stop.offset →
        ∀ labels, InOrder lo ((f :: forests rs labels).flatMap Forest.nodes) d.offset := by
      intro f hf labels
      rw [List.flatMap_cons]
      rw [hr.stop_eq] at hf
      refine (hf.widen (hlo r rfl) (Nat.le_refl _)).append ?_
      refine ih (fun s hs => hP s (List.mem_cons_of_mem _ hs)) labels (fun s hs => ?_)
        hrest.offset_le
      cases hrest with
      | nil => exact absurd hs (by simp)
      | cons hs' _ =>
        obtain rfl := Option.some.inj hs
        exact hs'.le_start
    have hr' := hP r List.mem_cons_self
    cases hextra : r.extra with
    | true =>
      rw [forests_of_extra hextra]
      exact hfirst _ hr' labels
    | false =>
      cases labels with
      | nil =>
        rw [forests, hextra]
        exact hfirst _ hr' []
      | cons label labels =>
        rw [forests, hextra]
        exact hfirst _ (inOrder_label hr' label) labels

theorem forests_nil (parts : List Reading) : forests parts [] = parts.map (·.forest) := by
  induction parts with
  | nil => rfl
  | cons p ps ih =>
    rw [forests, ih, List.map_cons]
    split <;> rfl

/-! ## Tokens and constructs -/

theorem nodes_leaf (g : Compiled) (origin : Nat) (t : Token) :
    (leaf g origin t).forest.nodes = [nodeOf (g.symbol t.symbol) t.start t.stop []] := rfl

theorem nodeOf_kind (s : Symbol) (start : Text.Place) (stop : Cursor) (children : List Node) :
    (nodeOf s start stop children).kind = s.kind := rfl

/-- What is known of the reading of a construct. -/
structure IsBranch (g : Compiled) (r : Reduction) (here : Cursor) (parts : List Reading)
    (t : Reading) : Prop where
  allowed : g.allows r.head (symbols parts) r.labels = true
  symbol : t.symbol = r.head
  start : t.start = (parts.head?.map (·.start)).getD here.place
  stop : t.stop = (parts.getLast?.map (·.stop)).getD here
  /-- A construct has one node, or those of its parts. -/
  nodes : t.forest.nodes =
    if (g.symbol r.head).isVisible then
      [nodeOf (g.symbol r.head) t.start t.stop ((forests parts r.labels).flatMap Forest.nodes)]
    else (forests parts r.labels).flatMap Forest.nodes

theorem isBranch_of_branch? {g : Compiled} {r : Reduction} {here : Cursor}
    {parts : List Reading} {t : Reading} (h : branch? g r here parts = some t) :
    IsBranch g r here parts t := by
  rw [branch?] at h
  split at h
  · rename_i hallowed
    obtain rfl := Option.some.inj h
    refine ⟨hallowed, rfl, rfl, rfl, ?_⟩
    simp only []
    split
    · rw [Forest.nodes_node, Forest.foldr_listBefore, List.append_nil]
    · rw [Forest.nodes_foldl_join, Forest.nodes_empty, List.nil_append]
  · exact absurd h (by simp)

variable {P : Reading → Prop}

/-- A construct starts where its first part does. -/
theorem IsBranch.start_le {g : Compiled} {r : Reduction} {here : Cursor} {parts : List Reading}
    {t : Reading} (h : IsBranch g r here parts t) :
    ∀ p, parts.head? = some p → t.start.offset ≤ p.start.offset := by
  intro p hp
  rw [h.start, hp]
  exact Nat.le_refl _

/-- A construct covers what its parts cover. -/
theorem IsBranch.span {g : Compiled} {r : Reduction} {c d : Cursor} {parts : List Reading}
    {t : Reading} (h : IsBranch g r c parts t) (hparts : Chain P c parts d) :
    c.offset ≤ t.start.offset ∧ t.start.offset ≤ d.offset ∧ t.stop = d := by
  rw [h.start, h.stop]
  cases hparts with
  | nil => exact ⟨Nat.le_refl _, Nat.le_refl _, rfl⟩
  | @cons _ m _ p ps hp hrest =>
    have hlast := (Chain.cons hp hrest).stop_getLast
    rw [hlast]
    have hle := hp.start_le
    rw [hp.stop_eq] at hle
    exact ⟨hp.le_start, Nat.le_trans hle hrest.offset_le, rfl⟩

end Reading

end GoGlobals.Grammar
