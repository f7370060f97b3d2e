import GoGlobals.Grammar.Stack

/-!
# Stacks hold consecutive readings

Every link of a stack carries a reading of the text between its two vertices.  Stacks are shared and
joined, and links are improved and added, but a link is only ever moved between vertices at the same
place, so this stays true (`Stack.addLink_sound`).  It follows that the readings on a way down from
the top are readings of consecutive stretches of text (`Stack.pop_chain`).

What else is known of the readings, and which cursors can occur, is left open: a predicate `P` on
readings and a predicate `V` on cursors stand for it.  All that is asked of `V` is that a cursor is
determined by its offset, since joining compares only offsets.
-/

set_option autoImplicit false

namespace GoGlobals.Grammar

open Text (Cursor)

/-! ## Readings in a row -/

/-- A reading of text between two cursors: white space may stand in front of it, and nothing
behind it. -/
structure Fits (P : Reading → Prop) (c : Cursor) (r : Reading) (d : Cursor) : Prop where
  good : P r
  le_start : c.offset ≤ r.start.offset
  start_le : r.start.offset ≤ r.stop.offset
  stop_eq : r.stop = d

/-- Readings one after the other, from one cursor to another. -/
inductive Chain (P : Reading → Prop) : Cursor → List Reading → Cursor → Prop
  | nil (c : Cursor) : Chain P c [] c
  | cons {c d e : Cursor} {r : Reading} {rs : List Reading} (h : Fits P c r d)
      (hrest : Chain P d rs e) : Chain P c (r :: rs) e

variable {P : Reading → Prop}

theorem Chain.split {c e : Cursor} {rs ss : List Reading} (h : Chain P c (rs ++ ss) e) :
    ∃ d, Chain P c rs d ∧ Chain P d ss e := by
  induction rs generalizing c with
  | nil => exact ⟨c, .nil c, h⟩
  | cons r rs ih =>
    cases h with
    | cons hr hrest =>
      obtain ⟨d, hd, he⟩ := ih hrest
      exact ⟨d, .cons hr hd, he⟩

theorem Chain.good {c d : Cursor} {rs : List Reading} (h : Chain P c rs d) : ∀ r ∈ rs, P r := by
  induction h with
  | nil => intro r hr; exact absurd hr List.not_mem_nil
  | cons hr _ ih =>
    intro s hs
    rcases List.mem_cons.1 hs with rfl | hs
    · exact hr.good
    · exact ih s hs

theorem Chain.offset_le {c d : Cursor} {rs : List Reading} (h : Chain P c rs d) :
    c.offset ≤ d.offset := by
  induction h with
  | nil => exact Nat.le_refl _
  | cons hr _ ih =>
    have h1 := hr.le_start
    have h2 := hr.start_le
    rw [hr.stop_eq] at h2
    exact Nat.le_trans (Nat.le_trans h1 h2) ih

theorem Chain.stop_getLast {c d : Cursor} {r : Reading} {rs : List Reading}
    (h : Chain P c (r :: rs) d) : ((r :: rs).getLast?.map (·.stop)) = some d := by
  induction rs generalizing c r with
  | nil =>
    cases h with
    | cons hr hrest =>
      cases hrest
      exact congrArg some hr.stop_eq
  | cons s rs ih =>
    cases h with
    | cons hr hrest => rw [List.getLast?_cons_cons]; exact ih hrest

/-- Readings that end at valid cursors lead from a valid one to a valid one. -/
theorem Chain.valid {V : Cursor → Prop} (hP : ∀ {r}, P r → V r.stop) {c d : Cursor}
    {rs : List Reading} (h : Chain P c rs d) (hc : V c) : V d := by
  induction h with
  | nil => exact hc
  | cons hr _ ih => exact ih (hr.stop_eq ▸ hP hr.good)

namespace Stack

variable {σ : Type}

/-! ## Where the vertices are -/

/-- The place of a vertex. -/
def cursor? (s : Stack σ) (n : Nat) : Option Cursor :=
  (s.vertex? n).map (·.cursor)

theorem vertex?_modify (s : Stack σ) (n m : Nat) (f : Vertex σ → Vertex σ) :
    (s.modify n f).vertex? m = if n = m then (s.vertex? m).map f else s.vertex? m := by
  rw [modify, vertex?, vertex?, Array.getElem?_modify]

theorem cursor?_modify (s : Stack σ) (n m : Nat) {f : Vertex σ → Vertex σ}
    (hf : ∀ v, (f v).cursor = v.cursor) : (s.modify n f).cursor? m = s.cursor? m := by
  rw [cursor?, cursor?, vertex?_modify]
  split
  · rw [Option.map_map]
    congr 1
    exact funext hf
  · rfl

theorem mem_links_iff {s : Stack σ} {n : Nat} {l : Link} :
    l ∈ s.links n ↔ ∃ v, s.vertex? n = some v ∧ l ∈ v.links := by
  rw [links]
  cases s.vertex? n with
  | none => simp
  | some v => simp

/-- A link is right on a vertex: its reading lies between the vertex below and this one. -/
def LinkFits (P : Reading → Prop) (s : Stack σ) (n : Nat) (l : Link) : Prop :=
  ∃ b c, s.cursor? l.below = some b ∧ s.cursor? n = some c ∧ Fits P b l.reading c

theorem LinkFits.congr {s t : Stack σ} {n : Nat} {l : Link} (h : LinkFits P s n l)
    (hst : ∀ m, t.cursor? m = s.cursor? m) : LinkFits P t n l := by
  obtain ⟨b, c, hb, hc, hfits⟩ := h
  exact ⟨b, c, by rw [hst, hb], by rw [hst, hc], hfits⟩

/-- All vertices are at valid places and all links are right. -/
structure Sound (V : Cursor → Prop) (P : Reading → Prop) (s : Stack σ) : Prop where
  valid : ∀ {n c}, s.cursor? n = some c → V c
  fits : ∀ {n l}, l ∈ s.links n → LinkFits P s n l

variable {V : Cursor → Prop}

/-! ## Changing links -/

/-- Changing a vertex is sound if it stays in place and its new links are right. -/
theorem Sound.modify {s : Stack σ} {n : Nat} {f : Vertex σ → Vertex σ} (hs : s.Sound V P)
    (hf : ∀ v, (f v).cursor = v.cursor)
    (hlinks : ∀ v, s.vertex? n = some v → ∀ l ∈ (f v).links, l ∈ v.links ∨ LinkFits P s n l) :
    (s.modify n f).Sound V P := by
  have hcursor : ∀ m, (s.modify n f).cursor? m = s.cursor? m := fun m => s.cursor?_modify n m hf
  refine ⟨fun {m c} h => hs.valid (by rwa [hcursor] at h), fun {m l} hl => ?_⟩
  refine LinkFits.congr ?_ hcursor
  obtain ⟨w, hw, hmem⟩ := mem_links_iff.1 hl
  rw [vertex?_modify] at hw
  split at hw
  · rename_i hnm
    subst hnm
    obtain ⟨v, hv, rfl⟩ := Option.map_eq_some_iff.1 hw
    rcases hlinks v hv l hmem with hold | hnew
    · exact hs.fits (mem_links_iff.2 ⟨v, hv, hold⟩)
    · exact hnew
  · exact hs.fits (mem_links_iff.2 ⟨w, hw, hmem⟩)

theorem Sound.raise {s : Stack σ} (hs : s.Sound V P) (n : Nat) (weight : Int) :
    (s.raise n weight).Sound V P := by
  refine hs.modify (fun v => ?_) (fun v _ l hl => .inl ?_)
  · split <;> rfl
  · split at hl <;> exact hl

theorem cursor?_raise (s : Stack σ) (n m : Nat) (weight : Int) :
    (s.raise n weight).cursor? m = s.cursor? m := by
  refine s.cursor?_modify n m fun v => ?_
  split <;> rfl

theorem mem_improve {new l : Link} {ls : List Link} (h : l ∈ improve new ls) :
    l ∈ ls ∨ l = new := by
  induction ls with
  | nil => exact absurd h List.not_mem_nil
  | cons old rest ih =>
    rw [improve] at h
    split at h
    · rcases List.mem_cons.1 h with rfl | h
      · split
        · exact .inr rfl
        · exact .inl List.mem_cons_self
      · exact .inl (List.mem_cons_of_mem _ h)
    · rcases List.mem_cons.1 h with rfl | h
      · exact .inl List.mem_cons_self
      · exact (ih h).imp_left (List.mem_cons_of_mem _)

/-- The stack is changed into another sound one, and no vertex moves. -/
structure Extends (V : Cursor → Prop) (P : Reading → Prop) (s t : Stack σ) : Prop where
  sound : t.Sound V P
  cursor_eq : ∀ n, t.cursor? n = s.cursor? n

theorem foldl_extends {f : Stack σ → Link → Stack σ} {n : Nat} {ls : List Link} {s : Stack σ}
    (hs : s.Sound V P) (hls : ∀ l ∈ ls, LinkFits P s n l)
    (hf : ∀ {t l}, t.Sound V P → LinkFits P t n l → Extends V P t (f t l)) :
    Extends V P s (ls.foldl f s) := by
  induction ls generalizing s with
  | nil => exact ⟨hs, fun _ => rfl⟩
  | cons l ls ih =>
    have h1 := hf hs (hls l List.mem_cons_self)
    have h2 := ih h1.sound fun l' hl' =>
      (hls l' (List.mem_cons_of_mem _ hl')).congr h1.cursor_eq
    exact ⟨h2.sound, fun n => (h2.cursor_eq n).trans (h1.cursor_eq n)⟩

theorem Extends.refl {s : Stack σ} (hs : s.Sound V P) : Extends V P s s :=
  ⟨hs, fun _ => rfl⟩

theorem Extends.raise {s t : Stack σ} (h : Extends V P s t) (n : Nat) (weight : Int) :
    Extends V P s (t.raise n weight) :=
  ⟨h.sound.raise n weight, fun m => (t.cursor?_raise n m weight).trans (h.cursor_eq m)⟩

/-- Vertices that agree are at the same place. -/
theorem agree_cursor [BEq σ] (hV : ∀ {c d}, V c → V d → c.offset = d.offset → c = d)
    {s : Stack σ} (hs : s.Sound V P) {a b : Nat} (h : s.agree a b = true) :
    ∃ c, s.cursor? a = some c ∧ s.cursor? b = some c := by
  rw [agree] at h
  split at h
  · rename_i v w hv hw
    have hc : s.cursor? a = some v.cursor := by rw [cursor?, hv, Option.map_some]
    have hd : s.cursor? b = some w.cursor := by rw [cursor?, hw, Option.map_some]
    rw [Bool.and_eq_true, beq_iff_eq (a := v.cursor.offset)] at h
    exact ⟨v.cursor, hc, by rw [hd, hV (hs.valid hc) (hs.valid hd) h.2]⟩
  · exact absurd h Bool.false_ne_true

/-- **Adding a link keeps a stack sound**, whether the link is new, is covered by a better or a
worse one, or has its stacks joined with others further down. -/
theorem addLink_sound [BEq σ] (hV : ∀ {c d}, V c → V d → c.offset = d.offset → c = d)
    (fuel : Nat) : ∀ {s : Stack σ} {n : Nat} {new : Link}, s.Sound V P → LinkFits P s n new →
      Extends V P s (addLink fuel s n new) := by
  induction fuel with
  | zero => intro s n new hs _; exact .refl hs
  | succ fuel ih =>
    intro s n new hs hnew
    rw [addLink]
    split
    · exact .refl hs
    split
    · rename_i old hfind
      have hcovers := List.find?_some hfind
      have hold := hs.fits (List.mem_of_find?_eq_some hfind)
      split
      · split
        · -- the new reading takes the place of the old one
          refine ⟨hs.modify (fun _ => rfl) fun v hv l hl => ?_, fun m =>
            s.cursor?_modify n m fun _ => rfl⟩
          rcases mem_improve hl with hl | rfl
          · exact .inl hl
          · exact .inr hnew
        · exact .refl hs
      · rename_i hbelow
        -- the vertices below agree, so the links of one are right on the other
        rw [covers, Bool.and_eq_true, Bool.or_eq_true] at hcovers
        obtain ⟨c, hc, hc'⟩ := agree_cursor hV hs (hcovers.2.resolve_left hbelow)
        have hfold : Extends V P s
            ((s.links new.below).foldl (fun s l => addLink fuel s old.below l) s) := by
          refine foldl_extends (n := old.below) hs (fun l hl => ?_) fun ht hl => ih ht hl
          obtain ⟨b, d, hb, hd, hfits⟩ := hs.fits hl
          rw [hc', Option.some_inj] at hd
          exact ⟨b, c, hb, hc, hd ▸ hfits⟩
        exact hfold.raise n _
    · split
      · exact .refl hs
      · have hadd : Extends V P s (s.modify n fun v => { v with links := v.links ++ [new] }) := by
          refine ⟨hs.modify (fun _ => rfl) fun v _ l hl => ?_, fun m =>
            s.cursor?_modify n m fun _ => rfl⟩
          rcases List.mem_append.1 hl with hl | hl
          · exact .inl hl
          · exact .inr (List.mem_singleton.1 hl ▸ hnew)
        exact hadd.raise n _

/-! ## New vertices -/

theorem cursor?_push {s : Stack σ} {below : Nat} {r : Reading} {state : σ} {n : Nat} :
    (s.push below r state).2.cursor? n =
      if n = s.vertices.size then some r.stop else s.cursor? n := by
  rw [push, cursor?, vertex?, Array.getElem?_push, cursor?, vertex?]
  split <;> rfl

theorem cursor?_push_of_some {s : Stack σ} {below : Nat} {r : Reading} {state : σ} {n : Nat}
    {c : Cursor} (h : s.cursor? n = some c) : (s.push below r state).2.cursor? n = some c := by
  rw [cursor?_push, if_neg, h]
  rintro rfl
  rw [cursor?, vertex?, Array.getElem?_size] at h
  exact absurd h (by simp)

theorem cursor?_push_new {s : Stack σ} {below : Nat} {r : Reading} {state : σ} :
    (s.push below r state).2.cursor? (s.push below r state).1 = some r.stop := by
  rw [cursor?_push, push, if_pos rfl]

/-- Putting a reading on a vertex that it fits on keeps a stack sound. -/
theorem Sound.push {s : Stack σ} (hs : s.Sound V P) {below : Nat} {r : Reading} {state : σ}
    {b : Cursor} (hb : s.cursor? below = some b) (hr : Fits P b r r.stop) (hV : V r.stop) :
    (s.push below r state).2.Sound V P := by
  refine ⟨fun {n c} h => ?_, fun {n l} hl => ?_⟩
  · rw [cursor?_push] at h
    split at h
    · exact Option.some.inj h ▸ hV
    · exact hs.valid h
  · obtain ⟨v, hv, hmem⟩ := mem_links_iff.1 hl
    rw [Stack.push, vertex?, Array.getElem?_push] at hv
    split at hv
    · rename_i hn
      subst hn
      obtain rfl := Option.some.inj hv
      obtain rfl := List.mem_singleton.1 hmem
      exact ⟨b, r.stop, cursor?_push_of_some hb, cursor?_push_new, hr⟩
    · obtain ⟨b', c, hb', hc, hfits⟩ := hs.fits (mem_links_iff.2 ⟨v, hv, hmem⟩)
      exact ⟨b', c, cursor?_push_of_some hb', cursor?_push_of_some hc, hfits⟩

/-! ## Taking readings off -/

/-- A way down from a vertex has passed consecutive readings. -/
def Path.Leads (P : Reading → Prop) (s : Stack σ) (top : Nat) (p : Path) : Prop :=
  ∃ c d, s.cursor? p.vertex = some c ∧ s.cursor? top = some d ∧ Chain P c p.passed d

theorem Path.Leads.follow {s : Stack σ} (hs : s.Sound V P) {top : Nat} {p : Path} {l : Link}
    (hp : p.Leads P s top) (hl : l ∈ s.links p.vertex) : (p.follow l).Leads P s top := by
  obtain ⟨c, d, hc, hd, hchain⟩ := hp
  obtain ⟨b, c', hb, hc', hfits⟩ := hs.fits hl
  rw [hc, Option.some_inj] at hc'
  exact ⟨b, d, hb, hd, .cons hfits (hc' ▸ hchain)⟩

/-- All ways of a frontier have passed consecutive readings. -/
structure Frontier.Leads (P : Reading → Prop) (s : Stack σ) (top : Nat) (f : Frontier) :
    Prop where
  found : ∀ p ∈ f.found, p.Leads P s top
  going : ∀ p ∈ f.going, p.Leads P s top
  branching : ∀ p ∈ f.branching, p.Leads P s top

/-- Branching off over more links. -/
theorem Frontier.Leads.branch {s : Stack σ} {top : Nat} (p : Path) {ls : List Link}
    (hls : ∀ l ∈ ls, (p.follow l).Leads P s top) {f : Frontier} (hf : f.Leads P s top) :
    (ls.foldl (fun f l =>
      if f.alive < pathLimit then
        { f with branching := p.follow l :: f.branching, alive := f.alive + 1 }
      else f) f).Leads P s top := by
  induction ls generalizing f with
  | nil => exact hf
  | cons l ls ih =>
    rw [List.foldl_cons]
    refine ih (fun l' hl' => hls l' (List.mem_cons_of_mem _ hl')) ?_
    split
    · refine ⟨hf.found, hf.going, fun q hq => ?_⟩
      rcases List.mem_cons.1 hq with rfl | hq
      · exact hls l List.mem_cons_self
      · exact hf.branching q hq
    · exact hf

theorem Frontier.Leads.advance {s : Stack σ} (hs : s.Sound V P) {top : Nat} {p : Path}
    (hp : p.Leads P s top) {f : Frontier} (hf : f.Leads P s top) :
    (Frontier.advance s f p).Leads P s top := by
  have hfollow : ∀ l ∈ s.links p.vertex, (p.follow l).Leads P s top := fun l hl =>
    hp.follow hs hl
  rw [Frontier.advance]
  split
  · refine ⟨fun q hq => ?_, hf.going, hf.branching⟩
    rcases List.mem_cons.1 hq with rfl | hq
    · exact hp
    · exact hf.found q hq
  · split
    · exact ⟨hf.found, hf.going, hf.branching⟩
    · rename_i first others hlinks
      rw [hlinks] at hfollow
      have hothers : ∀ l ∈ others, (p.follow l).Leads P s top := fun l hl =>
        hfollow l (List.mem_cons_of_mem _ hl)
      have hbranch := hf.branch p hothers
      refine ⟨hbranch.found, fun q hq => ?_, hbranch.branching⟩
      rcases List.mem_cons.1 hq with rfl | hq
      · exact hfollow first List.mem_cons_self
      · exact hbranch.going q hq

theorem follow_leads {s : Stack σ} (hs : s.Sound V P) {top : Nat} (fuel : Nat) :
    ∀ {paths found : List Path}, (∀ p ∈ paths, p.Leads P s top) →
      (∀ p ∈ found, p.Leads P s top) → ∀ p ∈ follow s fuel paths found, p.Leads P s top := by
  induction fuel with
  | zero => intro paths found _ hfound p hp; exact hfound p (List.mem_reverse.1 hp)
  | succ fuel ih =>
    intro paths found hpaths hfound p hp
    rw [follow] at hp
    split at hp
    · exact hfound p (List.mem_reverse.1 hp)
    · have hstep : ∀ {ps : List Path} {f : Frontier}, (∀ q ∈ ps, q.Leads P s top) →
          f.Leads P s top → (ps.foldl (Frontier.advance s) f).Leads P s top := by
        intro ps
        induction ps with
        | nil => intro f _ hf; exact hf
        | cons q qs ih' =>
          intro f hqs hf
          exact ih' (fun r hr => hqs r (List.mem_cons_of_mem _ hr))
            (hf.advance hs (hqs q List.mem_cons_self))
      have hf := hstep hpaths (f := { found, alive := paths.length })
        ⟨hfound, fun _ h => absurd h List.not_mem_nil, fun _ h => absurd h List.not_mem_nil⟩
      refine ih (fun q hq => ?_) hf.found p hp
      rcases List.mem_append.1 hq with hq | hq
      · exact hf.going q (List.mem_reverse.1 hq)
      · exact hf.branching q (List.mem_reverse.1 hq)

/-- **What is taken off a stack is a chain of readings** from the vertex that is reached to the
top. -/
theorem pop_chain {s : Stack σ} (hs : s.Sound V P) {top : Nat} {d : Cursor}
    (hd : s.cursor? top = some d) {count : Option Nat} {p : Path} (hp : p ∈ s.pop top count) :
    ∃ c, s.cursor? p.vertex = some c ∧ Chain P c p.passed d := by
  have hstart : ∀ q ∈ [({ vertex := top, left := count } : Path)], q.Leads P s top := by
    intro q hq
    obtain rfl := List.mem_singleton.1 hq
    exact ⟨d, d, hd, hd, .nil d⟩
  obtain ⟨c, d', hc, hd', hchain⟩ :=
    follow_leads hs _ hstart (fun _ h => absurd h List.not_mem_nil) p hp
  rw [hd, Option.some_inj] at hd'
  exact ⟨c, hc, hd' ▸ hchain⟩

end Stack

end GoGlobals.Grammar
