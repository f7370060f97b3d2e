import GoGlobals.Grammar.Parser
import GoGlobals.Proofs.Grammar.Reading
import Mathlib.Data.List.Induction
import Mathlib.Data.List.TakeDrop

/-!
# The parser reads from left to right

Whatever the tokens and the grammar are, the parser only ever puts readings together that follow
one another in the text.  So what is known of every token, and is handed on from the parts of a
construct to the construct, is known of the reading of the whole text.

`Language.Keeps` collects what has to be known of a language for that: a predicate `V` on cursors, a
predicate `T` on the tokens found at a cursor, and a predicate `P` on readings.  The step from one
state of the parser to the next is then the same argument at every level, from a single push to a
whole run, and `Language.parse?_chain` is its conclusion.
-/

set_option autoImplicit false

namespace GoGlobals.Grammar

open Text (Cursor)

/-- Tokens found in a language satisfy `T`, their readings satisfy `P`, and so do the readings of
constructs whose parts do. -/
structure Language.Keeps {σ : Type} (l : Language σ) (V : Cursor → Prop)
    (T : Cursor → Token → Prop) (P : Reading → Prop) : Prop where
  /-- A cursor is determined by its offset. -/
  unique : ∀ {c d : Cursor}, V c → V d → c.offset = d.offset → c = d
  /-- A reading ends at a valid cursor. -/
  valid : ∀ {r : Reading}, P r → V r.stop
  token : ∀ {expects : Nat → Bool} {c : Cursor} {t : Token}, V c → l.token? expects c = some t →
    T c t
  /-- A token stays acceptable as the other symbol that it can be. -/
  otherwise : ∀ {c : Cursor} {t : Token} {s : Nat}, T c t → t.otherwise = some s →
    T c { t with symbol := s, otherwise := none }
  leaf : ∀ {c : Cursor} {t : Token}, V c → T c t →
    Fits P c (Reading.leaf l.grammar c.offset t) t.stop
  branch : ∀ {r : Reduction} {c d : Cursor} {parts : List Reading} {t : Reading}, V c →
    Chain P c parts d → Reading.branch? l.grammar r c parts = some t → P t

variable {σ : Type} {V : Cursor → Prop} {T : Cursor → Token → Prop} {P : Reading → Prop}

/-! ## Constructs -/

/-- A construct is a reading of what its parts cover. -/
theorem branch?_fits {g : Compiled} {r : Reduction} {c d : Cursor} {parts : List Reading}
    {t : Reading} (hparts : Chain P c parts d) (ht : Reading.branch? g r c parts = some t)
    (hP : P t) : Fits P c t d := by
  obtain ⟨hle, hle', hstop⟩ := (Reading.isBranch_of_branch? ht).span hparts
  exact ⟨hP, hle, hstop ▸ hle', hstop⟩

namespace Parser

theorem splitExtras_append (passed : List Reading) :
    (splitExtras passed).1 ++ (splitExtras passed).2 = passed := by
  rw [splitExtras, List.span_eq_takeWhile_dropWhile]
  simp only []
  rw [← List.reverse_append, List.takeWhile_append_dropWhile, List.reverse_reverse]

theorem foldr_listBefore_forest (rs : List Reading) (after : List Node) :
    rs.foldr (fun r nodes => r.forest.listBefore id nodes) after =
      (rs.map (·.forest)).flatMap Forest.nodes ++ after := by
  rw [← Forest.foldr_listBefore, List.foldr_map]

/-- A whole text is one of the readings on a stack.  If it has a node, the nodes of the readings
before it and behind it go with the children of that node. -/
theorem wholeOf?_cases {passed : List Reading} {t : Reading} (h : wholeOf? passed = some t) :
    ∃ before whole after, passed = before ++ whole :: after ∧
      (t.forest = whole.forest ∨ ∃ n, whole.forest = .node n ∧ t.forest = .node { n with
        children := (before.map (·.forest)).flatMap Forest.nodes ++
          (n.children ++ (after.map (·.forest)).flatMap Forest.nodes) }) := by
  rw [wholeOf?, List.span_eq_takeWhile_dropWhile] at h
  have hpassed := List.takeWhile_append_dropWhile (p := (·.extra)) (l := passed)
  generalize passed.takeWhile (·.extra) = before at *
  generalize passed.dropWhile (·.extra) = rest at *
  cases rest with
  | nil => exact absurd h (by simp)
  | cons whole after =>
    obtain rfl := Option.some.inj h
    refine ⟨before, whole, after, hpassed.symm, ?_⟩
    cases hforest : whole.forest with
    | node n =>
      refine .inr ⟨n, rfl, ?_⟩
      simp only [foldr_listBefore_forest, List.append_nil]
    | empty => exact .inl rfl
    | join left right => exact .inl rfl
    | labelled label inner => exact .inl rfl

/-- The best reading of a construct is its reading over one of the ways. -/
theorem bestBranch?_mem {g : Compiled} {r : Reduction} {here : Cursor}
    {paths : List (List Reading)} {t : Reading} {extras : List Reading}
    (h : bestBranch? g r here paths = some (t, extras)) :
    ∃ passed ∈ paths, (splitExtras passed).2 = extras ∧
      Reading.branch? g r here (splitExtras passed).1 = some t := by
  -- from the last way to the first: either it gave the best reading, or those before it did
  induction paths using List.reverseRecOn generalizing t extras with
  | nil => exact absurd h (by simp [bestBranch?])
  | append_singleton paths passed ih =>
    rw [bestBranch?, List.foldl_append, ← bestBranch?] at h
    simp only [List.foldl_cons, List.foldl_nil] at h
    have hbefore : bestBranch? g r here paths = some (t, extras) → ∃ passed' ∈ paths ++ [passed],
        (splitExtras passed').2 = extras ∧
          Reading.branch? g r here (splitExtras passed').1 = some t := by
      intro hbest
      obtain ⟨passed', hmem, hp⟩ := ih hbest
      exact ⟨passed', List.mem_append_left _ hmem, hp⟩
    have hhere : ∀ {new : Reading}, Reading.branch? g r here (splitExtras passed).1 = some new →
        (new, (splitExtras passed).2) = (t, extras) → ∃ passed' ∈ paths ++ [passed],
          (splitExtras passed').2 = extras ∧
            Reading.branch? g r here (splitExtras passed').1 = some t := by
      intro new hnew heq
      obtain ⟨rfl, rfl⟩ := Prod.mk.inj heq
      exact ⟨passed, List.mem_append_right _ List.mem_cons_self, rfl, hnew⟩
    split at h
    · rename_i hnew
      exact hhere hnew (Option.some.inj h)
    · rename_i hold hnew
      split at h
      · exact hhere hnew (Option.some.inj h)
      · exact hbefore (hold.trans h)
    · exact hbefore h

/-! ## Ways by their end -/

theorem mem_insertPath {p : Stack.Path} {s : Slice} {found : List Slice}
    (h : s ∈ insertPath p found) {passed : List Reading} (hpassed : passed ∈ s.paths) :
    (p.vertex = s.base ∧ p.passed = passed) ∨
      ∃ s' ∈ found, s'.base = s.base ∧ passed ∈ s'.paths := by
  induction found with
  | nil =>
    obtain rfl := List.mem_singleton.1 h
    exact .inl ⟨rfl, (List.mem_singleton.1 hpassed).symm⟩
  | cons s' rest ih =>
    rw [insertPath] at h
    split at h
    · rename_i hbase
      rcases List.mem_cons.1 h with rfl | h
      · rcases List.mem_append.1 hpassed with hold | hnew
        · exact .inr ⟨s', List.mem_cons_self, rfl, hold⟩
        · exact .inl ⟨(beq_iff_eq.1 hbase).symm, (List.mem_singleton.1 hnew).symm⟩
      · exact .inr ⟨s, List.mem_cons_of_mem _ h, rfl, hpassed⟩
    · rcases List.mem_cons.1 h with rfl | h
      · exact .inr ⟨s, List.mem_cons_self, rfl, hpassed⟩
      · refine (ih h).imp_right fun ⟨s'', hmem, hs⟩ => ⟨s'', List.mem_cons_of_mem _ hmem, hs⟩

/-- What a slice holds are ways down to its vertex. -/
theorem mem_slices {paths : List Stack.Path} {s : Slice} (h : s ∈ slices paths)
    {passed : List Reading} (hpassed : passed ∈ s.paths) :
    ∃ p ∈ paths, p.vertex = s.base ∧ p.passed = passed := by
  induction paths using List.reverseRecOn generalizing s with
  | nil => exact absurd h (by simp [slices])
  | append_singleton paths p ih =>
    rw [slices, List.foldl_append, ← slices] at h
    rcases mem_insertPath h hpassed with hp | ⟨s', hs', hbase, hmem⟩
    · exact ⟨p, List.mem_append_right _ List.mem_cons_self, hp⟩
    · obtain ⟨q, hq, hvertex, hqpassed⟩ := ih hs' hmem
      exact ⟨q, List.mem_append_left _ hq, hvertex.trans hbase, hqpassed⟩

/-! ## States of the parser -/

/-- The reading of a whole text from a chain of readings. -/
def Whole (P : Reading → Prop) (t : Reading) : Prop :=
  ∃ c d passed, Chain P c passed d ∧ wholeOf? passed = some t

/-- The head of this number is at this place. -/
def HeadAt (p : Parser σ) (i : Nat) (c : Cursor) : Prop :=
  ∃ h, p.heads[i]? = some h ∧ p.stack.cursor? h.vertex = some c

/-- The stacks are sound, every head is somewhere, and what is finished is a whole text. -/
structure Sound (V : Cursor → Prop) (P : Reading → Prop) (p : Parser σ) : Prop where
  stack : p.stack.Sound V P
  heads : ∀ h ∈ p.heads, ∃ c, p.stack.cursor? h.vertex = some c
  finished : ∀ t, p.finished = some t → Whole P t

/-- The parser is changed into another sound one: no vertex moves, the heads stay in front, and new
heads are at the place `d`. -/
structure Grows (V : Cursor → Prop) (P : Reading → Prop) (d : Cursor) (p q : Parser σ) :
    Prop where
  sound : q.Sound V P
  cursors : ∀ {n c}, p.stack.cursor? n = some c → q.stack.cursor? n = some c
  heads : ∃ new, q.heads.toList = p.heads.toList ++ new ∧
    ∀ h ∈ new, q.stack.cursor? h.vertex = some d

theorem Grows.refl {d : Cursor} {p : Parser σ} (hp : p.Sound V P) : Grows V P d p p :=
  ⟨hp, id, [], by simp, fun _ h => absurd h List.not_mem_nil⟩

theorem Grows.trans {d : Cursor} {p q r : Parser σ} (h : Grows V P d p q)
    (h' : Grows V P d q r) : Grows V P d p r := by
  obtain ⟨new, hnew, hplace⟩ := h.heads
  obtain ⟨new', hnew', hplace'⟩ := h'.heads
  refine ⟨h'.sound, fun hc => h'.cursors (h.cursors hc), new ++ new', ?_, fun k hk => ?_⟩
  · rw [hnew', hnew, List.append_assoc]
  · rcases List.mem_append.1 hk with hk | hk
    · exact h'.cursors (hplace k hk)
    · exact hplace' k hk

/-- A head stays where it is. -/
theorem Grows.headAt {d c : Cursor} {p q : Parser σ} (h : Grows V P d p q) {i : Nat}
    (hi : HeadAt p i c) : HeadAt q i c := by
  obtain ⟨k, hk, hc⟩ := hi
  obtain ⟨new, hnew, -⟩ := h.heads
  refine ⟨k, ?_, h.cursors hc⟩
  rw [← Array.getElem?_toList] at hk ⊢
  rw [hnew, List.getElem?_append_left (List.getElem?_eq_some_iff.1 hk).1]
  exact hk

/-- A head that was not there before is at the place of the new ones. -/
theorem Grows.headAt_new {d : Cursor} {p q : Parser σ} (h : Grows V P d p q) {i : Nat}
    (hle : p.heads.size ≤ i) (hlt : i < q.heads.size) : HeadAt q i d := by
  obtain ⟨new, hnew, hplace⟩ := h.heads
  have hget : q.heads[i]? = some q.heads[i] := Array.getElem?_eq_getElem hlt
  refine ⟨q.heads[i], hget, hplace _ ?_⟩
  rw [← Array.getElem?_toList, hnew, List.getElem?_append_right (by simpa using hle)] at hget
  exact List.mem_of_getElem? hget

theorem HeadAt.topNumber {p : Parser σ} {i : Nat} {c : Cursor} (h : HeadAt p i c) :
    p.stack.cursor? (p.topNumber i) = some c := by
  obtain ⟨h, hh, hc⟩ := h
  rw [Parser.topNumber, hh]
  exact hc

theorem HeadAt.of_top? {p : Parser σ} {i : Nat} {v : Vertex σ} (h : p.top? i = some v) :
    HeadAt p i v.cursor := by
  rw [top?] at h
  split at h
  · rename_i k hk
    exact ⟨k, hk, by rw [Stack.cursor?, h, Option.map_some]⟩
  · exact absurd h (by simp)

theorem HeadAt.unique {p : Parser σ} {i : Nat} {c d : Cursor} (h : HeadAt p i c)
    (h' : HeadAt p i d) : c = d :=
  Option.some.inj (h.topNumber.symm.trans h'.topNumber)

/-! ## Putting readings on the stacks -/

/-- The stacks are replaced by sound ones on which no vertex has moved. -/
theorem Sound.grows {p : Parser σ} (hp : p.Sound V P) (d : Cursor) {s : Stack σ}
    (hs : s.Sound V P) (hcursors : ∀ {n c}, p.stack.cursor? n = some c → s.cursor? n = some c) :
    Grows V P d p { p with stack := s } := by
  refine ⟨⟨hs, fun h hh => ?_, hp.finished⟩, hcursors, [], ?_, fun _ h => absurd h List.not_mem_nil⟩
  · obtain ⟨c, hc⟩ := hp.heads h hh
    exact ⟨c, hcursors hc⟩
  · rw [List.append_nil]

theorem Sound.pushOn {p : Parser σ} (hp : p.Sound V P) (state : σ) {below : Nat} {b c : Cursor}
    {r : Reading} (hb : p.stack.cursor? below = some b) (hr : Fits P b r c) (hV : V c)
    (d : Cursor) :
    Grows V P d p (p.pushOn below r state).2 ∧
      (p.pushOn below r state).2.stack.cursor? (p.pushOn below r state).1 = some c := by
  obtain rfl := hr.stop_eq
  refine ⟨hp.grows d (hp.stack.push hb hr hV) Stack.cursor?_push_of_some, ?_⟩
  exact Stack.cursor?_push_new

theorem Sound.pushAll {l : Language σ} (hl : l.Keeps V T P) (state : σ) {rs : List Reading} :
    ∀ {p : Parser σ} {n : Nat} {c d : Cursor}, p.Sound V P → p.stack.cursor? n = some c →
      Chain P c rs d →
      Grows V P d p (rs.foldl (fun (n, p) r => p.pushOn n r state) (n, p)).2 ∧
        (rs.foldl (fun (n, p) r => p.pushOn n r state) (n, p)).2.stack.cursor?
          (rs.foldl (fun (n, p) r => p.pushOn n r state) (n, p)).1 = some d := by
  induction rs with
  | nil =>
    intro p n c d hp hn hchain
    cases hchain
    exact ⟨.refl hp, hn⟩
  | cons r rs ih =>
    intro p n c d hp hn hchain
    cases hchain with
    | @cons _ e _ _ _ hr hrest =>
      have hV : V e := hr.stop_eq ▸ hl.valid hr.good
      obtain ⟨hgrows, hcursor⟩ := hp.pushOn state hn hr hV d
      obtain ⟨hgrows', hcursor'⟩ := ih hgrows.sound hcursor hrest
      exact ⟨hgrows.trans hgrows', hcursor'⟩

theorem Sound.join [BEq σ] {l : Language σ} (hl : l.Keeps V T P) {p : Parser σ}
    (hp : p.Sound V P) {into n : Nat} {c : Cursor} (hinto : p.stack.cursor? into = some c)
    (hn : p.stack.cursor? n = some c) (d : Cursor) : Grows V P d p (p.join into n) := by
  have hext : Stack.Extends V P p.stack
      ((p.stack.links n).foldl (fun s l => s.addLink p.stack.vertices.size into l) p.stack) := by
    refine Stack.foldl_extends (n := into) hp.stack (fun k hk => ?_) fun ht hk =>
      Stack.addLink_sound hl.unique _ ht hk
    obtain ⟨b, c', hb, hc', hfits⟩ := hp.stack.fits hk
    rw [hn, Option.some_inj] at hc'
    exact ⟨b, c, hb, hinto, hc' ▸ hfits⟩
  exact hp.grows d hext.sound fun h => (hext.cursor_eq _).trans h

theorem Sound.addHead [BEq σ] {l : Language σ} (hl : l.Keeps V T P) {p : Parser σ}
    (hp : p.Sound V P) {n : Nat} {d : Cursor} (hn : p.stack.cursor? n = some d) (source : Nat) :
    Grows V P d p (p.addHead source n) := by
  rw [Parser.addHead]
  split
  · rename_i i hfind
    have hi := List.find?_some hfind
    rw [Bool.and_eq_true] at hi
    obtain ⟨-, hi⟩ := hi
    split at hi
    · rename_i h hh
      rw [Bool.and_eq_true] at hi
      obtain ⟨c, hc, hc'⟩ := Stack.agree_cursor hl.unique hp.stack hi.2
      have htop : p.topNumber i = h.vertex := by rw [topNumber, hh]
      exact hp.join hl (htop ▸ hc) hc' d
    · exact absurd hi (by simp)
  · refine ⟨⟨hp.stack, fun h hh => ?_, hp.finished⟩, id, [{ vertex := n }], by simp, fun h hh => ?_⟩
    · rcases Array.mem_push.1 hh with hh | rfl
      · exact hp.heads h hh
      · exact ⟨d, hn⟩
    · obtain rfl := List.mem_singleton.1 hh
      exact hn

/-! ## Reducing -/

/-- Reducing over ways that lead up to the place `d` makes heads at that place. -/
theorem Sound.reduceSlice [BEq σ] {l : Language σ} (hl : l.Keeps V T P) {p : Parser σ}
    (hp : p.Sound V P) {s : Slice} {d : Cursor}
    (hs : ∀ passed ∈ s.paths, ∃ c, p.stack.cursor? s.base = some c ∧ Chain P c passed d)
    (source : Nat) (r : Reduction) (limit : Nat) :
    Grows V P d p (reduceSlice l source r limit p s) := by
  rw [Parser.reduceSlice]
  split
  · exact .refl hp
  split
  · exact .refl hp
  rename_i base hbase
  have hb : p.stack.cursor? s.base = some base.cursor := by
    rw [Stack.cursor?, hbase, Option.map_some]
  split
  · rename_i reading extras next hbest hnext
    obtain ⟨passed, hmem, rfl, hbranch⟩ := bestBranch?_mem hbest
    obtain ⟨c, hc, hchain⟩ := hs passed hmem
    obtain rfl := Option.some.inj (hb.symm.trans hc)
    rw [← splitExtras_append passed] at hchain
    obtain ⟨m, hparts, hextras⟩ := hchain.split
    have hV : V base.cursor := hp.stack.valid hb
    have hfits := branch?_fits hparts hbranch (hl.branch hV hparts hbranch)
    have hVm : V m := hfits.stop_eq ▸ hl.valid hfits.good
    obtain ⟨hpush, hm⟩ := hp.pushOn next hb hfits hVm d
    obtain ⟨hall, hd⟩ := hpush.sound.pushAll hl next hm hextras
    exact (hpush.trans hall).trans (hall.sound.addHead hl hd source)
  · exact .refl hp

theorem Sound.reduce [BEq σ] {l : Language σ} (hl : l.Keeps V T P) {p : Parser σ}
    (hp : p.Sound V P) {head : Nat} {d : Cursor} (hd : HeadAt p head d) (r : Reduction) :
    Grows V P d p (p.reduce l head r) := by
  rw [Parser.reduce]
  have hslices : ∀ s ∈ slices (p.stack.pop (p.topNumber head) (some r.labels.length)),
      ∀ passed ∈ s.paths, ∃ c, p.stack.cursor? s.base = some c ∧ Chain P c passed d := by
    intro s hs passed hpassed
    obtain ⟨path, hpath, hbase, rfl⟩ := mem_slices hs hpassed
    exact hbase ▸ Stack.pop_chain hp.stack hd.topNumber hpath
  -- the ways were found before the first slice is reduced, and stay what they are
  generalize slices (p.stack.pop (p.topNumber head) (some r.labels.length)) = ss at hslices
  generalize headLimit + headOverflow + (p.heads.filter (·.status == .done)).size = limit
  induction ss generalizing p with
  | nil => exact .refl hp
  | cons s ss ih =>
    have hstep := hp.reduceSlice hl (hslices s List.mem_cons_self) head r limit
    refine hstep.trans (ih hstep.sound (hstep.headAt hd) fun s' hs' passed hpassed => ?_)
    obtain ⟨c, hc, hchain⟩ := hslices s' (List.mem_cons_of_mem _ hs') passed hpassed
    exact ⟨c, hstep.cursors hc, hchain⟩

/-- Doing all reductions makes heads at the place of the head they are done for, and the head that
the last of them made first is one of these. -/
theorem Sound.reduceAll [BEq σ] {l : Language σ} (hl : l.Keeps V T P) {head : Nat} {d : Cursor}
    (actions : List (Action σ)) : ∀ {p : Parser σ} (last : Option Nat), p.Sound V P →
      HeadAt p head d → (∀ k, last = some k → head < k ∧ HeadAt p k d) →
      Grows V P d p (reduceAll l head actions last p).2 ∧
        ∀ k, (reduceAll l head actions last p).1 = some k →
          head < k ∧ HeadAt (reduceAll l head actions last p).2 k d := by
  induction actions with
  | nil => intro p last hp _ hlast; exact ⟨.refl hp, hlast⟩
  | cons a actions ih =>
    intro p last hp hd hlast
    cases a with
    | shift next => exact ih last hp hd hlast
    | accept => exact ih last hp hd hlast
    | reduce r =>
      have hstep := hp.reduce hl hd r
      have hhead : head < p.heads.size := by
        obtain ⟨h, hh, -⟩ := hd
        exact (Array.getElem?_eq_some_iff.1 hh).1
      obtain ⟨hgrows, hlast'⟩ := ih (if p.heads.size < (p.reduce l head r).heads.size
        then some p.heads.size else last) hstep.sound (hstep.headAt hd) (by
          intro k hk
          split at hk
          · rename_i hlt
            obtain rfl := Option.some.inj hk
            exact ⟨hhead, hstep.headAt_new (Nat.le_refl _) hlt⟩
          · obtain ⟨hlt, hat⟩ := hlast k hk
            exact ⟨hlt, hstep.headAt hat⟩)
      exact ⟨hstep.trans hgrows, hlast'⟩

/-! ## Taking a token -/

/-- Changing a head is sound if it is somewhere afterwards. -/
theorem Sound.modifyHead {p : Parser σ} (hp : p.Sound V P) {head : Nat} {f : Head → Head}
    (hf : ∀ h, p.heads[head]? = some h → ∃ c, p.stack.cursor? (f h).vertex = some c) :
    Sound V P { p with heads := p.heads.modify head f } := by
  refine ⟨hp.stack, fun h hh => ?_, hp.finished⟩
  obtain ⟨i, hi⟩ := Array.mem_iff_getElem?.1 hh
  rw [Array.getElem?_modify] at hi
  split at hi
  · rename_i heq
    subst heq
    obtain ⟨k, hk, rfl⟩ := Option.map_eq_some_iff.1 hi
    exact hf k hk
  · exact hp.heads h (Array.mem_of_getElem? hi)

theorem Sound.mark {p : Parser σ} (hp : p.Sound V P) (head : Nat) (status : Status) :
    (p.mark head status).Sound V P :=
  hp.modifyHead fun h hh => hp.heads h (Array.mem_of_getElem? hh)

theorem Sound.push {p : Parser σ} (hp : p.Sound V P) {head : Nat} {c d : Cursor} {r : Reading}
    {state : σ} (hhead : HeadAt p head c) (hr : Fits P c r d) (hV : V d) :
    (p.push head r state).Sound V P := by
  obtain ⟨hgrows, hcursor⟩ := hp.pushOn state hhead.topNumber hr hV d
  exact hgrows.sound.modifyHead fun _ _ => ⟨d, hcursor⟩

theorem Sound.moveHead {p : Parser σ} (hp : p.Sound V P) {last head : Nat} {d : Cursor}
    (hlt : head < last) (hlast : HeadAt p last d) :
    (p.moveHead last head).Sound V P ∧ HeadAt (p.moveHead last head) head d := by
  obtain ⟨h, hh, hd⟩ := hlast
  have hsize : last < p.heads.size := (Array.getElem?_eq_some_iff.1 hh).1
  have hmove : p.moveHead last head =
      { p with heads := (p.heads.set! head h).eraseIdxIfInBounds last } := by
    rw [Parser.moveHead, hh]
  rw [hmove]
  refine ⟨⟨hp.stack, fun k hk => ?_, hp.finished⟩, h, ?_, hd⟩
  · have hmem : k ∈ p.heads.toList.set head h := by
      have := Array.mem_toList_iff.2 hk
      simp only [Array.eraseIdxIfInBounds] at this
      split at this
      · simp only [Array.toList_eraseIdx, Array.set!_eq_setIfInBounds,
          Array.toList_setIfInBounds] at this
        exact List.mem_of_mem_eraseIdx this
      · simpa using this
    rcases List.mem_or_eq_of_mem_set hmem with hold | rfl
    · exact hp.heads k (Array.mem_toList_iff.1 hold)
    · exact ⟨d, hd⟩
  · simp only [Array.eraseIdxIfInBounds]
    rw [dif_pos (by simpa using hsize), ← Array.getElem?_toList, Array.toList_eraseIdx,
      List.getElem?_eraseIdx_of_lt hlt]
    simp [Nat.lt_trans hlt hsize]

/-- Whatever is kept as the reading of the whole text is one. -/
theorem Sound.accept {p : Parser σ} (hp : p.Sound V P) {head : Nat} {d : Cursor}
    (hd : HeadAt p head d) : (p.accept head).Sound V P := by
  rw [Parser.accept]
  apply Sound.mark
  refine ⟨hp.stack, hp.heads, ?_⟩
  have hpaths : ∀ path ∈ p.stack.pop (p.topNumber head) none, ∀ t,
      wholeOf? path.passed = some t → Whole P t := by
    intro path hpath t ht
    obtain ⟨c, -, hchain⟩ := Stack.pop_chain hp.stack hd.topNumber hpath
    exact ⟨c, d, path.passed, hchain, ht⟩
  have hfinished := hp.finished
  simp only []
  generalize p.stack.pop (p.topNumber head) none = paths at hpaths
  generalize p.finished = best at hfinished
  induction paths generalizing best with
  | nil => exact hfinished
  | cons path paths ih =>
    rw [List.foldl_cons]
    refine ih (fun q hq => hpaths q (List.mem_cons_of_mem _ hq)) _ fun t ht => ?_
    have hpath := hpaths path List.mem_cons_self
    split at ht
    · exact hpath t ht
    · rename_i old new hnew
      obtain rfl := Option.some.inj ht
      rw [Reading.better]
      split
      · exact hpath new hnew
      · exact hfinished old rfl
    · exact hfinished t ht

theorem Sound.take [BEq σ] {l : Language σ} (hl : l.Keeps V T P) {head : Nat} {c : Cursor}
    (fuel : Nat) : ∀ {token : Token} {p : Parser σ}, p.Sound V P → HeadAt p head c → V c →
      T c token → (p.take l head fuel token).Sound V P := by
  induction fuel with
  | zero => intro token p hp _ _ _; exact hp.mark head .stuck
  | succ fuel ih =>
    intro token p hp hc hV htoken
    rw [Parser.take]
    split
    · exact hp
    rename_i top htop
    obtain rfl := hc.unique (.of_top? htop)
    have hleaf := hl.leaf hV htoken
    have hstop : V token.stop := hleaf.stop_eq ▸ hl.valid hleaf.good
    split
    · exact hp.push hc hleaf hstop
    obtain ⟨hgrows, hlast⟩ := hp.reduceAll hl (l.automaton.actions top.state token.symbol)
      none hc (fun k hk => absurd hk (by simp))
    have hc' := hgrows.headAt hc
    simp only []
    split
    · exact hgrows.sound.push hc' hleaf hstop
    · exact hgrows.sound.accept hc'
    · rename_i last _ hk
      obtain ⟨hlt, hat⟩ := hlast last hk
      obtain ⟨hmoved, hat'⟩ := hgrows.sound.moveHead hlt hat
      exact ih hmoved hat' hV htoken
    · exact hgrows.sound.mark head .done
    · split
      · rename_i symbol hother
        exact ih hgrows.sound hc' hV (hl.otherwise htoken hother)
      · exact hgrows.sound.mark head .stuck

theorem Sound.advance [BEq σ] {l : Language σ} (hl : l.Keeps V T P) {p : Parser σ}
    (hp : p.Sound V P) (fuel head : Nat) : (p.advance l fuel head).Sound V P := by
  rw [Parser.advance]
  split
  · exact hp
  rename_i top htop
  have hhead : HeadAt p head top.cursor := .of_top? htop
  have hV : V top.cursor := hp.stack.valid hhead.topNumber
  simp only []
  split
  · exact hp.mark head .stuck
  · rename_i token htoken
    exact hp.take hl fuel hhead hV (hl.token hV htoken)

/-! ## Rounds -/

theorem Sound.sweep [BEq σ] {l : Language σ} (hl : l.Keeps V T P) (size fuel : Nat) :
    ∀ {head last : Nat} {p : Parser σ}, p.Sound V P →
      (Parser.sweep l size fuel head last p).2.Sound V P := by
  induction fuel with
  | zero => intro head last p hp; exact hp
  | succ fuel ih =>
    intro head last p hp
    rw [Parser.sweep]
    split
    · exact hp
    split
    · exact ih hp
    have hadvance := hp.advance hl size head
    simp only []
    split
    · exact ih hadvance
    · exact ih hadvance

/-- A sound parser, and heads that are somewhere on its stacks. -/
structure Settled (V : Cursor → Prop) (P : Reading → Prop) (heads : List Head) (p : Parser σ) :
    Prop where
  sound : p.Sound V P
  heads : ∀ h ∈ heads, ∃ c, p.stack.cursor? h.vertex = some c

theorem Settled.subset {heads heads' : List Head} {p : Parser σ} (h : Settled V P heads p)
    (hsub : ∀ k ∈ heads', k ∈ heads) : Settled V P heads' p :=
  ⟨h.sound, fun k hk => h.heads k (hsub k hk)⟩

/-- Heads in order, with those that are still to be settled, stay somewhere when one more is let in
among them. -/
theorem Settled.settleAmong [BEq σ] {l : Language σ} (hl : l.Keeps V T P) {weight : Int}
    {others ahead : List Head} : ∀ {done : List Head} {h : Head} {p : Parser σ},
      Settled V P (h :: (done ++ ahead ++ others)) p →
      Settled V P ((Parser.settleAmong weight ahead done h p).1 ++ others)
        (Parser.settleAmong weight ahead done h p).2 := by
  induction ahead with
  | nil =>
    intro done h p hp
    refine hp.subset fun k hk => ?_
    simpa [Parser.settleAmong, or_comm, or_left_comm, or_assoc] using hk
  | cons other ahead ih =>
    intro done h p hp
    rw [Parser.settleAmong]
    split
    · rename_i hagree
      obtain ⟨c, hc, hc'⟩ := Stack.agree_cursor hl.unique hp.sound.stack hagree
      have hjoin := hp.sound.join hl hc hc' c
      refine ⟨hjoin.sound, fun k hk => ?_⟩
      obtain ⟨d, hd⟩ := hp.heads k (List.mem_cons_of_mem _ (by simpa using hk))
      exact ⟨d, hjoin.cursors hd⟩
    · -- one of the two heads stays here and the other one goes on
      split
      · refine ih (hp.subset fun k hk => ?_)
        simpa [or_comm, or_left_comm, or_assoc] using hk
      · refine ih (hp.subset fun k hk => ?_)
        simpa [or_comm, or_left_comm, or_assoc] using hk

theorem Sound.condense [BEq σ] {l : Language σ} (hl : l.Keeps V T P) {p : Parser σ}
    (hp : p.Sound V P) : p.condense.Sound V P := by
  have hfold : ∀ {active heads : List Head} {p : Parser σ}, Settled V P (heads ++ active) p →
      Settled V P
        (active.foldl
          (fun s h => Parser.settleAmong (s.2.stack.weight h.vertex) s.1 [] h s.2) (heads, p)).1
        (active.foldl
          (fun s h => Parser.settleAmong (s.2.stack.weight h.vertex) s.1 [] h s.2)
          (heads, p)).2 := by
    intro active
    induction active with
    | nil => intro heads p h; rwa [List.append_nil] at h
    | cons k active ih =>
      intro heads p h
      refine ih (Settled.settleAmong hl (h.subset fun h' hh' => ?_))
      simpa [or_left_comm] using hh'
  have hstart : Settled V P ([] ++ p.heads.toList.filter (·.status == .active))
      { p with heads := #[] } := by
    refine ⟨⟨hp.stack, fun _ h => absurd h (by simp), hp.finished⟩, fun h hh => ?_⟩
    rw [List.nil_append] at hh
    exact hp.heads h (Array.mem_toList_iff.1 (List.mem_filter.1 hh).1)
  have hend := hfold hstart
  rw [Parser.condense]
  refine ⟨hend.sound.stack, fun h hh => hend.heads h ?_, hend.sound.finished⟩
  exact List.mem_of_mem_take (List.mem_toArray.1 hh)

theorem Sound.run [BEq σ] {l : Language σ} (hl : l.Keeps V T P) (size fuel : Nat) :
    ∀ {last : Nat} {p : Parser σ} {t : Reading}, p.Sound V P →
      Parser.run l size fuel last p = some t → Whole P t := by
  induction fuel with
  | zero => intro last p t _ ht; exact absurd ht (by simp [Parser.run])
  | succ fuel ih =>
    intro last p t hp ht
    rw [Parser.run] at ht
    have hround : ((p.sweep l size size 0 last).2.condense).Sound V P :=
      (hp.sweep hl size size).condense hl
    simp only [] at ht
    split at ht
    · exact hround.finished t ht
    · exact ih hround ht

end Parser

/-- **The reading of a text is put together from consecutive readings**, each of them satisfying
what tokens satisfy and constructs inherit from their parts. -/
theorem Language.parse?_chain [BEq σ] {l : Language σ} (hl : l.Keeps V T P) {text : Cursor}
    (htext : V text) {t : Reading} (ht : l.parse? text = some t) :
    ∃ c d passed, Chain P c passed d ∧ Parser.wholeOf? passed = some t := by
  refine Parser.Sound.run hl _ _ ⟨⟨fun {n c} h => ?_, fun {n k} hk => ?_⟩, ?_, ?_⟩ ht
  · rw [Stack.cursor?, Stack.vertex?, List.getElem?_toArray] at h
    cases n with
    | zero => exact Option.some.inj h ▸ htext
    | succ n => exact absurd h (by simp)
  · obtain ⟨v, hv, hmem⟩ := Stack.mem_links_iff.1 hk
    rw [Stack.vertex?, List.getElem?_toArray] at hv
    cases n with
    | zero => obtain rfl := Option.some.inj hv; exact absurd hmem List.not_mem_nil
    | succ n => exact absurd hv (by simp)
  · intro h hh
    obtain rfl := List.mem_singleton.1 (List.mem_toArray.1 hh)
    exact ⟨text, rfl⟩
  · intro t h
    exact absurd h (by simp)

end GoGlobals.Grammar
