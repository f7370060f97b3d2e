import GoGlobals.Grammar.Parser
import GoGlobals.Proofs.Grammar.Reading
import Mathlib.Data.List.Forall2
import Mathlib.Data.List.TakeDrop

/-!
# Single stacks

The stacks of a parser share their parts, and reducing and joining work on the graph that they form
together.  As long as no two stacks are joined, though, each of them is a stack by itself, and what
the parser does can be told stack by stack.

A `Thread` is a stack without branches, and `Parser.Shows` says that the heads of a parser are the
tops of such stacks.  What a stack does with a token is then told by rules: it reduces what is on
top (`Reduces`) until it can shift, and where two things can be done, stacks branch off (`Takes`).
`Parser.Shows.take` says that the parser follows these rules, with a lemma for what the parser does
under each of them.
-/

set_option autoImplicit false

namespace GoGlobals.Grammar

open Text (Cursor)

/-! ## Single stacks -/

/-- A stack without branches. -/
inductive Thread (σ : Type) where
  | bottom (state : σ) (cursor : Cursor)
  | push (below : Thread σ) (reading : Reading) (state : σ)

namespace Thread

variable {σ : Type}

/-- The state on top. -/
def state : Thread σ → σ
  | bottom state _ => state
  | push _ _ state => state

/-- The place that has been reached. -/
def cursor : Thread σ → Cursor
  | bottom _ cursor => cursor
  | push _ reading _ => reading.stop

/-- What the readings weigh together. -/
def weight : Thread σ → Int
  | bottom _ _ => 0
  | push below reading _ => below.weight + reading.weight

/-- The number of readings. -/
def depth : Thread σ → Nat
  | bottom _ _ => 0
  | push below _ _ => below.depth + 1

/-- The readings on top, in front of others, and the stack below them. -/
def pop? : Thread σ → (count : Nat) → (passed : List Reading) → Option (List Reading × Thread σ)
  | t, 0, passed => some (passed, t)
  | bottom _ _, _ + 1, _ => none
  | push below reading _, count + 1, passed => below.pop? count (reading :: passed)

/-- All readings, in front of others. -/
def readings : Thread σ → (passed : List Reading) → List Reading
  | bottom _ _, passed => passed
  | push below reading _, passed => below.readings (reading :: passed)

theorem append_of_pop? {t base : Thread σ} {count : Nat} {passed parts : List Reading}
    (h : t.pop? count passed = some (parts, base)) : ∃ top, parts = top ++ passed := by
  induction t generalizing count passed with
  | bottom state cursor =>
    cases count with
    | zero =>
      rw [pop?, Option.some_inj, Prod.mk.injEq] at h
      exact ⟨[], h.1.symm⟩
    | succ count => simp [pop?] at h
  | push below reading state ih =>
    cases count with
    | zero =>
      rw [pop?, Option.some_inj, Prod.mk.injEq] at h
      exact ⟨[], h.1.symm⟩
    | succ count =>
      obtain ⟨top, rfl⟩ := ih h
      exact ⟨top ++ [reading], by simp⟩

theorem le_depth_of_pop? {t base : Thread σ} {count : Nat} {passed parts : List Reading}
    (h : t.pop? count passed = some (parts, base)) : count ≤ t.depth := by
  induction t generalizing count passed with
  | bottom state cursor =>
    cases count with
    | zero => exact Nat.zero_le _
    | succ count => simp [pop?] at h
  | push below reading state ih =>
    cases count with
    | zero => exact Nat.zero_le _
    | succ count => exact Nat.succ_le_succ (ih h)

/-- Two stacks that will not be joined: they are at different places, or in different states. -/
def Apart (s t : Thread σ) : Prop :=
  s.state ≠ t.state ∨ s.cursor.offset ≠ t.cursor.offset

end Thread

namespace Stack

variable {σ : Type}

/-- The second stack has more vertices. -/
def Grows (s t : Stack σ) : Prop :=
  ∀ n v, s.vertex? n = some v → t.vertex? n = some v

theorem vertex?_lt {s : Stack σ} {n : Nat} {v : Vertex σ} (h : s.vertex? n = some v) :
    n < s.vertices.size :=
  (Array.getElem?_eq_some_iff.1 h).1

theorem grows_push (s : Stack σ) (below : Nat) (r : Reading) (state : σ) :
    s.Grows (s.push below r state).2 := by
  intro n v hv
  rw [push, vertex?, Array.getElem?_push_lt (vertex?_lt hv), ← Array.getElem?_eq_getElem]
  exact hv

/-- The vertex is the top of a stack without branches. -/
inductive Holds (s : Stack σ) : (top : Nat) → Thread σ → Prop
  | bottom {n : Nat} {state : σ} {cursor : Cursor}
      (h : s.vertex? n = some { state, cursor }) : Holds s n (.bottom state cursor)
  | push {n below : Nat} {t : Thread σ} {reading : Reading} {state : σ} (hbelow : Holds s below t)
      (hlt : below < n)
      (h : s.vertex? n = some
        { state
          cursor := reading.stop
          links := [⟨below, reading⟩]
          weight := t.weight + reading.weight }) : Holds s n (t.push reading state)

variable {s : Stack σ} {n : Nat} {t : Thread σ}

theorem Holds.vertex? (h : s.Holds n t) :
    ∃ v, s.vertex? n = some v ∧ v.state = t.state ∧ v.cursor = t.cursor ∧ v.weight = t.weight := by
  cases h with
  | bottom h => exact ⟨_, h, rfl, rfl, rfl⟩
  | push _ _ h => exact ⟨_, h, rfl, rfl, rfl⟩

theorem Holds.weight (h : s.Holds n t) : s.weight n = t.weight := by
  obtain ⟨v, hv, -, -, hweight⟩ := h.vertex?
  rw [Stack.weight, hv]
  exact hweight

theorem Holds.lt (h : s.Holds n t) : n < s.vertices.size := by
  obtain ⟨v, hv, -⟩ := h.vertex?
  exact vertex?_lt hv

theorem Holds.depth_le (h : s.Holds n t) : t.depth ≤ n := by
  induction h with
  | bottom h => exact Nat.zero_le _
  | push _ hlt _ ih => exact Nat.lt_of_le_of_lt ih hlt

theorem Holds.mono (h : s.Holds n t) {s' : Stack σ} (hgrows : s.Grows s') : s'.Holds n t := by
  induction h with
  | bottom h => exact .bottom (hgrows _ _ h)
  | push _ hlt h ih => exact .push ih hlt (hgrows _ _ h)

theorem Holds.pushed (h : s.Holds n t) (r : Reading) (state : σ) :
    (s.push n r state).2.Holds s.vertices.size (t.push r state) := by
  refine .push (h.mono (s.grows_push n r state)) h.lt ?_
  rw [Stack.push, Stack.vertex?, Array.getElem?_push_size, weightOver, h.weight]

/-- Tops of single stacks agree only if the stacks are not apart. -/
theorem Holds.agree_eq_false [BEq σ] [LawfulBEq σ] (h : s.Holds n t) {m : Nat} {u : Thread σ}
    (h' : s.Holds m u) (hapart : t.Apart u) : s.agree n m = false := by
  obtain ⟨v, hv, hstate, hcursor, -⟩ := h.vertex?
  obtain ⟨w, hw, hstate', hcursor', -⟩ := h'.vertex?
  rw [agree, hv, hw]
  simp only [hstate, hstate', hcursor, hcursor', Bool.and_eq_false_iff, beq_eq_false_iff_ne]
  exact hapart

/-! ### Taking readings off -/

theorem follow_nil (fuel : Nat) (found : List Path) : follow s fuel [] found = found.reverse := by
  cases fuel with
  | zero => rfl
  | succ fuel => rfl

/-- A way that has passed enough readings has come to its end. -/
theorem follow_found {p : Path} (h : p.left = some 0) (fuel : Nat) :
    follow s (fuel + 1) [p] [] = [p] := by
  simp [follow, Frontier.advance, h, follow_nil]

/-- A way goes on over the only link. -/
theorem follow_link {p : Path} (hleft : p.left ≠ some 0) {link : Link}
    (hlinks : s.links p.vertex = [link]) (fuel : Nat) :
    follow s (fuel + 1) [p] [] = follow s fuel [p.follow link] [] := by
  simp [follow, Frontier.advance, hleft, hlinks]

/-- There is one way down a single stack. -/
theorem Holds.follow_eq (h : s.Holds n t) {count : Nat} {passed parts : List Reading}
    {base : Thread σ} (hpop : t.pop? count passed = some (parts, base))
    (hextra : ∀ r ∈ parts, r.extra = false) {fuel : Nat} (hfuel : count < fuel) :
    ∃ m, s.Holds m base ∧
      follow s fuel [{ vertex := n, passed, left := some count }] [] =
        [{ vertex := m, passed := parts, left := some 0 }] := by
  obtain ⟨fuel, rfl⟩ : ∃ k, fuel = k + 1 := ⟨fuel - 1, by omega⟩
  induction h generalizing count passed fuel with
  | bottom h =>
    cases count with
    | zero =>
      obtain ⟨rfl, rfl⟩ : passed = parts ∧ Thread.bottom _ _ = base := by
        simpa [Thread.pop?] using hpop
      exact ⟨_, .bottom h, follow_found rfl fuel⟩
    | succ count => simp [Thread.pop?] at hpop
  | @push n below t reading state hbelow hlt h ih =>
    cases count with
    | zero =>
      obtain ⟨rfl, rfl⟩ : passed = parts ∧ Thread.push t reading state = base := by
        simpa [Thread.pop?] using hpop
      exact ⟨_, .push hbelow hlt h, follow_found rfl fuel⟩
    | succ count =>
      rw [Thread.pop?] at hpop
      obtain ⟨fuel, rfl⟩ : ∃ k, fuel = k + 1 := ⟨fuel - 1, by omega⟩
      have hlinks : s.links n = [⟨below, reading⟩] := by rw [Stack.links, h]
      rw [follow_link (by simp) hlinks]
      have hreading : reading.extra = false :=
        hextra reading (by obtain ⟨top, rfl⟩ := Thread.append_of_pop? hpop; simp)
      simpa [Path.follow, hreading] using ih hpop fuel (by omega)

/-- There is one way down to the bottom of a single stack. -/
theorem Holds.follow_all (h : s.Holds n t) {passed : List Reading} {fuel : Nat}
    (hfuel : t.depth < fuel) :
    ∃ m, follow s fuel [{ vertex := n, passed, left := none }] [] =
      [{ vertex := m, passed := t.readings passed, left := none }] := by
  obtain ⟨fuel, rfl⟩ : ∃ k, fuel = k + 1 := ⟨fuel - 1, by omega⟩
  induction h generalizing passed fuel with
  | @bottom n state cursor h =>
    have hlinks : s.links n = [] := by rw [Stack.links, h]
    refine ⟨n, ?_⟩
    simp [follow, Frontier.advance, hlinks, follow_nil, Thread.readings]
  | @push n below t reading state hbelow hlt h ih =>
    rw [Thread.depth] at hfuel
    obtain ⟨fuel, rfl⟩ : ∃ k, fuel = k + 1 := ⟨fuel - 1, by omega⟩
    have hlinks : s.links n = [⟨below, reading⟩] := by rw [Stack.links, h]
    rw [follow_link (by simp) hlinks, Thread.readings]
    simpa [Path.follow] using ih fuel (by omega)

theorem Holds.pop_eq (h : s.Holds n t) {count : Nat} {parts : List Reading} {base : Thread σ}
    (hpop : t.pop? count [] = some (parts, base)) (hextra : ∀ r ∈ parts, r.extra = false) :
    ∃ m, s.Holds m base ∧
      s.pop n (some count) = [{ vertex := m, passed := parts, left := some 0 }] := by
  refine h.follow_eq hpop hextra ?_
  have h1 := Thread.le_depth_of_pop? hpop
  have h2 := h.depth_le
  have h3 := h.lt
  omega

theorem Holds.pop_all (h : s.Holds n t) :
    ∃ m, s.pop n none = [{ vertex := m, passed := t.readings [], left := none }] := by
  refine h.follow_all ?_
  have h2 := h.depth_le
  have h3 := h.lt
  omega

end Stack

/-! ## What a single stack does with a token -/

variable {σ : Type}

/-- Reducing the readings on top of a single stack. -/
inductive Reduces (l : Language σ) (r : Reduction) : Thread σ → Thread σ → Prop
  | intro {t base : Thread σ} {parts : List Reading} {reading : Reading} {next : σ}
      (hpop : t.pop? r.labels.length [] = some (parts, base)) (hne : parts ≠ [])
      (hextra : ∀ p ∈ parts, p.extra = false)
      (hbranch : Reading.branch? l.grammar r base.cursor parts = some reading)
      (hgoto : l.automaton.goto? base.state (r.head - l.grammar.terminals) = some next) :
      Reduces l r t (base.push reading next)

/-- Reducing a stack, in at most `steps` steps, as long as it can do nothing else with a token. -/
inductive Closes (l : Language σ) (symbol : Nat) : (steps : Nat) → Thread σ → Thread σ → Prop
  | refl {steps : Nat} {t : Thread σ} : Closes l symbol steps t t
  | step {steps : Nat} {t u v : Thread σ} {r : Reduction}
      (h : l.automaton.actions t.state symbol = [.reduce r]) (hreduces : Reduces l r t u)
      (hrest : Closes l symbol steps u v) : Closes l symbol (steps + 1) t v

namespace Closes

variable {l : Language σ} {symbol m n : Nat} {t u v : Thread σ}

theorem mono (h : Closes l symbol m t u) (hle : m ≤ n) : Closes l symbol n t u := by
  induction h generalizing n with
  | refl => exact .refl
  | step h hreduces _ ih =>
    obtain ⟨n, rfl⟩ : ∃ k, n = k + 1 := ⟨n - 1, by omega⟩
    exact .step h hreduces (ih (by omega))

theorem trans (h : Closes l symbol m t u) (h' : Closes l symbol n u v) :
    Closes l symbol (m + n) t v := by
  induction h with
  | refl => exact h'.mono (Nat.le_add_left _ _)
  | @step m t u w r h hreduces _ ih =>
    rw [Nat.add_right_comm]
    exact .step h hreduces (ih h')

end Closes

/-- Which tokens a state expects. -/
def Language.expects (l : Language σ) (state : σ) (token : Nat) : Bool :=
  match (l.automaton.row state).actions[token]? with
  | some cell => !cell.isEmpty
  | none => false

theorem Language.expects_eq (l : Language σ) (state : σ) (token : Nat) :
    l.expects state token = !(l.automaton.actions state token).isEmpty := by
  rw [Language.expects, Automaton.actions]
  cases (l.automaton.row state).actions[token]? with
  | none => rfl
  | some cell => rfl

/-- A stack with a token on top. -/
def Thread.shift (l : Language σ) (t : Thread σ) (token : Token) (next : σ) : Thread σ :=
  t.push (.leaf l.grammar t.cursor.offset token) next

/-- What becomes of a stack that takes a token in at most `steps` steps, and the stacks that branch
off from it on the way.  No new stack may be joined with one of the others. -/
inductive Takes (l : Language σ) (token : Token) :
    (steps : Nat) → (others : List (Thread σ)) → Thread σ → Status × Thread σ → List (Thread σ) →
      Prop
  | shift {steps : Nat} {others : List (Thread σ)} {t : Thread σ} {next : σ}
      (h : l.automaton.actions t.state token.symbol = [.shift next]) :
      Takes l token (steps + 1) others t (.active, t.shift l token next) []
  | stuck {steps : Nat} {others : List (Thread σ)} {t : Thread σ}
      (h : l.automaton.actions t.state token.symbol = []) (hother : token.otherwise = none) :
      Takes l token (steps + 1) others t (.stuck, t) []
  | reduce {steps : Nat} {others : List (Thread σ)} {t t' : Thread σ} {r : Reduction}
      {out : Status × Thread σ} {branches : List (Thread σ)}
      (h : l.automaton.actions t.state token.symbol = [.reduce r]) (hreduces : Reduces l r t t')
      (hapart : ∀ u ∈ others, u.Apart t') (hrest : Takes l token steps others t' out branches) :
      Takes l token (steps + 1) others t out branches
  | reduceShift {steps : Nat} {others : List (Thread σ)} {t t' : Thread σ} {r : Reduction}
      {next : σ} (h : l.automaton.actions t.state token.symbol = [.reduce r, .shift next])
      (hreduces : Reduces l r t t') (hapart : ∀ u ∈ others, u.Apart t') :
      Takes l token (steps + 1) others t (.active, t.shift l token next) [t']
  | reduceReduce {steps : Nat} {others : List (Thread σ)} {t t₁ t₂ : Thread σ} {r q : Reduction}
      {out : Status × Thread σ} {branches : List (Thread σ)}
      (h : l.automaton.actions t.state token.symbol = [.reduce r, .reduce q])
      (hr : Reduces l r t t₁) (hq : Reduces l q t t₂) (hapart : ∀ u ∈ others, u.Apart t₁)
      (hapart' : ∀ u ∈ others ++ [t₁], u.Apart t₂)
      (hrest : Takes l token steps (others ++ [t₁]) t₂ out branches) :
      Takes l token (steps + 1) others t out (t₁ :: branches)

namespace Takes

variable {l : Language σ} {token : Token} {m n : Nat} {t u : Thread σ}

theorem mono {others branches : List (Thread σ)} {out : Status × Thread σ}
    (h : Takes l token m others t out branches) (hle : m ≤ n) :
    Takes l token n others t out branches := by
  induction h generalizing n with
  | shift h =>
    obtain ⟨n, rfl⟩ : ∃ k, n = k + 1 := ⟨n - 1, by omega⟩
    exact .shift h
  | stuck h hother =>
    obtain ⟨n, rfl⟩ : ∃ k, n = k + 1 := ⟨n - 1, by omega⟩
    exact .stuck h hother
  | @reduce steps others u u' r out branches h hreduces hapart _ ih =>
    obtain ⟨n, rfl⟩ : ∃ k, n = k + 1 := ⟨n - 1, by omega⟩
    exact .reduce h hreduces hapart (ih (by omega))
  | reduceShift h hreduces hapart =>
    obtain ⟨n, rfl⟩ : ∃ k, n = k + 1 := ⟨n - 1, by omega⟩
    exact .reduceShift h hreduces hapart
  | reduceReduce h hr hq hapart hapart' _ ih =>
    obtain ⟨n, rfl⟩ : ∃ k, n = k + 1 := ⟨n - 1, by omega⟩
    exact .reduceReduce h hr hq hapart hapart' (ih (by omega))

/-- A stack that is alone reduces first. -/
theorem of_closes {out : Status × Thread σ} {branches : List (Thread σ)}
    (h : Closes l token.symbol m t u) (h' : Takes l token n [] u out branches) :
    Takes l token (m + n) [] t out branches := by
  induction h with
  | refl => exact h'.mono (Nat.le_add_left _ _)
  | step h hreduces _ ih =>
    rw [Nat.add_right_comm]
    exact .reduce h hreduces (by simp) (ih h')

end Takes

namespace Parser

/-- A head that stands like this is the top of this single stack. -/
def Tops (stack : Stack σ) (h : Head) (t : Status × Thread σ) : Prop :=
  h.status = t.1 ∧ stack.Holds h.vertex t.2

/-- The heads of the parser are the tops of these single stacks. -/
def Shows (p : Parser σ) (ts : List (Status × Thread σ)) : Prop :=
  List.Forall₂ (Tops p.stack) p.heads.toList ts

/-- The stacks that are still followed. -/
def actives (ts : List (Status × Thread σ)) : List (Thread σ) :=
  (ts.filter (·.1 = .active)).map (·.2)

theorem mem_actives {ts : List (Status × Thread σ)} {t : Thread σ} :
    t ∈ actives ts ↔ (.active, t) ∈ ts := by
  simp [actives]

@[simp] theorem actives_nil : actives ([] : List (Status × Thread σ)) = [] := rfl

@[simp] theorem actives_append (ts us : List (Status × Thread σ)) :
    actives (ts ++ us) = actives ts ++ actives us := by
  simp [actives]

@[simp] theorem actives_active (t : Thread σ) (ts : List (Status × Thread σ)) :
    actives ((.active, t) :: ts) = t :: actives ts := rfl

@[simp] theorem actives_stuck (t : Thread σ) (ts : List (Status × Thread σ)) :
    actives ((.stuck, t) :: ts) = actives ts := rfl

@[simp] theorem actives_map (ts : List (Thread σ)) : actives (ts.map (.active, ·)) = ts := by
  induction ts with
  | nil => rfl
  | cons t ts ih => rw [List.map_cons, actives_active, ih]

theorem Tops.mono {s s' : Stack σ} (hgrows : s.Grows s') {hs : List Head}
    {ts : List (Status × Thread σ)} (h : List.Forall₂ (Tops s) hs ts) :
    List.Forall₂ (Tops s') hs ts :=
  h.imp fun _ _ htops => ⟨htops.1, htops.2.mono hgrows⟩

theorem forall₂_filter_active {s : Stack σ} {hs : List Head} {ts : List (Status × Thread σ)}
    (h : List.Forall₂ (Tops s) hs ts) :
    List.Forall₂ (Tops s) (hs.filter (·.status == .active)) ((actives ts).map (.active, ·)) := by
  induction h with
  | nil => exact .nil
  | @cons h t hs ts htops _ ih =>
    obtain ⟨status, t⟩ := t
    rw [List.filter_cons, htops.1]
    cases status with
    | active => exact .cons htops ih
    | stuck => exact ih
    | done => exact ih

/-- The head with a number among the others. -/
structure HeadOf (p : Parser σ) (pre : List (Status × Thread σ)) (t : Status × Thread σ)
    (post : List (Status × Thread σ)) (hpre : List Head) (h : Head) (hpost : List Head) : Prop where
  heads : p.heads = (hpre ++ h :: hpost).toArray
  length : pre.length = hpre.length
  before : List.Forall₂ (Tops p.stack) hpre pre
  top : Tops p.stack h t
  behind : List.Forall₂ (Tops p.stack) hpost post

variable {p : Parser σ} {pre post : List (Status × Thread σ)} {t : Status × Thread σ}
  {hpre hpost : List Head} {h : Head}

theorem Shows.headOf (hp : p.Shows (pre ++ t :: post)) :
    ∃ hpre h hpost, HeadOf p pre t post hpre h hpost := by
  have hbefore := List.forall₂_take_append _ _ _ hp
  have hrest := List.forall₂_drop_append _ _ _ hp
  generalize hdrop : p.heads.toList.drop pre.length = rest at hrest
  cases hrest with
  | @cons h _ hpost _ htop hbehind =>
    refine ⟨_, h, hpost, ?_, hbefore.length_eq.symm, hbefore, htop, hbehind⟩
    rw [← hdrop, List.take_append_drop]

theorem HeadOf.shows (hh : HeadOf p pre t post hpre h hpost) : p.Shows (pre ++ t :: post) := by
  rw [Shows, hh.heads]
  exact List.rel_append hh.before (.cons hh.top hh.behind)

theorem Shows.length_eq {ts : List (Status × Thread σ)} (hp : p.Shows ts) :
    p.heads.size = ts.length := by
  rw [← Array.length_toList]
  exact List.Forall₂.length_eq hp

theorem HeadOf.get (hh : HeadOf p pre t post hpre h hpost) : p.heads[pre.length]? = some h := by
  rw [hh.heads, hh.length]
  simp

theorem HeadOf.topNumber (hh : HeadOf p pre t post hpre h hpost) :
    p.topNumber pre.length = h.vertex := by
  rw [Parser.topNumber, hh.get]

theorem HeadOf.top? (hh : HeadOf p pre t post hpre h hpost) :
    ∃ v, p.top? pre.length = some v ∧ v.state = t.2.state ∧ v.cursor = t.2.cursor := by
  obtain ⟨v, hv, hstate, hcursor, -⟩ := hh.top.2.vertex?
  exact ⟨v, by rw [Parser.top?, hh.get]; exact hv, hstate, hcursor⟩

theorem modify_append (f : Head → Head) :
    (hpre ++ h :: hpost).modify hpre.length f = hpre ++ f h :: hpost := by
  induction hpre with
  | nil => rfl
  | cons k hpre ih => rw [List.cons_append, List.length_cons, List.modify_succ_cons, ih]; rfl

/-- Changing how a head stands. -/
theorem HeadOf.mark (hh : HeadOf p pre t post hpre h hpost) (status : Status) :
    HeadOf (p.mark pre.length status) pre (status, t.2) post hpre { h with status } hpost := by
  refine ⟨?_, hh.length, hh.before, ⟨rfl, hh.top.2⟩, hh.behind⟩
  rw [Parser.mark, hh.heads, hh.length]
  simp [modify_append]

/-- Putting a reading on top of a head. -/
theorem HeadOf.push (hh : HeadOf p pre t post hpre h hpost) (r : Reading) (state : σ) :
    (p.push pre.length r state).Shows (pre ++ (t.1, t.2.push r state) :: post) ∧
      (p.push pre.length r state).finished = p.finished := by
  have hgrows := p.stack.grows_push h.vertex r state
  have htop : HeadOf (p.push pre.length r state) pre (t.1, t.2.push r state) post hpre
      { h with vertex := p.stack.vertices.size } hpost := by
    refine ⟨?_, hh.length, ?_, ?_, ?_⟩ <;> rw [Parser.push, hh.topNumber]
    · simp only [pushOn, Stack.push]
      rw [hh.heads, hh.length]
      simp [modify_append]
    · exact Tops.mono hgrows hh.before
    · exact ⟨hh.top.1, hh.top.2.pushed r state⟩
    · exact Tops.mono hgrows hh.behind
  exact ⟨htop.shows, rfl⟩

/-! ### Reducing -/

theorem splitExtras_of_forall {parts : List Reading} (h : ∀ p ∈ parts, p.extra = false) :
    splitExtras parts = (parts, []) := by
  have hspan : parts.reverse.span (·.extra) = ([], parts.reverse) := by
    rw [List.span_eq_takeWhile_dropWhile]
    cases hrev : parts.reverse with
    | nil => rfl
    | cons r rs =>
      have hr := h r (List.mem_reverse.1 (hrev ▸ List.mem_cons_self))
      rw [List.takeWhile_cons, List.dropWhile_cons, hr]
      rfl
  rw [splitExtras, hspan]
  simp

theorem bestBranch?_singleton {g : Compiled} {r : Reduction} {here : Cursor}
    {parts : List Reading} {reading : Reading} (hextra : ∀ p ∈ parts, p.extra = false)
    (h : Reading.branch? g r here parts = some reading) :
    bestBranch? g r here [parts] = some (reading, []) := by
  simp only [bestBranch?, List.foldl_cons, List.foldl_nil, splitExtras_of_forall hextra, h]

/-- Every other head is the top of one of the other stacks. -/
theorem HeadOf.other (hh : HeadOf p pre t post hpre h hpost) {i : Nat} (hi : i ≠ pre.length)
    {k : Head} (hk : p.heads[i]? = some k) : ∃ u ∈ pre ++ post, Tops p.stack k u := by
  have hmem : k ∈ hpre ++ hpost := by
    rw [hh.heads, List.getElem?_toArray] at hk
    rw [hh.length] at hi
    rcases Nat.lt_or_gt_of_ne hi with hlt | hgt
    · rw [List.getElem?_append_left hlt] at hk
      exact List.mem_append_left _ (List.mem_of_getElem? hk)
    · rw [List.getElem?_append_right (Nat.le_of_lt hgt)] at hk
      obtain ⟨j, hj⟩ : ∃ j, i - hpre.length = j + 1 := ⟨i - hpre.length - 1, by omega⟩
      rw [hj, List.getElem?_cons_succ] at hk
      exact List.mem_append_right _ (List.mem_of_getElem? hk)
  obtain ⟨j, hj, rfl⟩ := List.getElem_of_mem hmem
  have hall : List.Forall₂ (Tops p.stack) (hpre ++ hpost) (pre ++ post) :=
    List.rel_append hh.before hh.behind
  exact ⟨_, List.getElem_mem _, hall.get hj (hall.length_eq ▸ hj)⟩

theorem finished_moveHead (p : Parser σ) (last head : Nat) :
    (p.moveHead last head).finished = p.finished := by
  rw [Parser.moveHead]
  split <;> rfl

/-- Putting the last entry into another place. -/
theorem eraseIdx_set_last {α : Type} (pre post : List α) (a b : α) :
    ((pre ++ a :: (post ++ [b])).toArray.set! pre.length b).eraseIdxIfInBounds
      ((pre ++ a :: (post ++ [b])).toArray.size - 1) = (pre ++ b :: post).toArray := by
  have hset : (pre ++ a :: (post ++ [b])).set pre.length b = (pre ++ b :: post) ++ [b] := by simp
  have hsize : (pre ++ a :: (post ++ [b])).toArray.size - 1 = (pre ++ b :: post).length := by
    simp only [List.size_toArray, List.length_append, List.length_cons, List.length_nil]
    omega
  have hlt : (pre ++ b :: post).length < ((pre ++ b :: post) ++ [b]).toArray.size := by
    simp only [List.size_toArray, List.length_append, List.length_cons, List.length_nil]
    omega
  rw [hsize, Array.set!_eq_setIfInBounds, List.setIfInBounds_toArray, hset,
    Array.eraseIdxIfInBounds, dif_pos hlt, List.eraseIdx_toArray,
    List.eraseIdx_append_of_length_le (Nat.le_refl _), Nat.sub_self, List.eraseIdx_cons_zero,
    List.append_nil]

/-- The last head takes the place of another one. -/
theorem HeadOf.moveHead {u : Status × Thread σ} {h' : Head}
    (hh : HeadOf p pre t (post ++ [u]) hpre h (hpost ++ [h'])) :
    HeadOf (p.moveHead (p.heads.size - 1) pre.length) pre u post hpre h' hpost := by
  have hpost' : List.Forall₂ (Tops p.stack) hpost post ∧ Tops p.stack h' u := by
    have hlength : hpost.length = post.length := by simpa using hh.behind.length_eq
    have hfirst := List.forall₂_take_append _ _ _ hh.behind
    have hlast := List.forall₂_drop_append _ _ _ hh.behind
    rw [← hlength, List.take_left] at hfirst
    rw [← hlength, List.drop_left] at hlast
    exact ⟨hfirst, (List.forall₂_cons.1 hlast).1⟩
  have hlast : p.heads[p.heads.size - 1]? = some h' := by
    rw [hh.heads, List.getElem?_toArray, List.size_toArray, ← List.getLast?_eq_getElem?]
    simp [List.getLast?_cons]
  have hheads : (p.moveHead (p.heads.size - 1) pre.length).heads =
      (hpre ++ h' :: hpost).toArray := by
    rw [Parser.moveHead, hlast, hh.heads, hh.length]
    exact eraseIdx_set_last hpre hpost h h'
  have hstack : (p.moveHead (p.heads.size - 1) pre.length).stack = p.stack := by
    rw [Parser.moveHead, hlast]
  refine ⟨hheads, hh.length, ?_, ?_, ?_⟩
  · exact hstack ▸ hh.before
  · exact hstack ▸ hpost'.2
  · exact hstack ▸ hpost'.1

variable [BEq σ] [LawfulBEq σ]

/-- A new head that is joined with no other one. -/
theorem HeadOf.addHead (hh : HeadOf p pre t post hpre h hpost) {vertex : Nat} {u : Thread σ}
    (hu : p.stack.Holds vertex u) (hapart : ∀ v ∈ actives (pre ++ post), v.Apart u) :
    p.addHead pre.length vertex = { p with heads := p.heads.push { vertex } } := by
  rw [Parser.addHead]
  split
  · rename_i i hfind
    have hi := List.find?_some hfind
    simp only [Bool.and_eq_true, bne_iff_ne, ne_eq] at hi
    obtain ⟨hne, hi⟩ := hi
    split at hi
    · rename_i k hk
      obtain ⟨v, hv, htops⟩ := hh.other hne hk
      rw [Bool.and_eq_true, beq_iff_eq, htops.1] at hi
      have hactive : v.2 ∈ actives (pre ++ post) := mem_actives.2 (hi.1 ▸ hv)
      rw [htops.2.agree_eq_false hu (hapart _ hactive)] at hi
      exact absurd hi.2 (by simp)
    · exact absurd hi (by simp)
  · rfl

/-- **Reducing a single stack** adds the reduced one to the heads. -/
theorem HeadOf.reduce {l : Language σ} (hh : HeadOf p pre t post hpre h hpost)
    (hlen : (pre ++ post).length < headLimit + headOverflow) {r : Reduction} {u : Thread σ}
    (hreduces : Reduces l r t.2 u) (hapart : ∀ v ∈ actives (pre ++ post), v.Apart u) :
    ∃ h', HeadOf (p.reduce l pre.length r) pre t (post ++ [(.active, u)]) hpre h (hpost ++ [h']) ∧
      (p.reduce l pre.length r).heads.size = p.heads.size + 1 ∧
      (p.reduce l pre.length r).finished = p.finished := by
  cases hreduces with
  | @intro base parts reading next hpop hne hextra hbranch hgoto =>
    obtain ⟨m, hbase, hways⟩ := hh.top.2.pop_eq hpop hextra
    obtain ⟨v, hv, hstate, hcursor, -⟩ := hbase.vertex?
    have hsize : ¬ headLimit + headOverflow + (p.heads.filter (·.status == .done)).size <
        p.heads.size := by
      rw [hh.heads]
      have hpost := hh.behind.length_eq
      have hpre := hh.length
      simp only [List.length_append] at hlen
      simp only [List.size_toArray, List.length_append, List.length_cons]
      omega
    have hgrows := p.stack.grows_push m reading next
    -- the parser behind the push, whose heads are those of before
    have hpushed : HeadOf { p with stack := (p.stack.push m reading next).2 } pre t post hpre h
        hpost :=
      ⟨hh.heads, hh.length, Tops.mono hgrows hh.before, ⟨hh.top.1, hh.top.2.mono hgrows⟩,
        Tops.mono hgrows hh.behind⟩
    have hreduce : p.reduce l pre.length r =
        { p with
          stack := (p.stack.push m reading next).2
          heads := p.heads.push { vertex := p.stack.vertices.size } } := by
      rw [Parser.reduce, hh.topNumber, hways]
      simp only [slices, List.foldl_cons, List.foldl_nil, insertPath, reduceSlice, if_neg hsize, hv,
        hcursor, hstate, bestBranch?_singleton hextra hbranch, hgoto]
      exact hpushed.addHead (hbase.pushed reading next) hapart
    rw [hreduce]
    refine ⟨{ vertex := p.stack.vertices.size }, ⟨?_, hh.length, hpushed.before, hpushed.top, ?_⟩,
      by simp, rfl⟩
    · simp [hh.heads]
    · exact List.rel_append hpushed.behind (.cons ⟨rfl, hbase.pushed reading next⟩ .nil)

/-! ### Taking a token -/

section

variable {l : Language σ} {token : Token} {u : Thread σ}

omit [LawfulBEq σ] in
/-- A head that shifts the token is done with it. -/
theorem Shows.take_shift (htoken : token.extra = false) (hp : p.Shows (pre ++ (.active, u) :: post))
    {next : σ} (h : l.automaton.actions u.state token.symbol = [.shift next]) (fuel : Nat) :
    (p.take l pre.length (fuel + 1) token).Shows
        (pre ++ (.active, u.push (.leaf l.grammar u.cursor.offset token) next) :: post) ∧
      (p.take l pre.length (fuel + 1) token).finished = p.finished := by
  obtain ⟨hpre, h', hpost, hh⟩ := hp.headOf
  obtain ⟨v, hv, hstate, hcursor⟩ := hh.top?
  have htake : p.take l pre.length (fuel + 1) token =
      p.push pre.length (.leaf l.grammar u.cursor.offset token) next := by
    rw [Parser.take, hv]
    simp only [htoken, hstate, hcursor, h, reduceAll, List.getLast?_singleton]
    rfl
  rw [htake]
  exact hh.push _ _

omit [LawfulBEq σ] in
/-- A head that has no action is stuck. -/
theorem Shows.take_stuck (htoken : token.extra = false) (hp : p.Shows (pre ++ (.active, u) :: post))
    (h : l.automaton.actions u.state token.symbol = []) (hother : token.otherwise = none)
    (fuel : Nat) :
    (p.take l pre.length (fuel + 1) token).Shows (pre ++ (.stuck, u) :: post) ∧
      (p.take l pre.length (fuel + 1) token).finished = p.finished := by
  obtain ⟨hpre, h', hpost, hh⟩ := hp.headOf
  obtain ⟨v, hv, hstate, -⟩ := hh.top?
  have htake : p.take l pre.length (fuel + 1) token = p.mark pre.length .stuck := by
    rw [Parser.take, hv]
    simp only [htoken, hstate, h, reduceAll, hother]
    rfl
  rw [htake]
  exact ⟨(hh.mark .stuck).shows, rfl⟩

/-- A head that reduces goes on with the reduced stack. -/
theorem Shows.take_reduce (htoken : token.extra = false)
    {u' : Thread σ} (hp : p.Shows (pre ++ (.active, u) :: post)) {r : Reduction}
    (h : l.automaton.actions u.state token.symbol = [.reduce r]) (hreduces : Reduces l r u u')
    (hapart : ∀ v ∈ actives (pre ++ post), v.Apart u')
    (hlen : (pre ++ post).length < headLimit + headOverflow) (fuel : Nat) :
    ∃ p', Shows p' (pre ++ (.active, u') :: post) ∧ p'.finished = p.finished ∧
      p.take l pre.length (fuel + 1) token = p'.take l pre.length fuel token := by
  obtain ⟨hpre, h', hpost, hh⟩ := hp.headOf
  obtain ⟨v, hv, hstate, -⟩ := hh.top?
  obtain ⟨h'', hh', hsize, hfinished⟩ := hh.reduce hlen hreduces hapart
  refine ⟨_, hh'.moveHead.shows, (finished_moveHead _ _ _).trans hfinished, ?_⟩
  rw [Parser.take, hv]
  simp only [htoken, hstate, h, reduceAll, hsize, List.getLast?_singleton]
  simp

/-- A head that can reduce or shift shifts, and the reduced stack is a new head. -/
theorem Shows.take_reduceShift (htoken : token.extra = false)
    {u' : Thread σ} (hp : p.Shows (pre ++ (.active, u) :: post)) {r : Reduction} {next : σ}
    (h : l.automaton.actions u.state token.symbol = [.reduce r, .shift next])
    (hreduces : Reduces l r u u') (hapart : ∀ v ∈ actives (pre ++ post), v.Apart u')
    (hlen : (pre ++ post).length < headLimit + headOverflow) (fuel : Nat) :
    (p.take l pre.length (fuel + 1) token).Shows
        (pre ++ (.active, u.push (.leaf l.grammar u.cursor.offset token) next) ::
          (post ++ [(.active, u')])) ∧
      (p.take l pre.length (fuel + 1) token).finished = p.finished := by
  obtain ⟨hpre, h', hpost, hh⟩ := hp.headOf
  obtain ⟨v, hv, hstate, hcursor⟩ := hh.top?
  obtain ⟨h'', hh', -, hfinished⟩ := hh.reduce hlen hreduces hapart
  have htake : p.take l pre.length (fuel + 1) token =
      (p.reduce l pre.length r).push pre.length (.leaf l.grammar u.cursor.offset token) next := by
    rw [Parser.take, hv]
    simp only [htoken, hstate, hcursor, h, reduceAll]
    rfl
  rw [htake]
  obtain ⟨hshows, hkept⟩ := hh'.push (.leaf l.grammar u.cursor.offset token) next
  exact ⟨hshows, hkept.trans hfinished⟩

/-- A head that can reduce in two ways goes on with the second, and the first is a new head. -/
theorem Shows.take_reduceReduce (htoken : token.extra = false) {u₁ u₂ : Thread σ}
    (hp : p.Shows (pre ++ (.active, u) :: post)) {r q : Reduction}
    (h : l.automaton.actions u.state token.symbol = [.reduce r, .reduce q])
    (hr : Reduces l r u u₁) (hq : Reduces l q u u₂)
    (hapart : ∀ v ∈ actives (pre ++ post), v.Apart u₁)
    (hapart' : ∀ v ∈ actives (pre ++ (post ++ [(.active, u₁)])), v.Apart u₂)
    (hlen : (pre ++ post).length + 1 < headLimit + headOverflow) (fuel : Nat) :
    ∃ p', Shows p' (pre ++ (.active, u₂) :: (post ++ [(.active, u₁)])) ∧
      p'.finished = p.finished ∧
      p.take l pre.length (fuel + 1) token = p'.take l pre.length fuel token := by
  obtain ⟨hpre, h', hpost, hh⟩ := hp.headOf
  obtain ⟨v, hv, hstate, -⟩ := hh.top?
  obtain ⟨h₁, hh₁, -, hfinished₁⟩ := hh.reduce (by omega) hr hapart
  have hlen' : (pre ++ (post ++ [(Status.active, u₁)])).length < headLimit + headOverflow := by
    simp only [List.length_append, List.length_singleton] at hlen ⊢
    omega
  obtain ⟨h₂, hh₂, hsize₂, hfinished₂⟩ := hh₁.reduce hlen' hq hapart'
  refine ⟨_, hh₂.moveHead.shows,
    (finished_moveHead _ _ _).trans (hfinished₂.trans hfinished₁), ?_⟩
  rw [Parser.take, hv]
  simp only [htoken, hstate, h, reduceAll, hsize₂]
  simp

/-- **A head takes a token as its stack does.** -/
theorem Shows.take (htoken : token.extra = false) {steps : Nat}
    {others : List (Thread σ)} {out : Status × Thread σ} {branches : List (Thread σ)}
    (h : Takes l token steps others u out branches) :
    ∀ {p : Parser σ} {post : List (Status × Thread σ)},
      p.Shows (pre ++ (.active, u) :: post) → others = actives (pre ++ post) →
      (pre ++ post).length + branches.length < headLimit + headOverflow →
      ∀ {fuel : Nat}, steps ≤ fuel →
      (Parser.take l pre.length fuel token p).Shows
          (pre ++ out :: (post ++ branches.map (Status.active, ·))) ∧
        (Parser.take l pre.length fuel token p).finished = p.finished := by
  induction h with
  | shift h =>
    intro p post hp _ _ fuel hfuel
    obtain ⟨fuel, rfl⟩ : ∃ k, fuel = k + 1 := ⟨fuel - 1, by omega⟩
    rw [List.map_nil, List.append_nil]
    exact hp.take_shift htoken h fuel
  | stuck h hother =>
    intro p post hp _ _ fuel hfuel
    obtain ⟨fuel, rfl⟩ : ∃ k, fuel = k + 1 := ⟨fuel - 1, by omega⟩
    rw [List.map_nil, List.append_nil]
    exact hp.take_stuck htoken h hother fuel
  | @reduce steps others u u' r out branches h hreduces hapart _ ih =>
    intro p post hp hothers hlen fuel hfuel
    obtain ⟨fuel, rfl⟩ : ∃ k, fuel = k + 1 := ⟨fuel - 1, by omega⟩
    obtain ⟨p', hp', hfinished, htake⟩ :=
      hp.take_reduce htoken h hreduces (hothers ▸ hapart) (by omega) fuel
    obtain ⟨hshows, hkept⟩ := ih hp' hothers hlen (show steps ≤ fuel by omega)
    rw [htake]
    exact ⟨hshows, hkept.trans hfinished⟩
  | reduceShift h hreduces hapart =>
    intro p post hp hothers hlen fuel hfuel
    obtain ⟨fuel, rfl⟩ : ∃ k, fuel = k + 1 := ⟨fuel - 1, by omega⟩
    rw [List.length_singleton] at hlen
    exact hp.take_reduceShift htoken h hreduces (hothers ▸ hapart) (by omega) fuel
  | @reduceReduce steps others u u₁ u₂ r q out branches h hr hq hapart hapart' _ ih =>
    intro p post hp hothers hlen fuel hfuel
    obtain ⟨fuel, rfl⟩ : ∃ k, fuel = k + 1 := ⟨fuel - 1, by omega⟩
    rw [List.length_cons] at hlen
    have hothers' : others ++ [u₁] = actives (pre ++ (post ++ [(.active, u₁)])) := by
      simp [hothers]
    have hlen' : (pre ++ (post ++ [(Status.active, u₁)])).length + branches.length <
        headLimit + headOverflow := by
      simp only [List.length_append, List.length_singleton] at hlen ⊢
      omega
    obtain ⟨p', hp', hfinished, htake⟩ := hp.take_reduceReduce htoken h hr hq (hothers ▸ hapart)
      (hothers' ▸ hapart') (by omega) fuel
    obtain ⟨hshows, hkept⟩ := ih hp' hothers' hlen' (show steps ≤ fuel by omega)
    rw [htake, List.map_cons, List.append_cons post]
    exact ⟨hshows, hkept.trans hfinished⟩

end

end Parser

end GoGlobals.Grammar
