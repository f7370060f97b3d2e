import GoGlobals.Grammar.Reading

/-!
# Stacks that share their parts

Several readings of a text are followed at once, each with a stack of its own.  Stacks that agree
share what they agree on: the stacks form a graph, in which a vertex is a state at a place in the
text and a link leads from it to the vertex below, over the reading in between.  A vertex with
several links is the top of several stacks that will be read on in the same way.

## What is here

* `Stack` with `Stack.push` and `Stack.addLink`; the latter also joins the vertices below two links
  that are alike, as far down as they agree.
* `Stack.pop` gives all ways to take readings off the top.
-/

set_option autoImplicit false

namespace GoGlobals.Grammar

open Text (Cursor)

/-- A reading, and the number of the vertex below it. -/
structure Link where
  below : Nat
  reading : Reading
deriving Inhabited

/-- A state at a place in the text, and the ways to come there. -/
structure Vertex (σ : Type) where
  state : σ
  cursor : Cursor
  links : List Link := []
  /-- The greatest weight of a stack with this vertex on top. -/
  weight : Int := 0

/-- The vertices of all stacks, by number. -/
structure Stack (σ : Type) where
  vertices : Array (Vertex σ) := #[]

/-- The number of links that a vertex can have. -/
def linkLimit : Nat := 8

/-- The number of ways that are followed down the stack at once. -/
def pathLimit : Nat := 64

namespace Stack

variable {σ : Type}

/-- The vertex with a number. -/
def vertex? (s : Stack σ) (n : Nat) : Option (Vertex σ) :=
  s.vertices[n]?

/-- The links of a vertex. -/
def links (s : Stack σ) (n : Nat) : List Link :=
  match s.vertex? n with
  | some v => v.links
  | none => []

/-- The weight of a vertex. -/
def weight (s : Stack σ) (n : Nat) : Int :=
  match s.vertex? n with
  | some v => v.weight
  | none => 0

/-- Changes a vertex. -/
def modify (s : Stack σ) (n : Nat) (f : Vertex σ → Vertex σ) : Stack σ :=
  ⟨s.vertices.modify n f⟩

/-- What a stack weighs with a link on top. -/
def weightOver (s : Stack σ) (l : Link) : Int :=
  s.weight l.below + l.reading.weight

/-- A new vertex on top of another one, and the stack with it. -/
def push (s : Stack σ) (below : Nat) (reading : Reading) (state : σ) : Nat × Stack σ :=
  let link := ⟨below, reading⟩
  let weight := s.weightOver link
  (s.vertices.size, ⟨s.vertices.push { state, cursor := reading.stop, links := [link], weight }⟩)

/-- Are two vertices the same state at the same place? -/
def agree [BEq σ] (s : Stack σ) (a b : Nat) : Bool :=
  match s.vertex? a, s.vertex? b with
  | some v, some w => v.state == w.state && v.cursor.offset == w.cursor.offset
  | _, _ => false

/-- Can a link do instead of a new one?  Their readings must be alike, and the vertices below them
the same or in agreement. -/
def covers [BEq σ] (s : Stack σ) (new old : Link) : Bool :=
  old.reading.alike new.reading && (old.below == new.below || s.agree old.below new.below)

/-- The links with the reading of the first one that goes to the same vertex and is alike replaced,
if the new one weighs more. -/
def improve (new : Link) : List Link → List Link
  | [] => []
  | old :: rest =>
    if old.below == new.below && old.reading.alike new.reading then
      (if old.reading.weight < new.reading.weight then new else old) :: rest
    else old :: improve new rest

/-- Gives a vertex at least this weight. -/
def raise (s : Stack σ) (vertex : Nat) (weight : Int) : Stack σ :=
  s.modify vertex fun v => if v.weight < weight then { v with weight } else v

/-- Adds a link to a vertex.  If a link covers it, the better reading is kept, or the links of the
vertex below are added to those of the vertex that it agrees with, at most `fuel` levels deep. -/
def addLink [BEq σ] : (fuel : Nat) → Stack σ → (vertex : Nat) → Link → Stack σ
  | 0, s, _, _ => s
  | fuel + 1, s, vertex, new =>
    if new.below == vertex then s
    else match (s.links vertex).find? (s.covers new) with
      | some old =>
        if old.below == new.below then
          if old.reading.weight < new.reading.weight then
            let weight := s.weightOver new
            s.modify vertex fun v => { v with links := improve new v.links, weight }
          else s
        else
          let s := (s.links new.below).foldl (fun s l => addLink fuel s old.below l) s
          s.raise vertex (s.weightOver new)
      | none =>
        if linkLimit ≤ (s.links vertex).length then s
        else
          let s := s.modify vertex fun v => { v with links := v.links ++ [new] }
          s.raise vertex (s.weightOver new)

/-! ## Taking readings off -/

/-- A way down from the top: where it has come to, what it has passed, and how many readings it
still has to pass; without a number it goes down to the bottom. -/
structure Path where
  vertex : Nat
  passed : List Reading := []
  left : Option Nat

/-- The way one link further down.  A reading that belongs to no rule does not count. -/
def Path.follow (p : Path) (l : Link) : Path :=
  { vertex := l.below
    passed := l.reading :: p.passed
    left := if l.reading.extra then p.left else p.left.map (· - 1) }

/-- Ways that have come to their end, ways that go on, and ways that branch off from them. -/
structure Frontier where
  found : List Path := []
  going : List Path := []
  branching : List Path := []
  /-- The number of ways that are followed. -/
  alive : Nat

/-- Follows a way one link down.  It goes on over the first link, and ways branch off from it over
the others while there are not too many. -/
def Frontier.advance {σ : Type} (s : Stack σ) (f : Frontier) (p : Path) : Frontier :=
  let links := s.links p.vertex
  if p.left == some 0 || (p.left.isNone && links.isEmpty) then
    { f with found := p :: f.found, alive := f.alive - 1 }
  else match links with
    | [] => { f with alive := f.alive - 1 }
    | first :: others =>
      let f := others.foldl
        (fun f l =>
          if f.alive < pathLimit then
            { f with branching := p.follow l :: f.branching, alive := f.alive + 1 }
          else f)
        f
      { f with going := p.follow first :: f.going }

/-- Follows all ways to their end, at most `fuel` links deep; those that have come to it are given
last first. -/
def follow (s : Stack σ) : (fuel : Nat) → List Path → (found : List Path) → List Path
  | 0, _, found => found.reverse
  | fuel + 1, paths, found =>
    if paths.isEmpty then found.reverse
    else
      let f := paths.foldl (Frontier.advance s) { found, alive := paths.length }
      follow s fuel (f.going.reverse ++ f.branching.reverse) f.found

/-- The ways to take `count` readings off the top, or all without a count. -/
def pop (s : Stack σ) (top : Nat) (count : Option Nat) : List Path :=
  follow s (s.vertices.size + 2) [{ vertex := top, left := count }] []

end Stack

end GoGlobals.Grammar
