import GoGlobals.Grammar.Stack

/-!
# Reading a text in all ways at once

The parser follows every reading of a text that the automaton leaves open.  A *head* is the top of a
stack and stands for the readings on it.  In each round every head takes a token, then heads that
agree are joined and the heads are put in order of weight; there are never more than a few of them.

A token is looked for in the state where it is needed, since what a token is can depend on it.

## What is here

* `Parser.reduce`, `Parser.advance`: what a head does with a token.
* `Parser.condense`: what is done between rounds.
* `Language.parse?`: the best reading of a whole text, if it has one.
-/

set_option autoImplicit false

namespace GoGlobals.Grammar

open Text (Cursor)

/-- A grammar with its automaton, and how tokens are found: what a token can be depends on which
tokens the state expects. -/
structure Language (σ : Type) where
  grammar : Compiled
  automaton : Automaton σ
  token? : (expects : Nat → Bool) → Cursor → Option Token

/-- The number of heads that are followed from one round to the next. -/
def headLimit : Nat := 6

/-- The number of heads beyond the limit that may arise during a round. -/
def headOverflow : Nat := 4

/-- How a head stands: it can go on, it has no use for its token, or it is done. -/
inductive Status where
  | active
  | stuck
  | done
deriving DecidableEq

/-- The top of a stack. -/
structure Head where
  vertex : Nat
  status : Status := .active

/-- The stacks, their tops, and the best reading of the whole text so far. -/
structure Parser (σ : Type) where
  stack : Stack σ := {}
  heads : Array Head := #[]
  finished : Option Reading := none

namespace Parser

variable {σ : Type}

/-- The vertex on top of a head. -/
def top? (p : Parser σ) (head : Nat) : Option (Vertex σ) :=
  match p.heads[head]? with
  | some h => p.stack.vertex? h.vertex
  | none => none

/-- The number of the vertex on top of a head. -/
def topNumber (p : Parser σ) (head : Nat) : Nat :=
  match p.heads[head]? with
  | some h => h.vertex
  | none => 0

/-- Changes how a head stands. -/
def mark (p : Parser σ) (head : Nat) (status : Status) : Parser σ :=
  { p with heads := p.heads.modify head fun h => { h with status } }

/-- Puts a reading on top of a vertex. -/
def pushOn (p : Parser σ) (vertex : Nat) (reading : Reading) (state : σ) : Nat × Parser σ :=
  let (n, stack) := p.stack.push vertex reading state
  (n, { p with stack })

/-- Puts a reading on top of a head. -/
def push (p : Parser σ) (head : Nat) (reading : Reading) (state : σ) : Parser σ :=
  let (vertex, p) := p.pushOn (p.topNumber head) reading state
  { p with heads := p.heads.modify head fun h => { h with vertex } }

/-- Adds the links of a vertex to those of another one. -/
def join [BEq σ] (p : Parser σ) (into vertex : Nat) : Parser σ :=
  let fuel := p.stack.vertices.size
  { p with stack := (p.stack.links vertex).foldl (fun s l => s.addLink fuel into l) p.stack }

/-! ## Reducing -/

/-- Ways down to the same vertex. -/
structure Slice where
  base : Nat
  paths : List (List Reading)

/-- Puts a way with the others that lead to its vertex. -/
def insertPath (p : Stack.Path) : List Slice → List Slice
  | [] => [⟨p.vertex, [p.passed]⟩]
  | s :: rest =>
    if s.base == p.vertex then { s with paths := s.paths ++ [p.passed] } :: rest
    else s :: insertPath p rest

/-- Ways by the vertex that they lead to, in the order in which the vertices come up. -/
def slices (paths : List Stack.Path) : List Slice :=
  paths.foldl (fun found p => insertPath p found) []

/-- The readings behind the last one that belongs to a rule are not part of a construct. -/
def splitExtras (passed : List Reading) : List Reading × List Reading :=
  let (extras, parts) := passed.reverse.span (·.extra)
  (parts.reverse, extras.reverse)

/-- The best reading of a construct over one of several ways, and what stands behind it. -/
def bestBranch? (g : Compiled) (r : Reduction) (here : Cursor) (paths : List (List Reading)) :
    Option (Reading × List Reading) :=
  paths.foldl
    (fun best passed =>
      let (parts, extras) := splitExtras passed
      match best, Reading.branch? g r here parts with
      | none, some new => some (new, extras)
      | some (old, behind), some new =>
        if old.worse new then some (new, extras) else some (old, behind)
      | best, none => best)
    none

/-- Adds a head, or joins it with the first other head that agrees with it; the head that it comes
from is none of those. -/
def addHead [BEq σ] (p : Parser σ) (source vertex : Nat) : Parser σ :=
  match (List.range p.heads.size).find? fun i =>
      i != source && (match p.heads[i]? with
        | some h => h.status == .active && p.stack.agree h.vertex vertex
        | none => false) with
  | some i => p.join (p.topNumber i) vertex
  | none => { p with heads := p.heads.push { vertex } }

/-- Reduces the readings on top of a vertex, over all ways down to one other vertex. -/
def reduceSlice [BEq σ] (l : Language σ) (source : Nat) (r : Reduction) (limit : Nat)
    (p : Parser σ) (s : Slice) : Parser σ :=
  if limit < p.heads.size then p
  else match p.stack.vertex? s.base with
    | none => p
    | some base =>
      match bestBranch? l.grammar r base.cursor s.paths,
          l.automaton.goto? base.state (r.head - l.grammar.terminals) with
      | some (reading, extras), some next =>
        let (vertex, p) := p.pushOn s.base reading next
        let (vertex, p) := extras.foldl
          (fun (vertex, p) extra => p.pushOn vertex extra next) (vertex, p)
        p.addHead source vertex
      | _, _ => p

/-- Reduces the readings on top of a head, which stays as it is: each vertex that is reached gives a
new head. -/
def reduce [BEq σ] (l : Language σ) (p : Parser σ) (head : Nat) (r : Reduction) : Parser σ :=
  let done := (p.heads.filter (·.status == .done)).size
  let limit := headLimit + headOverflow + done
  (slices (p.stack.pop (p.topNumber head) (some r.labels.length))).foldl
    (reduceSlice l head r limit) p

/-! ## Accepting -/

/-- The reading of a whole text from what is on a stack: what stands in front of the construct and
behind it becomes part of it. -/
def wholeOf? (passed : List Reading) : Option Reading :=
  let (before, rest) := passed.span (·.extra)
  match rest with
  | [] => none
  | whole :: after =>
    let list (readings : List Reading) (nodes : List Node) : List Node :=
      readings.foldr (fun r nodes => r.forest.listBefore id nodes) nodes
    some { whole with
      parts := before ++ whole.parts ++ after
      forest := match whole.forest with
        | .node n => .node { n with children := list before (n.children ++ list after []) }
        | f => f }

/-- Keeps the best reading of the whole text. -/
def accept (p : Parser σ) (head : Nat) : Parser σ :=
  let finished := (p.stack.pop (p.topNumber head) none).foldl
    (fun best path =>
      match best, wholeOf? path.passed with
      | none, new => new
      | some old, some new => some (old.better new)
      | some old, none => some old)
    p.finished
  { p with finished }.mark head .done

/-! ## Taking a token -/

/-- Does all reductions among actions; also gives the first of the heads that the last of them
made, if it made any. -/
def reduceAll [BEq σ] (l : Language σ) (head : Nat) :
    List (Action σ) → Option Nat → Parser σ → Option Nat × Parser σ
  | [], last, p => (last, p)
  | .reduce r :: rest, last, p =>
    let first := p.heads.size
    let p := p.reduce l head r
    reduceAll l head rest (if first < p.heads.size then some first else last) p
  | _ :: rest, last, p => reduceAll l head rest last p

/-- Puts the head with the number `last` into the place of another one. -/
def moveHead (p : Parser σ) (last head : Nat) : Parser σ :=
  match p.heads[last]? with
  | none => p
  | some h => { p with heads := (p.heads.set! head h).eraseIdxIfInBounds last }

/-- A head takes a token: it reduces as long as it has to and then shifts, at most `fuel` actions
in all. -/
def take [BEq σ] (l : Language σ) (head : Nat) : (fuel : Nat) → Token → Parser σ → Parser σ
  | 0, _, p => p.mark head .stuck
  | fuel + 1, token, p =>
    match p.top? head with
    | none => p
    | some top =>
      if token.extra then
        p.push head (.leaf l.grammar top.cursor.offset token) top.state
      else
        let actions := l.automaton.actions top.state token.symbol
        let (last, p) := reduceAll l head actions none p
        match actions.getLast?, last with
        | some (.shift next), _ =>
          p.push head (.leaf l.grammar top.cursor.offset token) next
        | some .accept, _ => p.accept head
        | some (.reduce _), some last => take l head fuel token (p.moveHead last head)
        | some (.reduce _), none => p.mark head .done
        | none, _ =>
          match token.otherwise with
          | some symbol => take l head fuel { token with symbol, otherwise := none } p
          | none => p.mark head .stuck

/-- A head takes the next token. -/
def advance [BEq σ] (l : Language σ) (fuel head : Nat) (p : Parser σ) : Parser σ :=
  match p.top? head with
  | none => p
  | some top =>
    let row := l.automaton.row top.state
    let expects token := match row.actions[token]? with
      | some cell => !cell.isEmpty
      | none => false
    match l.token? expects top.cursor with
    | none => p.mark head .stuck
    | some token => p.take l head fuel token

/-! ## Rounds -/

/-- The offset that a head has come to. -/
def offset (p : Parser σ) (head : Nat) : Nat :=
  match p.top? head with
  | some v => v.cursor.offset
  | none => 0

/-- Every head from a number on advances until it is as far as the others. -/
def sweep [BEq σ] (l : Language σ) (size : Nat) :
    (fuel : Nat) → (head last : Nat) → Parser σ → Nat × Parser σ
  | 0, _, last, p => (last, p)
  | fuel + 1, head, last, p =>
    match p.heads[head]? with
    | none => (last, p)
    | some h =>
      if h.status != .active then sweep l size fuel (head + 1) last p
      else
        let p := p.advance l size head
        let now := p.offset head
        if last < now || (0 < head && last == now) then sweep l size fuel (head + 1) now p
        else sweep l size fuel head last p

/-- Lets a head go in among heads that are in order already.  It is joined with the first that
agrees with it, and it takes the place of one that weighs less than it did at the start, which then
goes on in its stead. -/
def settleAmong [BEq σ] (weight : Int) :
    (ahead done : List Head) → Head → Parser σ → List Head × Parser σ
  | [], done, h, p => ((h :: done).reverse, p)
  | other :: rest, done, h, p =>
    if p.stack.agree other.vertex h.vertex then
      (done.reverse ++ other :: rest, p.join other.vertex h.vertex)
    else
      if p.stack.weight other.vertex < weight then settleAmong weight rest (h :: done) other p
      else settleAmong weight rest (other :: done) h p

/-- Drops the heads that are done or stuck, joins those that agree, puts them in order and keeps the
first few. -/
def condense [BEq σ] (p : Parser σ) : Parser σ :=
  let active := p.heads.toList.filter (·.status == .active)
  let (heads, p) := active.foldl
    (fun (heads, p) h => settleAmong (p.stack.weight h.vertex) heads [] h p)
    ([], { p with heads := #[] })
  { p with heads := (heads.take headLimit).toArray }

/-- Rounds until no head is left. -/
def run [BEq σ] (l : Language σ) (size : Nat) :
    (fuel : Nat) → (last : Nat) → Parser σ → Option Reading
  | 0, _, _ => none
  | fuel + 1, last, p =>
    let (last, p) := p.sweep l size size 0 last
    let p := p.condense
    if p.heads.isEmpty then p.finished else run l size fuel last p

end Parser

/-- The best reading of a whole text.  For each piece of text a head does a bounded number of
actions: no construct is made of itself alone. -/
def Language.parse? {σ : Type} [BEq σ] (l : Language σ) (text : Cursor) : Option Reading :=
  let size := 64 * (text.rest.length + 4)
  Parser.run l size size 0
    { stack := ⟨#[{ state := l.automaton.start, cursor := text }]⟩
      heads := #[{ vertex := 0 }] }

end GoGlobals.Grammar
