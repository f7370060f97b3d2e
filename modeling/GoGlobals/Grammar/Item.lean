import GoGlobals.Grammar.Automaton

/-!
# Items

An item is a production with a dot in it: what stands before the dot has been recognised, what
stands behind it is expected.  A state of the automaton is a set of items, each with the tokens that
may follow its production there.

Two items are the same when they expect the same, say the same of the parts before the dot, and
belong to constructs and precedences that are the same: which symbols stood before the dot does not
matter, since they are on the stack.

## What is here

* `Table` holds sets of numbers side by side, and `closure` is the table of what can be reached over
  edges.
* `Items` numbers the items of a grammar and keeps, for each, what a state needs to know of it.
* `ItemSet` is a state.  Only the items with something before the dot are in it, and `Items.reach`
  gives the constructs that are expected besides, with the tokens that may follow each.
* `Items.settle` chooses between shifting and reducing where precedences decide it.
* `automaton` is the automaton of a grammar.
-/

set_option autoImplicit false

namespace GoGlobals.Grammar

/-! ## Sets and tables -/

/-- A set of tokens; the bit with a token's number says whether the token is in it. -/
abbrev TokenSet := Nat

/-- The set of one token. -/
def TokenSet.single (token : Nat) : TokenSet :=
  1 <<< token

/-- Sets of numbers side by side: a set of numbers below `width` takes `width` bits, and the set with
the number `i` is in the bits from `width * i` on. -/
abbrev Table := Nat

namespace Table

/-- The set with a number. -/
def entry (width : Nat) (t : Table) (i : Nat) : Nat :=
  (t >>> (width * i)) % (1 <<< width)

/-- The table with more in one of its sets. -/
def add (width : Nat) (t : Table) (i : Nat) (more : Nat) : Table :=
  t ||| more <<< (width * i)

/-- Is a number in the set with a number? -/
def has (width : Nat) (t : Table) (i n : Nat) : Bool :=
  t.testBit (width * i + n)

/-- For every number below `size` the set of itself. -/
def diagonal (size : Nat) : Table :=
  (List.range size).foldl (fun t i => add size t i (1 <<< i)) 0

end Table

/-- Repeats a step until nothing changes, at most `fuel` times. -/
def untilStable (step : Nat → Nat) : (fuel : Nat) → Nat → Nat
  | 0, x => x
  | fuel + 1, x => if step x = x then x else untilStable step fuel (step x)

/-- For every number below `size` the numbers that can be reached from it over edges.  No way
without a detour is longer than there are numbers. -/
def closure (size : Nat) (edges : List (Nat × Nat)) : Table :=
  untilStable
    (fun t => edges.foldl (fun t e => Table.add size t e.1 (Table.entry size t e.2)) t)
    size (Table.diagonal size)

/-! ## Items -/

/-- An item: its production and the number of steps before the dot. -/
structure Item where
  production : Production
  dot : Nat
  /-- The symbol behind the dot. -/
  next : Option Nat
  /-- The tokens that can start what comes behind that symbol, if something does. -/
  after : Option TokenSet
  /-- The item with the dot moved behind the next symbol. -/
  successor : Nat
deriving Inhabited

/-- The items of a grammar, and what follows from its productions.  Constructs are numbered from
the first construct on. -/
structure Items where
  /-- The number of tokens, which have the least numbers. -/
  terminals : Nat
  /-- The number of symbols. -/
  size : Nat
  /-- Is the symbol with a number a repetition? -/
  repeats : Nat → Bool
  /-- The item with a number. -/
  item : Nat → Item
  /-- For each construct, the first symbol of each of its productions and the item behind it. -/
  openings : Nat → List (Nat × Nat)
  /-- The constructs with a production of nothing, and its item. -/
  empties : List (Nat × Nat)
  /-- For each symbol, the symbols that can start it. -/
  starts : Table
  /-- For each construct a table: the constructs that it can be by itself have the first bit. -/
  alone : Nat → Table
  /-- For each construct a table: the tokens that follow the constructs that can start it. -/
  followers : Nat → Table

/-- The items of two productions of one construct with a dot after `dot` steps say the same. -/
def Production.sameBehind (p q : Production) (dot : Nat) : Bool :=
  p.steps.length == q.steps.length &&
    p.weight == q.weight && p.precedence == q.precedence && p.side == q.side &&
    (p.steps.take dot).map (·.label) == (q.steps.take dot).map (·.label) &&
    p.steps.drop dot == q.steps.drop dot

/-- Productions with the number of their first item: there is an item before every step and one
behind the last. -/
def withOffsets : (offset : Nat) → List Production → List (Nat × Production)
  | _, [] => []
  | offset, p :: ps => (offset, p) :: withOffsets (offset + p.steps.length + 1) ps

/-- The productions of each construct with the numbers of their first items. -/
def familiesFrom : (offset : Nat) → List (List Production) → List (List (Nat × Production))
  | _, [] => []
  | offset, ps :: rest =>
    withOffsets offset ps :: familiesFrom (offset + (ps.map (·.steps.length + 1)).sum) rest

/-- The number of an item, which is that of the first production of its construct with an item that
is the same. -/
def itemNumber (family : List (Nat × Production)) (p : Production) (dot : Nat) : Nat :=
  match family.find? fun (_, q) => p.sameBehind q dot with
  | some (offset, _) => offset + dot
  | none => 0

/-- The symbols that can start each symbol. -/
def startsOf (g : Compiled) : Table :=
  closure g.symbols.size <| g.productions.filterMap fun p =>
    p.steps.head?.map fun s => (p.head, s.symbol)

/-- The tokens that can start a symbol; tokens have the least numbers. -/
def firstsOf (g : Compiled) (starts : Table) (symbol : Nat) : TokenSet :=
  starts.entry g.symbols.size symbol % (1 <<< g.terminals)

/-- For each construct the constructs that it can be by itself. -/
def aloneOf (g : Compiled) : List Table :=
  let constructs := g.symbols.size - g.terminals
  let reached := closure constructs <| g.productions.filterMap fun p =>
    match p.steps with
    | [s] =>
      if s.symbol < g.terminals then none
      else some (p.head - g.terminals, s.symbol - g.terminals)
    | _ => none
  (List.range constructs).map fun c =>
    (List.range constructs).foldl
      (fun t d => if reached.has constructs c d then t.add g.terminals d 1 else t) 0

/-- The productions that begin with a construct and go on behind it: what they make, the construct,
and the tokens that come behind it. -/
def sequelsOf (g : Compiled) (starts : Table) : List (Nat × Nat × TokenSet) :=
  g.productions.filterMap fun p =>
    match p.steps with
    | first :: second :: _ =>
      if first.symbol < g.terminals then none
      else some (p.head, first.symbol - g.terminals, firstsOf g starts second.symbol)
    | _ => none

/-- The tokens that follow the constructs that can start a construct, inside of it: what comes
behind a construct follows whatever that construct can be by itself. -/
def followersOf (g : Compiled) (starts : Table) (alone : Nat → Table)
    (sequels : List (Nat × Nat × TokenSet)) (construct : Nat) : Table :=
  sequels.foldl
    (fun t (head, first, tokens) =>
      if starts.has g.symbols.size (g.terminals + construct) head then
        t ||| tokens * alone first
      else t)
    0

/-- The items of a production, which is one of a family. -/
def itemsIn (g : Compiled) (starts : Table) (family : List (Nat × Production)) (p : Production) :
    List Item :=
  (List.range (p.steps.length + 1)).map fun dot =>
    { production := p
      dot
      next := p.steps[dot]?.map (·.symbol)
      after := p.steps[dot + 1]?.map fun s => firstsOf g starts s.symbol
      successor := itemNumber family p (dot + 1) }

/-- The items of a grammar.  Its first production makes the whole text. -/
def itemsOf (g : Compiled) : Items :=
  let families := familiesFrom 0 g.families
  let constructs := g.symbols.size - g.terminals
  let starts := startsOf g
  let alone := (aloneOf g).toArray
  let sequels := sequelsOf g starts
  let items := (families.flatMap fun family =>
    family.flatMap fun (_, p) => itemsIn g starts family p).toArray
  let openings := (families.map fun family =>
    family.filterMap fun (_, p) =>
      p.steps.head?.map fun s => (s.symbol, itemNumber family p 1)).toArray
  let followers := ((List.range constructs).map
    (followersOf g starts (fun c => alone[c]?.getD 0) sequels)).toArray
  { terminals := g.terminals
    size := g.symbols.size
    repeats := fun n => (g.symbol n).isRepetition
    item := fun n => items[n]?.getD default
    openings := fun c => openings[c]?.getD []
    empties := families.flatten.filterMap fun (offset, p) =>
      if p.steps.isEmpty then some (p.head - g.terminals, offset) else none
    starts
    alone := fun c => alone[c]?.getD 0
    followers := fun c => followers[c]?.getD 0 }

/-! ## States -/

/-- Items by number, in increasing order, with the tokens that may follow their productions. -/
abbrev ItemSet := List (Nat × TokenSet)

/-- Puts an item into its place; the tokens of an item that is there already are joined. -/
def ItemSet.insert (item : Nat) (tokens : TokenSet) : ItemSet → ItemSet
  | [] => [(item, tokens)]
  | (i, known) :: rest =>
    if item < i then (item, tokens) :: (i, known) :: rest
    else if item = i then (i, known ||| tokens) :: rest
    else (i, known) :: ItemSet.insert item tokens rest

namespace Items

/-- The constructs that can stand where one is expected before these tokens, with the tokens that
may follow each. -/
def spread (a : Items) (construct : Nat) (tokens : TokenSet) : Table :=
  a.followers construct ||| tokens * a.alone construct

/-- The constructs that a state expects, with the tokens that may follow each. -/
def reach (a : Items) (s : ItemSet) : Table :=
  s.foldl
    (fun t (n, tokens) =>
      let i := a.item n
      match i.next with
      | none => t
      | some x =>
        if x < a.terminals then t
        else t ||| a.spread (x - a.terminals) (i.after.getD tokens))
    0

/-- The items of a state behind the symbols that they expect, by symbol. -/
def ownMoves (a : Items) (s : ItemSet) : Array ItemSet :=
  s.foldl
    (fun moves (n, tokens) =>
      match (a.item n).next with
      | none => moves
      | some x => moves.modify x (ItemSet.insert (a.item n).successor tokens))
    (Array.replicate a.size [])

/-- The items behind each symbol that can come next, given what the state expects. -/
def moves (a : Items) (s : ItemSet) (expected : Table) : Array ItemSet :=
  if expected = 0 then a.ownMoves s
  else
    (List.range (a.size - a.terminals)).foldl
      (fun moves construct =>
        let tokens := expected.entry a.terminals construct
        if tokens = 0 then moves
        else
          (a.openings construct).foldl
            (fun moves (x, successor) => moves.modify x (ItemSet.insert successor tokens)) moves)
      (a.ownMoves s)

/-- The items of a state that expect nothing more. -/
def completed (a : Items) (s : ItemSet) (expected : Table) : List (Item × TokenSet) :=
  (s.filterMap fun (n, tokens) =>
    let i := a.item n
    if i.next.isNone then some (i, tokens) else none) ++
  a.empties.filterMap fun (construct, n) =>
    let tokens := expected.entry a.terminals construct
    if tokens = 0 then none else some (a.item n, tokens)

/-- The items of a state that go on with a token, directly or through a construct that it can
start. -/
def goingOn (a : Items) (s : ItemSet) (token : Nat) : List Item :=
  s.filterMap fun (n, _) =>
    let i := a.item n
    match i.next with
    | none => none
    | some x => if a.starts.has a.size x token then some i else none

/-- What a completed item does: the production of the whole text ends the reading. -/
def complete (a : Items) (i : Item) : Action ItemSet :=
  if i.production.head == a.terminals then .accept
  else .reduce
    { head := i.production.head
      labels := i.production.steps.map (·.label)
      weight := i.production.weight }

/-- Keeps the items of the greatest precedence. -/
def strongest (items : List Item) : List Item :=
  let top := items.foldl (fun top i => max top i.production.precedence)
    ((items.head?.map (·.production.precedence)).getD 0)
  items.filter (·.production.precedence == top)

/-- Which of the two a state does with a token when it could shift and reduce. -/
structure Choice where
  shifts : Bool
  reduces : Bool

/-- Chooses between shifting and reducing.  Inside a repetition what is recognised is joined first.
Otherwise a greater precedence wins, and between equal ones the side, if all completed items name
the same.  What is then still open, both are done. -/
def settle (a : Items) (completed shifting : List Item) : Choice :=
  let heads := (completed ++ shifting).map (·.production.head)
  let inRepetition := match heads with
    | [] => false
    | head :: rest => a.repeats head && rest.all (· == head)
  if inRepetition then ⟨false, true⟩
  else
    let kept := strongest completed
    let level := (kept.head?.map (·.production.precedence)).getD 0
    let above := shifting.any (level < ·.production.precedence)
    let below := shifting.any (·.production.precedence < level)
    if above && !below then ⟨true, false⟩
    else if below && !above then ⟨false, true⟩
    else if above && below then ⟨true, true⟩
    else if kept.all (·.production.side == some .left) then ⟨false, true⟩
    else if kept.all (·.production.side == some .right) then ⟨true, false⟩
    else ⟨true, true⟩

/-- What a state can do with a token, given the items behind it and the items that may be completed
before it. -/
def actionsOn (a : Items) (s : ItemSet) (token : Nat) (behind : ItemSet) (completed : List Item) :
    List (Action ItemSet) :=
  if behind.isEmpty then (strongest completed).map a.complete
  else if completed.isEmpty then [.shift behind]
  else
    let choice := a.settle completed (a.goingOn s token)
    (if choice.reduces then (strongest completed).map a.complete else []) ++
      (if choice.shifts then [.shift behind] else [])

/-- What a state can do. -/
def row (a : Items) (s : ItemSet) : Row ItemSet :=
  let expected := a.reach s
  let moves := a.moves s expected
  let completed := a.completed s expected
  let terminals := a.terminals
  { actions := (Array.range terminals).map fun token =>
      a.actionsOn s token (moves[token]?.getD [])
        ((completed.filter (·.2.testBit token)).map (·.1))
    gotos := (moves.extract terminals moves.size).map fun behind =>
      if behind.isEmpty then none else some behind }

end Items

/-- The automaton of a grammar whose first production makes the whole text from its second
construct. -/
def automaton (g : Compiled) : Automaton ItemSet :=
  { start := [(0, TokenSet.single 0)], row := (itemsOf g).row }

end GoGlobals.Grammar
