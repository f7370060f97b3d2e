import GoGlobals.Grammar.Automaton
import GoGlobals.Text.Cursor
import GoGlobals.Tree.Node

/-!
# Readings

A reading of a stretch of text is a derivation: it says which symbol the text is and how that symbol
is made of parts.  Two readings of one text as one symbol are told apart by what they weigh, and if
that is the same by their shape.

## What is here

* `Forest` holds the nodes that a reading contributes to the syntax tree.  The reading of a symbol
  without a node contributes those of its parts, and nodes get their fields and kinds from the rule
  that they are parts in, so a forest is put together first and listed once.
* `Reading` with `Reading.leaf`, for a token, and `Reading.branch?`, for a construct.  The latter
  fails unless the grammar has a production that says so: every reading is a derivation.
* `Reading.order` is the order by shape.
-/

set_option autoImplicit false

namespace GoGlobals.Grammar

open Text (Place Cursor)

/-! ## Nodes side by side -/

/-- The nodes of a reading, in order. -/
inductive Forest where
  | empty
  | node (n : Node)
  | join (left right : Forest)
  /-- The nodes as parts with a label. -/
  | labelled (label : Label) (f : Forest)
deriving Inhabited

/-- A node as a part with a label.  A field that it has already stays. -/
def Label.apply (label : Label) (n : Node) : Node :=
  { n with
    kind := label.kind.getD n.kind
    named := n.named || label.kind.isSome
    field := n.field <|> label.field }

/-- The nodes of a forest, each changed by `f`, in front of others. -/
def Forest.listBefore (f : Node → Node) : Forest → List Node → List Node
  | .empty, after => after
  | .node n, after => f n :: after
  | .join left right, after => left.listBefore f (right.listBefore f after)
  | .labelled label inner, after => inner.listBefore (fun n => f (label.apply n)) after

/-- A forest as parts with a label. -/
def Forest.label (label : Label) (f : Forest) : Forest :=
  if label = {} then f else .labelled label f

/-! ## Readings -/

/-- A token of a text. -/
structure Token where
  symbol : Nat
  /-- Another symbol that the token can be where the first one cannot stand. -/
  otherwise : Option Nat := none
  start : Place
  stop : Cursor
  /-- The token may stand anywhere and is part of no rule. -/
  extra : Bool := false

/-- A stretch of text as a symbol of the grammar. -/
structure Reading where
  symbol : Nat
  /-- The offset where the white space in front of the text starts. -/
  origin : Nat
  start : Place
  stop : Cursor
  weight : Int := 0
  extra : Bool := false
  forest : Forest := .empty
  parts : List Reading := []
deriving Inhabited

namespace Reading

/-- The node of a symbol over a stretch of text. -/
def nodeOf (s : Symbol) (start : Place) (stop : Cursor) (children : List Node) : Node :=
  { kind := s.kind
    start := start.offset
    stop := stop.offset
    row := start.row
    column := start.column
    named := s.isNamed
    children }

/-- The reading of a token behind white space that starts at `origin`. -/
def leaf (g : Compiled) (origin : Nat) (t : Token) : Reading :=
  { symbol := t.symbol
    origin
    start := t.start
    stop := t.stop
    extra := t.extra
    forest := .node (nodeOf (g.symbol t.symbol) t.start t.stop []) }

/-- The forests of parts, with their labels; a part that belongs to no rule has none. -/
def forests : List Reading → List Label → List Forest
  | [], _ => []
  | p :: ps, labels =>
    if p.extra then p.forest :: forests ps labels
    else match labels with
      | [] => p.forest :: forests ps []
      | label :: labels => p.forest.label label :: forests ps labels

/-- The symbols of parts, those apart that belong to no rule. -/
def symbols (parts : List Reading) : List Nat :=
  (parts.filter (!·.extra)).map (·.symbol)

/-- The reading of a construct from its parts, if a production makes it from them with these labels;
one without parts is at `here`. -/
def branch? (g : Compiled) (r : Reduction) (here : Cursor) (parts : List Reading) :
    Option Reading :=
  if g.allows r.head (symbols parts) r.labels then
    let first := parts.head?
    let start := (first.map (·.start)).getD here.place
    let stop := (parts.getLast?.map (·.stop)).getD here
    let fs := forests parts r.labels
    let s := g.symbol r.head
    some
      { symbol := r.head
        origin := (first.map (·.origin)).getD here.offset
        start
        stop
        weight := parts.foldl (fun sum p => sum + p.weight) r.weight
        forest :=
          if s.isVisible then
            .node (nodeOf s start stop (fs.foldr (fun f after => f.listBefore id after) []))
          else fs.foldl .join .empty
        parts }
  else none

/-- A reading of a construct is a production with a reading of each of its symbols. -/
theorem allows_of_branch? {g : Compiled} {r : Reduction} {here : Cursor} {parts : List Reading}
    {t : Reading} (h : branch? g r here parts = some t) :
    g.allows t.symbol (symbols t.parts) r.labels = true ∧ t.symbol = r.head ∧ t.parts = parts := by
  unfold branch? at h
  split at h
  next allowed =>
    obtain rfl := Option.some.inj h
    exact ⟨allowed, rfl, rfl⟩
  next => exact absurd h (by simp)

/-- Are the two readings of the same symbol, over the same text, from as many parts? -/
def alike (a b : Reading) : Bool :=
  a.symbol == b.symbol && a.origin == b.origin && a.start.offset == b.start.offset &&
    a.stop.offset == b.stop.offset && a.extra == b.extra && a.parts.length == b.parts.length

mutual

/-- The order of readings by shape: the symbol that is defined first comes first, then fewer parts,
then the parts one after the other. -/
def order : Reading → Reading → Ordering
  | ⟨s, _, _, _, _, _, _, ps⟩, ⟨t, _, _, _, _, _, _, qs⟩ =>
    (compare s t).then ((compare ps.length qs.length).then (orderAll ps qs))

/-- The order of readings one after the other. -/
def orderAll : List Reading → List Reading → Ordering
  | [], [] => .eq
  | [], _ :: _ => .lt
  | _ :: _, [] => .gt
  | p :: ps, q :: qs => (order p q).then (orderAll ps qs)

end

/-- Is the second reading the better one? -/
def worse (a b : Reading) : Bool :=
  a.weight < b.weight || (a.weight == b.weight && order a b == .gt)

/-- The better of two readings; the first if they are equal. -/
def better (a b : Reading) : Reading :=
  if a.worse b then b else a

end Reading

end GoGlobals.Grammar
