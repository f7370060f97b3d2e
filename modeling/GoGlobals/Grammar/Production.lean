import GoGlobals.Grammar.Rule
import Std.Data.HashSet

/-!
# Productions

A production is one sequence of symbols that makes a construct.  The definitions of a grammar are
turned into productions in two steps: a repetition becomes a symbol of its own, which is two of
itself or one of what is repeated, and then every choice is multiplied out.

## What is here

* `Definition.unfold` gives repetitions symbols and definitions of their own.
* `Rule.forms` multiplies out the choices of a rule.
* `Compiled` is a grammar in numbers.  The end of the text is 0, the other tokens come next and the
  constructs after them, each in the order of the definitions, the repetitions last.
-/

set_option autoImplicit false

namespace GoGlobals.Grammar

/-- What a rule says of a part: its field and its kind, if it names them. -/
structure Label where
  field : Option String := none
  kind : Option String := none
deriving DecidableEq, Hashable, Repr, Inhabited

/-! ## Repetitions -/

/-- The repeated rules of a definition that have a symbol so far, each with that symbol. -/
abbrev Repetitions := List (Rule × Symbol)

/-- Puts symbols for the repetitions in a rule; equal repetitions share one. -/
def Rule.unfold (name : String) : Rule → Repetitions → Rule × Repetitions
  | .blank, known => (.blank, known)
  | .symbol s, known => (.symbol s, known)
  | .chain a b, known =>
    let (a, known) := a.unfold name known
    let (b, known) := b.unfold name known
    (.chain a b, known)
  | .either a b, known =>
    let (a, known) := a.unfold name known
    let (b, known) := b.unfold name known
    (.either a b, known)
  | .field f r, known =>
    let (r, known) := r.unfold name known
    (.field f r, known)
  | .kind k r, known =>
    let (r, known) := r.unfold name known
    (.kind k r, known)
  | .repeated r, known =>
    let (r, known) := r.unfold name known
    match known.lookup r with
    | some s => (.symbol s, known)
    | none =>
      let s := .repetition name known.length
      (.symbol s, known ++ [(r, s)])

/-- A definition without repetitions, and the definitions of its repetitions. -/
def Definition.unfold (d : Definition) : Definition × List Definition :=
  let (alternatives, known) := d.alternatives.foldl
    (fun (done, known) a =>
      let (rule, known) := a.rule.unfold d.symbol.kind known
      (done ++ [{ a with rule }], known))
    ([], [])
  (⟨d.symbol, alternatives⟩,
    known.map fun (r, s) => ⟨s, [{ rule := .either (.chain (.symbol s) (.symbol s)) r }]⟩)

/-- The definitions of a grammar without repetitions. -/
def unfoldAll (definitions : List Definition) : List Definition :=
  let unfolded := definitions.map Definition.unfold
  unfolded.map (·.1) ++ unfolded.flatMap (·.2)

/-! ## Choices -/

/-- The sequences of labelled symbols that a rule stands for, inside a label.  Of two labels around
a symbol the inner one counts. -/
def Rule.forms : Rule → Label → List (List (Symbol × Label))
  | .blank, _ => [[]]
  | .symbol s, label => [[(s, label)]]
  | .chain a b, label =>
    (a.forms label).flatMap fun first => (b.forms label).map fun second => first ++ second
  | .either a b, label => a.forms label ++ b.forms label
  | .field f r, label => r.forms { label with field := some f }
  | .kind k r, label => r.forms { label with kind := some k }
  | .repeated r, label => r.forms label

/-- The symbols of a rule, from left to right. -/
def Rule.symbols : Rule → List Symbol
  | .blank => []
  | .symbol s => [s]
  | .chain a b => a.symbols ++ b.symbols
  | .either a b => a.symbols ++ b.symbols
  | .repeated r => r.symbols
  | .field _ r => r.symbols
  | .kind _ r => r.symbols

/-! ## Numbers -/

/-- A part of a production: the number of its symbol, and its label. -/
structure Step where
  symbol : Nat
  label : Label := {}
deriving DecidableEq, Repr, Inhabited

/-- A sequence of symbols that makes the construct with the number `head`. -/
structure Production where
  head : Nat
  steps : List Step
  precedence : Int := 0
  side : Option Side := none
  weight : Int := 0
deriving DecidableEq, Repr, Inhabited

/-- The number of a symbol in a list of symbols, 0 for one that is not in it. -/
def numberIn (symbols : List Symbol) (s : Symbol) : Nat :=
  (symbols.idxOf? s).getD 0

/-- A grammar in numbers: symbols are numbers, and the first `terminals` of them are tokens. -/
structure Compiled where
  symbols : Array Symbol := #[]
  terminals : Nat := 0
  /-- The productions of each construct, in the order of the constructs. -/
  families : List (List Production) := []
  /-- The head of each production with the symbols that it is made from and their labels. -/
  makings : Std.HashSet (Nat × List Nat × List Label) := {}

namespace Compiled

/-- All productions. -/
def productions (g : Compiled) : List Production :=
  g.families.flatten

/-- The number of a symbol, 0 for one that is not in the grammar. -/
def number (g : Compiled) (s : Symbol) : Nat :=
  numberIn g.symbols.toList s

/-- The symbol with a number. -/
def symbol (g : Compiled) (n : Nat) : Symbol :=
  g.symbols[n]?.getD .finish

/-- Does some production make this construct from these symbols and give them these labels? -/
def allows (g : Compiled) (head : Nat) (parts : List Nat) (labels : List Label) : Bool :=
  g.makings.contains (head, parts, labels)

end Compiled

/-- The productions of a definition, with the numbers of symbols given. -/
def Definition.productions (d : Definition) (number : Symbol → Nat) : List Production :=
  let all := d.alternatives.flatMap fun a =>
    (a.rule.forms {}).map fun form =>
      { head := number d.symbol
        steps := form.map fun (s, label) => ⟨number s, label⟩
        precedence := a.precedence
        side := a.side
        weight := a.weight : Production }
  all.eraseDups

/-- The tokens of definitions, the given ones first, each once. -/
def terminalsOf (first : List Symbol) (definitions : List Definition) : List Symbol :=
  (first ++ (definitions.flatMap fun d => d.alternatives.flatMap fun a => a.rule.symbols).filter
    Symbol.isTerminal).eraseDups

/-- A grammar in numbers.  The tokens `first` get the least numbers after the end of the text. -/
def compile (first : List Symbol) (definitions : List Definition) : Compiled :=
  let definitions := unfoldAll definitions
  let terminals := terminalsOf (.finish :: first) definitions
  let symbols := terminals ++ definitions.map (·.symbol)
  let families := definitions.map fun d => d.productions (numberIn symbols)
  { symbols := symbols.toArray
    terminals := terminals.length
    families
    makings := .ofList
      (families.flatten.map fun p => (p.head, p.steps.map (·.symbol), p.steps.map (·.label))) }

end GoGlobals.Grammar
