import GoGlobals.Grammar.Production
import Std.Data.HashMap

/-!
# Automata that read by shifting and reducing

A reader of this kind has a stack of symbols it has recognised.  Its state says what it can do with
the next token: *shift* it onto the stack, or first *reduce* the symbols on top of the stack to the
construct that they make.  A state may allow several of these at once.

## What is here

* `Automaton` gives every state its row of actions.
* `Automaton.tabulate` numbers the states that can be reached from the start and stores their rows
  in an array, so that each row is made once.  A state that is left without a number stands for
  itself, so it does not matter to the automaton how many states are numbered.
-/

set_option autoImplicit false

namespace GoGlobals.Grammar

/-- How symbols on the stack become a construct: its number, what its rule says of each of its
parts, and what the reading weighs. -/
structure Reduction where
  head : Nat
  labels : List Label
  weight : Int
deriving Inhabited

/-- What a state can do with a token. -/
inductive Action (σ : Type) where
  | shift (next : σ)
  | reduce (r : Reduction)
  | accept

/-- The action with another name for the state that it leads to. -/
def Action.map {σ τ : Type} (f : σ → τ) : Action σ → Action τ
  | shift next => shift (f next)
  | reduce r => reduce r
  | accept => accept

/-- The state that an action leads to. -/
def Action.next? {σ : Type} : Action σ → Option σ
  | shift next => some next
  | reduce _ | accept => none

/-- What a state can do: with each token, and with a construct that was recognised. -/
structure Row (σ : Type) where
  /-- The actions by the number of the token, reductions first. -/
  actions : Array (List (Action σ)) := #[]
  /-- The next states by the number of the construct, counted from the first construct. -/
  gotos : Array (Option σ) := #[]
deriving Inhabited

/-- The row with other names for the states that it leads to. -/
def Row.map {σ τ : Type} (f : σ → τ) (r : Row σ) : Row τ :=
  { actions := r.actions.map fun cell => cell.map (·.map f)
    gotos := r.gotos.map fun cell => cell.map f }

/-- The states that a row leads to. -/
def Row.targets {σ : Type} (r : Row σ) : List σ :=
  (r.actions.toList.flatMap fun cell => cell.filterMap Action.next?) ++ r.gotos.toList.filterMap id

/-- A first state, and what each state can do. -/
structure Automaton (σ : Type) where
  start : σ
  row : σ → Row σ

namespace Automaton

variable {σ : Type}

/-- What a state can do with a token. -/
def actions (a : Automaton σ) (state : σ) (token : Nat) : List (Action σ) :=
  (a.row state).actions[token]?.getD []

/-- The state after a construct, numbered from the first construct on. -/
def goto? (a : Automaton σ) (state : σ) (construct : Nat) : Option σ :=
  (a.row state).gotos[construct]?.join

end Automaton

/-! ## Numbering the states -/

/-- The states found so far, in the order of their numbers, and their numbers. -/
structure Numbering (σ : Type) [BEq σ] [Hashable σ] where
  states : Array σ := #[]
  numbers : Std.HashMap σ Nat := {}

section

variable {σ : Type} [BEq σ] [Hashable σ]

/-- Gives a state the next number, if it has none. -/
def Numbering.add (n : Numbering σ) (s : σ) : Numbering σ :=
  if n.numbers.contains s then n
  else ⟨n.states.push s, n.numbers.insert s n.states.size⟩

/-- The number of a state, or the state itself if it has none. -/
def Numbering.name (n : Numbering σ) (s : σ) : Nat ⊕ σ :=
  match n.numbers[s]? with
  | some i => .inl i
  | none => .inr s

/-- The rows of the states from number `rows.size` on, at most `fuel` of them, after the rows made so
far, and the numbers of the states that they lead to. -/
def Automaton.explore (a : Automaton σ) :
    (fuel : Nat) → Numbering σ → (rows : Array (Row σ)) → Numbering σ × Array (Row σ)
  | 0, n, rows => (n, rows)
  | fuel + 1, n, rows =>
    match n.states[rows.size]? with
    | none => (n, rows)
    | some s =>
      let row := a.row s
      a.explore fuel (row.targets.foldl Numbering.add n) (rows.push row)

/-- The automaton with its states numbered in the order in which they are reached from the first
one.  The rows of at most `limit` states are stored. -/
def Automaton.tabulate (a : Automaton σ) (limit : Nat) : Automaton (Nat ⊕ σ) :=
  let (n, rows) := a.explore limit (Numbering.add {} a.start) #[]
  let stored := rows.map (Row.map n.name)
  { start := n.name a.start
    row := fun
      | .inl i =>
        match stored[i]? with
        | some row => row
        | none => (n.states[i]?.map fun s => (a.row s).map n.name).getD {}
      | .inr s => (a.row s).map n.name }

end

end GoGlobals.Grammar
