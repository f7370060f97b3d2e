import GoGlobals.Grammar.Item
import Mathlib.Data.Nat.Bitwise

/-!
# One cell of a row

A row is made for all tokens and constructs at once, with an array that is filled on the way.  What
a state does with a single token needs only the items behind that token.  `Items.behind` collects
these, and a cell of the row is what they and the completed items say.

## What is here

* `Items.behind` and `Items.moves_eq`: the items behind a symbol are what `Items.moves` finds for it.
* `actions_automaton` and `goto?_automaton`: single cells of the automaton of a grammar.
-/

set_option autoImplicit false

namespace GoGlobals.Grammar

theorem Table.entry_zero (width i : Nat) : Table.entry width 0 i = 0 := by
  simp [Table.entry]

/-- Steps that change an entry of an array each in its own way, as that entry sees them. -/
theorem getElem?_foldl {α β : Type} {x : Nat} {step : Array α → β → Array α} {f : α → β → α}
    (hstep : ∀ as b, (step as b)[x]? = as[x]?.map (f · b)) (bs : List β) (as : Array α) :
    (bs.foldl step as)[x]? = as[x]?.map fun a => bs.foldl f a := by
  induction bs generalizing as with
  | nil => simp
  | cons b bs ih => simp [ih, hstep, Function.comp_def]

theorem getElem?_modify_insert (moves : Array ItemSet) (x y successor : Nat) (tokens : TokenSet) :
    (moves.modify y (ItemSet.insert successor tokens))[x]? =
      moves[x]?.map fun found =>
        if y = x then ItemSet.insert successor tokens found else found := by
  rw [Array.getElem?_modify]
  by_cases hx : y = x
  · simp [hx]
  · simp [hx]

namespace Items

variable (a : Items)

/-- The items of a state behind a symbol that they expect. -/
def ownBehind (s : ItemSet) (x : Nat) : ItemSet :=
  s.foldl
    (fun found (n, tokens) =>
      if (a.item n).next = some x then ItemSet.insert (a.item n).successor tokens found else found)
    []

/-- The constructs with a production that starts with a symbol, and the item behind it. -/
def openers (x : Nat) : List (Nat × Nat) :=
  (List.range (a.size - a.terminals)).flatMap fun construct =>
    (a.openings construct).filterMap fun (y, successor) =>
      if y = x then some (construct, successor) else none

/-- The items behind a symbol, given what the state expects. -/
def behind (s : ItemSet) (expected : Table) (x : Nat) : ItemSet :=
  (a.openers x).foldl
    (fun found (construct, successor) =>
      let tokens := expected.entry a.terminals construct
      if tokens = 0 then found else ItemSet.insert successor tokens found)
    (a.ownBehind s x)

/-- Going through all openings and keeping those with a symbol. -/
theorem behind_eq (s : ItemSet) (expected : Table) (x : Nat) :
    a.behind s expected x =
      (List.range (a.size - a.terminals)).foldl
        (fun found construct =>
          let tokens := expected.entry a.terminals construct
          if tokens = 0 then found
          else
            (a.openings construct).foldl
              (fun found (y, successor) =>
                if y = x then ItemSet.insert successor tokens found else found)
              found)
        (a.ownBehind s x) := by
  rw [behind, openers, List.foldl_flatMap]
  congr 1
  funext found construct
  rw [List.foldl_filterMap]
  simp only []
  split
  · rename_i hzero
    induction a.openings construct with
    | nil => rfl
    | cons o os ih =>
      by_cases hx : o.1 = x
      · simpa [hx, hzero] using ih
      · simpa [hx] using ih
  · rename_i hsome
    congr 1
    funext found o
    by_cases hx : o.1 = x
    · simp [hx, hsome]
    · simp [hx]

theorem ownMoves_eq (s : ItemSet) {x : Nat} (hx : x < a.size) :
    (a.ownMoves s)[x]? = some (a.ownBehind s x) := by
  refine (getElem?_foldl (fun moves entry => ?_) s _).trans
    (congrArg (Option.map _) (Array.getElem?_replicate.trans (if_pos hx)))
  obtain ⟨n, tokens⟩ := entry
  simp only []
  cases (a.item n).next with
  | none => simp
  | some y => simp [getElem?_modify_insert]

theorem moves_eq (s : ItemSet) (expected : Table) {x : Nat} (hx : x < a.size) :
    (a.moves s expected)[x]? = some (a.behind s expected x) := by
  rw [moves, behind_eq]
  split
  · rename_i hzero
    have hnothing : ∀ (found : ItemSet) (cs : List Nat),
        cs.foldl (fun found _ => found) found = found := by
      intro found cs
      induction cs with
      | nil => rfl
      | cons c cs ih => exact ih
    simp only [hzero, Table.entry_zero, if_true, hnothing]
    exact a.ownMoves_eq s hx
  · rw [getElem?_foldl (fun moves construct => ?_), a.ownMoves_eq s hx]
    · rfl
    · simp only []
      split
      · simp
      · exact getElem?_foldl (fun moves ⟨y, successor⟩ => getElem?_modify_insert ..) _ _

/-- What a state can do with a token. -/
def actionsAt (s : ItemSet) (token : Nat) : List (Action ItemSet) :=
  a.actionsOn s token (a.behind s (a.reach s) token)
    (((a.completed s (a.reach s)).filter (·.2.testBit token)).map (·.1))

/-- The state behind a symbol, if it can come next. -/
def next? (s : ItemSet) (x : Nat) : Option ItemSet :=
  let behind := a.behind s (a.reach s) x
  if behind.isEmpty then none else some behind

theorem actions_row (s : ItemSet) {token : Nat} (htoken : token < a.terminals)
    (hsize : a.terminals ≤ a.size) :
    (a.row s).actions[token]? = some (a.actionsAt s token) := by
  rw [row, actionsAt]
  simp only [Array.getElem?_map, Array.getElem?_range, if_pos htoken, Option.map_some,
    a.moves_eq s _ (Nat.lt_of_lt_of_le htoken hsize), Option.getD_some]

theorem gotos_row (s : ItemSet) {construct : Nat}
    (hconstruct : a.terminals + construct < a.size) :
    (a.row s).gotos[construct]? = some (a.next? s (a.terminals + construct)) := by
  have hmoves := a.moves_eq s (a.reach s) hconstruct
  have hlt := (Array.getElem?_eq_some_iff.1 hmoves).1
  rw [row, next?]
  simp only [Array.getElem?_map, Array.getElem?_extract]
  rw [if_pos (by omega), hmoves]
  rfl

end Items

variable (g : Compiled) (s : ItemSet)

/-- A cell of the row of a state: what it does with a token. -/
theorem actions_automaton {token : Nat} (htoken : token < g.terminals)
    (hsize : g.terminals ≤ g.symbols.size) :
    (automaton g).actions s token = (itemsOf g).actionsAt s token := by
  rw [Automaton.actions, automaton, (itemsOf g).actions_row s htoken hsize, Option.getD_some]

/-- A cell of the row of a state: where a construct leads. -/
theorem goto?_automaton {construct : Nat} (hconstruct : g.terminals + construct < g.symbols.size) :
    (automaton g).goto? s construct = (itemsOf g).next? s (g.terminals + construct) := by
  rw [Automaton.goto?, automaton, (itemsOf g).gotos_row s hconstruct]
  rfl

end GoGlobals.Grammar
