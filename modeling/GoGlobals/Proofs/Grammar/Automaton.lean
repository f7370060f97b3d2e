import GoGlobals.Grammar.Automaton
import Mathlib.Logic.Function.Basic
import Std.Data.HashMap.Lemmas

/-!
# Numbered states

Numbering the states of an automaton changes their names and nothing else.  A state is found again
from its number, so no two states get the same name, and a state does under its name what it does by
itself.  How many states are numbered, and whether those are all that can be reached, makes no
difference.

## What is here

* `Numbering.Faithful`: the number of a state is its place among the states.
* `Automaton.names` is the numbering behind `Automaton.tabulate`, and `name_injective` says that
  different states have different names.
* `Automaton.actions_tabulate` and `Automaton.goto?_tabulate`: what a state does under its name.
-/

set_option autoImplicit false

namespace GoGlobals.Grammar

variable {σ : Type}

/-! ## Rows under other names -/

namespace Row

variable {τ : Type} (f : σ → τ) (r : Row σ)

theorem actions_map (token : Nat) :
    (r.map f).actions[token]?.getD [] = (r.actions[token]?.getD []).map (·.map f) := by
  rw [Row.map, Array.getElem?_map]
  cases r.actions[token]? with
  | none => rfl
  | some cell => rfl

theorem gotos_map (construct : Nat) :
    (r.map f).gotos[construct]?.join = r.gotos[construct]?.join.map f := by
  rw [Row.map, Array.getElem?_map]
  cases r.gotos[construct]? with
  | none => rfl
  | some cell => rfl

end Row

variable [BEq σ] [Hashable σ]

/-! ## Numbers -/

namespace Numbering

/-- The number of a state is its place among the states. -/
def Faithful (n : Numbering σ) : Prop :=
  ∀ (s : σ) (i : Nat), n.numbers[s]? = some i → n.states[i]? = some s

/-- A state keeps its place when others get numbers. -/
theorem states_add {n : Numbering σ} {s t : σ} {i : Nat} (h : n.states[i]? = some t) :
    (n.add s).states[i]? = some t := by
  rw [Numbering.add]
  split
  · exact h
  · have hlt := (Array.getElem?_eq_some_iff.1 h).1
    simp [Array.getElem?_push, Nat.ne_of_lt hlt, h]

theorem Faithful.name_injective {n : Numbering σ} (h : n.Faithful) :
    Function.Injective n.name := by
  intro s t heq
  rw [name, name] at heq
  cases hs : n.numbers[s]? with
  | none =>
    cases ht : n.numbers[t]? with
    | none => simpa [hs, ht] using heq
    | some j => simp [hs, ht] at heq
  | some i =>
    cases ht : n.numbers[t]? with
    | none => simp [hs, ht] at heq
    | some j =>
      obtain rfl : i = j := by simpa [hs, ht] using heq
      exact Option.some.inj ((h s i hs).symm.trans (h t i ht))

variable [LawfulBEq σ] [LawfulHashable σ]

theorem faithful_empty : Faithful ({} : Numbering σ) := by
  intro s i h
  exact absurd h (by simp)

theorem Faithful.add {n : Numbering σ} (h : n.Faithful) (s : σ) : (n.add s).Faithful := by
  intro t i ht
  have hold : n.numbers[t]? = some i → (n.add s).states[i]? = some t :=
    fun hi => states_add (h t i hi)
  rw [Numbering.add] at ht hold ⊢
  split at ht
  · rename_i hknown
    simpa only [hknown, if_true] using hold ht
  · rename_i hnew
    simp only [hnew] at hold ⊢
    rw [Std.HashMap.getElem?_insert] at ht
    split at ht
    · rename_i heq
      obtain rfl := Option.some.inj ht
      simp [eq_of_beq heq]
    · exact hold ht

end Numbering

/-! ## Exploring -/

namespace Automaton

variable (a : Automaton σ)

/-- The numbers are faithful, and the rows are those of the states with their numbers. -/
structure Explored (n : Numbering σ) (rows : Array (Row σ)) : Prop where
  faithful : n.Faithful
  rows : ∀ (i : Nat) (row : Row σ), rows[i]? = some row →
    ∃ s, n.states[i]? = some s ∧ row = a.row s

variable {a}

theorem Explored.push {n : Numbering σ} {rows : Array (Row σ)} (h : a.Explored n rows) {s : σ}
    (hs : n.states[rows.size]? = some s) : a.Explored n (rows.push (a.row s)) := by
  refine ⟨h.faithful, fun i row hrow => ?_⟩
  rw [Array.getElem?_push] at hrow
  split at hrow
  · rename_i hi
    exact ⟨s, hi ▸ hs, (Option.some.inj hrow).symm⟩
  · exact h.rows i row hrow

variable [LawfulBEq σ] [LawfulHashable σ]

theorem Explored.foldl_add {n : Numbering σ} {rows : Array (Row σ)} (h : a.Explored n rows)
    (ss : List σ) : a.Explored (ss.foldl Numbering.add n) rows := by
  induction ss generalizing n with
  | nil => exact h
  | cons s ss ih =>
    refine ih ⟨h.faithful.add s, fun i row hrow => ?_⟩
    obtain ⟨t, ht, rfl⟩ := h.rows i row hrow
    exact ⟨t, Numbering.states_add ht, rfl⟩

theorem Explored.explore (fuel : Nat) : ∀ {n : Numbering σ} {rows : Array (Row σ)},
    a.Explored n rows → a.Explored (a.explore fuel n rows).1 (a.explore fuel n rows).2 := by
  induction fuel with
  | zero => exact fun h => h
  | succ fuel ih =>
    intro n rows h
    rw [Automaton.explore]
    cases hs : n.states[rows.size]? with
    | none => exact h
    | some s => exact ih ((h.push hs).foldl_add _)

variable (a)

/-- The numbers of states behind a table. -/
def names (limit : Nat) : Numbering σ :=
  (a.explore limit (Numbering.add {} a.start) #[]).1

theorem explored_names (limit : Nat) : a.Explored (a.names limit)
    (a.explore limit (Numbering.add {} a.start) #[]).2 :=
  .explore limit ⟨Numbering.faithful_empty.add a.start, fun i row h => absurd h (by simp)⟩

/-- Different states have different names. -/
theorem name_injective (limit : Nat) : Function.Injective (a.names limit).name :=
  (a.explored_names limit).faithful.name_injective

/-- The row of a state in the table is its own row under the names of the table. -/
theorem row_tabulate (limit : Nat) (s : σ) :
    (a.tabulate limit).row ((a.names limit).name s) = (a.row s).map (a.names limit).name := by
  obtain ⟨hfaithful, hrows⟩ := a.explored_names limit
  have hnames : (a.explore limit (Numbering.add {} a.start) #[]).1 = a.names limit := rfl
  simp only [tabulate, hnames]
  rw [Numbering.name]
  cases hs : (a.names limit).numbers[s]? with
  | none => rfl
  | some i =>
    have hstate := hfaithful s i hs
    simp only [Array.getElem?_map]
    cases hrow : (a.explore limit (Numbering.add {} a.start) #[]).2[i]? with
    | none => simp [hstate]
    | some row =>
      obtain ⟨t, ht, rfl⟩ := hrows i row hrow
      obtain rfl := Option.some.inj (ht.symm.trans hstate)
      rfl

/-- **A state does under its name what it does by itself** with a token. -/
theorem actions_tabulate (limit : Nat) (s : σ) (token : Nat) :
    (a.tabulate limit).actions ((a.names limit).name s) token =
      (a.actions s token).map (·.map (a.names limit).name) := by
  rw [actions, row_tabulate, Row.actions_map, actions]

theorem goto?_tabulate (limit : Nat) (s : σ) (construct : Nat) :
    (a.tabulate limit).goto? ((a.names limit).name s) construct =
      (a.goto? s construct).map (a.names limit).name := by
  rw [goto?, row_tabulate, Row.gotos_map, goto?]

end Automaton

end GoGlobals.Grammar
