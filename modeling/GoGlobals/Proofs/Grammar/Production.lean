import GoGlobals.Grammar.Production
import Std.Data.HashSet.Lemmas

/-!
# A grammar in numbers

Numbering the symbols of a grammar loses nothing.  A symbol is found again from its number, and a
construct is allowed to be made from symbols only if some definition has a form that says so, with
the labels it says (`exists_form_of_allows`).

So what holds of all forms of the definitions holds of everything that is read with the grammar.
-/

set_option autoImplicit false

namespace GoGlobals.Grammar

/-! ## Symbols and their numbers -/

theorem Compiled.symbol_number_of_mem {g : Compiled} {s : Symbol} (h : s ∈ g.symbols) :
    g.symbol (g.number s) = s := by
  rw [number, numberIn]
  cases hi : g.symbols.toList.idxOf? s with
  | none => exact absurd (Array.mem_toList_iff.2 h) (List.idxOf?_eq_none_iff.1 hi)
  | some i =>
    obtain ⟨hlt, heq, -⟩ := List.idxOf?_eq_some_iff.1 hi
    rw [Option.getD_some, symbol, ← Array.getElem?_toList, List.getElem?_eq_getElem hlt, heq,
      Option.getD_some]

theorem Compiled.symbol_mem {g : Compiled} (n : Nat) : g.symbol n ∈ g.symbols ∨
    g.symbol n = .finish := by
  rw [symbol]
  cases h : g.symbols[n]? with
  | none => exact .inr rfl
  | some s => exact .inl (Array.mem_of_getElem? h)

/-- The symbol without a number of its own gets that of the end of the text. -/
theorem symbol_zero (first : List Symbol) (definitions : List Definition) :
    (compile first definitions).symbol 0 = .finish := by
  rw [Compiled.symbol, compile, terminalsOf, List.cons_append, List.eraseDups_cons,
    List.getElem?_toArray]
  rfl

theorem symbol_number (first : List Symbol) (definitions : List Definition) (s : Symbol) :
    (compile first definitions).symbol ((compile first definitions).number s) = s ∨
      (compile first definitions).symbol ((compile first definitions).number s) = .finish := by
  by_cases h : s ∈ (compile first definitions).symbols
  · exact .inl (Compiled.symbol_number_of_mem h)
  · refine .inr ?_
    rw [Compiled.number, numberIn, List.idxOf?_eq_none_iff.2 fun hmem =>
      h (Array.mem_toList_iff.1 hmem)]
    exact symbol_zero first definitions

section

variable {first : List Symbol} {definitions : List Definition}

/-- The symbols of a grammar: the end of the text, the tokens given first, the tokens in its rules,
and what it defines. -/
theorem mem_symbols_iff {s : Symbol} : s ∈ (compile first definitions).symbols ↔
    s = .finish ∨ s ∈ first ∨
      (∃ d ∈ unfoldAll definitions, ∃ a ∈ d.alternatives, s ∈ a.rule.symbols ∧
        s.isTerminal = true) ∨
      ∃ d ∈ unfoldAll definitions, d.symbol = s := by
  rw [compile, List.mem_toArray, List.mem_append, terminalsOf, List.mem_eraseDups,
    List.mem_append, List.mem_cons, List.mem_filter]
  simp only [List.mem_flatMap, List.mem_map, or_assoc]
  refine or_congr_right (or_congr_right (or_congr_left ?_))
  constructor
  · rintro ⟨⟨d, hd, a, ha, hs⟩, hterminal⟩
    exact ⟨d, hd, a, ha, hs, hterminal⟩
  · rintro ⟨d, hd, a, ha, hs, hterminal⟩
    exact ⟨⟨d, hd, a, ha, hs⟩, hterminal⟩

/-! ## Forms -/

/-- The definition allows its construct to be made from these symbols with these labels. -/
def Definition.HasForm (d : Definition) (form : List (Symbol × Label)) : Prop :=
  ∃ a ∈ d.alternatives, form ∈ a.rule.forms {}

/-- **A construct is made in a way that its definition allows.** -/
theorem exists_form_of_allows {head : Nat} {parts : List Nat} {labels : List Label}
    (h : (compile first definitions).allows head parts labels = true) :
    ∃ d ∈ unfoldAll definitions, ∃ form, d.HasForm form ∧
      head = (compile first definitions).number d.symbol ∧
      parts = form.map (fun step => (compile first definitions).number step.1) ∧
      labels = form.map (·.2) := by
  rw [Compiled.allows, compile, Std.HashSet.contains_ofList, List.contains_iff_mem,
    List.mem_map] at h
  obtain ⟨p, hp, heq⟩ := h
  rw [← List.flatMap_def] at hp
  obtain ⟨d, hd, hp⟩ := List.mem_flatMap.1 hp
  rw [Definition.productions, List.mem_eraseDups, List.mem_flatMap] at hp
  obtain ⟨a, ha, hp⟩ := hp
  obtain ⟨form, hform, rfl⟩ := List.mem_map.1 hp
  simp only [Prod.mk.injEq, List.map_map] at heq
  obtain ⟨rfl, rfl, rfl⟩ := heq
  exact ⟨d, hd, form, ⟨a, ha, hform⟩, rfl, rfl, rfl⟩

theorem Definition.HasForm.exists_production {d : Definition} {form : List (Symbol × Label)}
    (h : d.HasForm form) (number : Symbol → Nat) :
    ∃ p ∈ d.productions number, p.head = number d.symbol ∧
      p.steps = form.map fun (s, label) => ⟨number s, label⟩ := by
  obtain ⟨a, ha, hform⟩ := h
  refine ⟨⟨number d.symbol, form.map fun (s, label) => ⟨number s, label⟩, a.precedence, a.side,
    a.weight⟩, ?_, rfl, rfl⟩
  rw [Definition.productions, List.mem_eraseDups, List.mem_flatMap]
  exact ⟨a, ha, List.mem_map.2 ⟨form, hform, rfl⟩⟩

/-- A construct may be made in every way that its definition has. -/
theorem allows_of_hasForm {d : Definition} (hd : d ∈ unfoldAll definitions)
    {form : List (Symbol × Label)} (hform : d.HasForm form) :
    (compile first definitions).allows ((compile first definitions).number d.symbol)
      (form.map fun step => (compile first definitions).number step.1) (form.map (·.2)) = true := by
  rw [Compiled.allows, compile, Std.HashSet.contains_ofList, List.contains_iff_mem, List.mem_map]
  obtain ⟨p, hp, hhead, hsteps⟩ := hform.exists_production
    (numberIn (terminalsOf (.finish :: first) (unfoldAll definitions) ++
      (unfoldAll definitions).map (·.symbol)))
  refine ⟨p, List.mem_flatten.2 ⟨_, List.mem_map.2 ⟨d, hd, rfl⟩, hp⟩, ?_⟩
  simp [hhead, hsteps, Compiled.number, Function.comp_def]

/-- A check of all forms of all definitions. -/
theorem of_hasForm {p : Symbol → List (Symbol × Label) → Bool}
    (h : ((unfoldAll definitions).all fun d => d.alternatives.all fun a =>
      (a.rule.forms {}).all (p d.symbol)) = true) {d : Definition}
    (hd : d ∈ unfoldAll definitions) {form : List (Symbol × Label)} (hform : d.HasForm form) :
    p d.symbol form = true := by
  obtain ⟨a, ha, hform⟩ := hform
  exact List.all_eq_true.1 (List.all_eq_true.1 (List.all_eq_true.1 h d hd) a ha) form hform

end

end GoGlobals.Grammar
