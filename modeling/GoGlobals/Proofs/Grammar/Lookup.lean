import GoGlobals.Proofs.Grammar.Item
import GoGlobals.Proofs.Grammar.Production
import Mathlib.Data.List.Nodup
import Mathlib.Data.Nat.Pairing

/-!
# Items without arrays

The items of a grammar are kept in arrays that are filled once.  To look at a few of them, as a proof
by computation does, it is better to find each in its family and not to make the others.

`Items.direct` does so, and `itemsOf_eq_direct` says that it makes no difference.

The numbers of symbols are the other thing that takes long, since symbols are compared by their
names.  `Symbol.code` packs a symbol into a number, and `compile_eq` compiles a grammar by comparing
these.
-/

set_option autoImplicit false

namespace GoGlobals.Grammar

/-! ## Items by their families -/

/-- The number of items of productions. -/
def itemCount : List (Nat × Production) → Nat
  | [] => 0
  | q :: qs => q.2.steps.length + 1 + itemCount qs

section

variable (g : Compiled)

/-- The item of a production with the dot after some steps. -/
def itemOf (family : List (Nat × Production)) (p : Production) (dot : Nat) : Item :=
  { production := p
    dot
    next := p.steps[dot]?.map (·.symbol)
    after := p.steps[dot + 1]?.map fun s => firstsOf g (startsOf g) s.symbol
    successor := itemNumber family p (dot + 1) }

/-- The item with a number among those of productions of a family. -/
def itemIn? (family : List (Nat × Production)) : List (Nat × Production) → Nat → Option Item
  | [], _ => none
  | q :: qs, n =>
    if n < q.2.steps.length + 1 then some (itemOf g family q.2 n)
    else itemIn? family qs (n - (q.2.steps.length + 1))

/-- The item with a number among those of families. -/
def itemAmong? : List (List (Nat × Production)) → Nat → Option Item
  | [], _ => none
  | family :: families, n =>
    if n < itemCount family then itemIn? g family family n
    else itemAmong? families (n - itemCount family)

theorem getElem?_itemsIn (family : List (Nat × Production)) (p : Production) (n : Nat) :
    (itemsIn g (startsOf g) family p)[n]? =
      if n < p.steps.length + 1 then some (itemOf g family p n) else none := by
  rw [itemsIn, List.getElem?_map]
  split
  · rename_i hlt
    rw [List.getElem?_range hlt]
    rfl
  · rename_i hge
    rw [List.getElem?_eq_none (by simpa using hge)]
    rfl

theorem length_itemsIn (family : List (Nat × Production)) (p : Production) :
    (itemsIn g (startsOf g) family p).length = p.steps.length + 1 := by
  simp [itemsIn]

theorem length_flatMap_itemsIn (family qs : List (Nat × Production)) :
    (qs.flatMap fun q => itemsIn g (startsOf g) family q.2).length = itemCount qs := by
  induction qs with
  | nil => rfl
  | cons q qs ih => rw [List.flatMap_cons, List.length_append, length_itemsIn, ih, itemCount]

theorem getElem?_flatMap_itemsIn (family qs : List (Nat × Production)) (n : Nat) :
    (qs.flatMap fun q => itemsIn g (startsOf g) family q.2)[n]? = itemIn? g family qs n := by
  induction qs generalizing n with
  | nil => rfl
  | cons q qs ih =>
    rw [List.flatMap_cons, itemIn?, List.getElem?_append, length_itemsIn, getElem?_itemsIn, ih]
    split <;> rfl

theorem getElem?_items (families : List (List (Nat × Production))) (n : Nat) :
    (families.flatMap fun family => family.flatMap fun q =>
      itemsIn g (startsOf g) family q.2)[n]? = itemAmong? g families n := by
  induction families generalizing n with
  | nil => rfl
  | cons family families ih =>
    rw [List.flatMap_cons, itemAmong?, List.getElem?_append, length_flatMap_itemsIn,
      getElem?_flatMap_itemsIn, ih]

/-- The table of what a construct can be by itself. -/
def aloneAt (c : Nat) : Table :=
  let constructs := g.symbols.size - g.terminals
  let reached := closure constructs <| g.productions.filterMap fun p =>
    match p.steps with
    | [s] =>
      if s.symbol < g.terminals then none
      else some (p.head - g.terminals, s.symbol - g.terminals)
    | _ => none
  if c < constructs then
    (List.range constructs).foldl
      (fun t d => if reached.has constructs c d then t.add g.terminals d 1 else t) 0
  else 0

theorem getD_map_range {α : Type} (f : Nat → α) (n c : Nat) (a : α) :
    ((List.range n).map f).toArray[c]?.getD a = if c < n then f c else a := by
  rw [List.getElem?_toArray, List.getElem?_map]
  split
  · rename_i hlt
    rw [List.getElem?_range hlt]
    rfl
  · rename_i hge
    rw [List.getElem?_eq_none (by simpa using hge)]
    rfl

theorem getD_aloneOf (c : Nat) : (aloneOf g).toArray[c]?.getD 0 = aloneAt g c :=
  getD_map_range _ _ c 0

/-- The first symbols of the productions of a family, and the items behind them. -/
def openingsIn (family : List (Nat × Production)) : List (Nat × Nat) :=
  family.filterMap fun q => q.2.steps.head?.map fun s => (s.symbol, itemNumber family q.2 1)

/-- The items of a grammar, each found when it is asked for. -/
def Items.direct : Items :=
  let families := familiesFrom 0 g.families
  { terminals := g.terminals
    size := g.symbols.size
    repeats := fun n => (g.symbol n).isRepetition
    item := fun n => (itemAmong? g families n).getD default
    openings := fun c => (families[c]?.map openingsIn).getD []
    empties := families.flatten.filterMap fun q =>
      if q.2.steps.isEmpty then some (q.2.head - g.terminals, q.1) else none
    starts := startsOf g
    alone := aloneAt g
    followers := fun c =>
      if c < g.symbols.size - g.terminals then
        followersOf g (startsOf g) (aloneAt g) (sequelsOf g (startsOf g)) c
      else 0 }

/-- **The items are found as they are kept.** -/
theorem itemsOf_eq_direct : itemsOf g = Items.direct g := by
  have halone : (fun c => (aloneOf g).toArray[c]?.getD 0) = aloneAt g := by
    funext c
    exact getD_aloneOf g c
  have hitem : ∀ n, (((familiesFrom 0 g.families).flatMap fun family =>
      family.flatMap fun q => itemsIn g (startsOf g) family q.2).toArray[n]?).getD default =
      (itemAmong? g (familiesFrom 0 g.families) n).getD default := by
    intro n
    rw [List.getElem?_toArray, getElem?_items]
  have hopenings : ∀ c : Nat, ((familiesFrom 0 g.families).map openingsIn).toArray[c]?.getD [] =
      ((familiesFrom 0 g.families)[c]?.map openingsIn).getD [] := by
    intro c
    rw [List.getElem?_toArray, List.getElem?_map]
  rw [itemsOf, Items.direct]
  simp only [halone, getD_map_range]
  congr 1
  · funext n
    exact hitem n
  · funext c
    exact hopenings c

end

/-! ## Symbols by their codes -/

/-- A text as a number. -/
def textCode (s : String) : Nat :=
  s.toByteArray.data.toList.foldr (fun b n => 256 * n + b.toNat + 1) 0

theorem textCode_injective : Function.Injective textCode := by
  have hbytes : ∀ (as bs : List UInt8),
      as.foldr (fun b n => 256 * n + b.toNat + 1) 0 =
        bs.foldr (fun b n => 256 * n + b.toNat + 1) 0 → as = bs := by
    intro as
    induction as with
    | nil =>
      intro bs h
      cases bs with
      | nil => rfl
      | cons b bs => exact absurd h (by simp)
    | cons a as ih =>
      intro bs h
      cases bs with
      | nil => exact absurd h (by simp)
      | cons b bs =>
        simp only [List.foldr_cons] at h
        have ha := a.toNat_lt
        have hb := b.toNat_lt
        obtain rfl : a = b := UInt8.toNat_inj.1 (by omega)
        rw [ih bs (by omega)]
  intro s t h
  have hlist := hbytes _ _ h
  apply String.toByteArray_inj.1
  exact ByteArray.ext (Array.toList_inj.1 hlist)

/-- A symbol as a number. -/
def Symbol.code : Symbol → Nat
  | finish => 0
  | text spelling => Nat.pair 1 (textCode spelling)
  | constant kind spelling => Nat.pair 2 (Nat.pair (textCode kind) (textCode spelling))
  | lexeme kind => Nat.pair 3 (textCode kind)
  | construct kind => Nat.pair 4 (textCode kind)
  | family name => Nat.pair 5 (textCode name)
  | repetition name index => Nat.pair 6 (Nat.pair (textCode name) index)

theorem Symbol.code_injective : Function.Injective Symbol.code := by
  intro s t h
  have hzero : ∀ n m, Nat.pair (n + 1) m ≠ 0 := fun n m hpair => by
    have h := Nat.pair_eq_pair.1 (hpair.trans (show 0 = Nat.pair 0 0 from rfl))
    exact absurd h.1 (by simp)
  cases s <;> cases t <;>
    simp_all [code, Nat.pair_eq_pair, textCode_injective.eq_iff, (hzero _ _).symm]

/-- Folds a list from its end, by its recursor: the kernel has less to do than for a function that is
compiled to recursion over all smaller lists. -/
noncomputable def foldUp {α β : Type} (f : α → β → β) (b : β) (l : List α) : β :=
  l.rec b fun a _ => f a

theorem foldUp_eq {α β : Type} (f : α → β → β) (b : β) (l : List α) :
    foldUp f b l = l.foldr f b := by
  induction l with
  | nil => rfl
  | cons a l ih => exact congrArg (f a) ih

/-- Is a number in a list? -/
noncomputable def isIn (x : Nat) : List Nat → Bool :=
  foldUp (fun a found => bif a.beq x then true else found) false

theorem isIn_iff {x : Nat} {l : List Nat} : isIn x l = true ↔ x ∈ l := by
  rw [isIn, foldUp_eq]
  induction l with
  | nil => simp
  | cons a l ih =>
    rw [List.foldr_cons, List.mem_cons, ← ih]
    cases h : a.beq x with
    | true => simp [Nat.eq_of_beq_eq_true h]
    | false => simp [Ne.symm (Nat.ne_of_beq_eq_false h)]

/-- The place of a number in a list, counted from `n` on, 0 if it is not there. -/
noncomputable def positionFrom (x : Nat) (l : List Nat) : (n : Nat) → Nat :=
  foldUp (fun a next n => bif a.beq x then n else next (n + 1)) (fun _ => 0) l

theorem positionFrom_code (s : Symbol) (symbols : List Symbol) (n : Nat) :
    positionFrom s.code (symbols.map Symbol.code) n =
      ((symbols.idxOf? s).map (· + n)).getD 0 := by
  rw [positionFrom, foldUp_eq]
  induction symbols generalizing n with
  | nil => rfl
  | cons t symbols ih =>
    rw [List.map_cons, List.foldr_cons, ih, List.idxOf?_cons]
    by_cases h : t = s
    · simp [h]
    · have hcode : t.code.beq s.code = false :=
        Bool.eq_false_iff.2 fun heq => h (Symbol.code_injective (Nat.eq_of_beq_eq_true heq))
      rw [hcode, if_neg (by simpa using h), cond_false]
      cases symbols.idxOf? s <;> simp [Nat.add_assoc, Nat.add_comm 1]

/-- The number of a symbol, found by its code. -/
theorem numberIn_eq (symbols : List Symbol) (s : Symbol) :
    numberIn symbols s = positionFrom s.code (symbols.map Symbol.code) 0 := by
  rw [positionFrom_code, numberIn]
  simp

/-- The symbols of a list, each once, but for those with a code that has been seen. -/
noncomputable def unseen : List Symbol → (seen : List Nat) → List Symbol
  | [], _ => []
  | s :: rest, seen =>
    bif isIn s.code seen then unseen rest seen else s :: unseen rest (s.code :: seen)

theorem unseen_eq (symbols : List Symbol) (seen : List Nat) :
    unseen symbols seen = (symbols.filter fun s => !isIn s.code seen).eraseDups := by
  induction symbols generalizing seen with
  | nil => rfl
  | cons s rest ih =>
    rw [unseen]
    cases h : isIn s.code seen with
    | true => rw [cond_true, ih, List.filter_cons_of_neg (by simp [h])]
    | false =>
      rw [cond_false, ih, List.filter_cons_of_pos (by simp [h]), List.eraseDups_cons,
        List.filter_filter]
      have hsame : ∀ t : Symbol, isIn t.code (s.code :: seen) = (t == s || isIn t.code seen) := by
        intro t
        rw [Bool.eq_iff_iff, Bool.or_eq_true, isIn_iff, isIn_iff, List.mem_cons, beq_iff_eq,
          Symbol.code_injective.eq_iff]
      simp only [hsame, Bool.not_or]

/-- A number that is the same only for productions from the same symbols. -/
def Production.shape (p : Production) : Nat :=
  p.steps.foldr (fun s n => 1024 * n + s.symbol + 1) 0

/-- Are the numbers all different? -/
noncomputable def areDistinct : List Nat → Bool
  | [] => true
  | x :: rest => bif isIn x rest then false else areDistinct rest

theorem nodup_of_areDistinct {l : List Nat} (h : areDistinct l = true) : l.Nodup := by
  induction l with
  | nil => exact .nil
  | cons x rest ih =>
    rw [areDistinct] at h
    cases hx : isIn x rest with
    | true => simp [hx] at h
    | false =>
      rw [hx, cond_false] at h
      exact List.nodup_cons.2 ⟨fun hmem => by simp [isIn_iff.2 hmem] at hx, ih h⟩

theorem eraseDups_of_nodup {α : Type} [BEq α] [LawfulBEq α] {l : List α} (h : l.Nodup) :
    l.eraseDups = l := by
  induction l with
  | nil => rfl
  | cons a l ih =>
    obtain ⟨ha, hl⟩ := List.nodup_cons.1 h
    have hfilter : (l.filter fun b => !b == a) = l :=
      List.filter_eq_self.2 fun b hb => by
        rw [Bool.not_eq_true', beq_eq_false_iff_ne]
        rintro rfl
        exact ha hb
    rw [List.eraseDups_cons, hfilter, ih hl]

/-- Productions, each once. -/
noncomputable def distinctProductions (ps : List Production) : List Production :=
  bif areDistinct (ps.map Production.shape) then ps else ps.eraseDups

theorem distinctProductions_eq (ps : List Production) :
    distinctProductions ps = ps.eraseDups := by
  rw [distinctProductions]
  cases h : areDistinct (ps.map Production.shape) with
  | true => rw [cond_true, eraseDups_of_nodup (List.Nodup.of_map _ (nodup_of_areDistinct h))]
  | false => rw [cond_false]

/-- The productions of a definition, compared by their shapes first. -/
noncomputable def Definition.quickProductions (d : Definition) (number : Symbol → Nat) :
    List Production :=
  distinctProductions <| d.alternatives.flatMap fun a =>
    (a.rule.forms {}).map fun form =>
      { head := number d.symbol
        steps := form.map fun (s, label) => ⟨number s, label⟩
        precedence := a.precedence
        side := a.side
        weight := a.weight }

theorem Definition.quickProductions_eq (d : Definition) (number : Symbol → Nat) :
    d.quickProductions number = d.productions number := by
  rw [quickProductions, productions, distinctProductions_eq]

/-- A grammar in numbers, its symbols compared by their codes. -/
noncomputable def quickCompile (first : List Symbol) (definitions : List Definition) : Compiled :=
  let definitions := unfoldAll definitions
  let terminals := unseen (.finish :: first ++ (definitions.flatMap fun d =>
    d.alternatives.flatMap fun a => a.rule.symbols).filter Symbol.isTerminal) []
  let symbols := terminals ++ definitions.map (·.symbol)
  let codes := symbols.map Symbol.code
  let families := definitions.map fun d => d.quickProductions fun s => positionFrom s.code codes 0
  { symbols := symbols.toArray
    terminals := terminals.length
    families
    makings := .ofList
      (families.flatten.map fun p => (p.head, p.steps.map (·.symbol), p.steps.map (·.label))) }

/-- **Comparing codes gives the same grammar.** -/
theorem compile_eq (first : List Symbol) (definitions : List Definition) :
    compile first definitions = quickCompile first definitions := by
  have hterminals : ∀ l : List Symbol, unseen l [] = l.eraseDups := by
    intro l
    rw [unseen_eq]
    simp [isIn, foldUp_eq, List.filter_true]
  rw [compile, quickCompile, terminalsOf]
  simp only [hterminals, Definition.quickProductions_eq, ← numberIn_eq]

end GoGlobals.Grammar
