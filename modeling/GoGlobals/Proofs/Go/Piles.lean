import GoGlobals.Proofs.Go.Tokens
import GoGlobals.Proofs.Grammar.Round

/-!
# Stacks of readings of plain declarations

The parser has stacks of readings in states of the automaton.  On plain declarations the states are
stages, and the readings are those of parts.  What matters of a reading is said by its `Meaning`:
which part it is, where it stands, what it weighs, and its nodes.

## What is here

* `Form.reduces`: the readings on top of a stack are reduced by a form, and the meaning of the new
  reading is put together from theirs.
* `Ended` says that a stack has come to the end of a construct and, whichever of some tokens comes
  next, will reduce it.
* `Reaches` says that stacks at a place lead to a reading of the whole text with a property.
  `Reaches.shift` is its rule for a single stack that takes a token.
-/

set_option autoImplicit false

namespace GoGlobals.Go

open Text (Piece Place Cursor)
open Grammar

instance lawfulBEqSum {α β : Type} [BEq α] [BEq β] [LawfulBEq α] [LawfulBEq β] :
    LawfulBEq (α ⊕ β) where
  eq_of_beq := by
    intro a b h
    cases a <;> cases b
    case inl.inl a b => exact congrArg Sum.inl (eq_of_beq (show (a == b) = true from h))
    case inl.inr a b => exact absurd h (by simp [BEq.beq, Sum.instBEq.beq])
    case inr.inl a b => exact absurd h (by simp [BEq.beq, Sum.instBEq.beq])
    case inr.inr a b => exact congrArg Sum.inr (eq_of_beq (show (a == b) = true from h))
  rfl := by
    intro a
    cases a with
    | inl a => exact (beq_self_eq_true a : (a == a) = true)
    | inr b => exact (beq_self_eq_true b : (b == b) = true)

/-- A stack of readings in states of the automaton. -/
abbrev Pile := Thread (Nat ⊕ ItemSet)

/-! ## Meanings -/

/-- What matters of a reading. -/
structure Meaning where
  part : Part
  start : Place
  stop : Cursor
  weight : Int
  nodes : List Node

/-- The reading has this meaning. -/
structure Meaning.Of (m : Meaning) (r : Reading) : Prop where
  symbol : r.symbol = m.part.number
  start : r.start = m.start
  stop : r.stop = m.stop
  weight : r.weight = m.weight
  extra : r.extra = false
  nodes : r.forest.nodes = m.nodes

/-- The meaning of a token. -/
def Meaning.token (x : Part) (gone blanks cs rest : List Char) : Meaning :=
  { part := x
    start := (Cursor.between (gone ++ blanks) (cs ++ rest)).place
    stop := .between (gone ++ blanks ++ cs) rest
    weight := 0
    nodes := [Reading.nodeOf x.symbol (Cursor.between (gone ++ blanks) (cs ++ rest)).place
      (.between (gone ++ blanks ++ cs) rest) []] }

theorem Meaning.stop_token (x : Part) (gone cs rest : List Char) :
    (Meaning.token x gone [] cs rest).stop = .between (gone ++ cs) rest := by
  rw [Meaning.token, List.append_nil]

theorem symbol_tokenOver (x : Part) (gone blanks cs rest : List Char) :
    (tokenOver x gone blanks cs rest).symbol = x.number := rfl

theorem Meaning.token_of (x : Part) (gone blanks cs rest : List Char) (origin : Nat) :
    (Meaning.token x gone blanks cs rest).Of
      (.leaf grammar origin (tokenOver x gone blanks cs rest)) := by
  have hnodes := Reading.nodes_leaf grammar origin (tokenOver x gone blanks cs rest)
  rw [symbol_tokenOver, x.symbol_number] at hnodes
  refine ⟨symbol_tokenOver x gone blanks cs rest, rfl, rfl, rfl, rfl, hnodes⟩

/-- The nodes of parts under the labels of a form. -/
def Form.children (f : Form) (ms : List Meaning) : List Node :=
  (ms.zip f.parts).flatMap fun (m, part) => m.nodes.map part.2.apply

/-- Where the first part starts. -/
def Meaning.startOf : List Meaning → Place
  | [] => {}
  | m :: _ => m.start

/-- Where the last part stops. -/
def Meaning.stopOf : List Meaning → Cursor
  | [] => {}
  | [m] => m.stop
  | _ :: m :: ms => stopOf (m :: ms)

/-- The meaning of a construct that is made from parts. -/
def Form.meaning (f : Form) (ms : List Meaning) : Meaning :=
  { part := f.head
    start := Meaning.startOf ms
    stop := Meaning.stopOf ms
    weight := (ms.map (·.weight)).foldl (· + ·) f.weight
    nodes :=
      if f.head.symbol.isVisible then
        [Reading.nodeOf f.head.symbol (Meaning.startOf ms) (Meaning.stopOf ms) (f.children ms)]
      else f.children ms }

/-- The nodes of two parts without labels. -/
theorem Form.children_pair {f : Form} {x y : Part} (hparts : f.parts = [(x, {}), (y, {})])
    (m m' : Meaning) : f.children [m, m'] = m.nodes ++ m'.nodes := by
  simp [Form.children, hparts, funext Label.apply_empty]

/-- A construct without a node that is made of a single part. -/
theorem Form.nodes_alone {f : Form} {x : Part} (hvisible : f.head.symbol.isVisible = false)
    (hparts : f.parts = [(x, {})]) (m : Meaning) : (f.meaning [m]).nodes = m.nodes := by
  simp [Form.meaning, hvisible, Form.children, hparts, funext Label.apply_empty]

/-- A construct without a node that is made of two parts. -/
theorem Form.nodes_pair {f : Form} {x y : Part} (hvisible : f.head.symbol.isVisible = false)
    (hparts : f.parts = [(x, {}), (y, {})]) (m m' : Meaning) :
    (f.meaning [m, m']).nodes = m.nodes ++ m'.nodes := by
  rw [← Form.children_pair hparts]
  simp [Form.meaning, hvisible]

theorem Form.parts_ne_nil (f : Form) : f.parts ≠ [] := by
  cases f <;> exact List.cons_ne_nil _ _

theorem start_of {ms : List Meaning} {rs : List Reading} (h : List.Forall₂ Meaning.Of ms rs)
    (hne : ms ≠ []) (start : Place) :
    (rs.head?.map (·.start)).getD start = Meaning.startOf ms := by
  cases h with
  | nil => exact absurd rfl hne
  | cons hm _ => exact hm.start

theorem stop_of {ms : List Meaning} {rs : List Reading} (h : List.Forall₂ Meaning.Of ms rs)
    (hne : ms ≠ []) (stop : Cursor) :
    (rs.getLast?.map (·.stop)).getD stop = Meaning.stopOf ms := by
  induction h with
  | nil => exact absurd rfl hne
  | cons hm hrest ih =>
    cases hrest with
    | nil => exact hm.stop
    | cons hm' hrest =>
      rw [List.getLast?_cons_cons]
      exact ih (List.cons_ne_nil _ _)

theorem symbols_of {ms : List Meaning} {rs : List Reading} (h : List.Forall₂ Meaning.Of ms rs) :
    Reading.symbols rs = ms.map (·.part.number) := by
  induction h with
  | nil => rfl
  | cons hm _ ih => rw [Reading.symbols_of_not_extra hm.extra, ih, hm.symbol, List.map_cons]

theorem nodes_forests {ms : List Meaning} {rs : List Reading}
    (h : List.Forall₂ Meaning.Of ms rs) (parts : List (Part × Label))
    (hlength : ms.length = parts.length) :
    (Reading.forests rs (parts.map (·.2))).flatMap Forest.nodes =
      (ms.zip parts).flatMap fun (m, part) => m.nodes.map part.2.apply := by
  induction h generalizing parts with
  | nil => rfl
  | cons hm _ ih =>
    cases parts with
    | nil => simp at hlength
    | cons part parts =>
      rw [List.map_cons, Reading.forests, hm.extra, if_neg (by simp), List.flatMap_cons,
        ih parts (by simpa using hlength), Forest.nodes_label, hm.nodes, List.zip_cons_cons,
        List.flatMap_cons]

theorem extra_of {ms : List Meaning} {rs : List Reading} (h : List.Forall₂ Meaning.Of ms rs) :
    ∀ r ∈ rs, r.extra = false := by
  induction h with
  | nil => simp
  | cons hm _ ih => exact List.forall_mem_cons.2 ⟨hm.extra, ih⟩

theorem foldl_weight {ms : List Meaning} {rs : List Reading} (h : List.Forall₂ Meaning.Of ms rs)
    (sum : Int) :
    rs.foldl (fun sum p => sum + p.weight) sum = (ms.map (·.weight)).foldl (· + ·) sum := by
  induction h generalizing sum with
  | nil => rfl
  | cons hm _ ih => rw [List.foldl_cons, ih, hm.weight, List.map_cons, List.foldl_cons]

/-- **A construct is made from its parts.** -/
theorem Form.branch {f : Form} (hf : f ∈ Form.all) {ms : List Meaning} {rs : List Reading}
    (hms : List.Forall₂ Meaning.Of ms rs) (hparts : ms.map (·.part) = f.parts.map (·.1))
    (here : Cursor) :
    ∃ r, Reading.branch? grammar f.reduction here rs = some r ∧ (f.meaning ms).Of r := by
  have hlength : ms.length = f.parts.length := by
    have hlengths := congrArg List.length hparts
    simpa using hlengths
  have hne : ms ≠ [] := by
    rintro rfl
    exact f.parts_ne_nil (List.eq_nil_of_length_eq_zero hlength.symm)
  have hnumbers : ms.map (·.part.number) = f.parts.map (·.1.number) := by
    have hmapped := congrArg (List.map Part.number) hparts
    simpa only [List.map_map, Function.comp_def] using hmapped
  have hallows : grammar.allows f.reduction.head (Reading.symbols rs) f.reduction.labels = true := by
    rw [symbols_of hms, hnumbers]
    exact Form.allows hf
  have hexists : ∃ r, Reading.branch? grammar f.reduction here rs = some r ∧
      r.weight = rs.foldl (fun sum p => sum + p.weight) f.weight ∧ r.extra = false := by
    rw [Reading.branch?, if_pos hallows]
    exact ⟨_, rfl, rfl, rfl⟩
  obtain ⟨r, hr, hweight, hextra⟩ := hexists
  have hbranch := Reading.isBranch_of_branch? hr
  have hsymbol : grammar.symbol f.reduction.head = f.head.symbol := f.head.symbol_number
  have hstart : r.start = Meaning.startOf ms := hbranch.start.trans (start_of hms hne _)
  have hstop : r.stop = Meaning.stopOf ms := hbranch.stop.trans (stop_of hms hne _)
  refine ⟨r, hr, hbranch.symbol, hstart, hstop, ?_, hextra, ?_⟩
  · rw [hweight, foldl_weight hms]
    rfl
  · rw [hbranch.nodes, hsymbol, hstart, hstop, Form.reduction, nodes_forests hms f.parts hlength]
    rfl

/-! ## Reducing -/

/-- A stack with more readings on top. -/
noncomputable def pushAll (b : Pile) (tops : List (Reading × Stage)) : Pile :=
  tops.foldl (fun t top => t.push top.1 top.2.label) b

theorem pop?_pushAll (b : Pile) (tops : List (Reading × Stage)) (count : Nat)
    (passed : List Reading) :
    (pushAll b tops).pop? (count + tops.length) passed =
      b.pop? count (tops.map (·.1) ++ passed) := by
  induction tops generalizing b count passed with
  | nil => rfl
  | cons top tops ih =>
    have hstep := ih (b.push top.1 top.2.label) (count + 1) passed
    rw [List.length_cons, Nat.add_comm tops.length, ← Nat.add_assoc]
    exact hstep

/-- **The readings on top of a stack are reduced by a form.** -/
theorem Form.reduces (f : Form) (hf : f ∈ Form.all) {b : Pile} {g h : Stage}
    (hb : b.state = g.label) (hgoto : g.goto? f.head = some h) (tops : List (Reading × Stage))
    {ms : List Meaning} (hms : List.Forall₂ Meaning.Of ms (tops.map (·.1)))
    (hparts : ms.map (·.part) = f.parts.map (·.1)) :
    ∃ r, (f.meaning ms).Of r ∧
      Reduces language f.reduction (pushAll b tops) (b.push r h.label) := by
  obtain ⟨r, hbranch, hr⟩ := Form.branch hf hms hparts b.cursor
  have hlength : ms.length = f.parts.length := by
    have hlengths := congrArg List.length hparts
    simpa using hlengths
  have hlabels : f.reduction.labels.length = tops.length := by
    have hms' := hms.length_eq
    rw [List.length_map] at hms'
    rw [Form.reduction, List.length_map, ← hlength, hms']
  have hpop : (pushAll b tops).pop? f.reduction.labels.length [] =
      some (tops.map (·.1), b) := by
    have hpop := pop?_pushAll b tops 0 []
    rw [Nat.zero_add, List.append_nil, ← hlabels] at hpop
    rw [hpop]
    cases b <;> rfl
  have hne : tops.map (·.1) ≠ [] := by
    intro hnil
    rw [hnil] at hms
    cases hms
    exact f.parts_ne_nil (List.eq_nil_of_length_eq_zero hlength.symm)
  have hnext : language.automaton.goto? b.state (f.reduction.head - language.grammar.terminals) =
      some h.label := by
    rw [hb]
    exact goto?_language hgoto
  exact ⟨r, hr, .intro hpop hne (extra_of hms) hbranch hnext⟩

/-- Do two productions reduce a stack in the same way? -/
def Form.same : Form → Form → Bool
  | .line _, .line _ => true
  | .varDeclaration _, .varDeclaration _ => true
  | .operand _, .operand _ => true
  | f, f' => f == f'

theorem Form.reduction_eq_of_same {f f' : Form} (h : f.same f' = true) :
    f.reduction = f'.reduction := by
  unfold Form.same at h
  split at h
  · rfl
  · rfl
  · rfl
  · rw [beq_iff_eq.1 h]

/-- Does a stage reduce by the form in front of each of these tokens? -/
def Stage.reduces (g : Stage) (f : Form) (xs : List Part) : Bool :=
  xs.all fun x => match g.actions x with
    | some [.reduce f'] => f'.same f
    | _ => false

theorem actions_of_reduces {g : Stage} {f : Form} {xs : List Part} (h : g.reduces f xs = true)
    {x : Part} (hx : x ∈ xs) :
    language.automaton.actions g.label x.number = [.reduce f.reduction] := by
  have hreduces := List.all_eq_true.1 h x hx
  split at hreduces
  · rename_i f' hactions
    rw [actions_language hactions, ← Form.reduction_eq_of_same hreduces]
    rfl
  · exact absurd hreduces (by simp)

/-- Whichever of these tokens comes next, a stack is reduced to another one. -/
def ClosesOn (xs : List Part) (steps : Nat) (t u : Pile) : Prop :=
  ∀ x ∈ xs, Closes language x.number steps t u

theorem ClosesOn.refl (xs : List Part) (t : Pile) : ClosesOn xs 0 t t :=
  fun _ _ => .refl

theorem ClosesOn.trans {xs : List Part} {m n : Nat} {t u v : Pile} (h : ClosesOn xs m t u)
    (h' : ClosesOn xs n u v) : ClosesOn xs (m + n) t v :=
  fun x hx => (h x hx).trans (h' x hx)

theorem ClosesOn.mono {xs ys : List Part} {steps : Nat} {t u : Pile} (h : ClosesOn xs steps t u)
    (hys : ∀ y ∈ ys, y ∈ xs) : ClosesOn ys steps t u :=
  fun y hy => h y (hys y hy)

theorem ClosesOn.le {xs : List Part} {m n : Nat} {t u : Pile} (h : ClosesOn xs m t u)
    (hle : m ≤ n) : ClosesOn xs n t u :=
  fun x hx => (h x hx).mono hle

/-- A stage that reduces by a form in front of some tokens does so. -/
theorem Form.closes (f : Form) (hf : f ∈ Form.all) {b : Pile} {g h : Stage}
    (hb : b.state = g.label) (hgoto : g.goto? f.head = some h) (tops : List (Reading × Stage))
    {ms : List Meaning} (hms : List.Forall₂ Meaning.Of ms (tops.map (·.1)))
    (hparts : ms.map (·.part) = f.parts.map (·.1)) (k : Stage)
    (hk : (pushAll b tops).state = k.label) (xs : List Part) (hxs : k.reduces f xs = true) :
    ∃ r, (f.meaning ms).Of r ∧ ClosesOn xs 1 (pushAll b tops) (b.push r h.label) := by
  obtain ⟨r, hr, hreduces⟩ := f.reduces hf hb hgoto tops hms hparts
  refine ⟨r, hr, fun x hx => .step ?_ hreduces .refl⟩
  rw [hk]
  exact actions_of_reduces hxs hx

/-! ## Taking tokens -/

/-- Stacks at a place lead to a reading of the whole text with a property. -/
def Reaches (size : Nat) (c : Cursor) (ts : List Pile) (P : Reading → Prop) : Prop :=
  ∃ whole, Succeeds language size c ts whole ∧ P whole

/-- A stack has come to a place, and whichever of these tokens comes next, it is reduced to another
one. -/
structure Ended (xs : List Part) (steps : Nat) (c : Cursor) (t u : Pile) : Prop where
  stage : ∃ g : Stage, t.state = g.label ∧ ∀ x ∈ xs, g.awaits x = true
  cursor : t.cursor = c
  closes : ClosesOn xs steps t u

theorem further_between (gone blanks : List Char) {cs : List Char} (hcs : cs ≠ [])
    (rest : List Char) :
    Further (.between gone (blanks ++ (cs ++ rest))) (.between (gone ++ blanks ++ cs) rest) := by
  have hne : blanks ++ cs ≠ [] := by simp [hcs]
  have hlt := Cursor.offset_between_lt gone hne rest
  have hpos := List.length_pos_iff.2 hcs
  rw [List.append_assoc] at hlt
  rw [List.append_assoc gone]
  refine ⟨hlt, ?_⟩
  simp only [Cursor.rest_between, List.length_map, List.length_append]
  omega

/-- **A single stack takes a token.** -/
theorem Reaches.shift {size : Nat} (hsize : stepLimit ≤ size) {P : Reading → Prop} {x : Part}
    {gone : List Char} (blanks : List Char) {cs rest : List Char} (hspells : Spells x cs rest) (hcs : cs ≠ []) {t u : Pile}
    {g k h : Stage} (hg : t.state = g.label) (hawaits : g.awaits x = true)
    (hblanks : g.Skips blanks) (hcursor : t.cursor = .between gone (blanks ++ (cs ++ rest)))
    {steps : Nat} (hcloses : Closes language x.number steps t u) (hsteps : steps < stepLimit)
    (hk : u.state = k.label) (hshift : k.actions x = some [.shift h])
    (hnext : ∀ r, (Meaning.token x gone blanks cs rest).Of r →
      Reaches size (.between (gone ++ blanks ++ cs) rest) [u.push r h.label] P) :
    Reaches size (.between gone (blanks ++ (cs ++ rest))) [t] P := by
  obtain ⟨whole, hwhole, hP⟩ := hnext _
    (Meaning.token_of x gone blanks cs rest u.cursor.offset)
  refine ⟨whole, ?_, hP⟩
  have htoken : language.token? (language.expects t.state) (.between gone (blanks ++ (cs ++ rest))) =
      some (tokenOver x gone blanks cs rest) := by
    rw [hg]
    exact hspells.token? hawaits hblanks gone
  have haction : language.automaton.actions u.state (tokenOver x gone blanks cs rest).symbol =
      [.shift h.label] := by
    rw [hk, symbol_tokenOver, actions_language hshift]
    rfl
  exact .shift hsize htoken rfl hcursor hcloses hsteps haction
    (further_between gone blanks hcs rest) hwhole

theorem Ended.trans {xs : List Part} {m n : Nat} {c : Cursor} {t u v : Pile}
    (h : Ended xs m c t u) (h' : ClosesOn xs n u v) : Ended xs (m + n) c t v :=
  ⟨h.stage, h.cursor, h.closes.trans h'⟩

/-- A stack passes by white space, and whichever of these tokens comes next, it is reduced to another
one. -/
structure Waits (xs : List Part) (steps : Nat) (gone blanks rest : List Char) (t u : Pile) :
    Prop where
  stage : ∃ g : Stage, t.state = g.label ∧ (∀ x ∈ xs, g.awaits x = true) ∧ g.Skips blanks
  cursor : t.cursor = .between gone (blanks ++ rest)
  closes : ClosesOn xs steps t u

/-- A stack at a stage that passes by white space. -/
theorem Waits.refl (xs : List Part) {steps : Nat} {t : Pile} (g : Stage) (hg : t.state = g.label)
    (hawaits : (xs.all fun x => g.awaits x) = true) {gone blanks rest : List Char}
    (hblanks : g.Skips blanks) (hcursor : t.cursor = .between gone (blanks ++ rest)) :
    Waits xs steps gone blanks rest t t :=
  ⟨⟨g, hg, List.all_eq_true.1 hawaits, hblanks⟩, hcursor, fun _ _ => .refl⟩

/-- At the end of a construct spaces are passed by. -/
theorem Ended.waits {xs : List Part} {steps : Nat} {gone blanks rest : List Char} {t u : Pile}
    (h : Ended xs steps (.between gone (blanks ++ rest)) t u) (hblanks : ∀ c ∈ blanks, c = ' ') :
    Waits xs steps gone blanks rest t u := by
  obtain ⟨g, hg, hawaits⟩ := h.stage
  exact ⟨⟨g, hg, hawaits, fun c hc => .inl (hblanks c hc)⟩, h.cursor, h.closes⟩

/-- **A single stack takes a token that it waits for.** -/
theorem Waits.shift {size : Nat} {P : Reading → Prop} {xs : List Part} {steps : Nat}
    {gone blanks cs rest : List Char} {t u : Pile}
    (ht : Waits xs steps gone blanks (cs ++ rest) t u) (hsize : stepLimit ≤ size)
    (hsteps : steps < stepLimit) {x : Part} (hx : x ∈ xs) (hspells : Spells x cs rest)
    (hcs : cs ≠ []) {k h : Stage} (hk : u.state = k.label)
    (hshift : k.actions x = some [.shift h])
    (hnext : ∀ r, (Meaning.token x gone blanks cs rest).Of r →
      Reaches size (.between (gone ++ blanks ++ cs) rest) [u.push r h.label] P) :
    Reaches size (.between gone (blanks ++ (cs ++ rest))) [t] P := by
  obtain ⟨g, hg, hawaits, hblanks⟩ := ht.stage
  exact .shift hsize blanks hspells hcs hg (hawaits x hx) hblanks ht.cursor (ht.closes x hx) hsteps
    hk hshift hnext

/-- A single stack at the end of a construct takes a token behind spaces. -/
theorem Ended.shift {size : Nat} {P : Reading → Prop} {xs : List Part} {steps : Nat}
    {gone cs rest : List Char} {t u : Pile} (blanks : List Char)
    (ht : Ended xs steps (.between gone (blanks ++ (cs ++ rest))) t u) (hsize : stepLimit ≤ size)
    (hsteps : steps < stepLimit) {x : Part} (hx : x ∈ xs) (hspells : Spells x cs rest)
    (hcs : cs ≠ []) (hblanks : ∀ c ∈ blanks, c = ' ') {k h : Stage} (hk : u.state = k.label)
    (hshift : k.actions x = some [.shift h])
    (hnext : ∀ r, (Meaning.token x gone blanks cs rest).Of r →
      Reaches size (.between (gone ++ blanks ++ cs) rest) [u.push r h.label] P) :
    Reaches size (.between gone (blanks ++ (cs ++ rest))) [t] P :=
  (ht.waits hblanks).shift hsize hsteps hx hspells hcs hk hshift hnext

/-- A single stack at the end of a construct takes a token without white space in front of it. -/
theorem Ended.shift_next {size : Nat} {P : Reading → Prop} {xs : List Part} {steps : Nat}
    {gone cs rest : List Char} {t u : Pile} (ht : Ended xs steps (.between gone (cs ++ rest)) t u)
    (hsize : stepLimit ≤ size) (hsteps : steps < stepLimit) {x : Part} (hx : x ∈ xs)
    (hspells : Spells x cs rest) (hcs : cs ≠ []) {k h : Stage} (hk : u.state = k.label)
    (hshift : k.actions x = some [.shift h])
    (hnext : ∀ r, (Meaning.token x gone [] cs rest).Of r → r.stop = .between (gone ++ cs) rest →
      Reaches size (.between (gone ++ cs) rest) [u.push r h.label] P) :
    Reaches size (.between gone (cs ++ rest)) [t] P := by
  refine ht.shift [] hsize hsteps hx hspells hcs (by simp) hk hshift fun r hr => ?_
  rw [List.append_nil]
  exact hnext r hr (hr.stop.trans (Meaning.stop_token x gone cs rest))

/-- A stack at a stage where a token is awaited. -/
theorem Ended.refl (xs : List Part) {t : Pile} (g : Stage) (hg : t.state = g.label)
    (hawaits : (xs.all fun x => g.awaits x) = true) {c : Cursor} (hc : t.cursor = c) :
    Ended xs 0 c t t :=
  ⟨⟨g, hg, List.all_eq_true.1 hawaits⟩, hc, .refl xs t⟩

end GoGlobals.Go
