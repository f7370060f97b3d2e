import GoGlobals.Go.SourceTree
import GoGlobals.Proofs.Go.Lexer
import GoGlobals.Proofs.Grammar.Parser
import GoGlobals.Proofs.Verdict
import Mathlib.Data.List.Forall2

/-!
# Declared names stand in the text

Every name that is read from a file is a word of the file, at its own offset and on the line that is
recorded for it.  Nothing about that is checked when a tree is read: it has to be true of every tree
that the parser can build, whatever stands between the names.

What is kept on the way is `Placed`: the nodes of a reading follow one another in the text, below
every specification there are names and they are identifiers of the text, and a node that is handed
on under the field of names is one too.  The grammar enters through three facts about its forms
(`namesRight`) and one about its tokens (`tokensRight`), which are decided by looking at all
definitions.

## What is here

* `language_keeps` shows that reading Go text keeps readings placed.
* `SourceFile.Placed` says that the names of a file stand in a text.
* `SourceFile.read_placed` is the theorem.
-/

set_option autoImplicit false

namespace GoGlobals

open Text (Source Cursor Piece IsIdentifier)
open Node (InOrder Everywhere ChildrenInOrder)

/-! ## Nodes of names -/

/-- The node covers an identifier of the text, and its row counts the line feeds before it. -/
structure Node.SpellsName (source : Source) (n : Node) : Prop where
  text : ∃ cs, IsIdentifier cs ∧
    Text.slice source n.start n.stop = cs.flatMap String.utf8EncodeChar ∧
    n.stop = n.start + (cs.flatMap String.utf8EncodeChar).length
  row : n.row = (source.toList.take n.start).count 10

/-- The children of the node are in order, and below a specification there are names, all of them
identifiers of the text. -/
structure Node.Named (source : Source) (n : Node) : Prop where
  inOrder : ChildrenInOrder n
  names : n.kind = "var_spec" →
    n.childrenAt "name" ≠ [] ∧ ∀ m ∈ n.childrenAt "name", m.SpellsName source

theorem Node.SpellsName.apply {source : Source} {n : Node} (h : n.SpellsName source)
    (label : Grammar.Label) : (label.apply n).SpellsName source :=
  ⟨h.text, h.row⟩

/-- A label that makes no specification of a node keeps what is known of it. -/
theorem Node.Named.apply {source : Source} {n : Node} (h : Everywhere (Node.Named source) n)
    {label : Grammar.Label} (hkind : label.kind ≠ some "var_spec") :
    Everywhere (Node.Named source) (label.apply n) := by
  refine .intro ⟨h.here.inOrder, fun hspec => ?_⟩ fun m hm => h.child hm
  cases hlabel : label.kind with
  | some kind =>
    rw [Grammar.Label.apply, hlabel] at hspec
    exact absurd (hlabel.trans (congrArg some hspec)) hkind
  | none =>
    rw [Grammar.Label.apply, hlabel] at hspec
    exact h.here.names hspec

namespace Go

open Grammar

/-! ## What the grammar says about names -/

/-- What is asked of a form.  No part is made a specification by its label.  In a specification, and
in whatever has no node of its own, only identifiers stand under the field of names; a
specification starts with one. -/
def namesRight (s : Symbol) (form : List (Symbol × Label)) : Bool :=
  form.all (fun step => step.2.kind != some "var_spec") &&
    ((s.isVisible && s.kind != "var_spec") ||
      form.all fun step => step.2.field != some "name" || step.1 == identifier) &&
    (!s.isVisible || s.kind != "var_spec" ||
      form.head? == some (identifier, { field := some "name" }))

/-- What is asked of the symbols of a definition: it defines no token, and none of its tokens has
the kind of a specification. -/
def tokensRight (d : Definition) : Bool :=
  !d.symbol.isTerminal && d.alternatives.all fun a =>
    a.rule.symbols.all fun s => !s.isTerminal || s.kind != "var_spec"

theorem namesRight_definitions :
    ((unfoldAll definitions).all fun d => d.alternatives.all fun a =>
      (a.rule.forms {}).all (namesRight d.symbol)) = true := by
  decide +kernel

theorem tokensRight_definitions : (unfoldAll definitions).all tokensRight = true := by
  decide +kernel

theorem not_isTerminal_of_mem {d : Definition} (hd : d ∈ unfoldAll definitions) :
    d.symbol.isTerminal = false := by
  have h := List.all_eq_true.1 tokensRight_definitions d hd
  rw [tokensRight, Bool.and_eq_true, Bool.not_eq_true'] at h
  exact h.1

/-- A token does not have the kind of a specification. -/
theorem kind_ne_of_isTerminal {n : Nat} (h : (grammar.symbol n).isTerminal = true) :
    (grammar.symbol n).kind ≠ "var_spec" := by
  rcases Compiled.symbol_mem (g := grammar) n with hmem | hfinish
  · rcases mem_symbols_iff.1 hmem with hs | hs | ⟨d, hd, a, ha, hs, -⟩ | ⟨d, hd, hs⟩
    · rw [hs]; decide
    · simp only [List.mem_cons, List.not_mem_nil, or_false] at hs
      rcases hs with hs | hs <;> rw [hs] <;> decide
    · have hright := List.all_eq_true.1 tokensRight_definitions d hd
      rw [tokensRight, Bool.and_eq_true] at hright
      have hsymbol := List.all_eq_true.1 (List.all_eq_true.1 hright.2 a ha) _ hs
      rw [h, Bool.not_true, Bool.false_or] at hsymbol
      exact bne_iff_ne.1 hsymbol
    · rw [← hs, not_isTerminal_of_mem hd] at h
      exact absurd h (by simp)
  · rw [hfinish]; decide

/-- What `namesRight` says of a form, taken apart. -/
structure FormRight (s : Symbol) (form : List (Symbol × Label)) : Prop where
  kinds : ∀ step ∈ form, step.2.kind ≠ some "var_spec"
  names : s.isVisible = false ∨ s.kind = "var_spec" →
    ∀ step ∈ form, step.2.field = some "name" → step.1 = identifier
  starts : s.isVisible = true → s.kind = "var_spec" →
    form.head? = some (identifier, { field := some "name" })

theorem formRight_of_hasForm {d : Definition} (hd : d ∈ unfoldAll definitions)
    {form : List (Symbol × Label)} (hform : d.HasForm form) : FormRight d.symbol form := by
  have h := of_hasForm namesRight_definitions hd hform
  rw [namesRight, Bool.and_eq_true, Bool.and_eq_true] at h
  obtain ⟨⟨hkinds, hnames⟩, hstarts⟩ := h
  refine ⟨fun step hstep => bne_iff_ne.1 (List.all_eq_true.1 hkinds step hstep), ?_, ?_⟩
  · intro hs step hstep hfield
    rw [Bool.or_eq_true] at hnames
    have hall := hnames.resolve_left fun hvisible => by
      rw [Bool.and_eq_true, bne_iff_ne] at hvisible
      rcases hs with hs | hs
      · rw [hs] at hvisible
        exact absurd hvisible.1 (by simp)
      · exact hvisible.2 hs
    have hstep' := List.all_eq_true.1 hall step hstep
    rw [hfield, bne_self_eq_false, Bool.false_or] at hstep'
    exact beq_iff_eq.1 hstep'
  · intro hvisible hkind
    rw [hvisible, hkind, Bool.not_true, Bool.false_or, bne_self_eq_false, Bool.false_or] at hstarts
    exact beq_iff_eq.1 hstarts

/-! ## Placed readings -/

/-- A reading whose nodes follow one another in the text and have their names in it. -/
structure Placed (source : Source) (r : Reading) : Prop where
  stop : r.stop.In (Text.decode source.toList)
  inOrder : InOrder r.start.offset r.forest.nodes r.stop.offset
  named : ∀ n ∈ r.forest.nodes, Everywhere (Node.Named source) n
  /-- What is handed on as a name is one. -/
  names : ∀ n ∈ r.forest.nodes, n.field = some "name" → n.SpellsName source
  token : grammar.symbol r.symbol = identifier →
    ∃ n, r.forest.nodes = [n] ∧ n.field = none ∧ n.SpellsName source

/-- The token lies in the text behind the cursor. -/
def LiesBehind (c : Cursor) (t : Token) : Prop :=
  ∃ ps d, c.Ahead d ps ∧ CutAt grammar d t

theorem placed_leaf {source : Source} {c : Cursor} {t : Token}
    (hc : c.In (Text.decode source.toList)) (ht : LiesBehind c t) :
    Fits (Placed source) c (Reading.leaf grammar c.offset t) t.stop := by
  obtain ⟨ps, d, hahead, n, hstart, hstop, hsuits⟩ := ht
  have hd := hc.ahead hahead
  have hskip : d.Ahead t.stop (d.rest.take n) := hstop ▸ d.ahead_skip n
  have hoffset : t.start.offset = d.offset := congrArg Text.Place.offset hstart
  have hle : t.start.offset ≤ t.stop.offset := hoffset ▸ hskip.offset_le
  obtain ⟨hterminal, hidentifier⟩ := hsuits t.symbol (.inl rfl)
  refine ⟨⟨hd.ahead hskip, ?_, fun m hm => ?_, fun m hm hfield => ?_, fun hsymbol => ?_⟩,
    hoffset ▸ hahead.offset_le, hle, rfl⟩
  · exact .singleton (Nat.le_refl _) hle (Nat.le_refl _)
  · rw [Reading.nodes_leaf, List.mem_singleton] at hm
    subst hm
    refine .intro ⟨.nil hle, fun hkind => ?_⟩ fun k hk => absurd hk List.not_mem_nil
    rw [Reading.nodeOf_kind] at hkind
    exact absurd hkind (kind_ne_of_isTerminal hterminal)
  · rw [Reading.nodes_leaf, List.mem_singleton] at hm
    subst hm
    exact absurd hfield (Option.some_ne_none _).symm
  · -- an identifier covers the bytes of the pieces that the token was cut out of
    refine ⟨_, rfl, rfl, ?_, ?_⟩
    · obtain ⟨cs, hcs, hpieces⟩ := hidentifier hsymbol
      have hspelled := hd.spelled_slice hskip
      rw [hpieces] at hspelled
      have hbytes := hspelled.eq_flatMap
      refine ⟨cs, hcs, ?_, ?_⟩
      · rw [← hbytes, Reading.nodeOf, hoffset]
        rfl
      · rw [← hbytes, hspelled.length_eq, ← hpieces, Reading.nodeOf, hoffset]
        exact hskip.offset_eq
    · rw [Reading.nodeOf, hoffset, hstart]
      exact hd.row_eq_count

/-! ## Constructs -/

section

variable {source : Source} {parts : List Reading} {form : List (Symbol × Label)}

/-- The nodes of parts, each with what is known of the step of the form that it stands for. -/
theorem mem_nodes_forests
    (hsymbols : Reading.symbols parts = form.map fun step => grammar.number step.1) {n : Node}
    (hn : n ∈ (Reading.forests parts (form.map (·.2))).flatMap Forest.nodes) :
    ∃ r ∈ parts, n ∈ r.forest.nodes ∨
      ∃ step ∈ form, r.symbol = grammar.number step.1 ∧
        ∃ m ∈ r.forest.nodes, n = step.2.apply m := by
  obtain ⟨f, hf, hn⟩ := List.mem_flatMap.1 hn
  obtain ⟨r, hr, rfl | ⟨label, rfl, hmem⟩⟩ := Reading.mem_forests hf
  · exact ⟨r, hr, .inl hn⟩
  · rw [hsymbols, List.zip_map', List.mem_map] at hmem
    obtain ⟨step, hstep, heq⟩ := hmem
    obtain ⟨hsymbol, rfl⟩ := Prod.mk.inj heq
    rw [Forest.nodes_label] at hn
    obtain ⟨m, hm, rfl⟩ := List.mem_map.1 hn
    exact ⟨r, hr, .inr ⟨step, hstep, hsymbol.symm, m, hm, rfl⟩⟩

theorem symbol_identifier : grammar.symbol (grammar.number identifier) = identifier :=
  Compiled.symbol_number_of_mem (mem_symbols_iff.2 (.inr (.inl List.mem_cons_self)))

theorem symbol_number_definition {d : Definition} (hd : d ∈ unfoldAll definitions) :
    grammar.symbol (grammar.number d.symbol) = d.symbol :=
  Compiled.symbol_number_of_mem (mem_symbols_iff.2 (.inr (.inr (.inr ⟨d, hd, rfl⟩))))

variable (hparts : ∀ r ∈ parts, Placed source r)
  (hsymbols : Reading.symbols parts = form.map fun step => grammar.number step.1)

include hparts hsymbols

theorem named_nodes_forests (hkinds : ∀ step ∈ form, step.2.kind ≠ some "var_spec") :
    ∀ n ∈ (Reading.forests parts (form.map (·.2))).flatMap Forest.nodes,
      Everywhere (Node.Named source) n := by
  intro n hn
  obtain ⟨r, hr, hn | ⟨step, hstep, -, m, hm, rfl⟩⟩ := mem_nodes_forests hsymbols hn
  · exact (hparts r hr).named n hn
  · exact Node.Named.apply ((hparts r hr).named m hm) (hkinds step hstep)

theorem names_nodes_forests
    (hnames : ∀ step ∈ form, step.2.field = some "name" → step.1 = identifier) :
    ∀ n ∈ (Reading.forests parts (form.map (·.2))).flatMap Forest.nodes,
      n.field = some "name" → n.SpellsName source := by
  intro n hn hfield
  obtain ⟨r, hr, hn | ⟨step, hstep, hsymbol, m, hm, rfl⟩⟩ := mem_nodes_forests hsymbols hn
  · exact (hparts r hr).names n hn hfield
  · refine Node.SpellsName.apply ?_ step.2
    cases hm' : m.field with
    | some field =>
      rw [Label.apply, hm'] at hfield
      exact (hparts r hr).names m hm (hm'.trans hfield)
    | none =>
      rw [Label.apply, hm'] at hfield
      rw [hnames step hstep hfield] at hsymbol
      obtain ⟨k, hk, -, hspells⟩ := (hparts r hr).token (hsymbol ▸ symbol_identifier)
      rw [hk] at hm
      exact List.mem_singleton.1 hm ▸ hspells

/-- The identifier that a form starts with is among the names. -/
theorem exists_name_nodes_forests
    (hstarts : form.head? = some (identifier, { field := some "name" })) :
    ∃ n ∈ (Reading.forests parts (form.map (·.2))).flatMap Forest.nodes,
      n.field = some "name" := by
  obtain ⟨steps, rfl⟩ := List.head?_eq_some_iff.1 hstarts
  obtain ⟨r, hr, hsymbol, hmem⟩ := Reading.exists_first_forest hsymbols
    { field := some "name" } (steps.map (·.2))
  obtain ⟨k, hk, hfield, -⟩ := (hparts r hr).token (hsymbol ▸ symbol_identifier)
  refine ⟨({ field := some "name" } : Label).apply k, List.mem_flatMap.2 ⟨_, hmem, ?_⟩, ?_⟩
  · rw [Forest.nodes_label, hk]
    exact List.mem_singleton.2 rfl
  · rw [Label.apply, hfield]
    rfl

end

/-- **A construct of placed parts is placed.** -/
theorem placed_branch {source : Source} {r : Reduction} {c d : Cursor} {parts : List Reading}
    {t : Reading} (hc : c.In (Text.decode source.toList)) (hchain : Chain (Placed source) c parts d)
    (ht : Reading.branch? grammar r c parts = some t) : Placed source t := by
  have hbranch := Reading.isBranch_of_branch? ht
  obtain ⟨-, hle, hstop⟩ := hbranch.span hchain
  obtain ⟨def', hdef, form, hform, hhead, hsymbols, hlabels⟩ :=
    exists_form_of_allows hbranch.allowed
  have hsymbol : grammar.symbol r.head = def'.symbol := by
    rw [hhead]
    exact symbol_number_definition hdef
  have hright := formRight_of_hasForm hdef hform
  have hparts := hchain.good
  have hinOrder := Reading.nodes_forests_inOrder hchain (fun r hr => (hparts r hr).inOrder)
    r.labels hbranch.start_le hle
  have hnamed := named_nodes_forests hparts hsymbols hright.kinds
  have hnames := fun h => names_nodes_forests hparts hsymbols (hright.names h)
  have hstarts := fun h h' => exists_name_nodes_forests hparts hsymbols (hright.starts h h')
  have hnodes := hbranch.nodes
  rw [hlabels] at hinOrder hnodes
  rw [hsymbol] at hnodes
  generalize (Reading.forests parts (form.map (·.2))).flatMap Forest.nodes = ns at *
  have hvalid : t.stop.In (Text.decode source.toList) :=
    hstop ▸ hchain.valid (V := (·.In (Text.decode source.toList))) (fun h => h.stop) hc
  have htoken : grammar.symbol t.symbol ≠ identifier := by
    intro h
    rw [hbranch.symbol, hsymbol] at h
    have := not_isTerminal_of_mem hdef
    rw [h] at this
    exact absurd this (by decide)
  rw [← hstop] at hle hinOrder
  cases hvisible : def'.symbol.isVisible with
  | true =>
    rw [hvisible, if_pos rfl] at hnodes
    refine ⟨hvalid, hnodes ▸ .singleton (Nat.le_refl _) hle (Nat.le_refl _), ?_, ?_,
      fun h => absurd h htoken⟩
    · intro n hn
      rw [hnodes, List.mem_singleton] at hn
      subst hn
      refine .intro ⟨hinOrder, fun hkind => ?_⟩ hnamed
      rw [Reading.nodeOf_kind] at hkind
      obtain ⟨m, hm, hfield⟩ := hstarts hvisible hkind
      refine ⟨List.ne_nil_of_mem (List.mem_filter.2 ⟨hm, beq_iff_eq.2 hfield⟩), fun k hk => ?_⟩
      obtain ⟨hk, hfield'⟩ := List.mem_filter.1 hk
      exact hnames (.inr hkind) k hk (beq_iff_eq.1 hfield')
    · intro n hn hfield
      rw [hnodes, List.mem_singleton] at hn
      subst hn
      exact absurd hfield (Option.some_ne_none _).symm
  | false =>
    rw [hvisible, if_neg Bool.false_ne_true] at hnodes
    rw [← hnodes] at hinOrder hnamed hnames
    exact ⟨hvalid, hinOrder, hnamed, hnames (.inl hvisible), fun h => absurd h htoken⟩

/-- **Reading Go text keeps readings placed.** -/
theorem language_keeps (source : Source) :
    language.Keeps (·.In (Text.decode source.toList)) LiesBehind (Placed source) where
  unique := Cursor.In.eq_of_offset
  valid h := h.stop
  token _ h := Vocabulary.token?_cut h
  otherwise := by
    rintro c t symbol ⟨ps, d, hahead, hcut⟩ hother
    exact ⟨ps, d, hahead, hcut.otherwise hother⟩
  leaf := placed_leaf
  branch := placed_branch

/-! ## Trees -/

theorem inOrder_nodes_of_chain {source : Source} {c d : Cursor} {rs : List Reading}
    (h : Chain (Placed source) c rs d) :
    InOrder c.offset ((rs.map (·.forest)).flatMap Forest.nodes) d.offset := by
  rw [← Reading.forests_nil]
  refine Reading.nodes_forests_inOrder h (fun r hr => (h.good r hr).inOrder) []
    (fun r hr => ?_) h.offset_le
  cases h with
  | nil => exact absurd hr (Option.some_ne_none _).symm
  | cons hfits _ =>
    obtain rfl := Option.some.inj hr
    exact hfits.le_start

theorem named_nodes_of_chain {source : Source} {c d : Cursor} {rs : List Reading}
    (h : Chain (Placed source) c rs d) :
    ∀ n ∈ (rs.map (·.forest)).flatMap Forest.nodes, Everywhere (Node.Named source) n := by
  intro n hn
  obtain ⟨f, hf, hn⟩ := List.mem_flatMap.1 hn
  obtain ⟨r, hr, rfl⟩ := List.mem_map.1 hf
  exact (h.good r hr).named n hn

/-- The tree of a text: its parts are in order and have their names in the text. -/
structure Root (source : Source) (n : Node) : Prop where
  inOrder : ∃ lo hi, InOrder lo n.children hi
  named : ∀ m ∈ n.children, Everywhere (Node.Named source) m

theorem root_of_named {source : Source} {n : Node} (h : Everywhere (Node.Named source) n) :
    Root source n :=
  ⟨⟨n.start, n.stop, h.here.inOrder⟩, fun _ hm => h.child hm⟩

/-- A node with more nodes before its children and behind them. -/
theorem root_of_chain {source : Source} {b c d e : Cursor} {before after : List Reading}
    {whole : Reading} {n m : Node} (hbefore : Chain (Placed source) b before c)
    (hwhole : Fits (Placed source) c whole d) (hafter : Chain (Placed source) d after e)
    (hforest : whole.forest.nodes = [n])
    (hchildren : m.children = (before.map (·.forest)).flatMap Forest.nodes ++
      (n.children ++ (after.map (·.forest)).flatMap Forest.nodes)) : Root source m := by
  have hinOrder := hwhole.good.inOrder
  have hnamed := hwhole.good.named
  rw [hforest] at hinOrder hnamed
  have hn := hnamed n List.mem_cons_self
  have hmiddle : InOrder c.offset n.children d.offset := by
    have hwithin := hinOrder.within n List.mem_cons_self
    have hle := hwhole.le_start
    rw [hwhole.stop_eq] at hwithin
    exact hn.here.inOrder.widen (by omega) (by omega)
  refine ⟨⟨b.offset, e.offset, ?_⟩, fun k hk => ?_⟩
  · rw [hchildren]
    exact (inOrder_nodes_of_chain hbefore).append
      (hmiddle.append (inOrder_nodes_of_chain hafter))
  · rw [hchildren, List.mem_append, List.mem_append] at hk
    rcases hk with hk | hk | hk
    · exact named_nodes_of_chain hbefore k hk
    · exact hn.child hk
    · exact named_nodes_of_chain hafter k hk

theorem root_of_wholeOf? {source : Source} {b e : Cursor} {passed : List Reading} {t : Reading}
    (hchain : Chain (Placed source) b passed e) (ht : Parser.wholeOf? passed = some t) {m : Node}
    (hm : t.forest.nodes.head? = some m) : Root source m := by
  obtain ⟨before, whole, after, rfl, hforest⟩ := Parser.wholeOf?_cases ht
  obtain ⟨c, hbefore, hrest⟩ := hchain.split
  cases hrest with
  | cons hwhole hafter =>
    rcases hforest with hforest | ⟨n, hwhole', hforest⟩
    · rw [hforest] at hm
      exact root_of_named (hwhole.good.named m (List.mem_of_head? hm))
    · rw [hforest, Forest.nodes_node] at hm
      obtain rfl := Option.some.inj hm
      exact root_of_chain hbefore hwhole hafter (by rw [hwhole', Forest.nodes_node]) rfl

/-- The tree of a byte string is the first node of its reading. -/
theorem exists_reading_of_parse? {source : Source} {root : Node} (h : parse? source = some root) :
    ∃ reading, language.parse? (.ofBytes source.toList) = some reading ∧
      reading.forest.nodes.head? = some root := by
  -- the definition is unfolded without its equation, which would run the parser
  delta parse? at h
  cases hreading : language.parse? (.ofBytes source.toList) with
  | none =>
    rw [hreading] at h
    exact absurd h (Option.some_ne_none _).symm
  | some reading =>
    rw [hreading] at h
    exact ⟨reading, rfl, h⟩

/-- The tree of a byte string has its names in it. -/
theorem root_of_parse? {source : Source} {root : Node} (h : parse? source = some root) :
    Root source root := by
  obtain ⟨reading, hreading, hroot⟩ := exists_reading_of_parse? h
  obtain ⟨b, e, passed, hchain, hwhole⟩ :=
    Language.parse?_chain (language_keeps source) (Cursor.in_ofBytes _) hreading
  exact root_of_wholeOf? hchain hwhole hroot

end Go

/-! ## Files -/

/-- The name stands in the text at an offset, and on its line. -/
structure Identifier.StandsAt (source : Source) (offset : Nat) (i : Identifier) : Prop where
  bytes : Text.slice source offset (offset + (Text.bytesOf i.name).length) = Text.bytesOf i.name
  identifier : IsIdentifier i.name.toList
  notBlank : ∀ c ∈ i.name.toList, Text.isBlank c = false
  line : i.line = 1 + (source.toList.take offset).count 10

/-- The names of a file in the order of their groups. -/
def SourceFile.names (f : SourceFile) : List Identifier :=
  f.groups.flatMap (·.names)

/-- What is reported of a file are names of it, in their order. -/
structure SourceFile.Placed (source : Source) (f : SourceFile) : Prop where
  /-- Every group has a first name, and its line. -/
  named : ∀ g ∈ f.groups, ∃ first rest, g.names = first :: rest ∧ g.line = first.line
  /-- The names stand in the text one behind the other. -/
  places : ∃ offsets : List Nat, offsets.Pairwise (· < ·) ∧
    List.Forall₂ (Identifier.StandsAt source) offsets f.names
  /-- The verdict is about some of the names, in order, and its lines do not decrease. -/
  verdict : ∃ ds, check f = .ok ds ∧
    ds.Sublist (f.groups.flatMap fun g => g.names.map (·.diagnostic g.file)) ∧
    (ds.map (·.line)).Pairwise (· ≤ ·)

theorem Node.SpellsName.standsAt {source : Source} {n : Node} (h : n.SpellsName source) :
    Identifier.StandsAt source n.start ⟨n.text source, n.line⟩ := by
  obtain ⟨cs, hcs, hslice, hstop⟩ := h.text
  have htext : n.text source = String.ofList cs := by
    rw [Node.text, hslice, Text.lossyText_flatMap]
  have hbytes : Text.bytesOf (n.text source) = cs.flatMap String.utf8EncodeChar := by
    rw [htext, Text.bytesOf, String.toList_ofList]
  refine ⟨?_, ?_, ?_, ?_⟩
  · simp only [hbytes]
    rw [← hstop, hslice]
  · simp only [htext, String.toList_ofList]
    exact hcs
  · simp only [htext, String.toList_ofList]
    exact hcs.not_blank
  · simp only [Node.line, h.row]
    omega

theorem Node.SpellsName.start_lt {source : Source} {n : Node} (h : n.SpellsName source) :
    n.start < n.stop := by
  obtain ⟨cs, hcs, -, hstop⟩ := h.text
  cases hcs with
  | @intro c cs _ _ =>
    have hpos : 0 < (String.utf8EncodeChar c).length := by
      rw [String.length_utf8EncodeChar]
      exact c.utf8Size_pos
    rw [List.flatMap_cons, List.length_append] at hstop
    omega

namespace Go.Root

variable {source : Source} {root : Node}

/-- The nodes of the names of a file. -/
def nameNodes (root : Node) : List Node :=
  root.topLevelSpecs.flatMap (·.childrenAt "name")

theorem names_extract (source : Source) (root : Node) (file : String) :
    (root.extract source file).names =
      (nameNodes root).map fun n => ⟨n.text source, n.line⟩ := by
  rw [SourceFile.names, Node.extract, List.flatMap_map, nameNodes, List.map_flatMap]
  rfl

theorem nameNodes_inOrder (h : Root source root) : ∃ lo hi, InOrder lo (nameNodes root) hi := by
  obtain ⟨lo, hi, hroot⟩ := h.inOrder
  have hspecs := Node.inOrder_topLevelSpecs hroot fun n hn =>
    (h.named n hn).imp fun _ hm => hm.inOrder
  refine ⟨lo, hi, hspecs.flatMap fun spec hspec => ?_⟩
  obtain ⟨-, hnamed⟩ := Node.of_mem_topLevelSpecs h.named hspec
  exact hnamed.inOrder.filter _

theorem spellsName_of_mem (h : Root source root) :
    ∀ n ∈ nameNodes root, n.SpellsName source := by
  intro n hn
  obtain ⟨spec, hspec, hn⟩ := List.mem_flatMap.1 hn
  obtain ⟨hkind, hnamed⟩ := Node.of_mem_topLevelSpecs h.named hspec
  exact (hnamed.names hkind).2 n hn

theorem starts_increase (h : Root source root) :
    ((nameNodes root).map (·.start)).Pairwise (· < ·) := by
  obtain ⟨lo, hi, hinOrder⟩ := h.nameNodes_inOrder
  exact hinOrder.starts_increase fun n hn => (h.spellsName_of_mem n hn).start_lt

/-- Names further on are on the same line or on later ones. -/
theorem lines_le (h : Root source root) :
    ((nameNodes root).map (·.line)).Pairwise (· ≤ ·) := by
  refine List.pairwise_map.2 ((List.pairwise_map.1 h.starts_increase).imp_of_mem ?_)
  intro m n hm hn hlt
  have hcount : (source.toList.take m.start).count 10 ≤ (source.toList.take n.start).count 10 :=
    (List.take_sublist_take_left (Nat.le_of_lt hlt)).count_le 10
  rw [Node.line, Node.line, (h.spellsName_of_mem m hm).row, (h.spellsName_of_mem n hn).row]
  omega

theorem named_groups (h : Root source root) (file : String) :
    ∀ g ∈ (root.extract source file).groups,
      ∃ first rest, g.names = first :: rest ∧ g.line = first.line := by
  intro g hg
  obtain ⟨spec, hspec, rfl⟩ := List.mem_map.1 hg
  obtain ⟨hkind, hnamed⟩ := Node.of_mem_topLevelSpecs h.named hspec
  obtain ⟨n, ns, hns⟩ := List.exists_cons_of_ne_nil (hnamed.names hkind).1
  refine ⟨⟨n.text source, n.line⟩, ns.map fun n => ⟨n.text source, n.line⟩, ?_, ?_⟩
  · rw [Node.group, Node.names, hns]
    rfl
  · rw [Node.group, Node.names, hns]
    rfl

/-- The lines of all names of a file are those of their nodes. -/
theorem lines_extract (source : Source) (root : Node) (file : String) :
    ((root.extract source file).groups.flatMap fun g =>
      g.names.map (·.diagnostic g.file)).map (·.line) = (nameNodes root).map (·.line) := by
  have hnames := congrArg (List.map Identifier.line) (names_extract source root file)
  rw [List.map_map] at hnames
  rw [List.map_flatMap]
  refine Eq.trans ?_ hnames
  rw [SourceFile.names, List.map_flatMap]
  congr 1
  funext g
  rw [List.map_map]
  rfl

/-- The declarations of a tree whose names stand in a text stand in it too. -/
theorem placed_extract (h : Root source root) (file : String) :
    (root.extract source file).Placed source := by
  have hnamed := h.named_groups file
  refine ⟨hnamed, ⟨(nameNodes root).map (·.start), h.starts_increase, ?_⟩, ?_⟩
  · rw [names_extract, List.forall₂_map_left_iff, List.forall₂_map_right_iff, List.forall₂_same]
    exact fun n hn => (h.spellsName_of_mem n hn).standsAt
  · refine ⟨_, check_of_named fun g hg => ?_, findings_sublist _, ?_⟩
    · obtain ⟨first, rest, hnames, -⟩ := hnamed g hg
      rw [hnames]
      exact List.cons_ne_nil _ _
    · have hsub := (findings_sublist (root.extract source file).groups).map (·.line)
      rw [lines_extract] at hsub
      exact h.lines_le.sublist hsub

end Go.Root

/-- A file is read from a tree of its text. -/
theorem SourceFile.exists_root_of_read {source : Source} {file : String} {f : SourceFile}
    (h : SourceFile.read source file = .ok f) :
    ∃ root, Go.parse? source = some root ∧ f = root.extract source file := by
  delta SourceFile.read at h
  cases hparse : Go.parse? source with
  | none =>
    rw [hparse] at h
    exact absurd h (by simp)
  | some root =>
    rw [hparse] at h
    simp only [] at h
    cases haccept : root.accept source with
    | error r =>
      rw [haccept] at h
      exact absurd h (by simp [bind, Except.bind])
    | ok u =>
      rw [haccept] at h
      exact ⟨root, rfl, (Except.ok.inj h).symm⟩

/-- **Every place that is read from a file is real.**  If a byte string is accepted, its groups all
have names, the names stand in it at increasing offsets and on the lines recorded for them, and the
verdict on it does not fail. -/
theorem SourceFile.read_placed (source : Source) (file : String) :
    match SourceFile.read source file with
    | .ok f => f.Placed source
    | .error _ => True := by
  cases hread : SourceFile.read source file with
  | error r => trivial
  | ok f =>
    obtain ⟨root, hparse, rfl⟩ := SourceFile.exists_root_of_read hread
    exact (Go.root_of_parse? hparse).placed_extract file

end GoGlobals
