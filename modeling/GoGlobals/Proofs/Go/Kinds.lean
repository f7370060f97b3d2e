import GoGlobals.Proofs.Go.Names
import GoGlobals.Proofs.Tree.ErrorLine

/-!
# The kinds of Go trees

The kinds of the nodes of a tree come from the grammar: they are the names of constructs and of
classes of tokens, the spellings of the other tokens, and the kinds that labels give.  All of them
are printable but two, the line feed and the NUL byte that end a statement.  This is decided by
looking at all definitions.

So every tree of a Go text has the kinds that are asked for where parse errors are put into words,
and no node of it says that it holds a mistake (`everywhere_plain_of_parse?`).  Whatever bytes a file
holds, the error that it is refused with is one printable line (`SourceFile.printable_of_read`).
-/

set_option autoImplicit false

namespace GoGlobals

open Text (Source Cursor Printable)
open Node (Everywhere)

/-- The kind of the node is one of Go text, and the node does not say that it holds a mistake. -/
structure Node.Plain (n : Node) : Prop where
  kind : n.HasGoKind
  flag : n.hasError = false

/-- A printable kind may take the place of a node's own. -/
theorem Node.Plain.apply {n : Node} (h : Everywhere Node.Plain n) {label : Grammar.Label}
    (hlabel : ∀ kind, label.kind = some kind → Printable kind) :
    Everywhere Node.Plain (label.apply n) := by
  refine .intro ⟨?_, h.here.flag⟩ fun m hm => h.child hm
  cases hkind : label.kind with
  | some kind =>
    refine .inl ?_
    rw [Grammar.Label.apply, hkind]
    exact hlabel kind hkind
  | none =>
    rw [Grammar.Label.apply, hkind, Option.isSome_none, Bool.or_false]
    exact h.here.kind

namespace Go

open Grammar

/-! ## What the grammar says about kinds -/

/-- The kind of the symbol's nodes is one of Go text. -/
def kindRight (s : Symbol) : Bool :=
  decide (Printable s.kind) || (!s.isNamed && (s.kind == "\n" || s.kind == "\x00"))

/-- What is asked of the symbols of a definition that have nodes. -/
def kindsRight (d : Definition) : Bool :=
  (!d.symbol.isVisible || kindRight d.symbol) && d.alternatives.all fun a =>
    a.rule.symbols.all fun s => !s.isTerminal || kindRight s

/-- The kinds that a form gives to its parts are printable. -/
def labelsRight (form : List (Symbol × Label)) : Bool :=
  form.all fun step => step.2.kind.all fun kind => decide (Printable kind)

theorem kindsRight_definitions : (unfoldAll definitions).all kindsRight = true := by
  decide +kernel

theorem labelsRight_definitions :
    ((unfoldAll definitions).all fun d => d.alternatives.all fun a =>
      (a.rule.forms {}).all labelsRight) = true := by
  decide +kernel

theorem plain_nodeOf {s : Symbol} (h : kindRight s = true) (start : Text.Place) (stop : Cursor)
    (children : List Node) : (Reading.nodeOf s start stop children).Plain := by
  rw [kindRight, Bool.or_eq_true, Bool.and_eq_true, Bool.or_eq_true, Bool.not_eq_true',
    decide_eq_true_iff, beq_iff_eq, beq_iff_eq] at h
  exact ⟨h, rfl⟩

/-- Every symbol that has a node has a kind of Go text. -/
theorem kindRight_symbol {n : Nat} (h : (grammar.symbol n).isVisible = true) :
    kindRight (grammar.symbol n) = true := by
  rcases Compiled.symbol_mem (g := grammar) n with hmem | hfinish
  · rcases mem_symbols_iff.1 hmem with hs | hs | ⟨d, hd, a, ha, hs, hterminal⟩ | ⟨d, hd, hs⟩
    · rw [hs]; decide
    · simp only [List.mem_cons, List.not_mem_nil, or_false] at hs
      rcases hs with hs | hs <;> rw [hs] <;> decide
    · have hright := List.all_eq_true.1 kindsRight_definitions d hd
      rw [kindsRight, Bool.and_eq_true] at hright
      have hsymbol := List.all_eq_true.1 (List.all_eq_true.1 hright.2 a ha) _ hs
      rwa [hterminal, Bool.not_true, Bool.false_or] at hsymbol
    · have hright := List.all_eq_true.1 kindsRight_definitions d hd
      rw [kindsRight, Bool.and_eq_true, hs, h, Bool.not_true, Bool.false_or] at hright
      exact hright.1
  · rw [hfinish]; decide

theorem isVisible_of_isTerminal {s : Symbol} (h : s.isTerminal = true) : s.isVisible = true := by
  cases s with
  | finish | text | constant | lexeme | construct => rfl
  | family | repetition => exact absurd h Bool.false_ne_true

/-! ## Readings -/

/-- A reading whose nodes are all plain. -/
structure Worded (source : Source) (r : Reading) : Prop where
  stop : r.stop.In (Text.decode source.toList)
  plain : ∀ n ∈ r.forest.nodes, Everywhere Node.Plain n

theorem worded_leaf {source : Source} {c : Cursor} {t : Token}
    (hc : c.In (Text.decode source.toList)) (ht : LiesBehind c t) :
    Fits (Worded source) c (Reading.leaf grammar c.offset t) t.stop := by
  have hplaced := placed_leaf hc ht
  refine ⟨⟨hplaced.good.stop, fun n hn => ?_⟩, hplaced.le_start, hplaced.start_le, hplaced.stop_eq⟩
  obtain ⟨ps, d, -, k, -, -, hsuits⟩ := ht
  rw [Reading.nodes_leaf, List.mem_singleton] at hn
  subst hn
  exact .intro (plain_nodeOf (kindRight_symbol (isVisible_of_isTerminal (hsuits _ (.inl rfl)).1)) ..)
    fun m hm => absurd hm List.not_mem_nil

/-- The nodes of parts with printable labels are plain. -/
theorem plain_nodes_forests {source : Source} {parts : List Reading}
    (hparts : ∀ r ∈ parts, Worded source r) {form : List (Symbol × Label)}
    (hsymbols : Reading.symbols parts = form.map fun step => grammar.number step.1)
    (hlabels : labelsRight form = true) :
    ∀ n ∈ (Reading.forests parts (form.map (·.2))).flatMap Forest.nodes,
      Everywhere Node.Plain n := by
  intro n hn
  obtain ⟨r, hr, hn | ⟨step, hstep, -, m, hm, rfl⟩⟩ := mem_nodes_forests hsymbols hn
  · exact (hparts r hr).plain n hn
  · refine Node.Plain.apply ((hparts r hr).plain m hm) fun kind hkind => ?_
    have hright := List.all_eq_true.1 hlabels step hstep
    rw [hkind, Option.all_some, decide_eq_true_iff] at hright
    exact hright

theorem worded_branch {source : Source} {r : Reduction} {c d : Cursor} {parts : List Reading}
    {t : Reading} (hc : c.In (Text.decode source.toList)) (hchain : Chain (Worded source) c parts d)
    (ht : Reading.branch? grammar r c parts = some t) : Worded source t := by
  have hbranch := Reading.isBranch_of_branch? ht
  obtain ⟨-, -, hstop⟩ := hbranch.span hchain
  obtain ⟨def', hdef, form, hform, -, hsymbols, hlabels⟩ := exists_form_of_allows hbranch.allowed
  have hplain := plain_nodes_forests hchain.good hsymbols
    (of_hasForm (p := fun _ => labelsRight) labelsRight_definitions hdef hform)
  refine ⟨hstop ▸ hchain.valid (V := (·.In (Text.decode source.toList))) (fun h => h.stop) hc, ?_⟩
  rw [hbranch.nodes, hlabels]
  split
  · rename_i hvisible
    intro n hn
    rw [List.mem_singleton] at hn
    subst hn
    exact .intro (plain_nodeOf (kindRight_symbol hvisible) ..) hplain
  · exact hplain

/-- **Reading Go text gives plain nodes.** -/
theorem language_words (source : Source) :
    language.Keeps (·.In (Text.decode source.toList)) LiesBehind (Worded source) where
  unique := (language_keeps source).unique
  valid h := h.stop
  token := (language_keeps source).token
  otherwise := (language_keeps source).otherwise
  leaf := worded_leaf
  branch := worded_branch

/-! ## Trees -/

theorem plain_nodes_of_chain {source : Source} {c d : Cursor} {rs : List Reading}
    (h : Chain (Worded source) c rs d) :
    ∀ n ∈ (rs.map (·.forest)).flatMap Forest.nodes, Everywhere Node.Plain n := by
  intro n hn
  obtain ⟨f, hf, hn⟩ := List.mem_flatMap.1 hn
  obtain ⟨r, hr, rfl⟩ := List.mem_map.1 hf
  exact (h.good r hr).plain n hn

theorem plain_of_wholeOf? {source : Source} {b e : Cursor} {passed : List Reading} {t : Reading}
    (hchain : Chain (Worded source) b passed e) (ht : Parser.wholeOf? passed = some t) {m : Node}
    (hm : t.forest.nodes.head? = some m) : Everywhere Node.Plain m := by
  obtain ⟨before, whole, after, rfl, hforest⟩ := Parser.wholeOf?_cases ht
  obtain ⟨c, hbefore, hrest⟩ := hchain.split
  cases hrest with
  | cons hwhole hafter =>
    rcases hforest with hforest | ⟨n, hwhole', hforest⟩
    · rw [hforest] at hm
      exact hwhole.good.plain m (List.mem_of_head? hm)
    · rw [hforest, Forest.nodes_node] at hm
      obtain rfl := Option.some.inj hm
      have hn : Everywhere Node.Plain n :=
        hwhole.good.plain n (by rw [hwhole', Forest.nodes_node]; exact List.mem_cons_self)
      refine .intro ⟨hn.here.kind, hn.here.flag⟩ fun k hk => ?_
      rw [List.mem_append, List.mem_append] at hk
      rcases hk with hk | hk | hk
      · exact plain_nodes_of_chain hbefore k hk
      · exact hn.child hk
      · exact plain_nodes_of_chain hafter k hk

/-- **All nodes of the tree of a byte string are plain.** -/
theorem everywhere_plain_of_parse? {source : Source} {root : Node} (h : parse? source = some root) :
    Everywhere Node.Plain root := by
  obtain ⟨reading, hreading, hroot⟩ := exists_reading_of_parse? h
  obtain ⟨b, e, passed, hchain, hwhole⟩ :=
    Language.parse?_chain (language_words source) (Cursor.in_ofBytes _) hreading
  exact plain_of_wholeOf? hchain hwhole hroot

end Go

/-- A file is refused because it has no tree, or because its tree is. -/
theorem SourceFile.cases_of_read_error {source : Source} {file : String} {r : Refusal}
    (h : SourceFile.read source file = .error r) :
    r = ⟨.unreadable, none⟩ ∨ ∃ root, Go.parse? source = some root ∧
      root.refusal? source = some r := by
  delta SourceFile.read at h
  cases hparse : Go.parse? source with
  | none =>
    rw [hparse] at h
    exact .inl (Except.error.inj h).symm
  | some root =>
    rw [hparse] at h
    simp only [Node.accept] at h
    cases hrefusal : root.refusal? source with
    | none =>
      rw [hrefusal] at h
      exact absurd h (by simp [bind, Except.bind, pure, Except.pure])
    | some r' =>
      rw [hrefusal] at h
      exact .inr ⟨root, rfl, by rw [hrefusal, Except.error.inj h]⟩

/-- **A file is refused in one line.**  Whatever bytes a file holds, if its path is printable then so
is the line that reports its parse error. -/
theorem SourceFile.printable_of_read {source : Source} {file : String} {r : Refusal}
    (hfile : Printable file) (h : SourceFile.read source file = .error r) :
    Printable (r.error file).render := by
  rcases SourceFile.cases_of_read_error h with rfl | ⟨root, hroot, hr⟩
  · exact Refusal.printable_render hfile fun _ hkind => absurd hkind (Option.some_ne_none _).symm
  · have hplain := Go.everywhere_plain_of_parse? hroot
    rw [Node.refusal?, hplain.here.flag, if_neg Bool.false_ne_true] at hr
    exact Node.printable_layoutRefusal? hfile (hplain.imp fun _ hn => hn.kind) hr

end GoGlobals
