import GoGlobals.Proofs.Go.Values

/-!
# Reading specifications

A specification is read as a node with its names, all on the line where it stands, and with the
shapes of its values.  The lists of its names and of its values are of any length.  Each of them is
read from the front: what is on the stack behind the first few names or values is one reading, which
the next one is joined to.

## What is here

* `Along`: how far a text is read, and the line of that place.
* `NamesOn` and `ValuesOn`: the stacks behind some of the names and behind some of the values, and
  `NamesOn.reaches` and `ValuesOn.reaches`, by induction on those that are left.
* `IsSpec` is the reading of a specification, and `SpecAt.reaches` says that the parser comes to it.
-/

set_option autoImplicit false

namespace GoGlobals.Go

open Text (Piece Place Cursor Source)
open Grammar

/-! ## Places in a text -/

/-- The place in a text with these characters before and behind it is on this line. -/
structure Along (text : List Char) (line : Int) (gone rest : List Char) : Prop where
  text_eq : text = gone ++ rest
  line_eq : line = gone.count '\n' + 1

theorem Along.skip {text : List Char} {line : Int} {gone rest : List Char} (cs : List Char)
    (h : Along text line gone (cs ++ rest)) (hcs : '\n' ∉ cs) :
    Along text line (gone ++ cs) rest := by
  refine ⟨by rw [h.text_eq, List.append_assoc], ?_⟩
  rw [h.line_eq, List.count_append, List.count_eq_zero_of_not_mem hcs, Nat.add_zero]

theorem Along.lineFeed {text : List Char} {line : Int} {gone rest : List Char}
    (h : Along text line gone ('\n' :: rest)) : Along text (line + 1) (gone ++ ['\n']) rest := by
  refine ⟨by rw [h.text_eq, List.append_assoc]; rfl, ?_⟩
  rw [h.line_eq, List.count_append]
  rfl

/-! ## The nodes of specifications -/

/-- The nodes bind these names on this line, and none of them is a list of values. -/
structure NamesAre (text : List Char) (line : Int) (ns : List Name) (nodes : List Node) : Prop where
  names : (nodes.filter (·.field == some "name")).map
      (fun n => (⟨n.text (sourceOf text), n.line⟩ : Identifier)) = ns.map (⟨·.text, line⟩)
  values : ∀ n ∈ nodes, n.field ≠ some "value"

/-- The values among the nodes have the shapes of these. -/
def ValuesAre (text : List Char) (vs : List Value) (nodes : List Node) : Prop :=
  ((nodes.filter (·.named)).filter (!·.isComment)).map (·.classify (sourceOf text)) =
    vs.map Value.initializer

variable {text : List Char} {line : Int}

theorem NamesAre.append {ns ns' : List Name} {nodes nodes' : List Node}
    (h : NamesAre text line ns nodes) (h' : NamesAre text line ns' nodes') :
    NamesAre text line (ns ++ ns') (nodes ++ nodes') := by
  refine ⟨?_, fun n hn => ?_⟩
  · rw [List.filter_append, List.map_append, h.names, h'.names, List.map_append]
  · rcases List.mem_append.1 hn with hn | hn
    · exact h.values n hn
    · exact h'.values n hn

theorem ValuesAre.append {vs vs' : List Value} {nodes nodes' : List Node}
    (h : ValuesAre text vs nodes) (h' : ValuesAre text vs' nodes') :
    ValuesAre text (vs ++ vs') (nodes ++ nodes') := by
  rw [ValuesAre, List.filter_append, List.filter_append, List.map_append, h, h', List.map_append]

theorem ValuesAre.of_isValue {v : Value} {m : Meaning} (h : IsValue text v m) :
    ValuesAre text [v] m.nodes := by
  obtain ⟨n, hnodes, hnamed, hcomment, hclassify⟩ := h.node
  simp [ValuesAre, hnodes, hnamed, hcomment, hclassify]

/-- The name of a variable. -/
theorem namesAre_token (x : Name) {gone rest : List Char} (blanks : List Char)
    (h : Along text line (gone ++ blanks) (x.text.toList ++ rest)) :
    NamesAre text line [x] ((Meaning.token .name gone blanks x.text.toList rest).nodes.map
      (Form.under "name").apply) := by
  have htext : (tokenNode .name gone blanks x.text.toList rest).text (sourceOf text) = x.text := by
    rw [text_tokenNode .name blanks (h.text_eq.trans (List.append_assoc _ _ _)),
      String.ofList_toList]
  have hline : (tokenNode .name gone blanks x.text.toList rest).line = line := by
    rw [h.line_eq, ← Cursor.row_between (gone ++ blanks) (x.text.toList ++ rest)]
    rfl
  refine ⟨?_, by simp [Meaning.token, Label.apply, Form.under, Reading.nodeOf]⟩
  exact congrArg₂ (fun t l => [Identifier.mk t l]) htext hline

/-- The name of one more variable, behind a comma. -/
theorem namesAre_moreName (x : Name) {gone rest : List Char} {mC : Meaning}
    (hC : ∀ n ∈ mC.nodes, n.field = none)
    (h : Along text line (gone ++ [' ']) (x.text.toList ++ rest)) :
    NamesAre text line [x]
      (Form.moreName.children [mC, .token .name gone [' '] x.text.toList rest]) := by
  have hcomma : NamesAre text line [] mC.nodes := by
    refine ⟨?_, fun n hn => by simp [hC n hn]⟩
    have hnone : mC.nodes.filter (·.field == some "name") = [] := by
      simp only [List.filter_eq_nil_iff]
      exact fun n hn => by simp [hC n hn]
    rw [hnone]
    rfl
  have hboth := hcomma.append (namesAre_token x [' '] h)
  simpa [Form.children, Form.parts, funext Label.apply_empty] using hboth

/-- The group of a specification is made of its names and its values. -/
theorem group_nodeOf (s : Spec) (start : Place) (stop : Cursor) {xs ys : List Node}
    (hxs : NamesAre text line s.names xs) (hys : ∀ n ∈ ys, n.field ≠ some "name")
    (hvalues : (Reading.nodeOf Part.varSpec.symbol start stop ys).valueNodes.map
      (·.classify (sourceOf text)) = s.values.map Value.initializer) (file : String) :
    (Reading.nodeOf Part.varSpec.symbol start stop (xs ++ ys)).group (sourceOf text) file =
      s.group file line := by
  have hnames : (Reading.nodeOf Part.varSpec.symbol start stop (xs ++ ys)).names (sourceOf text) =
      s.names.map fun x => ⟨x.text, line⟩ := by
    have hnone : ys.filter (·.field == some "name") = [] := by simpa using hys
    rw [Node.names, Node.childrenAt, ← hxs.names, Reading.nodeOf, List.filter_append, hnone,
      List.append_nil]
  have hchild : (Reading.nodeOf Part.varSpec.symbol start stop (xs ++ ys)).valueNodes =
      (Reading.nodeOf Part.varSpec.symbol start stop ys).valueNodes := by
    have hnone : xs.find? (·.field == some "value") = none := by simpa using hxs.values
    rw [Node.valueNodes, Node.valueNodes, Node.child?, Node.child?, Reading.nodeOf, Reading.nodeOf,
      List.find?_append, hnone, Option.none_or]
  rw [Node.group, hnames, hchild, hvalues]
  rfl

/-- The reading of a specification: one node, which has the group of the specification. -/
structure IsSpec (text : List Char) (line : Int) (s : Spec) (m : Meaning) : Prop where
  part : m.part = .varSpec
  node : ∃ n, m.nodes = [n] ∧ n.kind = "var_spec" ∧ n.named = true ∧
    ∀ file, n.group (sourceOf text) file = s.group file line

/-! ## Names -/

/-- A specification can stand at the first stage, and the second one is behind it. -/
inductive SpecAt : Stage → Stage → Prop
  | line : SpecAt .var .varSpec
  | first : SpecAt .opened .listSpec
  | more : SpecAt .list .listSpec

/-- The stack behind the first name and more names. -/
inductive NamesOn (text : List Char) (line : Int) (b : Pile) : List Name → Pile → Prop
  | one : NamesOn text line b [] b
  | more {ns : List Name} {m : Meaning} {r : Reading} (hr : m.Of r) (hpart : m.part = .moreNames)
      (hnames : NamesAre text line ns m.nodes) :
      NamesOn text line b ns (b.push r Stage.names.label)

variable {b u : Pile} {ns : List Name}

/-- One more name behind a comma. -/
theorem NamesOn.closes (hu : NamesOn text line b ns u) (hb : b.state = Stage.name.label)
    {mC mN : Meaning} {rC rN : Reading} (hC : mC.Of rC) (hN : mN.Of rN) (hcomma : mC.part = .comma)
    (hname : mN.part = .name) {x : Name}
    (hx : NamesAre text line [x] (Form.moreName.children [mC, mN])) :
    ∃ u', NamesOn text line b (ns ++ [x]) u' ∧ ClosesOn [.comma, .name, .equals] 2
      (pushAll u [(rC, .comma), (rN, .nextName)]) u' := by
  have hparts : [mC, mN].map (·.part) = Form.moreName.parts.map (·.1) := by
    simp [hcomma, hname, Form.parts]
  cases hu with
  | one =>
    obtain ⟨r, hr, hcloses⟩ := Form.moreName.closes (by decide) hb rfl
      [(rC, .comma), (rN, .nextName)] (.cons hC (.cons hN .nil)) hparts .nextName rfl
      [.comma, .name, .equals] (by decide)
    exact ⟨_, .more hr rfl hx, fun y hy => (hcloses y hy).mono (by decide)⟩
  | @more _ m r hr hpart hnames =>
    obtain ⟨r', hr', hcloses⟩ := Form.moreName.closes (by decide)
      (show (b.push r Stage.names.label).state = Stage.names.label from rfl) rfl
      [(rC, .comma), (rN, .nextName)] (.cons hC (.cons hN .nil)) hparts .nextName rfl
      [.comma, .name, .equals] (by decide)
    obtain ⟨q, hq, hcloses'⟩ := Form.joinNames.closes (by decide) hb rfl
      [(r, .names), (r', .namesTwice)] (.cons hr (.cons hr' .nil))
      (by simp [hpart, Form.parts, Form.meaning, Form.head]) .namesTwice rfl
      [.comma, .name, .equals] (by decide)
    refine ⟨_, .more hq rfl ?_, hcloses.trans hcloses'⟩
    rw [Form.nodes_pair rfl rfl]
    exact hnames.append hx

theorem NamesOn.exists_stage (hu : NamesOn text line b ns u) (hb : b.state = Stage.name.label) :
    ∃ k : Stage, u.state = k.label ∧ (k = .name ∨ k = .names) := by
  cases hu with
  | one => exact ⟨.name, hb, .inl rfl⟩
  | more => exact ⟨.names, rfl, .inr rfl⟩

variable {size : Nat} {P : Reading → Prop}

theorem Name.lineFeed_notMem (x : Name) : '\n' ∉ x.text.toList := by
  obtain ⟨c, cs, hword⟩ := x.isWord
  rw [hword.toList_eq]
  refine fun hmem => ?_
  rcases List.mem_cons.1 hmem with rfl | hmem
  · exact absurd hword.start (by decide)
  · exact absurd (hword.parts _ hmem) (by decide)

theorem endsWord_commaSeparated (parts : List (List Char)) {rest : List Char}
    (hrest : EndsWord rest) : EndsWord (commaSeparated parts ++ rest) := by
  cases parts with
  | nil => exact hrest
  | cons part parts => exact endsWord_mark (by decide) _

/-- **The names of a specification.** -/
theorem NamesOn.reaches (hsize : stepLimit ≤ size) (hb : b.state = Stage.name.label)
    {rest : List Char} (hrest : EndsWord rest) {others : List Name} {gone : List Char} {t : Pile}
    (hu : NamesOn text line b ns u)
    (halong : Along text line gone (commaSeparated (others.map (·.text.toList)) ++ rest))
    (ht : Ended [.comma, .name, .equals] 2
      (.between gone (commaSeparated (others.map (·.text.toList)) ++ rest)) t u)
    (hnext : ∀ gone t u, NamesOn text line b (ns ++ others) u → Along text line gone rest →
      Ended [.comma, .name, .equals] 2 (.between gone rest) t u →
      Reaches size (.between gone rest) [t] P) :
    Reaches size (.between gone (commaSeparated (others.map (·.text.toList)) ++ rest)) [t] P := by
  induction others generalizing ns gone t u with
  | nil =>
    rw [List.append_nil] at hnext
    exact hnext gone t u hu halong ht
  | cons x others ih =>
    have hends := endsWord_commaSeparated (others.map (·.text.toList)) hrest
    have hsplit : commaSeparated ((x :: others).map (·.text.toList)) ++ rest =
        ',' :: ' ' :: (x.text.toList ++ (commaSeparated (others.map (·.text.toList)) ++ rest)) := by
      simp [commaSeparated]
    rw [hsplit] at halong ht ⊢
    obtain ⟨k, hk, hstage⟩ := hu.exists_stage hb
    have hshift : k.actions .comma = some [.shift .comma] := by rcases hstage with rfl | rfl <;> rfl
    have hcomma : EndsMark ',' (' ' :: (x.text.toList ++
        (commaSeparated (others.map (·.text.toList)) ++ rest))) := by
      rintro _ ⟨⟩
      decide
    refine ht.shift_next hsize (by decide) (by decide) (.mark rfl hcomma) (List.cons_ne_nil _ _) hk
      hshift fun rC hC hstop => ?_
    refine Ended.shift [' '] (.refl [.name] .comma rfl (by decide) hstop) hsize (by decide)
      List.mem_cons_self (.name x hends) x.toList_ne_nil (by simp) (k := .comma) rfl rfl
      fun rN hN => ?_
    have hplace := (halong.skip [','] (by decide)).skip [' '] (by decide)
    have hfields : ∀ {cs : List Char}, ∀ n ∈ (Meaning.token .comma gone [] [','] cs).nodes,
        n.field = none := by simp [Meaning.token, Reading.nodeOf]
    obtain ⟨u', hu', hcloses⟩ :=
      hu.closes hb hC hN rfl rfl (namesAre_moreName x hfields hplace)
    refine ih hu' (hplace.skip _ x.lineFeed_notMem)
      ⟨⟨.nextName, rfl, by decide⟩, hN.stop, hcloses⟩ ?_
    rwa [List.append_assoc]

/-! ## Values -/

/-- The reading of the values of a specification. -/
structure IsValues (text : List Char) (vs : List Value) (m : Meaning) : Prop where
  part : m.part = .expressionList
  node : ∃ start stop children, m.nodes =
    [Reading.nodeOf Part.expressionList.symbol start stop children] ∧ ValuesAre text vs children

/-- The stack behind the first value and more values. -/
inductive ValuesOn (text : List Char) (e : Pile) : List Value → Pile → Prop
  | one {v : Value} {m : Meaning} {r : Reading} (hr : m.Of r) (hm : IsValue text v m) :
      ValuesOn text e [v] (e.push r Stage.value.label)
  | more {v : Value} {vs : List Value} {m m' : Meaning} {r r' : Reading} (hr : m.Of r)
      (hm : IsValue text v m) (hr' : m'.Of r') (hpart : m'.part = .moreValues)
      (hvalues : ValuesAre text vs m'.nodes) :
      ValuesOn text e (v :: vs) (pushAll e [(r, .value), (r', .values)])

variable {e : Pile} {vs : List Value}

theorem ValuesOn.exists_stage (hu : ValuesOn text e vs u) :
    ∃ k : Stage, u.state = k.label ∧ (k = .value ∨ k = .values) := by
  cases hu with
  | one => exact ⟨.value, rfl, .inl rfl⟩
  | more => exact ⟨.values, rfl, .inr rfl⟩

/-- One more value behind a comma. -/
theorem ValuesOn.closes (hu : ValuesOn text e vs u) {mC mV : Meaning} {rC rV : Reading}
    (hC : mC.Of rC) (hV : mV.Of rV) (hcomma : mC.part = .comma)
    (hnone : ValuesAre text [] mC.nodes) {v : Value} (hv : IsValue text v mV) :
    ∃ u', ValuesOn text e (vs ++ [v]) u' ∧ ClosesOn [.comma, .lineFeed] 2
      (pushAll u [(rC, .valueComma), (rV, .nextValue)]) u' := by
  have hparts : [mC, mV].map (·.part) = Form.moreValue.parts.map (·.1) := by
    simp [hcomma, hv.part, Form.parts]
  have hvalue : ValuesAre text [v] (Form.moreValue.meaning [mC, mV]).nodes := by
    rw [Form.nodes_pair rfl rfl]
    exact hnone.append (.of_isValue hv)
  cases hu with
  | @one w m r hr hm =>
    obtain ⟨r', hr', hcloses⟩ := Form.moreValue.closes (by decide)
      (show (e.push r Stage.value.label).state = Stage.value.label from rfl) rfl
      [(rC, .valueComma), (rV, .nextValue)] (.cons hC (.cons hV .nil)) hparts .nextValue rfl
      [.comma, .lineFeed] (by decide)
    exact ⟨_, .more hr hm hr' rfl hvalue, fun y hy => (hcloses y hy).mono (by decide)⟩
  | @more w ws m m' r r' hr hm hr' hpart hvalues =>
    obtain ⟨q, hq, hcloses⟩ := Form.moreValue.closes (by decide)
      (show (pushAll e [(r, .value), (r', .values)]).state = Stage.values.label from rfl) rfl
      [(rC, .valueComma), (rV, .nextValue)] (.cons hC (.cons hV .nil)) hparts .nextValue rfl
      [.comma, .lineFeed] (by decide)
    obtain ⟨q', hq', hcloses'⟩ := Form.joinValues.closes (by decide)
      (show (e.push r Stage.value.label).state = Stage.value.label from rfl) rfl
      [(r', .values), (q, .valuesTwice)] (.cons hr' (.cons hq .nil))
      (by simp [hpart, Form.parts, Form.meaning, Form.head]) .valuesTwice rfl
      [.comma, .lineFeed] (by decide)
    refine ⟨_, .more hr hm hq' rfl ?_, hcloses.trans hcloses'⟩
    rw [Form.nodes_pair rfl rfl]
    exact hvalues.append hvalue

theorem lineFeed_notMem_of_areMoreDigits {ds : List Char} (h : areMoreDigits ds = true) :
    '\n' ∉ ds := by
  fun_induction areMoreDigits ds with
  | case1 => exact List.not_mem_nil
  | case2 d ds ih =>
    rw [Bool.and_eq_true] at h
    simp only [List.mem_cons, not_or]
    exact ⟨by decide, fun hd => absurd (hd ▸ h.1) (by decide), ih h.2⟩
  | case3 d ds _ ih =>
    rw [Bool.and_eq_true] at h
    simp only [List.mem_cons, not_or]
    exact ⟨fun hd => absurd (hd ▸ h.1) (by decide), ih h.2⟩

theorem Value.lineFeed_notMem (v : Value) : '\n' ∉ v.print.toList := by
  cases v with
  | integer n =>
    have hdecimal := n.decimal
    rw [isDecimal] at hdecimal
    simp only [print]
    generalize n.text.toList = cs at hdecimal
    cases cs with
    | nil => exact List.not_mem_nil
    | cons d ds =>
      simp only [Bool.or_eq_true, Bool.and_eq_true, beq_iff_eq, List.isEmpty_iff] at hdecimal
      simp only [List.mem_cons, not_or]
      rcases hdecimal with ⟨rfl, rfl⟩ | ⟨⟨hd, -⟩, hds⟩
      · exact ⟨by decide, List.not_mem_nil⟩
      · exact ⟨fun heq => absurd (heq ▸ hd) (by decide), lineFeed_notMem_of_areMoreDigits hds⟩
  | string s =>
    have hletters : '\n' ∉ s.text.toList := fun hmem =>
      absurd (List.all_eq_true.1 s.plain _ hmem) (by decide)
    simpa [print] using hletters
  | call f => simpa [print] using f.lineFeed_notMem
  | qualifiedCall qualifier member =>
    simpa [print] using ⟨qualifier.lineFeed_notMem, member.lineFeed_notMem⟩
  | composite qualifier member =>
    simpa [print] using ⟨qualifier.lineFeed_notMem, member.lineFeed_notMem⟩

theorem endsValue_commaSeparated (parts : List (List Char)) (rest : List Char) :
    EndsValue (commaSeparated parts ++ '\n' :: rest) := by
  cases parts with
  | nil =>
    rintro _ ⟨⟩
    exact .inr rfl
  | cons part parts =>
    rintro _ ⟨⟩
    exact .inl rfl

/-- **The values of a specification.** -/
theorem ValuesOn.reaches (hsize : stepLimit ≤ size) {rest : List Char} {values : List Value}
    {gone : List Char} {t : Pile} (hu : ValuesOn text e vs u)
    (halong : Along text line gone (commaSeparated (values.map (·.print.toList)) ++ '\n' :: rest))
    (ht : Ended [.comma, .lineFeed] 5
      (.between gone (commaSeparated (values.map (·.print.toList)) ++ '\n' :: rest)) t u)
    (hnext : ∀ gone t u, ValuesOn text e (vs ++ values) u → Along text line gone ('\n' :: rest) →
      Ended [.comma, .lineFeed] 5 (.between gone ('\n' :: rest)) t u →
      Reaches size (.between gone ('\n' :: rest)) [t] P) :
    Reaches size (.between gone (commaSeparated (values.map (·.print.toList)) ++ '\n' :: rest)) [t]
      P := by
  induction values generalizing vs gone t u with
  | nil =>
    rw [List.append_nil] at hnext
    exact hnext gone t u hu halong ht
  | cons v values ih =>
    have hends := endsValue_commaSeparated (values.map (·.print.toList)) rest
    have hsplit : commaSeparated ((v :: values).map (·.print.toList)) ++ '\n' :: rest =
        ',' :: ' ' :: (v.print.toList ++
          (commaSeparated (values.map (·.print.toList)) ++ '\n' :: rest)) := by
      simp [commaSeparated]
    rw [hsplit] at halong ht ⊢
    obtain ⟨k, hk, hstage⟩ := hu.exists_stage
    have hshift : k.actions .comma = some [.shift .valueComma] := by
      rcases hstage with rfl | rfl <;> rfl
    have hcomma : EndsMark ',' (' ' :: (v.print.toList ++
        (commaSeparated (values.map (·.print.toList)) ++ '\n' :: rest))) := by
      rintro _ ⟨⟩
      decide
    refine ht.shift_next hsize (by decide) (by decide) (.mark rfl hcomma) (List.cons_ne_nil _ _) hk
      hshift fun rC hC hstop => ?_
    have hplace := halong.skip [','] (by decide)
    refine ValueAt.comma.reaches_value hsize rfl v hends hplace.text_eq hstop ?_
    intro t' r m hr hm hended
    obtain ⟨u', hu', hcloses⟩ := hu.closes hC hr rfl rfl hm
    refine ih hu' ((hplace.skip [' '] (by decide)).skip _ v.lineFeed_notMem)
      (hended.trans hcloses) ?_
    rwa [List.append_assoc]

/-- The values of a specification end at the end of the line. -/
theorem ValuesOn.closes_all (hu : ValuesOn text e vs u) {k l : Stage} (he : e.state = k.label)
    (hgoto : k.goto? .expressionList = some l) :
    ∃ r m, Meaning.Of m r ∧ IsValues text vs m ∧
      ClosesOn [.lineFeed] 1 u (e.push r l.label) := by
  cases hu with
  | @one v m r hr hm =>
    obtain ⟨q, hq, hcloses⟩ := Form.oneValue.closes (by decide) he hgoto [(r, .value)]
      (.cons hr .nil) (by simp [hm.part, Form.parts]) .value rfl [.lineFeed] (by decide)
    refine ⟨q, _, hq, ⟨rfl, _, _, _, rfl, ?_⟩, hcloses⟩
    have hchildren : Form.oneValue.children [m] = m.nodes := by
      simp [Form.children, Form.parts, funext Label.apply_empty]
    rw [hchildren]
    exact .of_isValue hm
  | @more v vs m m' r r' hr hm hr' hpart hvalues =>
    obtain ⟨q, hq, hcloses⟩ := Form.severalValues.closes (by decide) he hgoto
      [(r, .value), (r', .values)] (.cons hr (.cons hr' .nil))
      (by simp [hm.part, hpart, Form.parts]) .values rfl [.lineFeed] (by decide)
    refine ⟨q, _, hq, ⟨rfl, _, _, _, rfl, ?_⟩, hcloses⟩
    rw [Form.children_pair rfl]
    exact ValuesAre.append (.of_isValue hm) hvalues

/-! ## Specifications -/

/-- The parts of a specification, its names before the others. -/
theorem IsSpec.of_children {f : Form} (hf : f.head = .varSpec) {ms : List Meaning} {s : Spec}
    {xs ys : List Node} (hchildren : f.children ms = xs ++ ys)
    (hxs : NamesAre text line s.names xs) (hys : ∀ n ∈ ys, n.field ≠ some "name")
    (hvalues : (Reading.nodeOf Part.varSpec.symbol (Meaning.startOf ms) (Meaning.stopOf ms)
      ys).valueNodes.map (·.classify (sourceOf text)) = s.values.map Value.initializer) :
    IsSpec text line s (f.meaning ms) := by
  refine ⟨hf, _, ?_, rfl, rfl, group_nodeOf s _ _ hxs hys hvalues⟩
  rw [Form.meaning, hf, hchildren]
  rfl

theorem exists_typeNode (gone cs rest : List Char) :
    ∃ n, ((Form.namedType.meaning [.token .name gone [' '] cs rest]).nodes.map
      (Form.under "type").apply) = [n] ∧ n.field = some "type" :=
  ⟨_, rfl, rfl⟩

/-- The nodes of the values of a specification. -/
theorem IsValues.exists_nodes {m : Meaning} (h : IsValues text vs m) (gone rest : List Char) :
    ∃ ys, (Meaning.token .equals gone [' '] ['='] rest).nodes ++
        m.nodes.map (Form.under "value").apply = ys ∧ (∀ y ∈ ys, y.field ≠ some "name") ∧
      ∀ start stop, (Reading.nodeOf Part.varSpec.symbol start stop ys).valueNodes.map
        (·.classify (sourceOf text)) = vs.map Value.initializer := by
  obtain ⟨start, stop, children, hnodes, hvalues⟩ := h.node
  refine ⟨_, rfl, ?_, fun start' stop' => ?_⟩
  · simp [hnodes, Meaning.token, Reading.nodeOf, Label.apply, Form.under]
  · rw [← hvalues, hnodes]
    rfl

section

variable {g h : Stage} (hs : SpecAt g h) (hb : b.state = g.label) {mN : Meaning} {rN : Reading}
  (hN : mN.Of rN) (hname : mN.part = .name) {first : Name}
  (hfirst : NamesAre text line [first] (mN.nodes.map (Form.under "name").apply))
  {others : List Name} (hu : NamesOn text line (b.push rN Stage.name.label) others u)

include hs hb hN hname hfirst hu

/-- A specification with a type ends at the end of the line. -/
theorem NamesOn.closes_typed {gone cs rest : List Char} {rT : Reading}
    (hT : (Meaning.token .name gone [' '] cs rest).Of rT) :
    ∃ r m, Meaning.Of m r ∧ IsSpec text line ⟨first, others, []⟩ m ∧
      ClosesOn [.lineFeed] 2 (u.push rT Stage.typeName.label) (b.push r h.label) := by
  obtain ⟨n, hn, hfield⟩ := exists_typeNode gone cs rest
  have hnone : ∀ y ∈ [n], y.field ≠ some "name" := by simp [hfield]
  have hvalues : ∀ {start : Place} {stop : Cursor},
      (Reading.nodeOf Part.varSpec.symbol start stop [n]).valueNodes.map
        (·.classify (sourceOf text)) = [] := by
    simp [Node.valueNodes, Node.child?, Reading.nodeOf, hfield]
  cases hu with
  | one =>
    have hgoto : g.goto? Form.typedName.head = some h := by cases hs <;> rfl
    obtain ⟨rY, hY, hclosesY⟩ := Form.namedType.closes (by decide)
      (show (b.push rN Stage.name.label).state = Stage.name.label from rfl) rfl [(rT, .typeName)]
      (.cons hT .nil) rfl .typeName rfl [.lineFeed] (by decide)
    obtain ⟨r, hr, hcloses⟩ := Form.typedName.closes (by decide) hb hgoto
      [(rN, .name), (rY, .nameTyped)] (.cons hN (.cons hY .nil))
      (by simp [hname, Form.parts, Form.meaning, Form.head]) .nameTyped rfl [.lineFeed] (by decide)
    have hchildren : Form.typedName.children
        [mN, Form.namedType.meaning [.token .name gone [' '] cs rest]] =
          mN.nodes.map (Form.under "name").apply ++ [n] := by
      rw [← hn]
      simp [Form.children, Form.parts]
    exact ⟨r, _, hr, .of_children rfl hchildren hfirst hnone hvalues, hclosesY.trans hcloses⟩
  | @more _ m r' hr' hpart hnames =>
    have hgoto : g.goto? Form.typedNames.head = some h := by cases hs <;> rfl
    obtain ⟨rY, hY, hclosesY⟩ := Form.namedType.closes (by decide)
      (show ((b.push rN Stage.name.label).push r' Stage.names.label).state =
        Stage.names.label from rfl) rfl [(rT, .typeName)] (.cons hT .nil) rfl .typeName rfl
      [.lineFeed] (by decide)
    obtain ⟨r, hr, hcloses⟩ := Form.typedNames.closes (by decide) hb hgoto
      [(rN, .name), (r', .names), (rY, .namesTyped)] (.cons hN (.cons hr' (.cons hY .nil)))
      (by simp [hname, hpart, Form.parts, Form.meaning, Form.head]) .namesTyped rfl [.lineFeed]
      (by decide)
    have hchildren : Form.typedNames.children
        [mN, m, Form.namedType.meaning [.token .name gone [' '] cs rest]] =
          (mN.nodes.map (Form.under "name").apply ++ m.nodes) ++ [n] := by
      rw [← hn]
      simp [Form.children, Form.parts, funext Label.apply_empty]
    exact ⟨r, _, hr, .of_children rfl hchildren (hfirst.append hnames) hnone hvalues,
      hclosesY.trans hcloses⟩

/-- A specification with values ends at the end of the line. -/
theorem NamesOn.closes_valued :
    ∃ j k l : Stage, u.state = j.label ∧ j.actions .equals = some [.shift k] ∧
      (k = .nameEquals ∨ k = .namesEquals) ∧ k.goto? .expressionList = some l ∧
      ∀ {gone rest : List Char} {rQ rL : Reading} {mL : Meaning} {vs : List Value},
        (Meaning.token .equals gone [' '] ['='] rest).Of rQ → mL.Of rL → IsValues text vs mL →
        ∃ r m, Meaning.Of m r ∧ IsSpec text line ⟨first, others, vs⟩ m ∧
          ClosesOn [.lineFeed] 1 (pushAll u [(rQ, k), (rL, l)]) (b.push r h.label) := by
  cases hu with
  | one =>
    have hgoto : g.goto? Form.valuedName.head = some h := by cases hs <;> rfl
    refine ⟨.name, .nameEquals, .nameValues, rfl, rfl, .inl rfl, rfl, ?_⟩
    intro gone rest rQ rL mL vs hQ hL hvalues
    obtain ⟨r, hr, hcloses⟩ := Form.valuedName.closes (by decide) hb hgoto
      [(rN, .name), (rQ, .nameEquals), (rL, .nameValues)] (.cons hN (.cons hQ (.cons hL .nil)))
      (by simp [hname, hvalues.part, Form.parts, Meaning.token]) .nameValues rfl [.lineFeed]
      (by decide)
    obtain ⟨ys, hys, hnone, hvalued⟩ := hvalues.exists_nodes gone rest
    have hchildren : Form.valuedName.children [mN, .token .equals gone [' '] ['='] rest, mL] =
        mN.nodes.map (Form.under "name").apply ++ ys := by
      rw [← hys]
      simp [Form.children, Form.parts, funext Label.apply_empty]
    exact ⟨r, _, hr, .of_children rfl hchildren hfirst hnone (hvalued _ _), hcloses⟩
  | @more _ m r' hr' hpart hnames =>
    have hgoto : g.goto? Form.valuedNames.head = some h := by cases hs <;> rfl
    refine ⟨.names, .namesEquals, .namesValues, rfl, rfl, .inr rfl, rfl, ?_⟩
    intro gone rest rQ rL mL vs hQ hL hvalues
    obtain ⟨r, hr, hcloses⟩ := Form.valuedNames.closes (by decide) hb hgoto
      [(rN, .name), (r', .names), (rQ, .namesEquals), (rL, .namesValues)]
      (.cons hN (.cons hr' (.cons hQ (.cons hL .nil))))
      (by simp [hname, hpart, hvalues.part, Form.parts, Meaning.token]) .namesValues rfl [.lineFeed]
      (by decide)
    obtain ⟨ys, hys, hnone, hvalued⟩ := hvalues.exists_nodes gone rest
    have hchildren : Form.valuedNames.children
        [mN, m, .token .equals gone [' '] ['='] rest, mL] =
          (mN.nodes.map (Form.under "name").apply ++ m.nodes) ++ ys := by
      rw [← hys]
      simp [Form.children, Form.parts, funext Label.apply_empty]
    exact ⟨r, _, hr, .of_children rfl hchildren (hfirst.append hnames) hnone (hvalued _ _), hcloses⟩

end

/-- The name of the type of variables without values. -/
def intName : Name := ⟨"int", by decide⟩

theorem endsWord_tail (s : Spec) (rest : List Char) : EndsWord (s.tail ++ '\n' :: rest) := by
  unfold Spec.tail
  split <;> exact endsWord_mark (by decide) _

/-- A specification is at its end, and its reading is on top of a stack. -/
def SpecEnds (size : Nat) (P : Reading → Prop) (text : List Char) (line : Int) (b : Pile)
    (h : Stage) (s : Spec) (rest : List Char) : Prop :=
  ∀ gone t r m, Meaning.Of m r → IsSpec text line s m → Along text line gone ('\n' :: rest) →
    Ended [.lineFeed] 7 (.between gone ('\n' :: rest)) t (b.push r h.label) →
    Reaches size (.between gone ('\n' :: rest)) [t] P

section

variable {g h : Stage} (hs : SpecAt g h) (hsize : stepLimit ≤ size) (hb : b.state = g.label)
  {mN : Meaning} {rN : Reading} (hN : mN.Of rN) (hname : mN.part = .name) {first : Name}
  (hfirst : NamesAre text line [first] (mN.nodes.map (Form.under "name").apply))
  {others : List Name} (hu : NamesOn text line (b.push rN Stage.name.label) others u)
  {gone rest : List Char} {t : Pile}

include hs hsize hb hN hname hfirst hu

/-- The rest of a specification without values. -/
theorem NamesOn.reaches_typed (halong : Along text line gone (" int".toList ++ '\n' :: rest))
    (ht : Ended [.comma, .name, .equals] 2 (.between gone (" int".toList ++ '\n' :: rest)) t u)
    (hnext : SpecEnds size P text line b h ⟨first, others, []⟩ rest) :
    Reaches size (.between gone (" int".toList ++ '\n' :: rest)) [t] P := by
  obtain ⟨k, hk, hstage⟩ := hu.exists_stage rfl
  have hshift : k.actions .name = some [.shift .typeName] := by rcases hstage with rfl | rfl <;> rfl
  refine ht.shift [' '] hsize (by decide) (by decide) (.name intName (endsWord_mark (by decide) _))
    intName.toList_ne_nil (by simp) hk hshift fun rT hT => ?_
  obtain ⟨r, m, hr, hm, hcloses⟩ := hu.closes_typed hs hb hN hname hfirst hT
  refine hnext _ _ r m hr hm ((halong.skip [' '] (by decide)).skip _ intName.lineFeed_notMem)
    ⟨⟨.typeName, rfl, by decide⟩, hT.stop, hcloses.le (by decide)⟩

/-- The rest of a specification with values. -/
theorem NamesOn.reaches_valued {v : Value} {vs : List Value}
    (halong : Along text line gone (" = ".toList ++ (v.print.toList ++
      (commaSeparated (vs.map (·.print.toList)) ++ '\n' :: rest))))
    (ht : Ended [.comma, .name, .equals] 2 (.between gone (" = ".toList ++ (v.print.toList ++
      (commaSeparated (vs.map (·.print.toList)) ++ '\n' :: rest)))) t u)
    (hnext : SpecEnds size P text line b h ⟨first, others, v :: vs⟩ rest) :
    Reaches size (.between gone (" = ".toList ++ (v.print.toList ++
      (commaSeparated (vs.map (·.print.toList)) ++ '\n' :: rest)))) [t] P := by
  obtain ⟨j, k, l, hj, hshift, hk, hgoto, hvalued⟩ := hu.closes_valued hs hb hN hname hfirst
  have hv : ValueAt k .value := by rcases hk with rfl | rfl <;> constructor
  have hequals : EndsMark '=' (' ' :: (v.print.toList ++
      (commaSeparated (vs.map (·.print.toList)) ++ '\n' :: rest))) := by
    rintro _ ⟨⟩
    decide
  refine ht.shift [' '] hsize (by decide) (by decide) (.mark rfl hequals) (List.cons_ne_nil _ _)
    (by simp) hj hshift fun rQ hQ => ?_
  have hplace := (halong.skip [' '] (by decide)).skip ['='] (by decide)
  refine hv.reaches_value hsize rfl v (endsValue_commaSeparated _ _) hplace.text_eq hQ.stop ?_
  intro t' r m hr hm hended
  refine ValuesOn.reaches hsize (.one hr hm)
    ((hplace.skip [' '] (by decide)).skip _ v.lineFeed_notMem)
    ⟨hended.stage, hended.cursor, hended.closes.le (by decide)⟩ ?_
  intro gone' t'' u' hu' halong' hended'
  obtain ⟨rL, mL, hL, hvalues, hclosesL⟩ := hu'.closes_all rfl hgoto
  obtain ⟨r', m', hr', hm', hcloses⟩ := hvalued hQ hL hvalues
  refine hnext _ _ r' m' hr' hm' halong' ⟨?_, hended'.cursor, ?_⟩
  · obtain ⟨i, hi, hawaits⟩ := hended'.stage
    exact ⟨i, hi, fun x hx => hawaits x (List.mem_cons_of_mem _ hx)⟩
  · exact ((hended'.closes.mono (by simp)).trans hclosesL).trans hcloses

end

/-- **A specification is read as what it is.** -/
theorem SpecAt.reaches {g h : Stage} (hs : SpecAt g h) (hsize : stepLimit ≤ size)
    (hb : b.state = g.label) (s : Spec) {xs : List Part} {steps : Nat}
    {gone blanks rest : List Char} {t : Pile}
    (ht : Waits xs steps gone blanks (s.print.toList ++ '\n' :: rest) t b) (hx : .name ∈ xs)
    (hsteps : steps < stepLimit)
    (halong : Along text line (gone ++ blanks) (s.print.toList ++ '\n' :: rest))
    (hnext : SpecEnds size P text line b h s rest) :
    Reaches size (.between gone (blanks ++ (s.print.toList ++ '\n' :: rest))) [t] P := by
  have hshift : g.actions .name = some [.shift .name] := by cases hs <;> rfl
  have hsplit : s.print.toList ++ '\n' :: rest = s.first.text.toList ++
      (commaSeparated (s.others.map (·.text.toList)) ++ (s.tail ++ '\n' :: rest)) := by
    rw [s.toList_print]
    simp
  rw [hsplit] at ht halong ⊢
  have hends := endsWord_commaSeparated (s.others.map (·.text.toList)) (endsWord_tail s rest)
  refine ht.shift hsize hsteps hx (.name s.first hends) s.first.toList_ne_nil hb hshift
    fun rN hN => ?_
  have hfirst := namesAre_token s.first blanks halong
  refine NamesOn.reaches hsize rfl (endsWord_tail s rest) .one
    (halong.skip _ s.first.lineFeed_notMem)
    ⟨⟨.name, rfl, by decide⟩, hN.stop, fun x _ => Closes.refl⟩ ?_
  intro gone' t' u hu halong' hended
  obtain ⟨first, others, values⟩ := s
  cases values with
  | nil => exact hu.reaches_typed hs hsize hb hN rfl hfirst halong' hended hnext
  | cons v vs =>
    simp only [Spec.tail, List.append_assoc] at halong' hended ⊢
    exact hu.reaches_valued hs hsize hb hN rfl hfirst halong' hended hnext

end GoGlobals.Go
