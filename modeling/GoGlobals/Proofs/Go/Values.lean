import GoGlobals.Proofs.Go.Piles

/-!
# Reading values

A value is read as a node of its own shape, whatever stands before it and behind it.  For a literal
one stack of the parser is enough.  A name in front of a parenthesis may be a function that is called
or a type that something is converted to, and a name in front of a dot may be an operand or a
package.  There the stack branches into two, and it takes up to three more tokens until one of them
is stuck.

## What is here

* `IsValue`: the reading of a value, with the shape it is classified as.
* `ValueAt`: the stages where a value can stand.
* `ValueAt.reaches_word`, `ValueAt.reaches_dot` and `ValueAt.reaches_qualified`: where two stacks are
  followed side by side (`Reaches.pair`).  `Reaches.shift_first` and `Reaches.shift_second` say which
  of them goes on.
* `ValueAt.reaches_value`: from every value the parser comes to its end.
-/

set_option autoImplicit false

namespace GoGlobals.Go

open Text (Piece Place Cursor Source)
open Grammar

/-! ## Nodes of a printed text -/

/-- The bytes of a text. -/
def sourceOf (text : List Char) : Source :=
  (text.flatMap String.utf8EncodeChar).toArray

theorem text_nodeOf (s : Symbol) (children : List Node) {gone cs rest text : List Char}
    (h : text = gone ++ (cs ++ rest)) :
    (Reading.nodeOf s (Cursor.between gone (cs ++ rest)).place (.between (gone ++ cs) rest)
      children).text (sourceOf text) = String.ofList cs := by
  rw [h]
  exact Cursor.lossyText_slice_between gone cs rest

/-- The node of a token. -/
def tokenNode (x : Part) (gone blanks cs rest : List Char) : Node :=
  Reading.nodeOf x.symbol (Cursor.between (gone ++ blanks) (cs ++ rest)).place
    (.between (gone ++ blanks ++ cs) rest) []

theorem text_tokenNode (x : Part) (blanks : List Char) {gone cs rest text : List Char}
    (h : text = gone ++ (blanks ++ (cs ++ rest))) :
    (tokenNode x gone blanks cs rest).text (sourceOf text) = String.ofList cs := by
  refine text_nodeOf x.symbol [] ?_
  rw [h, List.append_assoc]

/-- A call is classified by its function. -/
theorem classify_call (source : Source) (start : Place) (stop : Cursor) {e : Node}
    (hfield : e.field = none) (more : List Node) :
    (Reading.nodeOf Part.call.symbol start stop
        ([e].map (Form.under "function").apply ++ more)).classify source =
      .call (Node.selectorParts (some e) source).1 (Node.selectorParts (some e) source).2 := by
  have hchild : (Reading.nodeOf Part.call.symbol start stop
      ([e].map (Form.under "function").apply ++ more)).child? "function" =
        some ((Form.under "function").apply e) := by
    simp [Node.child?, Reading.nodeOf, Label.apply, Form.under, hfield]
  rw [Node.classify, hchild]
  rfl

/-- A composite literal is classified by its type. -/
theorem classify_composite (source : Source) (start : Place) (stop : Cursor) {e : Node}
    (hfield : e.field = none) (more : List Node) :
    (Reading.nodeOf Part.composite.symbol start stop
        ([e].map (Form.under "type").apply ++ more)).classify source =
      .composite (Node.selectorParts (some e) source).1 (Node.selectorParts (some e) source).2 := by
  have hchild : (Reading.nodeOf Part.composite.symbol start stop
      ([e].map (Form.under "type").apply ++ more)).child? "type" =
        some ((Form.under "type").apply e) := by
    simp [Node.child?, Reading.nodeOf, Label.apply, Form.under, hfield]
  rw [Node.classify, hchild]
  rfl

section

variable (source : Source) (start : Place) (stop : Cursor) (more : List Node) {mN mD mM : Meaning}
  {n d m : Node} (hN : mN.nodes = [n]) (hD : mD.nodes = [d]) (hM : mM.nodes = [m])
  (hn : n.field = none) (hd : d.field = none) (hm : m.field = none)

include hN hD hM hn hd hm

/-- The two sides of a selector: of an expression that is a name, or of a qualified type. -/
theorem selectorParts_nodeOf {f : Form}
    (hf : f = .selector ∧ n.kind = "identifier" ∨ f = .qualifiedType) :
    Node.selectorParts (some (Reading.nodeOf f.head.symbol (Meaning.startOf [mN, mD, mM])
      (Meaning.stopOf [mN, mD, mM]) (f.children [mN, mD, mM]))) source =
        (some (n.text source), some (m.text source)) := by
  rcases hf with ⟨rfl, hkind⟩ | rfl
  · simp [Node.selectorParts, Node.selectorSides?, Node.child?, Reading.nodeOf, Form.children,
      Form.head, Form.parts, hN, hD, hM, Label.apply, Form.under, hn, hd, hm, hkind, Part.symbol,
      Symbol.kind, Node.identifierKinds, Node.text]
  · simp [Node.selectorParts, Node.selectorSides?, Node.child?, Reading.nodeOf, Form.children,
      Form.head, Form.parts, hN, hD, hM, Label.apply, hn, hd, hm, Part.symbol, Symbol.kind,
      Node.identifierKinds, Node.text]

/-- The two sides of a selector that is called. -/
theorem classify_call_selector (hkind : n.kind = "identifier") :
    (Reading.nodeOf Part.call.symbol start stop
        ((Form.selector.meaning [mN, mD, mM]).nodes.map (Form.under "function").apply ++
          more)).classify source =
      .call (some (n.text source)) (some (m.text source)) := by
  refine (classify_call source start stop rfl more).trans ?_
  rw [selectorParts_nodeOf source hN hD hM hn hd hm (.inl ⟨rfl, hkind⟩)]

/-- The two sides of the type of a composite literal. -/
theorem classify_composite_qualifiedType :
    (Reading.nodeOf Part.composite.symbol start stop
        ((Form.qualifiedType.meaning [mN, mD, mM]).nodes.map (Form.under "type").apply ++
          more)).classify source =
      .composite (some (n.text source)) (some (m.text source)) := by
  refine (classify_composite source start stop rfl more).trans ?_
  rw [selectorParts_nodeOf source hN hD hM hn hd hm (.inr rfl)]

end

/-- The reading of a value: one node, which has the shape of the value. -/
structure IsValue (text : List Char) (v : Value) (m : Meaning) : Prop where
  part : m.part = .expression
  node : ∃ n, m.nodes = [n] ∧ n.named = true ∧ n.isComment = false ∧
    n.classify (sourceOf text) = v.initializer

/-! ## Where values stand -/

/-- A value can stand at the first stage, and the second one is behind it. -/
inductive ValueAt : Stage → Stage → Prop
  | name : ValueAt .nameEquals .value
  | names : ValueAt .namesEquals .value
  | comma : ValueAt .valueComma .nextValue

variable {g h : Stage}

theorem Form.meaning_operand (y : Part) (m : Meaning) :
    (Form.operand y).meaning [m] = { m with part := .expression } := by
  have hnodes : (Form.operand y).children [m] = m.nodes := by
    simp [Form.children, Form.parts, funext Label.apply_empty]
  rw [Form.meaning, hnodes]
  simp [Form.head, Form.weight, Part.symbol, Symbol.isVisible, Meaning.startOf, Meaning.stopOf]

/-- An operand is a value, and ends in front of a comma, of the end of a line, and of
parentheses. -/
theorem ValueAt.closes_operand (hv : ValueAt g h) {y : Part} (hy : Form.operand y ∈ Form.all)
    {b : Pile} (hb : b.state = g.label) {m : Meaning} (hm : m.part = y) {r : Reading}
    (hr : m.Of r) :
    ∃ r', { m with part := .expression }.Of r' ∧
      ClosesOn [.comma, .lineFeed, .parenthesis] 1 (b.push r Stage.operand.label)
        (b.push r' h.label) := by
  have hgoto : g.goto? (Form.operand y).head = some h := by cases hv <;> rfl
  rw [← Form.meaning_operand y]
  exact (Form.operand y).closes hy hb hgoto [(r, .operand)] (.cons hr .nil) (by rw [← hm]; rfl)
    .operand rfl _ rfl

/-- A call ends behind its parentheses. -/
theorem ValueAt.ended_call (hv : ValueAt g h) {b : Pile} (hb : b.state = g.label)
    {mE mP mC : Meaning} {rE rP rC : Reading} (hE : mE.Of rE) (hP : mP.Of rP) (hC : mC.Of rC)
    (hexpression : mE.part = .expression) (hopen : mP.part = .parenthesis)
    (hclose : mC.part = .closingParenthesis) :
    ∃ r m more, Meaning.Of m r ∧ m.part = .expression ∧
      m.nodes = [Reading.nodeOf Part.call.symbol mE.start mC.stop
        (mE.nodes.map (Form.under "function").apply ++ more)] ∧
      Ended [.comma, .lineFeed] 3 mC.stop
        (pushAll b [(rE, h), (rP, .call), (rC, .callClosed)]) (b.push r h.label) := by
  have hargumentList : h.goto? Form.arguments.head = some .arguments := by cases hv <;> rfl
  have hcall : g.goto? Form.call.head = some .operand := by cases hv <;> rfl
  have hinner : (b.push rE h.label).state = h.label := rfl
  obtain ⟨rA, hA, hclosesA⟩ := Form.arguments.closes (by decide) hinner hargumentList
    [(rP, .call), (rC, .callClosed)] (.cons hP (.cons hC .nil))
    (by simp [hopen, hclose, Form.parts]) .callClosed rfl [.comma, .lineFeed] (by decide)
  obtain ⟨rF, hF, hclosesF⟩ := Form.call.closes (by decide) hb hcall
    [(rE, h), (rA, .arguments)] (.cons hE (.cons hA .nil))
    (by simp [hexpression, Form.parts, Form.meaning, Form.head]) .arguments rfl
    [.comma, .lineFeed] (by decide)
  have hoperand : Form.operand .call ∈ Form.all := by decide
  obtain ⟨r, hr, hcloses⟩ := hv.closes_operand hoperand hb rfl hF
  refine ⟨r, _, _, hr, rfl, rfl, ⟨.callClosed, rfl, by decide⟩, hC.stop, ?_⟩
  exact (hclosesA.trans hclosesF).trans (hcloses.mono (by decide))

/-- A composite literal ends behind its braces. -/
theorem ValueAt.ended_composite (hv : ValueAt g h) {b : Pile} (hb : b.state = g.label)
    {mQ mB mC : Meaning} {rQ rB rC : Reading} (hQ : mQ.Of rQ) (hB : mB.Of rB) (hC : mC.Of rC)
    (htype : mQ.part = .qualifiedType) (hopen : mB.part = .brace)
    (hclose : mC.part = .closingBrace) :
    ∃ r m more, Meaning.Of m r ∧ m.part = .expression ∧
      m.nodes = [Reading.nodeOf Part.composite.symbol mQ.start mC.stop
        (mQ.nodes.map (Form.under "type").apply ++ more)] ∧
      Ended [.comma, .lineFeed] 3 mC.stop
        (pushAll b [(rQ, .qualifiedType), (rB, .body), (rC, .bodyClosed)]) (b.push r h.label) := by
  have hcomposite : g.goto? Form.composite.head = some .operand := by cases hv <;> rfl
  have hinner : (b.push rQ Stage.qualifiedType.label).state = Stage.qualifiedType.label := rfl
  obtain ⟨rL, hL, hclosesL⟩ := Form.literalValue.closes (by decide) hinner rfl
    [(rB, .body), (rC, .bodyClosed)] (.cons hB (.cons hC .nil))
    (by simp [hopen, hclose, Form.parts]) .bodyClosed rfl [.comma, .lineFeed] (by decide)
  obtain ⟨rF, hF, hclosesF⟩ := Form.composite.closes (by decide) hb hcomposite
    [(rQ, .qualifiedType), (rL, .literalValue)] (.cons hQ (.cons hL .nil))
    (by simp [htype, Form.parts, Form.meaning, Form.head]) .literalValue rfl
    [.comma, .lineFeed] (by decide)
  have hoperand : Form.operand .composite ∈ Form.all := by decide
  obtain ⟨r, hr, hcloses⟩ := hv.closes_operand hoperand hb rfl hF
  refine ⟨r, _, _, hr, rfl, rfl, ⟨.bodyClosed, rfl, by decide⟩, hC.stop, ?_⟩
  exact (hclosesL.trans hclosesF).trans (hcloses.mono (by decide))

/-! ## Two stacks -/

variable {size : Nat} {P : Reading → Prop}

/-- The reading of a token that a stack has taken. -/
def leafOn (t : Pile) (x : Part) (gone blanks cs rest : List Char) : Reading :=
  .leaf grammar t.cursor.offset (tokenOver x gone blanks cs rest)

theorem leafOn_of (t : Pile) (x : Part) (gone blanks cs rest : List Char) :
    (Meaning.token x gone blanks cs rest).Of (leafOn t x gone blanks cs rest) :=
  Meaning.token_of x gone blanks cs rest t.cursor.offset

theorem token?_language {x : Part} {gone blanks cs rest : List Char}
    (hspells : Spells x cs rest) {t : Pile} {k : Stage} (hk : t.state = k.label)
    (hawaits : k.awaits x = true) (hblanks : k.Skips blanks)
    (hcursor : t.cursor = .between gone (blanks ++ (cs ++ rest))) :
    language.token? (language.expects t.state) t.cursor =
      some (tokenOver x gone blanks cs rest) := by
  rw [hk, hcursor]
  exact hspells.token? hawaits hblanks gone

theorem advances_shift {x : Part} {gone blanks cs rest : List Char} (hspells : Spells x cs rest)
    {others : List Pile} {t : Pile} {k k' : Stage} (hk : t.state = k.label)
    (hawaits : k.awaits x = true) (hblanks : k.Skips blanks)
    (hcursor : t.cursor = .between gone (blanks ++ (cs ++ rest)))
    (hshift : k.actions x = some [.shift k']) :
    Advances language others t
      (.active, t.push (leafOn t x gone blanks cs rest) k'.label) [] := by
  refine .takes (token?_language hspells hk hawaits hblanks hcursor) rfl (.shift ?_)
  rw [hk, symbol_tokenOver, actions_language hshift]
  rfl

theorem advances_stuck {x : Part} {c : Char} (hx : x.mark? = some c) {gone rest : List Char}
    (hrest : EndsMark c rest) {others : List Pile} {t : Pile} {k : Stage} (hk : t.state = k.label)
    (hcursor : t.cursor = .between gone (c :: rest)) (hstuck : k.actions x = some []) :
    Advances language others t (.stuck, t) [] := by
  refine .stuck ?_
  rw [hk, hcursor]
  exact token?_mark_eq_none hx hstuck gone hrest

theorem apart_of_stage {t u : Pile} {k k' : Stage} (ht : t.state = k.label)
    (hu : u.state = k'.label) (hne : k ≠ k') : t.Apart u := by
  refine .inl ?_
  rw [ht, hu]
  exact fun heq => hne (Stage.label_injective heq)

theorem ranked_one (t : Pile) : Ranked [t] :=
  ⟨List.pairwise_singleton _ _, List.pairwise_singleton _ _, by simp [headLimit]⟩

/-- Two stacks at different stages are kept in the order of their weights. -/
theorem ranked_two {t u : Pile} (k k' : Stage) (ht : t.state = k.label) (hu : u.state = k'.label)
    (hne : k ≠ k') (hweight : u.weight ≤ t.weight) : Ranked [t, u] :=
  ⟨List.pairwise_pair.2 (apart_of_stage ht hu hne), List.pairwise_pair.2 hweight,
    by simp [headLimit]⟩

theorem further_mark (gone : List Char) (c : Char) (rest : List Char) :
    Further (.between gone (c :: rest)) (.between (gone ++ [c]) rest) := by
  simpa using further_between gone [] (List.cons_ne_nil c []) rest

theorem offset_leafOn (t u : Pile) (x : Part) (gone cs rest : List Char) (k : Stage) :
    (u.push (leafOn t x gone [] cs rest) k.label).cursor.offset =
      (Cursor.between (gone ++ cs) rest).offset := by
  have hstop : (leafOn t x gone [] cs rest).stop = .between (gone ++ [] ++ cs) rest := rfl
  rw [Thread.cursor, hstop, List.append_nil]

theorem Reaches.round {c d : Cursor} {ts : List Pile} {result : List (Status × Pile)}
    (hsize : stepLimit ≤ size) (h : Sweeps language c.offset d.offset [] ts result)
    (hfurther : Further c d) (hfew : result.length ≤ headLimit)
    (hranked : Ranked (Parser.actives result)) (hne : Parser.actives result ≠ [])
    (hnext : Reaches size d (Parser.actives result) P) : Reaches size c ts P := by
  obtain ⟨whole, hwhole, hP⟩ := hnext
  exact ⟨whole, .round hsize h hfurther.offset hfurther.rest (Nat.le_add_right_of_le hfew) hranked
    hne hwhole, hP⟩

/-- Two stacks that have taken a token go on side by side. -/
theorem Reaches.pair (hsize : stepLimit ≤ size) {x : Part} {gone cs rest : List Char}
    (hcs : cs ≠ []) {ts : List Pile} {t u : Pile} {k k' : Stage} (hne : k ≠ k')
    (h : Sweeps language (Cursor.between gone (cs ++ rest)).offset
      (Cursor.between (gone ++ cs) rest).offset [] ts
      [(.active, t.push (leafOn t x gone [] cs rest) k.label),
        (.active, u.push (leafOn u x gone [] cs rest) k'.label)])
    (hweight : u.weight ≤ t.weight)
    (hnext : ∀ r r', (Meaning.token x gone [] cs rest).Of r →
      (Meaning.token x gone [] cs rest).Of r' →
      Reaches size (.between (gone ++ cs) rest) [t.push r k.label, u.push r' k'.label] P) :
    Reaches size (.between gone (cs ++ rest)) ts P := by
  have hfurther : Further (.between gone (cs ++ rest)) (.between (gone ++ cs) rest) := by
    simpa using further_between gone [] hcs rest
  have hranked : Ranked [t.push (leafOn t x gone [] cs rest) k.label,
      u.push (leafOn u x gone [] cs rest) k'.label] := by
    refine ranked_two k k' rfl rfl hne ?_
    simp only [Thread.weight, (leafOn_of _ _ _ _ _ _).weight]
    exact Int.add_le_add_right hweight _
  exact .round hsize h hfurther (by simp [headLimit]) hranked (List.cons_ne_nil _ _)
    (hnext _ _ (leafOn_of _ _ _ _ _ _) (leafOn_of _ _ _ _ _ _))

/-! ## Calls -/

/-- A name in front of a parenthesis may be a function or a type. -/
theorem ValueAt.reaches_word (hv : ValueAt g h) (hsize : stepLimit ≤ size) {b : Pile}
    (hb : b.state = g.label) {gone rest : List Char} (hrest : EndsMark '(' rest) {mN : Meaning}
    {rN : Reading} (hN : mN.Of rN) (hname : mN.part = .name)
    (hstop : mN.stop = .between gone ('(' :: rest))
    (hnext : ∀ rE rP rT rP', { mN with part := .expression }.Of rE →
      (Meaning.token .parenthesis gone [] ['('] rest).Of rP →
      (Meaning.token .parenthesis gone [] ['('] rest).Of rP' →
      Reaches size (.between (gone ++ ['(']) rest)
        [pushAll b [(rE, h), (rP, .call)], pushAll b [(rT, .typeWord), (rP', .conversion)]] P) :
    Reaches size (.between gone ('(' :: rest)) [b.push rN Stage.word.label] P := by
  have hspells : Spells .parenthesis ['('] rest := .mark rfl hrest
  have hgotoT : g.goto? Form.namedType.head = some .typeWord := by cases hv <;> rfl
  have hgotoE : g.goto? (Form.operand .name).head = some h := by cases hv <;> rfl
  have hshift : h.actions .parenthesis = some [.shift .call] := by cases hv <;> rfl
  have hne : h ≠ .typeWord := by cases hv <;> decide
  obtain ⟨rT, hT, hreducesT⟩ := Form.namedType.reduces (by decide) hb hgotoT [(rN, .word)]
    (.cons hN .nil) (by simp [hname, Form.parts])
  obtain ⟨rE, hE, hreducesE⟩ := (Form.operand .name).reduces (by decide) hb hgotoE [(rN, .word)]
    (.cons hN .nil) (by simp [hname, Form.parts])
  rw [Form.meaning_operand] at hE
  have hcursor : (b.push rN Stage.word.label).cursor = .between gone ([] ++ (['('] ++ rest)) :=
    hN.stop.trans hstop
  have hcursorT : (b.push rT Stage.typeWord.label).cursor = .between gone ([] ++ (['('] ++ rest)) :=
    hT.stop.trans hstop
  -- the name is reduced in both ways, and the operand goes on first
  have htakes : Takes language (tokenOver .parenthesis gone [] ['('] rest) stepLimit []
      (b.push rN Stage.word.label)
      (.active, (b.push rE h.label).push
        (leafOn (b.push rE h.label) .parenthesis gone [] ['('] rest) Stage.call.label)
      [b.push rT Stage.typeWord.label] := by
    refine .reduceReduce ?_ hreducesT hreducesE (by simp) ?_ (.shift ?_)
    · exact actions_language (g := .word) (x := .parenthesis) rfl
    · intro u hu
      obtain rfl := List.mem_singleton.1 hu
      exact apart_of_stage rfl rfl hne.symm
    · exact actions_language hshift
  have htoken := token?_language hspells (t := b.push rN Stage.word.label) (k := .word) rfl
    (by decide) (by simp [Stage.Skips]) hcursor
  have hsweeps : Sweeps language (Cursor.between gone ('(' :: rest)).offset
      (Cursor.between (gone ++ ['(']) rest).offset [] [b.push rN Stage.word.label]
      [(.active, (b.push rE h.label).push
          (leafOn (b.push rE h.label) .parenthesis gone [] ['('] rest) Stage.call.label),
        (.active, (b.push rT Stage.typeWord.label).push
          (leafOn (b.push rT Stage.typeWord.label) .parenthesis gone [] ['('] rest)
            Stage.conversion.label)] := by
    exact .cons (.takes htoken rfl htakes) (.inl ⟨rfl, offset_leafOn _ _ _ _ _ _ _⟩)
      (.cons (advances_shift hspells rfl (k := .typeWord) (by decide) (by simp [Stage.Skips])
        hcursorT rfl) (.inl ⟨rfl, offset_leafOn _ _ _ _ _ _ _⟩) .nil)
  have hweight : (b.push rT Stage.typeWord.label).weight ≤ (b.push rE h.label).weight := by
    have hweightE : rE.weight = mN.weight := hE.weight
    have hweightT : rT.weight = -1 + mN.weight := hT.weight
    simp only [Thread.weight, hweightE, hweightT]
    omega
  exact Reaches.pair hsize (List.cons_ne_nil _ _) (by decide) hsweeps hweight
    fun rP rP' hP hP' => hnext rE rP rT rP' hE hP hP'

/-- Of two stacks the first one takes a mark, and the second one has no use for it. -/
theorem Reaches.shift_first (hsize : stepLimit ≤ size) {x : Part} {c : Char}
    (hx : x.mark? = some c) {gone rest : List Char} (hrest : EndsMark c rest) {t u : Pile}
    {k k' : Stage} (ht : t.state = k.label) (hu : u.state = k'.label)
    (htc : t.cursor = .between gone (c :: rest)) (huc : u.cursor = .between gone (c :: rest))
    (hawaits : k.awaits x = true) {next : Stage} (hshift : k.actions x = some [.shift next])
    (hstuck : k'.actions x = some [])
    (hnext : ∀ r, (Meaning.token x gone [] [c] rest).Of r →
      Reaches size (.between (gone ++ [c]) rest) [t.push r next.label] P) :
    Reaches size (.between gone (c :: rest)) [t, u] P := by
  have hsweeps : Sweeps language (Cursor.between gone (c :: rest)).offset
      (Cursor.between (gone ++ [c]) rest).offset [] [t, u]
      [(.active, t.push (leafOn t x gone [] [c] rest) next.label), (.stuck, u)] :=
    .cons (advances_shift (.mark hx hrest) ht hawaits (by simp [Stage.Skips]) htc hshift)
      (.inl ⟨rfl, offset_leafOn _ _ _ _ _ _ _⟩)
      (.cons (advances_stuck hx hrest hu huc hstuck) (.inr ⟨rfl, by rw [huc]⟩) .nil)
  exact .round hsize hsweeps (further_mark gone c rest) (by simp [headLimit]) (ranked_one _)
    (List.cons_ne_nil _ _) (hnext _ (leafOn_of _ _ _ _ _ _))

/-- Of two stacks the second one takes a mark, and the first one has no use for it. -/
theorem Reaches.shift_second (hsize : stepLimit ≤ size) {x : Part} {c : Char}
    (hx : x.mark? = some c) {gone rest : List Char} (hrest : EndsMark c rest) {t u : Pile}
    {k k' : Stage} (ht : t.state = k.label) (hu : u.state = k'.label)
    (htc : t.cursor = .between gone (c :: rest)) (huc : u.cursor = .between gone (c :: rest))
    (hawaits : k.awaits x = true) {next : Stage} (hshift : k.actions x = some [.shift next])
    (hstuck : k'.actions x = some [])
    (hnext : ∀ r, (Meaning.token x gone [] [c] rest).Of r →
      Reaches size (.between (gone ++ [c]) rest) [t.push r next.label] P) :
    Reaches size (.between gone (c :: rest)) [u, t] P := by
  have hsweeps : Sweeps language (Cursor.between gone (c :: rest)).offset
      (Cursor.between (gone ++ [c]) rest).offset [] [u, t]
      [(.stuck, u), (.active, t.push (leafOn t x gone [] [c] rest) next.label)] :=
    .cons (advances_stuck hx hrest hu huc hstuck) (.inr ⟨rfl, by rw [huc]⟩)
      (.cons (advances_shift (.mark hx hrest) ht hawaits (by simp [Stage.Skips]) htc hshift)
        (.inl ⟨rfl, offset_leafOn _ _ _ _ _ _ _⟩) .nil)
  exact .round hsize hsweeps (further_mark gone c rest) (by simp [headLimit]) (ranked_one _)
    (List.cons_ne_nil _ _) (hnext _ (leafOn_of _ _ _ _ _ _))

/-! ## Names with a qualifier -/

/-- A name in front of a dot may be an operand or a package. -/
theorem ValueAt.reaches_dot (hv : ValueAt g h) (hsize : stepLimit ≤ size) {b : Pile}
    (hb : b.state = g.label) {gone rest : List Char} (hrest : EndsMark '.' rest) {mN : Meaning}
    {rN : Reading} (hN : mN.Of rN) (hname : mN.part = .name)
    (hstop : mN.stop = .between gone ('.' :: rest))
    (hnext : ∀ rE rD rD', { mN with part := .expression }.Of rE →
      (Meaning.token .dot gone [] ['.'] rest).Of rD →
      (Meaning.token .dot gone [] ['.'] rest).Of rD' →
      Reaches size (.between (gone ++ ['.']) rest)
        [pushAll b [(rN, .word), (rD, .qualification)], pushAll b [(rE, h), (rD', .selection)]]
        P) :
    Reaches size (.between gone ('.' :: rest)) [b.push rN Stage.word.label] P := by
  have hspells : Spells .dot ['.'] rest := .mark rfl hrest
  have hgotoE : g.goto? (Form.operand .name).head = some h := by cases hv <;> rfl
  have hshift : h.actions .dot = some [.shift .selection] := by cases hv <;> rfl
  have hawaits : h.awaits .dot = true := by cases hv <;> rfl
  obtain ⟨rE, hE, hreducesE⟩ := (Form.operand .name).reduces (by decide) hb hgotoE [(rN, .word)]
    (.cons hN .nil) (by simp [hname, Form.parts])
  rw [Form.meaning_operand] at hE
  have hcursor : (b.push rN Stage.word.label).cursor = .between gone ([] ++ (['.'] ++ rest)) :=
    hN.stop.trans hstop
  have hcursorE : (b.push rE h.label).cursor = .between gone ([] ++ (['.'] ++ rest)) :=
    hE.stop.trans hstop
  have htakes : Takes language (tokenOver .dot gone [] ['.'] rest) stepLimit []
      (b.push rN Stage.word.label)
      (.active, (b.push rN Stage.word.label).push
        (leafOn (b.push rN Stage.word.label) .dot gone [] ['.'] rest) Stage.qualification.label)
      [b.push rE h.label] := by
    refine .reduceShift ?_ hreducesE (by simp)
    exact actions_language (g := .word) (x := .dot) rfl
  have htoken := token?_language hspells (t := b.push rN Stage.word.label) (k := .word) rfl
    (by decide) (by simp [Stage.Skips]) hcursor
  have hsweeps : Sweeps language (Cursor.between gone ('.' :: rest)).offset
      (Cursor.between (gone ++ ['.']) rest).offset [] [b.push rN Stage.word.label]
      [(.active, (b.push rN Stage.word.label).push
          (leafOn (b.push rN Stage.word.label) .dot gone [] ['.'] rest) Stage.qualification.label),
        (.active, (b.push rE h.label).push
          (leafOn (b.push rE h.label) .dot gone [] ['.'] rest) Stage.selection.label)] :=
    .cons (.takes htoken rfl htakes) (.inl ⟨rfl, offset_leafOn _ _ _ _ _ _ _⟩)
      (.cons (advances_shift hspells rfl hawaits (by simp [Stage.Skips]) hcursorE hshift)
        (.inl ⟨rfl, offset_leafOn _ _ _ _ _ _ _⟩) .nil)
  have hweight : (b.push rE h.label).weight ≤ (b.push rN Stage.word.label).weight := by
    have hweightE : rE.weight = mN.weight := hE.weight
    simp only [Thread.weight, hweightE, hN.weight]
    exact Int.le_refl _
  exact Reaches.pair hsize (List.cons_ne_nil _ _) (by decide) hsweeps hweight
    fun rD rD' hD hD' => hnext rE rD rD' hE hD hD'

/-- The two stacks of a name with a qualifier: the one that takes it for a type, and the one that
takes it for an operand. -/
structure Qualified (b : Pile) (h : Stage) (mN mD mM : Meaning) (t u : Pile) : Prop where
  readings : ∃ rN rD rM rE rD' rM', mN.Of rN ∧ mD.Of rD ∧ mM.Of rM ∧
    { mN with part := .expression }.Of rE ∧ mD.Of rD' ∧ mM.Of rM' ∧
    t = pushAll b [(rN, .word), (rD, .qualification), (rM, .qualified)] ∧
    u = pushAll b [(rE, h), (rD', .selection), (rM', .selected)]

/-- A name behind a dot. -/
theorem ValueAt.reaches_qualified (hv : ValueAt g h) (hsize : stepLimit ≤ size) {b : Pile}
    (hb : b.state = g.label) (member : Name) {gone rest : List Char} (hrest : EndsWord rest)
    {mN : Meaning} {rN : Reading} (hN : mN.Of rN) (hname : mN.part = .name)
    (hstop : mN.stop = .between gone ('.' :: (member.text.toList ++ rest)))
    (hnext : ∀ t u, Qualified b h mN
        (.token .dot gone [] ['.'] (member.text.toList ++ rest))
        (.token .name (gone ++ ['.']) [] member.text.toList rest) t u →
      Reaches size (.between (gone ++ ['.'] ++ member.text.toList) rest) [t, u] P) :
    Reaches size (.between gone ('.' :: (member.text.toList ++ rest)))
      [b.push rN Stage.word.label] P := by
  obtain ⟨c, cs, hword⟩ := member.isWord
  have hne : member.text.toList ≠ [] := by rw [hword.toList_eq]; exact List.cons_ne_nil _ _
  have hdot : EndsMark '.' (member.text.toList ++ rest) := by
    intro d hd
    rw [hword.toList_eq] at hd
    obtain rfl : c = d := by simpa using hd
    refine ⟨?_, Bool.eq_false_iff.2 fun hdigit => ?_⟩
    · rintro rfl
      exact absurd hword.start (by decide)
    · exact absurd hword.start (by simp [not_isIdentifierStart_of_isDigit hdigit])
  have hspells : Spells .name member.text.toList rest := .name member hrest
  refine hv.reaches_dot hsize hb hdot hN hname hstop fun rE rD rD' hE hD hD' => ?_
  have hstopD : (Meaning.token .dot gone [] ['.'] (member.text.toList ++ rest)).stop =
      .between (gone ++ ['.']) ([] ++ (member.text.toList ++ rest)) := by
    simp [Meaning.token]
  have hsweeps : Sweeps language
      (Cursor.between (gone ++ ['.']) (member.text.toList ++ rest)).offset
      (Cursor.between (gone ++ ['.'] ++ member.text.toList) rest).offset []
      [pushAll b [(rN, .word), (rD, .qualification)], pushAll b [(rE, h), (rD', .selection)]]
      [(.active, pushAll b [(rN, .word), (rD, .qualification),
          (leafOn (pushAll b [(rN, .word), (rD, .qualification)]) .name (gone ++ ['.']) []
            member.text.toList rest, .qualified)]),
        (.active, pushAll b [(rE, h), (rD', .selection),
          (leafOn (pushAll b [(rE, h), (rD', .selection)]) .name (gone ++ ['.']) []
            member.text.toList rest, .selected)])] :=
    .cons (advances_shift hspells rfl (k := .qualification) (by decide) (by simp [Stage.Skips])
        (hD.stop.trans hstopD) rfl) (.inl ⟨rfl, offset_leafOn _ _ _ _ _ _ _⟩)
      (.cons (advances_shift hspells rfl (k := .selection) (by decide) (by simp [Stage.Skips])
        (hD'.stop.trans hstopD) rfl) (.inl ⟨rfl, offset_leafOn _ _ _ _ _ _ _⟩) .nil)
  have hweight : (pushAll b [(rE, h), (rD', .selection)]).weight ≤
      (pushAll b [(rN, .word), (rD, .qualification)]).weight := by
    have hweightE : rE.weight = mN.weight := hE.weight
    simp only [pushAll, List.foldl_cons, List.foldl_nil, Thread.weight, hweightE, hN.weight,
      hD.weight, hD'.weight]
    exact Int.le_refl _
  exact Reaches.pair hsize hne (show Stage.qualified ≠ .selected by decide) hsweeps hweight
    fun rM rM' hM hM' =>
      hnext _ _ ⟨rN, rD, rM, rE, rD', rM', hN, hD, hM, hE, hD', hM', rfl, rfl⟩

/-- A type with a qualifier in front of a parenthesis or a brace. -/
theorem ValueAt.reduces_qualifiedType (hv : ValueAt g h) {b : Pile} (hb : b.state = g.label)
    {mN mD mM : Meaning} {rN rD rM : Reading} (hN : mN.Of rN) (hD : mD.Of rD) (hM : mM.Of rM)
    (hname : mN.part = .name) (hdot : mD.part = .dot) (hmember : mM.part = .name) :
    ∃ r, (Form.qualifiedType.meaning [mN, mD, mM]).Of r ∧
      Reduces language Form.qualifiedType.reduction
        (pushAll b [(rN, .word), (rD, .qualification), (rM, .qualified)])
        (b.push r Stage.qualifiedType.label) := by
  have hgoto : g.goto? Form.qualifiedType.head = some .qualifiedType := by cases hv <;> rfl
  exact Form.qualifiedType.reduces (by decide) hb hgoto _ (.cons hN (.cons hD (.cons hM .nil)))
    (by simp [hname, hdot, hmember, Form.parts])

/-- A name with a qualifier that is taken for a type takes a parenthesis as that of a conversion. -/
theorem ValueAt.takes_conversion (hv : ValueAt g h) {b u : Pile} (hb : b.state = g.label)
    (hu : u.state = Stage.selected.label) (gone rest : List Char) {mN mD mM : Meaning}
    {rN rD rM : Reading} (hN : mN.Of rN) (hD : mD.Of rD) (hM : mM.Of rM) (hname : mN.part = .name)
    (hdot : mD.part = .dot) (hmember : mM.part = .name) :
    ∃ rT, rT.weight = mN.weight + mD.weight + mM.weight ∧
      Takes language (tokenOver .parenthesis gone [] ['('] rest) stepLimit [u]
        (pushAll b [(rN, .word), (rD, .qualification), (rM, .qualified)])
        (.active, (b.push rT Stage.typeWord.label).push
          (leafOn (b.push rT Stage.typeWord.label) .parenthesis gone [] ['('] rest)
          Stage.conversion.label) [] := by
  have hgoto : g.goto? Form.qualifiedNamedType.head = some .typeWord := by cases hv <;> rfl
  obtain ⟨rQ, hQ, hreducesQ⟩ := hv.reduces_qualifiedType hb hN hD hM hname hdot hmember
  obtain ⟨rT, hT, hreducesT⟩ := Form.qualifiedNamedType.reduces (by decide) hb hgoto
    [(rQ, .qualifiedType)] (.cons hQ .nil) rfl
  have hweight : rT.weight = 0 + (0 + mN.weight + mD.weight + mM.weight) := hT.weight
  refine ⟨rT, by omega, .reduce ?_ hreducesQ ?_ (.reduce ?_ hreducesT ?_ (.shift ?_))⟩
  · exact actions_language (g := .qualified) (x := .parenthesis) rfl
  · simp only [List.forall_mem_singleton]
    exact apart_of_stage hu rfl (by decide)
  · exact actions_language (g := .qualifiedType) (x := .parenthesis) rfl
  · simp only [List.forall_mem_singleton]
    exact apart_of_stage hu rfl (by decide)
  · exact actions_language (g := .typeWord) (x := .parenthesis) rfl

/-- A selector that is taken for an operand takes a parenthesis as that of a call. -/
theorem ValueAt.takes_call (hv : ValueAt g h) {b u : Pile} (hb : b.state = g.label)
    (hu : u.state = Stage.conversion.label) (gone rest : List Char) {mE mD mM : Meaning}
    {rF rD rM : Reading} (hF : mE.Of rF) (hD : mD.Of rD) (hM : mM.Of rM)
    (hexpression : mE.part = .expression) (hdot : mD.part = .dot) (hmember : mM.part = .name) :
    ∃ rE, { Form.selector.meaning [mE, mD, mM] with part := .expression }.Of rE ∧
      Takes language (tokenOver .parenthesis gone [] ['('] rest) stepLimit [u]
        (pushAll b [(rF, h), (rD, .selection), (rM, .selected)])
        (.active, (b.push rE h.label).push
          (leafOn (b.push rE h.label) .parenthesis gone [] ['('] rest) Stage.call.label) [] := by
  have hgotoS : g.goto? Form.selector.head = some .operand := by cases hv <;> rfl
  have hgotoE : g.goto? (Form.operand .selector).head = some h := by cases hv <;> rfl
  have hshift : h.actions .parenthesis = some [.shift .call] := by cases hv <;> rfl
  have hne : .conversion ≠ h := by cases hv <;> decide
  obtain ⟨rS, hS, hreducesS⟩ := Form.selector.reduces (by decide) hb hgotoS
    [(rF, h), (rD, .selection), (rM, .selected)] (.cons hF (.cons hD (.cons hM .nil)))
    (by simp [hexpression, hdot, hmember, Form.parts])
  obtain ⟨rE, hE, hreducesE⟩ := (Form.operand .selector).reduces (by decide) hb hgotoE
    [(rS, .operand)] (.cons hS .nil) rfl
  rw [Form.meaning_operand] at hE
  refine ⟨rE, hE, .reduce ?_ hreducesS ?_ (.reduce ?_ hreducesE ?_ (.shift ?_))⟩
  · exact actions_language (g := .selected) (x := .parenthesis) rfl
  · simp only [List.forall_mem_singleton]
    exact apart_of_stage hu rfl (by decide)
  · exact actions_language (g := .operand) (x := .parenthesis) rfl
  · simp only [List.forall_mem_singleton]
    exact apart_of_stage hu rfl hne
  · exact actions_language hshift

/-- A name with a qualifier in front of a parenthesis. -/
theorem ValueAt.reaches_qualified_call (hv : ValueAt g h) (hsize : stepLimit ≤ size) {b : Pile}
    (hb : b.state = g.label) {gone rest : List Char} (hrest : EndsMark '(' rest)
    {mN mD mM : Meaning} (hname : mN.part = .name) (hdot : mD.part = .dot)
    (hmember : mM.part = .name) (hstop : mM.stop = .between gone ('(' :: rest)) {t u : Pile}
    (hq : Qualified b h mN mD mM t u)
    (hnext : ∀ rT rP' rE rP,
      { Form.selector.meaning [{ mN with part := .expression }, mD, mM] with
        part := .expression }.Of rE →
      (Meaning.token .parenthesis gone [] ['('] rest).Of rP →
      (Meaning.token .parenthesis gone [] ['('] rest).Of rP' →
      Reaches size (.between (gone ++ ['(']) rest)
        [pushAll b [(rT, .typeWord), (rP', .conversion)], pushAll b [(rE, h), (rP, .call)]] P) :
    Reaches size (.between gone ('(' :: rest)) [t, u] P := by
  obtain ⟨rN, rD, rM, rF, rD', rM', hN, hD, hM, hF, hD', hM', rfl, rfl⟩ := hq.readings
  have hspells : Spells .parenthesis ['('] rest := .mark rfl hrest
  have hcursor : (pushAll b [(rN, .word), (rD, .qualification), (rM, .qualified)]).cursor =
      .between gone ([] ++ (['('] ++ rest)) := hM.stop.trans hstop
  have hcursor' : (pushAll b [(rF, h), (rD', .selection), (rM', .selected)]).cursor =
      .between gone ([] ++ (['('] ++ rest)) := hM'.stop.trans hstop
  have htoken := token?_language hspells (k := .qualified) rfl (by decide)
    (by simp [Stage.Skips]) hcursor
  have htoken' := token?_language hspells (k := .selected) rfl (by decide)
    (by simp [Stage.Skips]) hcursor'
  obtain ⟨rT, hweightT, htakes⟩ :=
    hv.takes_conversion hb (u := pushAll b [(rF, h), (rD', .selection), (rM', .selected)]) rfl gone
      rest hN hD hM hname hdot hmember
  obtain ⟨rE, hE, htakes'⟩ :=
    hv.takes_call hb (u := (b.push rT Stage.typeWord.label).push
      (leafOn (b.push rT Stage.typeWord.label) .parenthesis gone [] ['('] rest)
      Stage.conversion.label) rfl gone rest hF hD' hM' rfl hdot hmember
  have hweight : (b.push rE h.label).weight ≤ (b.push rT Stage.typeWord.label).weight := by
    have hweightE : rE.weight = 0 + mN.weight + mD.weight + mM.weight := hE.weight
    simp only [Thread.weight, hweightE, hweightT]
    omega
  exact Reaches.pair hsize (List.cons_ne_nil _ _) (by decide)
    (.cons (.takes htoken rfl htakes) (.inl ⟨rfl, offset_leafOn _ _ _ _ _ _ _⟩)
      (.cons (.takes htoken' rfl htakes') (.inl ⟨rfl, offset_leafOn _ _ _ _ _ _ _⟩) .nil))
    hweight fun rP' rP hP' hP => hnext rT rP' rE rP hE hP hP'

/-- A name with a qualifier in front of a brace is a type. -/
theorem ValueAt.reaches_qualified_brace (hv : ValueAt g h) (hsize : stepLimit ≤ size) {b : Pile}
    (hb : b.state = g.label) {gone rest : List Char} (hrest : EndsMark '\x7b' rest)
    {mN mD mM : Meaning} (hname : mN.part = .name) (hdot : mD.part = .dot)
    (hmember : mM.part = .name) (hstop : mM.stop = .between gone ('\x7b' :: rest)) {t u : Pile}
    (hq : Qualified b h mN mD mM t u)
    (hnext : ∀ rQ rB, (Form.qualifiedType.meaning [mN, mD, mM]).Of rQ →
      (Meaning.token .brace gone [] ['\x7b'] rest).Of rB →
      Reaches size (.between (gone ++ ['\x7b']) rest)
        [pushAll b [(rQ, .qualifiedType), (rB, .body)]] P) :
    Reaches size (.between gone ('\x7b' :: rest)) [t, u] P := by
  obtain ⟨rN, rD, rM, rF, rD', rM', hN, hD, hM, hF, hD', hM', rfl, rfl⟩ := hq.readings
  have hbrace : Part.brace.mark? = some '\x7b' := rfl
  have hspells : Spells .brace ['\x7b'] rest := .mark hbrace hrest
  obtain ⟨rQ, hQ, hreducesQ⟩ := hv.reduces_qualifiedType hb hN hD hM hname hdot hmember
  have hcursor : (pushAll b [(rN, .word), (rD, .qualification), (rM, .qualified)]).cursor =
      .between gone ([] ++ (['\x7b'] ++ rest)) := hM.stop.trans hstop
  have hcursor' : (pushAll b [(rF, h), (rD', .selection), (rM', .selected)]).cursor =
      .between gone ('\x7b' :: rest) := hM'.stop.trans hstop
  have htakes : Takes language (tokenOver .brace gone [] ['\x7b'] rest) stepLimit
      [pushAll b [(rF, h), (rD', .selection), (rM', .selected)]]
      (pushAll b [(rN, .word), (rD, .qualification), (rM, .qualified)])
      (.active, (b.push rQ Stage.qualifiedType.label).push
        (leafOn (b.push rQ Stage.qualifiedType.label) .brace gone [] ['\x7b'] rest)
        Stage.body.label) [] := by
    refine .reduce ?_ hreducesQ ?_ (.shift ?_)
    · exact actions_language (g := .qualified) (x := .brace) rfl
    · simp only [List.forall_mem_singleton]
      exact apart_of_stage (k := .selected) rfl rfl (by decide)
    · exact actions_language (g := .qualifiedType) (x := .brace) rfl
  have htoken := token?_language hspells (k := .qualified) rfl (by decide)
    (by simp [Stage.Skips]) hcursor
  exact .round hsize (.cons (.takes htoken rfl htakes)
      (.inl ⟨rfl, offset_leafOn _ _ _ _ _ _ _⟩)
      (.cons (advances_stuck hbrace hrest (k := .selected) rfl hcursor' rfl)
        (.inr ⟨rfl, by rw [hcursor']⟩) .nil)) (further_mark gone '\x7b' rest)
    (by simp [headLimit]) (ranked_one _) (List.cons_ne_nil _ _)
    (hnext _ _ hQ (leafOn_of _ _ _ _ _ _))

/-! ## Values -/

/-- Wherever a stack is at the end of a value, it leads on. -/
def LeadsOn (size : Nat) (P : Reading → Prop) (b : Pile) (h : Stage) (text : List Char) (v : Value)
    (c : Cursor) : Prop :=
  ∀ t r m, Meaning.Of m r → IsValue text v m →
    Ended [.comma, .lineFeed] 3 c t (b.push r h.label) → Reaches size c [t] P

theorem endsMark_of_endsValue {c : Char} (hc : c ≠ ',' ∧ c ≠ '\n') {rest : List Char}
    (h : EndsValue rest) : EndsMark c rest := by
  intro d hd
  rcases h d hd with rfl | rfl
  · exact ⟨hc.1.symm, rfl⟩
  · exact ⟨hc.2.symm, rfl⟩

theorem Name.toList_ne_nil (x : Name) : x.text.toList ≠ [] := by
  obtain ⟨c, cs, hword⟩ := x.isWord
  rw [hword.toList_eq]
  exact List.cons_ne_nil c cs

/-- A name where a value can stand. -/
theorem ValueAt.shift_word (hv : ValueAt g h) (hsize : stepLimit ≤ size) {b : Pile}
    (hb : b.state = g.label) (x : Name) {gone rest : List Char} (hrest : EndsWord rest)
    (hcursor : b.cursor = .between gone (' ' :: (x.text.toList ++ rest)))
    (hnext : ∀ r, (Meaning.token .name gone [' '] x.text.toList rest).Of r →
      Reaches size (.between (gone ++ [' '] ++ x.text.toList) rest) [b.push r Stage.word.label] P) :
    Reaches size (.between gone (' ' :: (x.text.toList ++ rest))) [b] P := by
  have hawaits : g.awaits .name = true := by cases hv <;> rfl
  have hshift : g.actions .name = some [.shift .word] := by cases hv <;> rfl
  exact .shift hsize [' '] (.name x hrest) x.toList_ne_nil hb hawaits (by simp [Stage.Skips])
    hcursor .refl (show 0 < stepLimit by decide) hb hshift hnext

/-- A literal in front of a comma or the end of a line. -/
theorem ValueAt.reaches_literal (hv : ValueAt g h) (hsize : stepLimit ≤ size) {b : Pile}
    (hb : b.state = g.label) {y : Part} (hy : y = .integer ∨ y = .text)
    {gone cs rest text : List Char} (htext : text = gone ++ (' ' :: (cs ++ rest)))
    (hspells : Spells y cs rest) (hcs : cs ≠ [])
    (hcursor : b.cursor = .between gone (' ' :: (cs ++ rest))) {v : Value}
    (hvalue : v.initializer = .literal (String.ofList cs))
    (hnext : LeadsOn size P b h text v (.between (gone ++ [' '] ++ cs) rest)) :
    Reaches size (.between gone (' ' :: (cs ++ rest))) [b] P := by
  have hawaits : g.awaits y = true := by rcases hy with rfl | rfl <;> cases hv <;> rfl
  have hshift : g.actions y = some [.shift .operand] := by
    rcases hy with rfl | rfl <;> cases hv <;> rfl
  have hform : Form.operand y ∈ Form.all := by rcases hy with rfl | rfl <;> decide
  have htoken := text_tokenNode y [' '] htext
  refine Reaches.shift hsize [' '] hspells hcs hb hawaits (by simp [Stage.Skips]) hcursor .refl
    (show 0 < stepLimit by decide) hb hshift fun r hr => ?_
  obtain ⟨r', hr', hcloses⟩ := hv.closes_operand hform hb rfl hr
  refine hnext _ r' _ hr' ⟨rfl, _, rfl, ?_, ?_, ?_⟩
    ⟨⟨.operand, rfl, by decide⟩, hr.stop, fun x hx => ?_⟩
  · rcases hy with rfl | rfl <;> rfl
  · rcases hy with rfl | rfl <;> rfl
  · rw [hvalue, ← htoken]
    rcases hy with rfl | rfl <;> rfl
  · exact (hcloses.mono (by decide) x hx).mono (by decide)

/-- A call without a qualifier. -/
theorem ValueAt.reaches_call (hv : ValueAt g h) (hsize : stepLimit ≤ size) {b : Pile}
    (hb : b.state = g.label) (f : Name) {gone rest : List Char} (text : List Char)
    (hrest : EndsValue rest)
    (hcursor : b.cursor = .between gone (' ' :: (f.text.toList ++ ('(' :: ')' :: rest))))
    (hnext : LeadsOn size P b h text (.call f)
      (.between (gone ++ [' '] ++ f.text.toList ++ ['('] ++ [')']) rest)) :
    Reaches size (.between gone (' ' :: (f.text.toList ++ ('(' :: ')' :: rest)))) [b] P := by
  have hword : EndsWord ('(' :: ')' :: rest) := by
    rintro _ ⟨⟩
    decide
  have hopen : EndsMark '(' (')' :: rest) := by
    rintro _ ⟨⟩
    decide
  have hclose : EndsMark ')' rest := endsMark_of_endsValue (by decide) hrest
  refine hv.shift_word hsize hb f hword hcursor fun rN hN => ?_
  refine hv.reaches_word hsize hb hopen hN rfl rfl fun rE rP rT rP' hE hP hP' => ?_
  have hstop := Meaning.stop_token .parenthesis (gone ++ [' '] ++ f.text.toList) ['('] (')' :: rest)
  refine Reaches.shift_first (x := .closingParenthesis) hsize rfl hclose (k := .call) rfl rfl
    (hP.stop.trans hstop) (hP'.stop.trans hstop) (by decide) rfl rfl fun rC hC => ?_
  obtain ⟨r, m, more, hr, hpart, hnodes, hended⟩ := hv.ended_call hb hE hP hC rfl rfl rfl
  rw [Meaning.stop_token] at hended
  refine hnext _ r m hr ⟨hpart, _, hnodes, rfl, rfl, ?_⟩ hended
  exact classify_call _ _ _ rfl more

/-- The texts of a qualifier and a member. -/
theorem text_qualified (qualifier member : Name) {gone rest text : List Char}
    (htext : text = gone ++ (' ' :: (qualifier.text.toList ++
      ('.' :: (member.text.toList ++ rest))))) :
    (tokenNode .name gone [' '] qualifier.text.toList ('.' :: (member.text.toList ++ rest))).text
        (sourceOf text) = qualifier.text ∧
      (tokenNode .name (gone ++ [' '] ++ qualifier.text.toList ++ ['.']) [] member.text.toList
        rest).text (sourceOf text) = member.text := by
  constructor
  · rw [text_tokenNode .name [' '] htext, String.ofList_toList]
  · rw [text_tokenNode .name [] (by simpa using htext), String.ofList_toList]

theorem endsWord_mark {c : Char} (hc : Text.isIdentifierPart c = false) (rest : List Char) :
    EndsWord (c :: rest) := by
  rintro _ ⟨⟩
  exact hc

/-- A call with a qualifier. -/
theorem ValueAt.reaches_qualifiedCall (hv : ValueAt g h) (hsize : stepLimit ≤ size) {b : Pile}
    (hb : b.state = g.label) (qualifier member : Name) {gone rest text : List Char}
    (hrest : EndsValue rest)
    (htext : text = gone ++ (' ' :: (qualifier.text.toList ++
      ('.' :: (member.text.toList ++ ('(' :: ')' :: rest))))))
    (hcursor : b.cursor = .between gone (' ' :: (qualifier.text.toList ++
      ('.' :: (member.text.toList ++ ('(' :: ')' :: rest))))))
    (hnext : LeadsOn size P b h text (.qualifiedCall qualifier member)
      (.between (gone ++ [' '] ++ qualifier.text.toList ++ ['.'] ++ member.text.toList ++ ['('] ++
        [')']) rest)) :
    Reaches size (.between gone (' ' :: (qualifier.text.toList ++
      ('.' :: (member.text.toList ++ ('(' :: ')' :: rest)))))) [b] P := by
  have hopen : EndsMark '(' (')' :: rest) := by
    rintro _ ⟨⟩
    decide
  have hclose : EndsMark ')' rest := endsMark_of_endsValue (by decide) hrest
  obtain ⟨htextN, htextM⟩ := text_qualified qualifier member htext
  refine hv.shift_word hsize hb qualifier (endsWord_mark (by decide) _) hcursor fun rN hN => ?_
  refine hv.reaches_qualified hsize hb member (endsWord_mark (by decide) _) hN rfl rfl
    fun t u hq => ?_
  refine hv.reaches_qualified_call hsize hb hopen rfl rfl rfl (Meaning.stop_token _ _ _ _) hq
    fun rT rP' rE rP hE hP hP' => ?_
  have hstop := Meaning.stop_token .parenthesis (gone ++ [' '] ++ qualifier.text.toList ++ ['.'] ++
    member.text.toList) ['('] (')' :: rest)
  refine Reaches.shift_second (x := .closingParenthesis) hsize rfl hclose (k := .call) rfl rfl
    (hP.stop.trans hstop) (hP'.stop.trans hstop) (by decide) rfl rfl fun rC hC => ?_
  obtain ⟨r, m, more, hr, hpart, hnodes, hended⟩ := hv.ended_call hb hE hP hC rfl rfl rfl
  rw [Meaning.stop_token] at hended
  refine hnext _ r m hr ⟨hpart, _, hnodes, rfl, rfl, ?_⟩ hended
  refine (classify_call_selector _ _ _ more rfl rfl rfl rfl rfl rfl rfl).trans ?_
  exact congrArg₂ Initializer.call (congrArg some htextN) (congrArg some htextM)

/-- A composite literal. -/
theorem ValueAt.reaches_composite (hv : ValueAt g h) (hsize : stepLimit ≤ size) {b : Pile}
    (hb : b.state = g.label) (qualifier member : Name) {gone rest text : List Char}
    (hrest : EndsValue rest)
    (htext : text = gone ++ (' ' :: (qualifier.text.toList ++
      ('.' :: (member.text.toList ++ ('\x7b' :: '\x7d' :: rest))))))
    (hcursor : b.cursor = .between gone (' ' :: (qualifier.text.toList ++
      ('.' :: (member.text.toList ++ ('\x7b' :: '\x7d' :: rest))))))
    (hnext : LeadsOn size P b h text (.composite qualifier member)
      (.between (gone ++ [' '] ++ qualifier.text.toList ++ ['.'] ++ member.text.toList ++
        ['\x7b'] ++ ['\x7d']) rest)) :
    Reaches size (.between gone (' ' :: (qualifier.text.toList ++
      ('.' :: (member.text.toList ++ ('\x7b' :: '\x7d' :: rest)))))) [b] P := by
  have hopen : EndsMark '\x7b' ('\x7d' :: rest) := by
    rintro _ ⟨⟩
    decide
  have hclose : EndsMark '\x7d' rest := endsMark_of_endsValue (by decide) hrest
  obtain ⟨htextN, htextM⟩ := text_qualified qualifier member htext
  refine hv.shift_word hsize hb qualifier (endsWord_mark (by decide) _) hcursor fun rN hN => ?_
  refine hv.reaches_qualified hsize hb member (endsWord_mark (by decide) _) hN rfl rfl
    fun t u hq => ?_
  refine hv.reaches_qualified_brace hsize hb hopen rfl rfl rfl (Meaning.stop_token _ _ _ _) hq
    fun rQ rB hQ hB => ?_
  have hstop := Meaning.stop_token .brace (gone ++ [' '] ++ qualifier.text.toList ++ ['.'] ++
    member.text.toList) ['\x7b'] ('\x7d' :: rest)
  refine Reaches.shift hsize [] (x := .closingBrace) (.mark rfl hclose) (List.cons_ne_nil _ _)
    (g := .body) rfl (by decide) (by simp [Stage.Skips]) (hB.stop.trans hstop) .refl
    (show 0 < stepLimit by decide) (k := .body) rfl rfl fun rC hC => ?_
  obtain ⟨r, m, more, hr, hpart, hnodes, hended⟩ := hv.ended_composite hb hQ hB hC rfl rfl rfl
  rw [Meaning.stop_token] at hended
  rw [List.append_nil]
  refine hnext _ r m hr ⟨hpart, _, hnodes, rfl, rfl, ?_⟩ hended
  refine (classify_composite_qualifiedType _ _ _ more rfl rfl rfl rfl rfl rfl).trans ?_
  exact congrArg₂ Initializer.composite (congrArg some htextN) (congrArg some htextM)

/-- **A value is read as what it is.** -/
theorem ValueAt.reaches_value (hv : ValueAt g h) (hsize : stepLimit ≤ size) {b : Pile}
    (hb : b.state = g.label) (v : Value) {gone rest text : List Char} (hrest : EndsValue rest)
    (htext : text = gone ++ (' ' :: (v.print.toList ++ rest)))
    (hcursor : b.cursor = .between gone (' ' :: (v.print.toList ++ rest)))
    (hnext : LeadsOn size P b h text v (.between (gone ++ [' '] ++ v.print.toList) rest)) :
    Reaches size (.between gone (' ' :: (v.print.toList ++ rest))) [b] P := by
  cases v with
  | integer n =>
    obtain ⟨d, ds, hcs, -⟩ := n.head
    have hvalue : (Value.integer n).initializer = .literal (String.ofList n.text.toList) := by
      rw [String.ofList_toList]
      rfl
    exact hv.reaches_literal hsize hb (.inl rfl) htext (.integer n hrest)
      (hcs ▸ List.cons_ne_nil d ds) hcursor hvalue hnext
  | string s =>
    have hprint : (Value.string s).print.toList = '"' :: s.text.toList ++ ['"'] := by
      simp [Value.print]
    have hvalue : (Value.string s).initializer =
        .literal (String.ofList ('"' :: s.text.toList ++ ['"'])) := by
      rw [← hprint, String.ofList_toList]
      rfl
    rw [hprint] at htext hcursor hnext ⊢
    exact hv.reaches_literal hsize hb (.inr rfl) htext (.string s) (by simp) hcursor hvalue hnext
  | call f =>
    simp only [Value.print, String.toList_append, List.append_assoc] at hcursor hnext ⊢
    exact hv.reaches_call hsize hb f text hrest hcursor (by simpa using hnext)
  | qualifiedCall qualifier member =>
    simp only [Value.print, String.toList_append, List.append_assoc] at htext hcursor hnext ⊢
    refine hv.reaches_qualifiedCall hsize hb qualifier member hrest htext hcursor ?_
    simpa using hnext
  | composite qualifier member =>
    simp only [Value.print, String.toList_append, List.append_assoc] at htext hcursor hnext ⊢
    refine hv.reaches_composite hsize hb qualifier member hrest htext hcursor ?_
    simpa using hnext

end GoGlobals.Go
