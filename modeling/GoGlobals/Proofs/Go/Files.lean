import GoGlobals.Proofs.Go.Specs

/-!
# Reading printed files

A file that is printed from declarations is read back as these declarations.  Most of what can go
wrong is between two neighbours: a line feed ends a specification or is white space, and what is
behind a specification decides when its parts are put together.  So the lines of a file are read
from the front, and what is known at each line feed is the reading so far, as one piece.

## What is here

* `IsDeclared`, `IsStatement` and `IsFile`: the readings of what stands behind `var`, of a
  declaration, and of the first lines of a file, with their groups.
* `LinesLeadOn`: whatever was read before, the lines that follow are read to the end.  It is shown
  from the last line on, for specifications on lines of their own (`linesLeadOn_specs`) and between
  parentheses (`linesLeadOn_block`).
* `read_printLines` and `read_printBlock`, and `read_printed` for both.
-/

set_option autoImplicit false

namespace GoGlobals.Go

open Text (Piece Place Cursor Source)
open Grammar

variable {text : List Char} {line : Int} {file : String} {size : Nat} {P : Reading → Prop}

/-! ## Declarations -/

/-- The reading of what is declared: a declaration of it has these groups. -/
structure IsDeclared (text : List Char) (file : String) (gs : List Group) (m : Meaning) : Prop where
  part : m.part = .varSpec ∨ m.part = .specList
  groups : ∀ start stop, (Reading.nodeOf Part.varDeclaration.symbol start stop
    m.nodes).varSpecs.map (·.group (sourceOf text) file) = gs

theorem IsSpec.isDeclared {s : Spec} {m : Meaning} (h : IsSpec text line s m) :
    IsDeclared text file [s.group file line] m := by
  obtain ⟨n, hnodes, hkind, hnamed, hgroup⟩ := h.node
  refine ⟨.inl h.part, fun start stop => ?_⟩
  simp [Node.varSpecs, Node.namedChildren, Reading.nodeOf, hnodes, hkind, hnamed, hgroup]

/-- The reading of a statement: a declaration of variables with these groups. -/
structure IsStatement (text : List Char) (file : String) (gs : List Group) (m : Meaning) :
    Prop where
  part : m.part = .statement
  node : ∃ n, m.nodes = [n] ∧ n.kind = "var_declaration" ∧ n.named = true ∧
    n.varSpecs.map (·.group (sourceOf text) file) = gs

variable {f : Pile} {gs : List Group}

/-- What is declared behind `var` is a statement. -/
theorem IsDeclared.closes (hf : f.state = Stage.file.label) {m : Meaning} {r : Reading}
    (hm : IsDeclared text file gs m) (hr : m.Of r) {gone blanks cs rest : List Char} {rV : Reading}
    (hV : (Meaning.token .var gone blanks cs rest).Of rV) :
    ∃ rS mS, Meaning.Of mS rS ∧ IsStatement text file gs mS ∧
      ClosesOn [.lineFeed] 3 (pushAll f [(rV, .var), (r, .varSpec)])
        (f.push rS Stage.statement.label) := by
  have hforms : Form.varDeclaration m.part ∈ Form.all := by
    rcases hm.part with h | h <;> rw [h] <;> decide
  obtain ⟨rD, hD, hclosesD⟩ := (Form.varDeclaration m.part).closes hforms hf rfl
    [(rV, .var), (r, .varSpec)] (.cons hV (.cons hr .nil)) rfl .varSpec rfl [.lineFeed] rfl
  obtain ⟨rE, hE, hclosesE⟩ := Form.declaration.closes (by decide) hf rfl [(rD, .varDeclaration)]
    (.cons hD .nil) rfl .varDeclaration rfl [.lineFeed] (by decide)
  obtain ⟨rS, hS, hclosesS⟩ := Form.statement.closes (by decide) hf rfl [(rE, .declaration)]
    (.cons hE .nil) rfl .declaration rfl [.lineFeed] (by decide)
  have hnodes := (Form.nodes_alone (f := .statement) rfl rfl _).trans
    (Form.nodes_alone (f := .declaration) rfl rfl
      ((Form.varDeclaration m.part).meaning [.token .var gone blanks cs rest, m]))
  refine ⟨rS, _, hS, ⟨rfl, _, hnodes, rfl, rfl, ?_⟩, (hclosesD.trans hclosesE).trans hclosesS⟩
  rw [← hm.groups (Meaning.startOf [.token .var gone blanks cs rest, m])
    (Meaning.stopOf [.token .var gone blanks cs rest, m]), Form.children_pair rfl]
  rfl

/-! ## Lines -/

/-- The node of a package clause with this name. -/
structure IsClause (text : List Char) (package : Name) (n : Node) : Prop where
  kind : n.kind = "package_clause"
  named : n.named = true
  name : n.namedChildren.head?.map (·.text (sourceOf text)) = some package.text

/-- The named ones of these nodes are declarations of variables with these groups. -/
structure AreDeclarations (text : List Char) (file : String) (gs : List Group)
    (nodes : List Node) : Prop where
  kind : ∀ n ∈ nodes, n.named = true → n.kind = "var_declaration"
  groups : ((nodes.filter (·.named)).flatMap Node.varSpecs).map
    (·.group (sourceOf text) file) = gs

theorem AreDeclarations.append {gs gs' : List Group} {ns ns' : List Node}
    (h : AreDeclarations text file gs ns) (h' : AreDeclarations text file gs' ns') :
    AreDeclarations text file (gs ++ gs') (ns ++ ns') := by
  refine ⟨fun n hn => ?_, ?_⟩
  · rcases List.mem_append.1 hn with hn | hn
    · exact h.kind n hn
    · exact h'.kind n hn
  · rw [List.filter_append, List.flatMap_append, List.map_append, h.groups, h'.groups]

theorem areDeclarations_lineFeed (gone rest : List Char) :
    AreDeclarations text file [] (Meaning.token .lineFeed gone [] ['\n'] rest).nodes :=
  ⟨by simp [Meaning.token, Reading.nodeOf, Part.symbol, Symbol.isNamed], rfl⟩

theorem IsStatement.areDeclarations {m : Meaning} (h : IsStatement text file gs m) :
    AreDeclarations text file gs m.nodes := by
  obtain ⟨n, hnodes, hkind, hnamed, hgroups⟩ := h.node
  rw [hnodes]
  exact ⟨by simp [hkind], by simpa [hnamed] using hgroups⟩

/-- The reading of the first lines of a file. -/
structure IsFile (text : List Char) (file : String) (package : Name) (gs : List Group)
    (m : Meaning) : Prop where
  part : m.part = .lines
  nodes : ∃ clause rest, m.nodes = clause :: rest ∧ IsClause text package clause ∧
    AreDeclarations text file gs rest

variable {b : Pile} {package : Name}

/-- One more statement at the end of a line. -/
theorem IsFile.closes (hb : b.state = Stage.start.label) {m mS : Meaning} {r rS : Reading}
    (hr : m.Of r) (hm : IsFile text file package gs m) (hS : mS.Of rS) {gs' : List Group}
    (hstatement : IsStatement text file gs' mS) {gone rest : List Char} {rF : Reading}
    (hF : (Meaning.token .lineFeed gone [] ['\n'] rest).Of rF) :
    ∃ r' m', Meaning.Of m' r' ∧ IsFile text file package (gs ++ gs') m' ∧
      ClosesOn [.var, .finish] 2
        (pushAll b [(r, .file), (rS, .statement), (rF, .lineEnd)])
        (b.push r' Stage.file.label) := by
  obtain ⟨q, hq, hcloses⟩ := (Form.line .statement).closes (by decide)
    (show (b.push r Stage.file.label).state = Stage.file.label from rfl) rfl
    [(rS, .statement), (rF, .lineEnd)] (.cons hS (.cons hF .nil))
    (by simp [hstatement.part, Form.parts, Meaning.token]) .lineEnd rfl [.var, .finish] (by decide)
  obtain ⟨r', hr', hcloses'⟩ := Form.joinLines.closes (by decide) hb rfl
    [(r, .file), (q, .fileTwice)] (.cons hr (.cons hq .nil))
    (by simp [hm.part, Form.parts, Form.meaning, Form.head]) .fileTwice rfl [.var, .finish]
    (by decide)
  obtain ⟨clause, ns, hnodes, hclause, hdeclarations⟩ := hm.nodes
  have hmore := hstatement.areDeclarations.append (areDeclarations_lineFeed gone rest)
  rw [List.append_nil] at hmore
  refine ⟨r', _, hr', ⟨rfl, clause, _, ?_, hclause, hdeclarations.append hmore⟩,
    hcloses.trans hcloses'⟩
  rw [Form.nodes_pair rfl rfl, Form.nodes_pair rfl rfl, hnodes, List.cons_append]

/-- Wherever the first lines of a file are read, their stack leads on. -/
def LinesLeadOn (size : Nat) (P : Reading → Prop) (text : List Char) (file : String)
    (package : Name) (b : Pile) (line : Int) (gs : List Group) (rest : List Char) : Prop :=
  ∀ gone t r m, Meaning.Of m r → IsFile text file package gs m → Along text line gone rest →
    Ended [.var, .finish] 2 (.between gone rest) t (b.push r Stage.file.label) →
    Reaches size (.between gone rest) [t] P

/-- A declaration ends with its line. -/
theorem IsDeclared.reaches (hb : b.state = Stage.start.label) (hsize : stepLimit ≤ size)
    {m mD : Meaning} {r rD : Reading} (hr : m.Of r) (hm : IsFile text file package gs m)
    (hD : mD.Of rD) {gs' : List Group} (hdeclared : IsDeclared text file gs' mD)
    {gone blanks cs cs' : List Char} {rV : Reading}
    (hV : (Meaning.token .var gone blanks cs cs').Of rV) {gone' rest : List Char} {t : Pile}
    (ht : Ended [.lineFeed] 7 (.between gone' ('\n' :: rest)) t
      (pushAll b [(r, .file), (rV, .var), (rD, .varSpec)]))
    (halong : Along text line gone' ('\n' :: rest))
    (hnext : LinesLeadOn size P text file package b (line + 1) (gs ++ gs') rest) :
    Reaches size (.between gone' ('\n' :: rest)) [t] P := by
  obtain ⟨rS, mS, hS, hstatement, hclosesS⟩ :=
    hdeclared.closes (show (b.push r Stage.file.label).state = Stage.file.label from rfl) hD hV
  refine (ht.trans hclosesS).shift_next hsize (by decide) (by decide) .lineFeed
    (List.cons_ne_nil _ _) (k := .statement) rfl rfl fun rF hF hstop => ?_
  obtain ⟨r', m', hr', hm', hcloses⟩ := IsFile.closes hb hr hm hS hstatement hF
  exact hnext _ _ r' m' hr' hm' halong.lineFeed ⟨⟨.lineEnd, rfl, by decide⟩, hstop, hcloses⟩

/-- The lines of specifications. -/
def linesOf (specs : List Spec) : List Char :=
  specs.flatMap fun s => "var".toList ++ (' ' :: (s.print.toList ++ ['\n']))

/-- **Specifications on lines of their own.** -/
theorem linesLeadOn_specs (hb : b.state = Stage.start.label) (hsize : stepLimit ≤ size)
    (specs : List Spec)
    (hnext : LinesLeadOn size P text file package b (line + specs.length)
      (gs ++ groupsFrom file line specs) []) :
    LinesLeadOn size P text file package b line gs (linesOf specs) := by
  induction specs generalizing line gs with
  | nil => simpa [groupsFrom, linesOf] using hnext
  | cons s specs ih =>
    intro gone t r m hr hm halong ht
    have hsplit : linesOf (s :: specs) =
        "var".toList ++ ([' '] ++ (s.print.toList ++ '\n' :: linesOf specs)) := by
      simp [linesOf]
    rw [hsplit] at halong ht ⊢
    refine ht.shift_next hsize (by decide) (by decide) (.var (endsWord_mark (by decide) _))
      (List.cons_ne_nil _ _) (k := .file) rfl rfl fun rV hV hstop => ?_
    have hplace := (halong.skip "var".toList (by decide)).skip [' '] (by decide)
    have hwaits : Waits [.name] 0 (gone ++ "var".toList) [' ']
        (s.print.toList ++ '\n' :: linesOf specs) (pushAll b [(r, .file), (rV, .var)])
        (pushAll b [(r, .file), (rV, .var)]) :=
      .refl [.name] .var rfl (by decide) (by simp [Stage.Skips]) hstop
    refine SpecAt.line.reaches hsize rfl s hwaits List.mem_cons_self (by decide) hplace ?_
    intro gone' t' r' m' hr' hm' halong' ht'
    refine IsDeclared.reaches hb hsize hr hm hr' hm'.isDeclared hV ht' halong' (ih ?_)
    have hlength : line + 1 + (specs.length : Int) = line + ((s :: specs).length : Nat) := by
      rw [List.length_cons]
      omega
    rw [hlength, List.append_assoc]
    exact hnext

/-! ## Parentheses -/

/-- The specifications among the nodes have these groups. -/
def AreSpecs (text : List Char) (file : String) (gs : List Group) (nodes : List Node) : Prop :=
  ((nodes.filter (·.named)).filter (·.kind == "var_spec")).map (·.group (sourceOf text) file) = gs

theorem AreSpecs.append {gs gs' : List Group} {ns ns' : List Node}
    (h : AreSpecs text file gs ns) (h' : AreSpecs text file gs' ns') :
    AreSpecs text file (gs ++ gs') (ns ++ ns') := by
  rw [AreSpecs, List.filter_append, List.filter_append, List.map_append, h, h']

theorem IsSpec.areSpecs {s : Spec} {m : Meaning} (h : IsSpec text line s m) :
    AreSpecs text file [s.group file line] m.nodes := by
  obtain ⟨n, hnodes, hkind, hnamed, hgroup⟩ := h.node
  simp [AreSpecs, hnodes, hkind, hnamed, hgroup]

/-- What is between parentheses is declared. -/
theorem isDeclared_of_areSpecs {form : Form} (hhead : form.head = .specList) {ms : List Meaning}
    (hspecs : AreSpecs text file gs (form.children ms)) :
    IsDeclared text file gs (form.meaning ms) := by
  refine ⟨.inr hhead, fun start stop => ?_⟩
  rw [← hspecs, Form.meaning, hhead]
  exact congrArg (List.map _) (List.append_nil _)

/-- The stack behind the lines between parentheses. -/
inductive SpecsOn (text : List Char) (file : String) (b : Pile) : List Group → Pile → Prop
  | empty : SpecsOn text file b [] b
  | lines {gs : List Group} {m : Meaning} {r : Reading} (hr : m.Of r) (hpart : m.part = .specLines)
      (hspecs : AreSpecs text file gs m.nodes) :
      SpecsOn text file b gs (b.push r Stage.list.label)

theorem SpecsOn.exists_specAt {u : Pile} (hu : SpecsOn text file b gs u)
    (hb : b.state = Stage.opened.label) :
    ∃ g, SpecAt g .listSpec ∧ u.state = g.label := by
  cases hu with
  | empty => exact ⟨_, .first, hb⟩
  | lines => exact ⟨_, .more, rfl⟩

/-- One more line between parentheses. -/
theorem SpecsOn.closes {u : Pile} (hu : SpecsOn text file b gs u)
    (hb : b.state = Stage.opened.label) {s : Spec} {m : Meaning} {r rF : Reading} (hr : m.Of r)
    (hm : IsSpec text line s m) {gone rest : List Char}
    (hF : (Meaning.token .lineFeed gone [] ['\n'] rest).Of rF) :
    ∃ u', SpecsOn text file b (gs ++ [s.group file line]) u' ∧ ClosesOn [.name, .closingParenthesis] 2
        (pushAll u [(r, .listSpec), (rF, .listLineEnd)]) u' := by
  have hparts : [m, .token .lineFeed gone [] ['\n'] rest].map (·.part) =
      Form.specLine.parts.map (·.1) := by
    simp [hm.part, Form.parts, Meaning.token]
  have hspecs : AreSpecs text file [s.group file line]
      (Form.specLine.meaning [m, .token .lineFeed gone [] ['\n'] rest]).nodes := by
    rw [Form.nodes_pair rfl rfl]
    exact hm.areSpecs.append rfl
  cases hu with
  | empty =>
    obtain ⟨q, hq, hcloses⟩ := Form.specLine.closes (by decide) hb rfl
      [(r, .listSpec), (rF, .listLineEnd)] (.cons hr (.cons hF .nil)) hparts .listLineEnd rfl
      [.name, .closingParenthesis] (by decide)
    exact ⟨_, .lines hq rfl hspecs, hcloses.le (by decide)⟩
  | @lines _ m' r' hr' hpart hspecs' =>
    obtain ⟨q, hq, hcloses⟩ := Form.specLine.closes (by decide)
      (show (b.push r' Stage.list.label).state = Stage.list.label from rfl) rfl
      [(r, .listSpec), (rF, .listLineEnd)] (.cons hr (.cons hF .nil)) hparts .listLineEnd rfl
      [.name, .closingParenthesis] (by decide)
    obtain ⟨q', hq', hcloses'⟩ := Form.joinSpecLines.closes (by decide) hb rfl
      [(r', .list), (q, .listTwice)] (.cons hr' (.cons hq .nil))
      (by simp [hpart, Form.parts, Form.meaning, Form.head]) .listTwice rfl
      [.name, .closingParenthesis] (by decide)
    refine ⟨_, .lines hq' rfl ?_, hcloses.trans hcloses'⟩
    rw [Form.nodes_pair rfl rfl]
    exact hspecs'.append hspecs

/-- The lines of specifications between parentheses. -/
def blockOf (specs : List Spec) : List Char :=
  specs.flatMap fun s => s.print.toList ++ ['\n']

/-- **Specifications between parentheses.** -/
theorem SpecsOn.reaches (hb : b.state = Stage.opened.label) (hsize : stepLimit ≤ size)
    {rest : List Char} {specs : List Spec} {gone blanks : List Char} {t u : Pile}
    (hu : SpecsOn text file b gs u)
    (ht : Waits [.name, .closingParenthesis] 2 gone blanks (blockOf specs ++ rest) t u)
    (halong : Along text line (gone ++ blanks) (blockOf specs ++ rest))
    (hnext : ∀ gone blanks t u, SpecsOn text file b (gs ++ groupsFrom file line specs) u →
      Waits [.name, .closingParenthesis] 2 gone blanks rest t u →
      Along text (line + specs.length) (gone ++ blanks) rest →
      Reaches size (.between gone (blanks ++ rest)) [t] P) :
    Reaches size (.between gone (blanks ++ (blockOf specs ++ rest))) [t] P := by
  induction specs generalizing line gs gone blanks t u with
  | nil =>
    refine hnext gone blanks t u ?_ ht ?_
    · simpa [groupsFrom] using hu
    · simpa [blockOf] using halong
  | cons s specs ih =>
    have hsplit : blockOf (s :: specs) ++ rest =
        s.print.toList ++ '\n' :: (blockOf specs ++ rest) := by
      simp [blockOf]
    rw [hsplit] at ht halong ⊢
    obtain ⟨g, hs, hg⟩ := hu.exists_specAt hb
    refine hs.reaches hsize hg s ht (by decide) (by decide) halong ?_
    intro gone' t' r m hr hm halong' ht'
    refine ht'.shift_next hsize (by decide) (by decide) .lineFeed (List.cons_ne_nil _ _)
      (k := .listSpec) rfl rfl fun rF hF hstop => ?_
    obtain ⟨u', hu', hcloses⟩ := hu.closes hb hr hm hF
    have hwaits : Waits [.name, .closingParenthesis] 2 (gone' ++ ['\n']) []
        (blockOf specs ++ rest) (pushAll u [(r, .listSpec), (rF, .listLineEnd)]) u' :=
      ⟨⟨.listLineEnd, rfl, by decide, by simp [Stage.Skips]⟩, hstop, hcloses⟩
    have hplace : Along text (line + 1) (gone' ++ ['\n'] ++ []) (blockOf specs ++ rest) := by
      rw [List.append_nil]
      exact halong'.lineFeed
    have hlength : line + 1 + (specs.length : Int) = line + ((s :: specs).length : Nat) := by
      rw [List.length_cons]
      omega
    refine ih hu' hwaits hplace ?_
    rw [hlength, List.append_assoc]
    exact hnext

/-- A list of specifications ends with its line. -/
theorem SpecsOn.closes_all {v u : Pile} (hv : v.state = Stage.var.label)
    {gone' cs' rest' : List Char} {rP : Reading}
    (hP : (Meaning.token .parenthesis gone' [' '] cs' rest').Of rP)
    (hu : SpecsOn text file (v.push rP Stage.opened.label) gs u) :
    ∃ i k : Stage, u.state = i.label ∧ i.actions .closingParenthesis = some [.shift k] ∧
      k.awaits .lineFeed = true ∧
      ∀ {gone blanks rest : List Char} {rC : Reading},
        (Meaning.token .closingParenthesis gone blanks [')'] rest).Of rC →
        ∃ r m, Meaning.Of m r ∧ IsDeclared text file gs m ∧
          ClosesOn [.lineFeed] 1 (u.push rC k.label) (v.push r Stage.varSpec.label) := by
  cases hu with
  | empty =>
    refine ⟨.opened, .listEmpty, rfl, rfl, by decide, ?_⟩
    intro gone blanks rest rC hC
    obtain ⟨r, hr, hcloses⟩ := Form.emptyList.closes (by decide) hv rfl
      [(rP, .opened), (rC, .listEmpty)] (.cons hP (.cons hC .nil)) rfl .listEmpty rfl [.lineFeed]
      (by decide)
    exact ⟨r, _, hr, isDeclared_of_areSpecs rfl rfl, hcloses⟩
  | @lines _ m r hr hpart hspecs =>
    refine ⟨.list, .listClosed, rfl, rfl, by decide, ?_⟩
    intro gone blanks rest rC hC
    obtain ⟨r', hr', hcloses⟩ := Form.specList.closes (by decide) hv rfl
      [(rP, .opened), (r, .list), (rC, .listClosed)] (.cons hP (.cons hr (.cons hC .nil)))
      (by simp [hpart, Form.parts, Meaning.token]) .listClosed rfl [.lineFeed] (by decide)
    refine ⟨r', _, hr', isDeclared_of_areSpecs rfl ?_, hcloses⟩
    have hchildren : AreSpecs text file ([] ++ (gs ++ []))
        ((Meaning.token .parenthesis gone' [' '] cs' rest').nodes ++ (m.nodes ++
          (Meaning.token .closingParenthesis gone blanks [')'] rest).nodes)) :=
      AreSpecs.append rfl (hspecs.append rfl)
    simpa [Form.children, Form.parts, funext Label.apply_empty] using hchildren

/-- **A declaration with all its specifications between parentheses.** -/
theorem linesLeadOn_block (hb : b.state = Stage.start.label) (hsize : stepLimit ≤ size)
    (specs : List Spec) {rest : List Char}
    (hnext : LinesLeadOn size P text file package b (line + specs.length + 2)
      (gs ++ groupsFrom file (line + 1) specs) rest) :
    LinesLeadOn size P text file package b line gs
      ("var".toList ++ ([' '] ++ ('(' :: '\n' :: (blockOf specs ++ (')' :: '\n' :: rest))))) := by
  intro gone t r m hr hm halong ht
  refine ht.shift_next hsize (by decide) (by decide) (.var (endsWord_mark (by decide) _))
    (List.cons_ne_nil _ _) (k := .file) rfl rfl fun rV hV hstop => ?_
  have hopen : EndsMark '(' ('\n' :: (blockOf specs ++ (')' :: '\n' :: rest))) := by
    rintro _ ⟨⟩
    decide
  have hvar : Waits [.parenthesis] 0 (gone ++ "var".toList) [' ']
      ('(' :: '\n' :: (blockOf specs ++ (')' :: '\n' :: rest)))
      (pushAll b [(r, .file), (rV, .var)]) (pushAll b [(r, .file), (rV, .var)]) :=
    .refl [.parenthesis] .var rfl (by decide) (by simp [Stage.Skips]) hstop
  refine hvar.shift hsize (by decide) List.mem_cons_self (.mark rfl hopen) (List.cons_ne_nil _ _)
    (k := .var) rfl rfl fun rP hP => ?_
  have hplace := ((halong.skip _ (by decide)).skip [' '] (by decide)).skip ['('] (by decide)
  have hskips : Stage.opened.Skips ['\n'] := fun c hc => .inr ⟨List.mem_singleton.1 hc, rfl⟩
  -- the end of the line behind the parenthesis is white space
  have hopened : Waits [.name, .closingParenthesis] 2 (gone ++ "var".toList ++ [' '] ++ ['('])
      ['\n'] (blockOf specs ++ (')' :: '\n' :: rest))
      (pushAll b [(r, .file), (rV, .var), (rP, .opened)])
      (pushAll b [(r, .file), (rV, .var), (rP, .opened)]) :=
    .refl [.name, .closingParenthesis] .opened rfl (by decide) hskips hP.stop
  have hempty : SpecsOn text file (pushAll b [(r, .file), (rV, .var), (rP, .opened)]) []
      (pushAll b [(r, .file), (rV, .var), (rP, .opened)]) := .empty
  refine hempty.reaches rfl hsize hopened hplace.lineFeed ?_
  intro gone' blanks t' u hu hwaits halong'
  obtain ⟨i, k, hi, hshift, hawaits, hclosesAll⟩ := hu.closes_all rfl hP
  have hclose : EndsMark ')' ('\n' :: rest) := by
    rintro _ ⟨⟩
    decide
  refine hwaits.shift hsize (by decide) (by decide) (.mark rfl hclose) (List.cons_ne_nil _ _) hi
    hshift fun rC hC => ?_
  obtain ⟨rD, mD, hD, hdeclared, hcloses⟩ := hclosesAll hC
  refine IsDeclared.reaches hb hsize hr hm hD hdeclared hV
    ⟨⟨k, rfl, by simpa using hawaits⟩, hC.stop, hcloses.le (by decide)⟩
    (halong'.skip [')'] (by decide)) ?_
  have hline : line + 1 + (specs.length : Int) + 1 = line + specs.length + 2 := by omega
  rw [hline]
  exact hnext

/-! ## The start and the end of a file -/

theorem isClause_packageClause {gone rest : List Char} {mK : Meaning}
    (hK : ∀ n ∈ mK.nodes, n.named = false)
    (htext : text = gone ++ ([' '] ++ (package.text.toList ++ rest))) (start : Place)
    (stop : Cursor) :
    IsClause text package (Reading.nodeOf Part.packageClause.symbol start stop
      (Form.packageClause.children [mK, .token .name gone [' '] package.text.toList rest])) := by
  have hname : (tokenNode .name gone [' '] package.text.toList rest).text (sourceOf text) =
      package.text := by
    rw [text_tokenNode .name [' '] htext, String.ofList_toList]
  have hchildren : Form.packageClause.children
      [mK, .token .name gone [' '] package.text.toList rest] = mK.nodes ++
        [Label.apply { kind := some "package_identifier" }
          (tokenNode .name gone [' '] package.text.toList rest)] := by
    simp [Form.children, Form.parts, funext Label.apply_empty, Meaning.token, tokenNode]
  have hnone : mK.nodes.filter (·.named) = [] := by simpa using hK
  refine ⟨rfl, rfl, ?_⟩
  rw [hchildren, Node.namedChildren, Reading.nodeOf, List.filter_append, hnone]
  exact congrArg some hname

/-- The reading of a package clause is that of the first line. -/
theorem LinesLeadOn.reaches (hb : b.state = Stage.start.label) (hsize : stepLimit ≤ size)
    {rest : List Char}
    (htext : text = "package".toList ++ ([' '] ++ (package.text.toList ++ '\n' :: rest)))
    (hcursor : b.cursor = .between [] text)
    (hnext : LinesLeadOn size P text file package b 2 [] rest) :
    Reaches size (.between [] text) [b] P := by
  have halong : Along text 1 []
      ("package".toList ++ ([' '] ++ (package.text.toList ++ '\n' :: rest))) := ⟨htext, rfl⟩
  have hplace := (halong.skip _ (by decide)).skip [' '] (by decide)
  rw [htext] at hcursor
  rw [htext]
  refine Ended.shift_next (.refl [.package] .start hb (by decide) hcursor) hsize (by decide)
    List.mem_cons_self (.package (endsWord_mark (by decide) _)) (List.cons_ne_nil _ _) hb rfl
    fun rK hK hstopK => ?_
  refine Ended.shift [' '] (.refl [.name] .package rfl (by decide) hstopK) hsize (by decide)
    List.mem_cons_self (.name package (endsWord_mark (by decide) _)) package.toList_ne_nil (by simp)
    (k := .package) rfl rfl fun rN hN => ?_
  obtain ⟨rC, hC, hclosesC⟩ := Form.packageClause.closes (by decide) hb rfl
    [(rK, .package), (rN, .packageName)] (.cons hK (.cons hN .nil)) rfl .packageName rfl
    [.lineFeed] (by decide)
  have hended : Ended [.lineFeed] 1
      (.between ([] ++ "package".toList ++ [' '] ++ package.text.toList) ('\n' :: rest))
      (pushAll b [(rK, .package), (rN, .packageName)])
      (b.push rC Stage.packageClause.label) :=
    ⟨⟨.packageName, rfl, by decide⟩, hN.stop, hclosesC⟩
  refine hended.shift_next hsize (by decide) List.mem_cons_self .lineFeed (List.cons_ne_nil _ _)
    (k := .packageClause) rfl rfl fun rF hF hstop => ?_
  obtain ⟨r, hr, hcloses⟩ := (Form.line .packageClause).closes (by decide) hb rfl
    [(rC, .packageClause), (rF, .lineEnd)] (.cons hC (.cons hF .nil)) rfl .lineEnd rfl
    [.var, .finish] (by decide)
  have hfile : IsFile text file package [] ((Form.line .packageClause).meaning
      [Form.packageClause.meaning [.token .package [] [] "package".toList
        ([' '] ++ (package.text.toList ++ '\n' :: rest)),
        .token .name ([] ++ "package".toList) [' '] package.text.toList ('\n' :: rest)],
      .token .lineFeed ([] ++ "package".toList ++ [' '] ++ package.text.toList) [] ['\n']
        rest]) := by
    refine ⟨rfl, _, _, Form.nodes_pair rfl rfl _ _, ?_, areDeclarations_lineFeed _ _⟩
    exact isClause_packageClause (by simp [Meaning.token, Reading.nodeOf, Part.symbol,
      Symbol.isNamed]) htext _ _
  exact hnext _ _ r _ hr hfile (hplace.skip _ package.lineFeed_notMem).lineFeed
    ⟨⟨.lineEnd, rfl, by decide⟩, hstop, hcloses.le (by decide)⟩

/-- The reading of a whole file: a tree that is accepted and has these groups. -/
def IsWhole (text : List Char) (file : String) (package : Name) (gs : List Group)
    (whole : Reading) : Prop :=
  ∃ root, whole.forest.nodes = [root] ∧ root.accept (sourceOf text) = .ok () ∧
    root.extract (sourceOf text) file = ⟨file, package.text, gs⟩

/-- A tree of a package clause and declarations is accepted and has their groups. -/
theorem IsClause.root {clause : Node} (hclause : IsClause text package clause) {rest : List Node}
    (hrest : AreDeclarations text file gs rest) {root : Node} (hkind : root.children = clause :: rest)
    (herror : root.hasError = false) :
    root.accept (sourceOf text) = .ok () ∧
      root.extract (sourceOf text) file = ⟨file, package.text, gs⟩ := by
  have hnamed : root.namedChildren = clause :: rest.filter (·.named) := by
    rw [Node.namedChildren, hkind, List.filter_cons, if_pos hclause.named]
  have hkinds : ∀ n ∈ rest.filter (·.named), n.kind = "var_declaration" := fun n hn =>
    hrest.kind n (List.mem_filter.1 hn).1 (List.mem_filter.1 hn).2
  have hfirst : root.firstConstruct? = some clause := by
    rw [Node.firstConstruct?, hnamed, List.find?_cons]
    simp [Node.isComment, hclause.kind]
  have hstray : root.firstStray? clause = none := by
    rw [Node.firstStray?, hnamed, List.find?_eq_none]
    intro n hn
    rcases List.mem_cons.1 hn with rfl | hn
    · simp
    · simp [hkinds n hn, Node.topLevelKinds]
  have hclauses : root.namedChildren.filter (·.kind == "package_clause") = [clause] := by
    have hnone : (rest.filter (·.named)).filter (·.kind == "package_clause") = [] := by
      rw [List.filter_eq_nil_iff]
      intro n hn
      simp [hkinds n hn]
    rw [hnamed, List.filter_cons, if_pos (by simp [hclause.kind]), hnone]
  have hspecs : root.namedChildren.filter (·.kind == "var_declaration") =
      rest.filter (·.named) := by
    rw [hnamed, List.filter_cons, if_neg (by simp [hclause.kind]), List.filter_eq_self]
    intro n hn
    simp [hkinds n hn]
  refine ⟨?_, ?_⟩
  · rw [Node.accept, Node.refusal?, herror, if_neg (by simp), Node.layoutRefusal?, hfirst]
    simp [hclause.kind, hstray]
  · have hpackage : root.packageName (sourceOf text) = package.text := by
      obtain ⟨n, hn, hname⟩ := Option.map_eq_some_iff.1 hclause.name
      rw [Node.packageName, hclauses]
      simpa [hn] using hname
    rw [Node.extract, hpackage, Node.topLevelSpecs, hspecs, hrest.groups]

/-- A single reading of the whole text keeps its nodes. -/
theorem exists_wholeOf? {r : Reading} (hr : r.extra = false) :
    ∃ whole, Parser.wholeOf? [r] = some whole ∧ whole.forest.nodes = r.forest.nodes := by
  have hspan : [r].span (·.extra) = ([], [r]) := by simp [List.span, List.span.loop, hr]
  refine ⟨_, by rw [Parser.wholeOf?, hspan], ?_⟩
  cases r.forest with
  | node n =>
    obtain ⟨kind, start, stop, row, column, named, missing, hasError, field, children⟩ := n
    simp
  | empty | join | labelled => rfl

/-- **The end of a file.** -/
theorem linesLeadOn_nil {start : Cursor} (hsize : stepLimit ≤ size) :
    LinesLeadOn size (IsWhole text file package gs) text file package
      (.bottom Stage.start.label start) line gs [] := by
  intro gone t r m hr hm _ ht
  obtain ⟨g, hg, hawaits⟩ := ht.stage
  obtain ⟨q, hq, hcloses⟩ := Form.sourceFile.closes (by decide)
    (show (Thread.bottom Stage.start.label start).state = Stage.start.label from rfl) rfl
    [(r, .file)] (.cons hr .nil) (by simp [hm.part, Form.parts]) .file rfl [.finish] (by decide)
  have htoken : language.token? (language.expects t.state) (.between gone []) =
      some (tokenOver .finish gone [] [] []) := by
    have hskips : g.Skips [] := by simp [Stage.Skips]
    rw [hg]
    exact Spells.finish.token? (hawaits _ (by simp)) hskips gone
  obtain ⟨whole, hwhole, hnodes⟩ := exists_wholeOf? hq.extra
  have hfinish : Closes language Part.finish.number 3 t
      (.push (.bottom Stage.start.label start) q Stage.sourceFile.label) :=
    (ht.closes .finish (by simp)).trans (hcloses .finish (by simp))
  refine ⟨whole, .accept hsize htoken rfl ht.cursor hfinish (by decide)
    (actions_language (g := .sourceFile) (x := .finish) rfl) hwhole, ?_⟩
  obtain ⟨clause, rest, hlines, hclause, hrest⟩ := hm.nodes
  have hroot : (Form.sourceFile.meaning [m]).nodes =
      [Reading.nodeOf Part.sourceFile.symbol m.start m.stop (clause :: rest)] := by
    have hchildren : Form.sourceFile.children [m] = clause :: rest := by
      rw [← hlines]
      simp [Form.children, Form.parts, funext Label.apply_empty]
    rw [← hchildren]
    rfl
  exact ⟨_, hnodes.trans (hq.nodes.trans hroot), hclause.root hrest rfl rfl⟩

/-! ## Printed files -/

/-- A file is read if its lines are. -/
theorem read_of_linesLeadOn {rest : List Char}
    (htext : text = "package".toList ++ ([' '] ++ (package.text.toList ++ '\n' :: rest)))
    (h : ∀ size, stepLimit ≤ size → LinesLeadOn size (IsWhole text file package gs) text file
      package (.bottom Stage.start.label (.between [] text)) 2 [] rest) :
    SourceFile.read (sourceOf text) file = .ok ⟨file, package.text, gs⟩ := by
  have hreaches : ∀ size, stepLimit ≤ size → Reaches size (.between [] text)
      [.bottom Stage.start.label (.between [] text)] (IsWhole text file package gs) :=
    fun size hsize => LinesLeadOn.reaches rfl hsize htext rfl (h size hsize)
  have hsize : stepLimit ≤ 64 * ((Cursor.between [] text).rest.length + 4) := by
    rw [stepLimit]
    omega
  obtain ⟨whole, hsucceeds, root, hnodes, haccept, hextract⟩ := hreaches _ hsize
  rw [← start_language] at hsucceeds
  have hparse : language.parse? (.between [] text) = some whole :=
    language.parse?_of_succeeds hsucceeds
  rw [Cursor.between_nil] at hparse
  have hroot : parse? (sourceOf text) = some root := by
    -- the definition is unfolded without its equation, which would run the parser
    delta parse?
    rw [sourceOf, List.toList_toArray, hparse]
    exact congrArg List.head? hnodes
  delta SourceFile.read
  rw [hroot]
  simp only [haccept, hextract]
  rfl

theorem toList_printLines (package : Name) (specs : List Spec) :
    (printLines package specs).toList =
      "package".toList ++ ([' '] ++ (package.text.toList ++ '\n' :: linesOf specs)) := by
  simp [printLines, linesOf, String.toList_join, List.flatMap_map]

theorem toList_printBlock (package : Name) (specs : List Spec) :
    (printBlock package specs).toList = "package".toList ++ ([' '] ++ (package.text.toList ++
      '\n' :: ("var".toList ++ ([' '] ++ ('(' :: '\n' :: (blockOf specs ++ [')', '\n'])))))) := by
  simp [printBlock, blockOf, String.toList_join, List.flatMap_map]

theorem read_printLines (package : Name) (specs : List Spec) (file : String) :
    SourceFile.read (Text.bytesOf (printLines package specs)).toArray file =
      .ok ⟨file, package.text, groupsFrom file 2 specs⟩ := by
  refine read_of_linesLeadOn (toList_printLines package specs) fun size hsize => ?_
  exact linesLeadOn_specs rfl hsize specs (linesLeadOn_nil hsize)

theorem read_printBlock (package : Name) (specs : List Spec) (file : String) :
    SourceFile.read (Text.bytesOf (printBlock package specs)).toArray file =
      .ok ⟨file, package.text, groupsFrom file 3 specs⟩ := by
  refine read_of_linesLeadOn (toList_printBlock package specs) fun size hsize => ?_
  exact linesLeadOn_block rfl hsize specs (linesLeadOn_nil hsize)

/-- **Printed declarations are read back.**  On lines of their own they have the lines behind the
package clause; between parentheses they stand one line further down. -/
theorem read_printed (package : Name) (specs : List Spec) (file : String) :
    SourceFile.read (Text.bytesOf (printLines package specs)).toArray file =
        .ok ⟨file, package.text, groupsFrom file 2 specs⟩ ∧
      SourceFile.read (Text.bytesOf (printBlock package specs)).toArray file =
        .ok ⟨file, package.text, (groupsFrom file 2 specs).map nextLine⟩ := by
  refine ⟨read_printLines package specs file, ?_⟩
  rw [map_nextLine]
  exact read_printBlock package specs file

end GoGlobals.Go
