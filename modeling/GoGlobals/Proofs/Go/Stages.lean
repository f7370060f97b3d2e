import GoGlobals.Go.SourceTree
import GoGlobals.Proofs.Go.Forms
import GoGlobals.Proofs.Grammar.Automaton
import GoGlobals.Proofs.Grammar.Lookup
import GoGlobals.Proofs.Grammar.Thread
import Mathlib.Data.List.Nodup

/-!
# What the automaton of Go does with plain declarations

Plain declarations lead the automaton through few of its states.  A `Stage` is such a state, which
is described by the symbols that lead to it.  What a stage does with a token and where a construct
leads from it is written down as a table, `Stage.actions` and `Stage.goto?`.

The table is checked against the grammar.  The state of a stage is computed from the items of the
grammar, without any of the other states, and so are the cells that the table asks for; the result is
then a fact of the automaton with numbered states (`actions_language`, `goto?_language`), whatever
these numbers are.

Two stages have more than one thing to do.  A name in front of a parenthesis may be a function or a
type, and a name in front of a dot an operand or a package, so both readings are followed.
-/

set_option autoImplicit false

namespace GoGlobals.Go

open Grammar

/-! ## The grammar, computed -/

/-- The grammar, in a form that is fast to compute with. -/
noncomputable def codedGrammar : Compiled :=
  quickCompile [identifier, comment] definitions

theorem grammar_eq : grammar = codedGrammar :=
  compile_eq [identifier, comment] definitions

/-- The items of the grammar. -/
noncomputable def items : Items :=
  Items.direct codedGrammar

theorem itemsOf_grammar : itemsOf grammar = items := by
  rw [grammar_eq, itemsOf_eq_direct, items]

/-- The codes of the symbols, in the order of their numbers. -/
noncomputable def symbolCodes : List Nat :=
  codedGrammar.symbols.toList.map Symbol.code

/-- The number of a part, found by its code. -/
noncomputable def Part.position (x : Part) : Nat :=
  positionFrom x.symbol.code symbolCodes 0

theorem Part.number_eq (x : Part) : x.number = x.position := by
  rw [← Part.number_symbol, grammar_eq, Compiled.number, numberIn_eq, position, symbolCodes]

/-! ## Stages -/

/-- Where a reading of plain declarations can stand. -/
inductive Stage where
  | start
  | package
  | packageName
  | packageClause
  | lineEnd
  | file
  | fileTwice
  | statement
  | declaration
  | varDeclaration
  | var
  | varSpec
  | sourceFile
  | opened
  | listSpec
  | listLineEnd
  | list
  | listTwice
  | listClosed
  | listEmpty
  | name
  | comma
  | nextName
  | names
  | namesTwice
  | typeName
  | nameTyped
  | namesTyped
  | nameEquals
  | namesEquals
  | nameValues
  | namesValues
  | value
  | valueComma
  | nextValue
  | values
  | valuesTwice
  | operand
  | word
  | typeWord
  | conversion
  | call
  | callClosed
  | arguments
  | selection
  | qualification
  | selected
  | qualified
  | qualifiedType
  | body
  | bodyClosed
  | literalValue
deriving DecidableEq, Repr

/-- What is done at a stage. -/
inductive Act where
  | shift (next : Stage)
  | reduce (f : Form)
  | accept
deriving DecidableEq, Repr

namespace Stage

/-- All stages. -/
def all : List Stage :=
  [start, package, packageName, packageClause, lineEnd, file, fileTwice, statement, declaration,
    varDeclaration, var, varSpec, sourceFile, opened, listSpec, listLineEnd, list, listTwice,
    listClosed, listEmpty, name, comma, nextName, names, namesTwice, typeName, nameTyped,
    namesTyped, nameEquals, namesEquals, nameValues, namesValues, value, valueComma, nextValue,
    values, valuesTwice, operand, word, typeWord, conversion, call, callClosed, arguments,
    selection, qualification, selected, qualified, qualifiedType, body, bodyClosed, literalValue]

theorem mem_all (g : Stage) : g ∈ all := by
  cases g <;> decide

/-- The symbols on the way to the stage. -/
def way : Stage → List Part
  | start => []
  | package => [.package]
  | packageName => [.package, .name]
  | packageClause => [.packageClause]
  | lineEnd => [.packageClause, .lineFeed]
  | file => [.lines]
  | fileTwice => [.lines, .lines]
  | statement => [.lines, .statement]
  | declaration => [.lines, .declaration]
  | varDeclaration => [.lines, .varDeclaration]
  | var => [.lines, .var]
  | varSpec => [.lines, .var, .varSpec]
  | sourceFile => [.sourceFile]
  | opened => [.lines, .var, .parenthesis]
  | listSpec => [.lines, .var, .parenthesis, .varSpec]
  | listLineEnd => [.lines, .var, .parenthesis, .varSpec, .lineFeed]
  | list => [.lines, .var, .parenthesis, .specLines]
  | listTwice => [.lines, .var, .parenthesis, .specLines, .specLines]
  | listClosed => [.lines, .var, .parenthesis, .specLines, .closingParenthesis]
  | listEmpty => [.lines, .var, .parenthesis, .closingParenthesis]
  | name => [.lines, .var, .name]
  | comma => [.lines, .var, .name, .comma]
  | nextName => [.lines, .var, .name, .comma, .name]
  | names => [.lines, .var, .name, .moreNames]
  | namesTwice => [.lines, .var, .name, .moreNames, .moreNames]
  | typeName => [.lines, .var, .name, .name]
  | nameTyped => [.lines, .var, .name, .simpleType]
  | namesTyped => [.lines, .var, .name, .moreNames, .simpleType]
  | nameEquals => [.lines, .var, .name, .equals]
  | namesEquals => [.lines, .var, .name, .moreNames, .equals]
  | nameValues => [.lines, .var, .name, .equals, .expressionList]
  | namesValues => [.lines, .var, .name, .moreNames, .equals, .expressionList]
  | value => [.lines, .var, .name, .equals, .expression]
  | valueComma => [.lines, .var, .name, .equals, .expression, .comma]
  | nextValue => [.lines, .var, .name, .equals, .expression, .comma, .expression]
  | values => [.lines, .var, .name, .equals, .expression, .moreValues]
  | valuesTwice => [.lines, .var, .name, .equals, .expression, .moreValues, .moreValues]
  | operand => [.lines, .var, .name, .equals, .integer]
  | word => [.lines, .var, .name, .equals, .name]
  | typeWord => [.lines, .var, .name, .equals, .simpleType]
  | conversion => [.lines, .var, .name, .equals, .simpleType, .parenthesis]
  | call => [.lines, .var, .name, .equals, .expression, .parenthesis]
  | callClosed =>
    [.lines, .var, .name, .equals, .expression, .parenthesis, .closingParenthesis]
  | arguments => [.lines, .var, .name, .equals, .expression, .argumentList]
  | selection => [.lines, .var, .name, .equals, .expression, .dot]
  | qualification => [.lines, .var, .name, .equals, .name, .dot]
  | selected => [.lines, .var, .name, .equals, .expression, .dot, .name]
  | qualified => [.lines, .var, .name, .equals, .name, .dot, .name]
  | qualifiedType => [.lines, .var, .name, .equals, .qualifiedType]
  | body => [.lines, .var, .name, .equals, .qualifiedType, .brace]
  | bodyClosed => [.lines, .var, .name, .equals, .qualifiedType, .brace, .closingBrace]
  | literalValue => [.lines, .var, .name, .equals, .qualifiedType, .literalValue]

/-- What is done at a stage with a token, as far as plain declarations ask for it. -/
def actions : Stage → Part → Option (List Act)
  | start, .package => some [.shift package]
  | package, .name => some [.shift packageName]
  | packageName, .lineFeed => some [.reduce .packageClause]
  | packageClause, .lineFeed => some [.shift lineEnd]
  | lineEnd, .var => some [.reduce (.line .statement)]
  | lineEnd, .finish => some [.reduce (.line .statement)]
  | file, .var => some [.shift var]
  | file, .finish => some [.reduce .sourceFile]
  | fileTwice, .var => some [.reduce .joinLines]
  | fileTwice, .finish => some [.reduce .joinLines]
  | statement, .lineFeed => some [.shift lineEnd]
  | declaration, .lineFeed => some [.reduce .statement]
  | varDeclaration, .lineFeed => some [.reduce .declaration]
  | var, .name => some [.shift name]
  | var, .parenthesis => some [.shift opened]
  | varSpec, .lineFeed => some [.reduce (.varDeclaration .varSpec)]
  | sourceFile, .finish => some [.accept]
  | opened, .name => some [.shift name]
  | opened, .closingParenthesis => some [.shift listEmpty]
  | listSpec, .lineFeed => some [.shift listLineEnd]
  | listLineEnd, .name => some [.reduce .specLine]
  | listLineEnd, .closingParenthesis => some [.reduce .specLine]
  | list, .name => some [.shift name]
  | list, .closingParenthesis => some [.shift listClosed]
  | listTwice, .name => some [.reduce .joinSpecLines]
  | listTwice, .closingParenthesis => some [.reduce .joinSpecLines]
  | listClosed, .lineFeed => some [.reduce .specList]
  | listEmpty, .lineFeed => some [.reduce .emptyList]
  | name, .comma => some [.shift comma]
  | name, .name => some [.shift typeName]
  | name, .equals => some [.shift nameEquals]
  | comma, .name => some [.shift nextName]
  | nextName, .comma => some [.reduce .moreName]
  | nextName, .name => some [.reduce .moreName]
  | nextName, .equals => some [.reduce .moreName]
  | names, .comma => some [.shift comma]
  | names, .name => some [.shift typeName]
  | names, .equals => some [.shift namesEquals]
  | namesTwice, .comma => some [.reduce .joinNames]
  | namesTwice, .name => some [.reduce .joinNames]
  | namesTwice, .equals => some [.reduce .joinNames]
  | typeName, .lineFeed => some [.reduce .namedType]
  | nameTyped, .lineFeed => some [.reduce .typedName]
  | namesTyped, .lineFeed => some [.reduce .typedNames]
  | nameEquals, .integer => some [.shift operand]
  | nameEquals, .text => some [.shift operand]
  | nameEquals, .name => some [.shift word]
  | namesEquals, .integer => some [.shift operand]
  | namesEquals, .text => some [.shift operand]
  | namesEquals, .name => some [.shift word]
  | valueComma, .integer => some [.shift operand]
  | valueComma, .text => some [.shift operand]
  | valueComma, .name => some [.shift word]
  | nameValues, .lineFeed => some [.reduce .valuedName]
  | namesValues, .lineFeed => some [.reduce .valuedNames]
  | value, .comma => some [.shift valueComma]
  | value, .lineFeed => some [.reduce .oneValue]
  | value, .parenthesis => some [.shift call]
  | value, .dot => some [.shift selection]
  | nextValue, .comma => some [.reduce .moreValue]
  | nextValue, .lineFeed => some [.reduce .moreValue]
  | nextValue, .parenthesis => some [.shift call]
  | nextValue, .dot => some [.shift selection]
  | values, .comma => some [.shift valueComma]
  | values, .lineFeed => some [.reduce .severalValues]
  | valuesTwice, .comma => some [.reduce .joinValues]
  | valuesTwice, .lineFeed => some [.reduce .joinValues]
  | operand, .comma => some [.reduce (.operand .integer)]
  | operand, .lineFeed => some [.reduce (.operand .integer)]
  | operand, .parenthesis => some [.reduce (.operand .integer)]
  | word, .parenthesis => some [.reduce .namedType, .reduce (.operand .name)]
  | word, .dot => some [.reduce (.operand .name), .shift qualification]
  | typeWord, .parenthesis => some [.shift conversion]
  | conversion, .closingParenthesis => some []
  | call, .closingParenthesis => some [.shift callClosed]
  | callClosed, .comma => some [.reduce .arguments]
  | callClosed, .lineFeed => some [.reduce .arguments]
  | arguments, .comma => some [.reduce .call]
  | arguments, .lineFeed => some [.reduce .call]
  | selection, .name => some [.shift selected]
  | qualification, .name => some [.shift qualified]
  | selected, .parenthesis => some [.reduce .selector]
  | selected, .brace => some []
  | qualified, .parenthesis => some [.reduce .qualifiedType]
  | qualified, .brace => some [.reduce .qualifiedType]
  | qualifiedType, .parenthesis => some [.reduce .qualifiedNamedType]
  | qualifiedType, .brace => some [.shift body]
  | body, .closingBrace => some [.shift bodyClosed]
  | bodyClosed, .comma => some [.reduce .literalValue]
  | bodyClosed, .lineFeed => some [.reduce .literalValue]
  | literalValue, .comma => some [.reduce .composite]
  | literalValue, .lineFeed => some [.reduce .composite]
  | opened, .lineFeed => some []
  | lineEnd, .nul => some []
  | package, .blank => some []
  | var, .blank => some []
  | opened, .blank => some []
  | listLineEnd, .blank => some []
  | name, .blank => some []
  | comma, .blank => some []
  | nextName, .blank => some []
  | nameEquals, .blank => some []
  | namesEquals, .blank => some []
  | valueComma, .blank => some []
  | selection, .blank => some []
  | qualification, .blank => some []
  | _, _ => none

/-- The stage behind a construct, as far as plain declarations ask for it. -/
def goto? : Stage → Part → Option Stage
  | start, .packageClause => some packageClause
  | start, .lines => some file
  | start, .sourceFile => some sourceFile
  | file, .statement => some statement
  | file, .declaration => some declaration
  | file, .varDeclaration => some varDeclaration
  | file, .lines => some fileTwice
  | var, .varSpec => some varSpec
  | var, .specList => some varSpec
  | opened, .varSpec => some listSpec
  | opened, .specLines => some list
  | list, .varSpec => some listSpec
  | list, .specLines => some listTwice
  | name, .moreNames => some names
  | name, .simpleType => some nameTyped
  | names, .moreNames => some namesTwice
  | names, .simpleType => some namesTyped
  | nameEquals, .expressionList => some nameValues
  | namesEquals, .expressionList => some namesValues
  | nameEquals, .expression => some value
  | namesEquals, .expression => some value
  | valueComma, .expression => some nextValue
  | nameEquals, .simpleType => some typeWord
  | namesEquals, .simpleType => some typeWord
  | valueComma, .simpleType => some typeWord
  | nameEquals, .call => some operand
  | namesEquals, .call => some operand
  | valueComma, .call => some operand
  | nameEquals, .selector => some operand
  | namesEquals, .selector => some operand
  | valueComma, .selector => some operand
  | nameEquals, .composite => some operand
  | namesEquals, .composite => some operand
  | valueComma, .composite => some operand
  | nameEquals, .qualifiedType => some qualifiedType
  | namesEquals, .qualifiedType => some qualifiedType
  | valueComma, .qualifiedType => some qualifiedType
  | value, .moreValues => some values
  | values, .moreValues => some valuesTwice
  | value, .argumentList => some arguments
  | nextValue, .argumentList => some arguments
  | qualifiedType, .literalValue => some literalValue
  | _, _ => none

/-- The state of the automaton at the stage. -/
noncomputable def state (g : Stage) : ItemSet :=
  g.way.foldl (fun s x => items.behind s (items.reach s) x.position) [(0, TokenSet.single 0)]

end Stage

instance : DecidableEq Reduction := fun r q =>
  decidable_of_iff (r.head = q.head ∧ r.labels.map texts = q.labels.map texts ∧ r.weight = q.weight)
    ⟨by
      rintro ⟨hhead, hlabels, hweight⟩
      obtain ⟨head, labels, weight⟩ := r
      obtain ⟨head', labels', weight'⟩ := q
      obtain rfl : head = head' := hhead
      obtain rfl : labels = labels' := List.map_injective_iff.2 texts_injective hlabels
      obtain rfl : weight = weight' := hweight
      rfl,
    by
      rintro rfl
      exact ⟨rfl, rfl, rfl⟩⟩

instance : DecidableEq (Action ItemSet)
  | .shift s, .shift t => decidable_of_iff (s = t) (by simp)
  | .reduce r, .reduce q => decidable_of_iff (r = q) (by simp)
  | .accept, .accept => isTrue rfl
  | .shift _, .reduce _ => isFalse (by simp)
  | .shift _, .accept => isFalse (by simp)
  | .reduce _, .shift _ => isFalse (by simp)
  | .reduce _, .accept => isFalse (by simp)
  | .accept, .shift _ => isFalse (by simp)
  | .accept, .reduce _ => isFalse (by simp)

/-- The reduction by a production, with the number of its head found by its code. -/
noncomputable def Form.step (f : Form) : Reduction :=
  { head := f.head.position, labels := f.parts.map (·.2), weight := f.weight }

/-- The action of the automaton. -/
noncomputable def Act.action : Act → Action ItemSet
  | shift next => .shift next.state
  | reduce f => .reduce f.step
  | accept => .accept

/-- Does the table say what the automaton does at a stage with a symbol? -/
noncomputable def Stage.agrees (g : Stage) (x : Part) : Bool :=
  (match g.actions x with
    | none => true
    | some acts => x.position < items.terminals &&
      items.actionsAt g.state x.position == acts.map Act.action) &&
  (match g.goto? x with
    | none => true
    | some h => items.terminals ≤ x.position && x.position < items.size &&
      items.next? g.state x.position == some h.state)

set_option maxRecDepth 100000 in
/-- **The table agrees with the grammar**, and its stages are different states. -/
theorem table_checked :
    (Stage.all.all fun g => Part.all.all fun x => g.agrees x) = true ∧
      (Stage.all.map Stage.state).Nodup ∧ items.terminals ≤ items.size := by
  decide +kernel

/-! ## The automaton with numbered states -/

theorem terminals_grammar : grammar.terminals = items.terminals := by
  rw [← itemsOf_grammar, itemsOf]

theorem size_grammar : grammar.symbols.size = items.size := by
  rw [← itemsOf_grammar, itemsOf]

theorem Form.step_eq (f : Form) : f.step = f.reduction := by
  rw [step, reduction, Part.number_eq]

namespace Stage

/-- The name of the state in the automaton with numbered states. -/
noncomputable def label (g : Stage) : Nat ⊕ ItemSet :=
  ((automaton grammar).names 20000).name g.state

theorem label_injective : Function.Injective label := by
  intro g h heq
  have hstate := (automaton grammar).name_injective 20000 heq
  exact List.inj_on_of_nodup_map table_checked.2.1 g.mem_all h.mem_all hstate

theorem agrees_all (g : Stage) (x : Part) : g.agrees x = true :=
  List.all_eq_true.1 (List.all_eq_true.1 table_checked.1 g g.mem_all) x x.mem_all

end Stage

/-- The action of the automaton with numbered states. -/
noncomputable def Act.labelled : Act → Action (Nat ⊕ ItemSet)
  | shift next => .shift next.label
  | reduce f => .reduce f.reduction
  | accept => .accept

theorem start_language : language.automaton.start = Stage.start.label := by
  delta language table
  rfl

/-- **What a stage does with a token.** -/
theorem actions_language {g : Stage} {x : Part} {acts : List Act} (h : g.actions x = some acts) :
    language.automaton.actions g.label x.number = acts.map Act.labelled := by
  have hagrees := g.agrees_all x
  simp only [Stage.agrees, h, Bool.and_eq_true, decide_eq_true_eq, beq_iff_eq] at hagrees
  obtain ⟨⟨hterminal, hacts⟩, -⟩ := hagrees
  have hactions : language.automaton.actions g.label x.number =
      ((automaton grammar).actions g.state x.number).map
        (·.map ((automaton grammar).names 20000).name) :=
    (automaton grammar).actions_tabulate 20000 g.state x.number
  have hlt : x.number < grammar.terminals := by
    rw [Part.number_eq, terminals_grammar]
    exact hterminal
  have hle : grammar.terminals ≤ grammar.symbols.size := by
    rw [terminals_grammar, size_grammar]
    exact table_checked.2.2
  rw [hactions, actions_automaton grammar g.state hlt hle, itemsOf_grammar, Part.number_eq, hacts,
    List.map_map]
  refine List.map_congr_left fun act _ => ?_
  cases act with
  | shift next => rfl
  | reduce f => exact congrArg Action.reduce f.step_eq
  | accept => rfl

/-- **Where a construct leads.** -/
theorem goto?_language {g h : Stage} {x : Part} (hgoto : g.goto? x = some h) :
    language.automaton.goto? g.label (x.number - grammar.terminals) = some h.label := by
  have hagrees := g.agrees_all x
  simp only [Stage.agrees, hgoto, Bool.and_eq_true, decide_eq_true_eq, beq_iff_eq] at hagrees
  obtain ⟨-, ⟨hconstruct, hsize⟩, hnext⟩ := hagrees
  rw [← Part.number_eq] at hconstruct hsize hnext
  rw [← terminals_grammar] at hconstruct
  rw [← size_grammar] at hsize
  have hlt : grammar.terminals + (x.number - grammar.terminals) < grammar.symbols.size := by omega
  have hgotos : language.automaton.goto? g.label (x.number - grammar.terminals) =
      ((automaton grammar).goto? g.state (x.number - grammar.terminals)).map
        ((automaton grammar).names 20000).name :=
    (automaton grammar).goto?_tabulate 20000 g.state _
  rw [hgotos, goto?_automaton grammar g.state hlt, Nat.add_sub_cancel' hconstruct,
    itemsOf_grammar, hnext]
  rfl

/-- Which tokens a stage expects. -/
theorem expects_language {g : Stage} {x : Part} {acts : List Act} (h : g.actions x = some acts) :
    language.expects g.label x.number = !acts.isEmpty := by
  rw [Language.expects_eq, actions_language h]
  cases acts with
  | nil => rfl
  | cons act acts => rfl

end GoGlobals.Go
