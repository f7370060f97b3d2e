import GoGlobals.Go.Grammar
import GoGlobals.Proofs.Grammar.Production
import Mathlib.Data.List.Basic

/-!
# The symbols and productions of plain declarations

A package clause and variables with simple values need few symbols and few productions of the
grammar.  A `Part` is such a symbol and a `Form` such a production, and both are checked to be in the
grammar: a part has its symbol under its number (`Part.symbol_number`), and a construct may be made
by a form (`Form.allows`).

Forms that differ only in a part of no label are reduced in the same way, so one of them stands for
all.
-/

set_option autoImplicit false

namespace GoGlobals.Go

open Grammar

/-! ## Symbols -/

/-- The symbols that plain declarations are made of. -/
inductive Part where
  | finish
  | package
  | var
  | name
  | comma
  | equals
  | dot
  | parenthesis
  | closingParenthesis
  | brace
  | closingBrace
  | lineFeed
  | integer
  | text
  | blank
  | nul
  | packageClause
  | sourceFile
  | lines
  | statement
  | declaration
  | varDeclaration
  | varSpec
  | specList
  | specLines
  | moreNames
  | simpleType
  | expressionList
  | moreValues
  | expression
  | call
  | argumentList
  | selector
  | qualifiedType
  | composite
  | literalValue
deriving DecidableEq, Repr

namespace Part

/-- The symbol of the grammar. -/
def symbol : Part → Symbol
  | finish => .finish
  | package => .text "package"
  | var => .text "var"
  | name => identifier
  | comma => .text ","
  | equals => .text "="
  | dot => .text "."
  | parenthesis => .text "("
  | closingParenthesis => .text ")"
  | brace => .text "\x7b"
  | closingBrace => .text "\x7d"
  | lineFeed => .text "\n"
  | integer => .lexeme "int_literal"
  | text => .lexeme "interpreted_string_literal"
  | blank => .constant "blank_identifier" "_"
  | nul => .text "\x00"
  | packageClause => .construct "package_clause"
  | sourceFile => .construct "source_file"
  | lines => .repetition "source_file" 0
  | statement => .family "statement"
  | declaration => .family "declaration"
  | varDeclaration => .construct "var_declaration"
  | varSpec => .construct "var_spec"
  | specList => .construct "var_spec_list"
  | specLines => .repetition "var_spec_list" 0
  | moreNames => .repetition "var_spec" 0
  | simpleType => .family "simple_type"
  | expressionList => .construct "expression_list"
  | moreValues => .repetition "expression_list" 0
  | expression => .family "expression"
  | call => .construct "call_expression"
  | argumentList => .construct "argument_list"
  | selector => .construct "selector_expression"
  | qualifiedType => .construct "qualified_type"
  | composite => .construct "composite_literal"
  | literalValue => .construct "literal_value"

/-- The number of the symbol in the grammar. -/
@[irreducible] def number (x : Part) : Nat :=
  grammar.number x.symbol

/-- All parts. -/
def all : List Part :=
  [finish, package, var, name, comma, equals, dot, parenthesis, closingParenthesis, brace,
    closingBrace, lineFeed, integer, text, blank, nul, packageClause, sourceFile, lines, statement,
    declaration, varDeclaration, varSpec, specList, specLines, moreNames, simpleType,
    expressionList, moreValues, expression, call, argumentList, selector, qualifiedType, composite,
    literalValue]

theorem mem_all (x : Part) : x ∈ all := by
  cases x <;> decide

/-- Is the symbol one of the grammar? -/
def occurs (x : Part) : Bool :=
  x.symbol == .finish || x.symbol == identifier ||
    (unfoldAll definitions).any fun d => d.symbol == x.symbol ||
      (x.symbol.isTerminal && d.alternatives.any fun a => a.rule.symbols.contains x.symbol)

set_option maxRecDepth 10000 in
theorem occurs_all : all.all occurs = true := by
  decide +kernel

theorem symbol_mem (x : Part) : x.symbol ∈ grammar.symbols := by
  refine mem_symbols_iff.2 ?_
  have h := List.all_eq_true.1 occurs_all x x.mem_all
  simp only [occurs, Bool.or_eq_true, Bool.and_eq_true, beq_iff_eq, List.any_eq_true,
    List.contains_iff_mem] at h
  rcases h with (h | h) | ⟨d, hd, h | ⟨hterminal, a, ha, h⟩⟩
  · exact .inl h
  · rw [h]
    exact .inr (.inl List.mem_cons_self)
  · exact .inr (.inr (.inr ⟨d, hd, h⟩))
  · exact .inr (.inr (.inl ⟨d, hd, a, ha, h, hterminal⟩))

-- Not by rewriting: the equation of the definition would be checked by compiling the grammar.
theorem number_symbol (x : Part) : grammar.number x.symbol = x.number := by
  delta number
  rfl

theorem symbol_number (x : Part) : grammar.symbol x.number = x.symbol := by
  rw [← number_symbol]
  exact Compiled.symbol_number_of_mem x.symbol_mem

end Part

/-! ## Productions -/

/-- The two texts that a label says, which are faster to compare than labels. -/
def texts (l : Label) : Option String × Option String :=
  (l.field, l.kind)

theorem texts_injective : Function.Injective texts := by
  rintro ⟨f, k⟩ ⟨f', k'⟩ h
  obtain ⟨rfl, rfl⟩ := Prod.mk.inj h
  rfl


/-- The productions that plain declarations are made with. -/
inductive Form where
  | packageClause
  | line (x : Part)
  | joinLines
  | sourceFile
  | statement
  | declaration
  | varDeclaration (x : Part)
  | specLine
  | joinSpecLines
  | specList
  | emptyList
  | moreName
  | joinNames
  | namedType
  | qualifiedNamedType
  | typedName
  | typedNames
  | valuedName
  | valuedNames
  | oneValue
  | severalValues
  | moreValue
  | joinValues
  | operand (x : Part)
  | call
  | arguments
  | selector
  | qualifiedType
  | composite
  | literalValue
deriving DecidableEq, Repr

namespace Form

/-- What the production makes. -/
def head : Form → Part
  | packageClause => .packageClause
  | line _ | joinLines => .lines
  | sourceFile => .sourceFile
  | statement => .statement
  | declaration => .declaration
  | varDeclaration _ => .varDeclaration
  | specLine | joinSpecLines => .specLines
  | specList | emptyList => .specList
  | moreName | joinNames => .moreNames
  | namedType | qualifiedNamedType => .simpleType
  | typedName | typedNames | valuedName | valuedNames => .varSpec
  | oneValue | severalValues => .expressionList
  | moreValue | joinValues => .moreValues
  | operand _ => .expression
  | call => .call
  | arguments => .argumentList
  | selector => .selector
  | qualifiedType => .qualifiedType
  | composite => .composite
  | literalValue => .literalValue

/-- A part under a field. -/
def under (field : String) : Label := { field := some field }

/-- What the production makes it from. -/
def parts : Form → List (Part × Label)
  | packageClause => [(.package, {}), (.name, { kind := some "package_identifier" })]
  | line x => [(x, {}), (.lineFeed, {})]
  | joinLines => [(.lines, {}), (.lines, {})]
  | sourceFile => [(.lines, {})]
  | statement => [(.declaration, {})]
  | declaration => [(.varDeclaration, {})]
  | varDeclaration x => [(.var, {}), (x, {})]
  | specLine => [(.varSpec, {}), (.lineFeed, {})]
  | joinSpecLines => [(.specLines, {}), (.specLines, {})]
  | specList => [(.parenthesis, {}), (.specLines, {}), (.closingParenthesis, {})]
  | emptyList => [(.parenthesis, {}), (.closingParenthesis, {})]
  | moreName => [(.comma, {}), (.name, under "name")]
  | joinNames => [(.moreNames, {}), (.moreNames, {})]
  | namedType => [(.name, { kind := some "type_identifier" })]
  | qualifiedNamedType => [(.qualifiedType, {})]
  | typedName => [(.name, under "name"), (.simpleType, under "type")]
  | typedNames => [(.name, under "name"), (.moreNames, {}), (.simpleType, under "type")]
  | valuedName => [(.name, under "name"), (.equals, {}), (.expressionList, under "value")]
  | valuedNames =>
    [(.name, under "name"), (.moreNames, {}), (.equals, {}), (.expressionList, under "value")]
  | oneValue => [(.expression, {})]
  | severalValues => [(.expression, {}), (.moreValues, {})]
  | moreValue => [(.comma, {}), (.expression, {})]
  | joinValues => [(.moreValues, {}), (.moreValues, {})]
  | operand x => [(x, {})]
  | call => [(.expression, under "function"), (.argumentList, under "arguments")]
  | arguments => [(.parenthesis, {}), (.closingParenthesis, {})]
  | selector => [(.expression, under "operand"), (.dot, {}),
      (.name, { field := some "field", kind := some "field_identifier" })]
  | qualifiedType => [(.name, { field := some "package", kind := some "package_identifier" }),
      (.dot, {}), (.name, { field := some "name", kind := some "type_identifier" })]
  | composite => [(.qualifiedType, under "type"), (.literalValue, under "body")]
  | literalValue => [(.brace, {}), (.closingBrace, {})]

/-- What the production weighs: a name that is only taken for a type weighs less. -/
def weight : Form → Int
  | namedType => -1
  | _ => 0

/-- The reduction by the production. -/
def reduction (f : Form) : Reduction :=
  { head := f.head.number, labels := f.parts.map (·.2), weight := f.weight }

/-- All productions; only these members of families are used. -/
def all : List Form :=
  [packageClause, line .packageClause, line .statement, joinLines, sourceFile, statement,
    declaration, varDeclaration .varSpec, varDeclaration .specList, specLine, joinSpecLines,
    specList, emptyList, moreName, joinNames, namedType, qualifiedNamedType, typedName, typedNames,
    valuedName, valuedNames, oneValue, severalValues, moreValue, joinValues, operand .integer,
    operand .text, operand .name, operand .call, operand .selector, operand .composite, call,
    arguments, selector, qualifiedType, composite, literalValue]

/-- Does the grammar have the production? -/
def occurs (f : Form) : Bool :=
  (unfoldAll definitions).any fun d => d.symbol == f.head.symbol &&
    d.alternatives.any fun a => (a.rule.forms {}).any fun form =>
      form.map (·.1) == f.parts.map (·.1.symbol) &&
        form.map (texts ·.2) == f.parts.map (texts ·.2)

set_option maxRecDepth 10000 in
theorem occurs_all : all.all occurs = true := by
  decide +kernel

theorem hasForm {f : Form} (h : f ∈ all) :
    ∃ d ∈ unfoldAll definitions, d.symbol = f.head.symbol ∧
      d.HasForm (f.parts.map fun part => (part.1.symbol, part.2)) := by
  have hoccurs := List.all_eq_true.1 occurs_all f h
  simp only [occurs, List.any_eq_true, Bool.and_eq_true, beq_iff_eq] at hoccurs
  obtain ⟨d, hd, hsymbol, a, ha, form, hform, hsymbols, htexts⟩ := hoccurs
  have hlabels : form.map (·.2) = f.parts.map (·.2) := by
    refine List.map_injective_iff.2 texts_injective ?_
    simpa only [List.map_map, Function.comp_def] using htexts
  have hparts : form = f.parts.map fun part => (part.1.symbol, part.2) := by
    rw [← List.zip_map', ← hsymbols, ← hlabels, List.zip_map', List.map_id']
  exact ⟨d, hd, hsymbol, a, ha, hparts ▸ hform⟩

/-- The grammar allows the construct to be made in this way. -/
theorem allows {f : Form} (h : f ∈ all) :
    grammar.allows f.head.number (f.parts.map (·.1.number)) (f.parts.map (·.2)) = true := by
  obtain ⟨d, hd, hsymbol, hform⟩ := hasForm h
  have hallows : grammar.allows (grammar.number d.symbol)
      ((f.parts.map fun part => (part.1.symbol, part.2)).map fun step => grammar.number step.1)
      ((f.parts.map fun part => (part.1.symbol, part.2)).map (·.2)) = true :=
    allows_of_hasForm hd hform
  simp only [hsymbol, List.map_map, Function.comp_def] at hallows
  simp only [← Part.number_symbol, hallows]

end Form

end GoGlobals.Go
