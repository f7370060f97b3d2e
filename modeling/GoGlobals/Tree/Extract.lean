import GoGlobals.Declaration
import GoGlobals.Tree.Node

/-!
# From a tree to declarations

The top-level `var` specifications of a tree, with every initial value reduced to a shape.

## What is here

* `Node.selectorParts` splits `qualifier.member`; the qualifier must be a plain identifier, so
  `a.b.C` and `f().C` have no parts.
* `Node.classify` gives the shape of an initial value.
* `Node.group` reads one specification and `Node.extract` a file.
-/

set_option autoImplicit false

namespace GoGlobals.Node

open Text (Source)

/-- The kinds of node that are literals. -/
def literalKinds : List String :=
  ["int_literal", "float_literal", "imaginary_literal", "rune_literal",
    "interpreted_string_literal", "raw_string_literal", "true", "false", "nil", "iota"]

/-- The kinds of node that are plain identifiers. -/
def identifierKinds : List String :=
  ["identifier", "package_identifier"]

/-- The two sides of a selector or of a qualified type. -/
def selectorSides? (n : Node) : Option (Node × Node) :=
  if n.kind == "selector_expression" then
    match n.child? "operand", n.child? "field" with
    | some operand, some field => some (operand, field)
    | _, _ => none
  else if n.kind == "qualified_type" then
    match n.child? "package", n.child? "name" with
    | some package, some name => some (package, name)
    | _, _ => none
  else none

/-- The qualifier and the member of `qualifier.member`. -/
def selectorParts (n : Option Node) (source : Source) : Option String × Option String :=
  match n.bind selectorSides? with
  | some (operand, field) =>
    if identifierKinds.contains operand.kind then
      (some (operand.text source), some (field.text source))
    else (none, none)
  | none => (none, none)

/-- The shape of an initial value.  A conversion is a call: `pkg.T(x)` looks like one. -/
def classify (n : Node) (source : Source) : Initializer :=
  if n.kind == "call_expression" then
    let parts := selectorParts (n.child? "function") source
    .call parts.1 parts.2
  else if n.kind == "type_conversion_expression" then
    let parts := selectorParts (n.child? "type") source
    .call parts.1 parts.2
  else if n.kind == "composite_literal" then
    let parts := selectorParts (n.child? "type") source
    .composite parts.1 parts.2
  else if literalKinds.contains n.kind then .literal (n.text source)
  else .other n.kind

/-- The specifications of a `var` declaration, with or without parentheses. -/
def varSpecs (declaration : Node) : List Node :=
  declaration.namedChildren.flatMap fun child =>
    if child.kind == "var_spec" then [child]
    else if child.kind == "var_spec_list" then
      child.namedChildren.filter (·.kind == "var_spec")
    else []

/-- The nodes of the initial values of a specification, comments left out. -/
def valueNodes (spec : Node) : List Node :=
  match spec.child? "value" with
  | none => []
  | some values => values.namedChildren.filter fun v => !v.isComment

/-- The names that a specification binds. -/
def names (spec : Node) (source : Source) : List Identifier :=
  (spec.childrenAt "name").map fun n => ⟨n.text source, n.line⟩

/-- The group of a specification; its line is that of its first name. -/
def group (spec : Node) (source : Source) (file : String) : Group :=
  let names := spec.names source
  { file
    line := (names.head?.map (·.line)).getD spec.line
    names
    values := spec.valueNodes.map (·.classify source) }

/-- The `var` specifications at the level of a file. -/
def topLevelSpecs (root : Node) : List Node :=
  (root.namedChildren.filter (·.kind == "var_declaration")).flatMap varSpecs

/-- The name in the last package clause that has a named child. -/
def packageName (root : Node) (source : Source) : String :=
  let clauses := root.namedChildren.filter (·.kind == "package_clause")
  match (clauses.filterMap fun c => c.namedChildren.head?).getLast? with
  | some name => name.text source
  | none => ""

/-- The variable declarations of a file. -/
def extract (root : Node) (source : Source) (file : String) : SourceFile :=
  { path := file
    package := root.packageName source
    groups := root.topLevelSpecs.map (·.group source file) }

end GoGlobals.Node
