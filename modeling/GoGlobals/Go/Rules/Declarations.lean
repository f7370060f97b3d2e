import GoGlobals.Go.Rules.Basic

/-!
# The grammar of Go: declarations

Every specification of constants or variables between parentheses needs an end of its own; in a
list of imports or of types the last one does not.
-/

set_option autoImplicit false

namespace GoGlobals.Go

open Grammar

/-- The declarations that stand only at the level of a file. -/
def topLevelDeclaration : Rule :=
  oneOf [node "package_clause", node "function_declaration", node "method_declaration",
    node "import_declaration"]

/-- The definition of a file. -/
def fileRule : Definition :=
  define "source_file" (seq [
    many (oneOf [seq [statement, terminator], seq [topLevelDeclaration, terminator]]),
    maybe topLevelDeclaration])

/-- The definitions of packages and imports. -/
def importRules : List Definition := [
  define "package_clause" (seq ["package", packageName]),
  define "import_declaration" (seq ["import", oneOf [node "import_spec", node "import_spec_list"]]),
  define "import_spec" (seq [
    maybe (.field "name"
      (oneOf [node "dot", Symbol.constant "blank_identifier" "_", packageName])),
    .field "path" stringLiteral]),
  define "dot" ".",
  define "import_spec_list" (seq ["(", maybe (terminated (node "import_spec")), ")"])]

/-- The definitions of constants and variables. -/
def valueRules : List Definition := [
  family "declaration"
    [node "const_declaration", node "type_declaration", node "var_declaration"],
  define "const_declaration" (seq ["const",
    oneOf [node "const_spec", seq ["(", many (seq [node "const_spec", terminator]), ")"]]]),
  defineAt 0 "const_spec" (seq [
    .field "name" (commas identifier),
    maybe (seq [maybe (.field "type" anyType), "=", .field "value" expressions])])
    (some .left),
  define "var_declaration" (seq ["var", oneOf [node "var_spec", node "var_spec_list"]]),
  define "var_spec" (seq [
    commas (.field "name" identifier),
    oneOf [
      seq [.field "type" anyType, maybe (seq ["=", .field "value" expressions])],
      seq ["=", .field "value" expressions]]]),
  define "var_spec_list" (seq ["(", many (seq [node "var_spec", terminator]), ")"])]

/-- The definitions of functions and their parameters. -/
def functionRules : List Definition := [
  defineAt 1 "function_declaration" (seq ["func",
    .field "name" identifier,
    .field "type_parameters" (maybe (node "type_parameter_list")),
    .field "parameters" (node "parameter_list"),
    result,
    .field "body" (maybe (node "block"))]) (some .right),
  defineAt 1 "method_declaration" (seq ["func",
    .field "receiver" (node "parameter_list"),
    .field "name" fieldName,
    .field "parameters" (node "parameter_list"),
    result,
    .field "body" (maybe (node "block"))]) (some .right),
  define "type_parameter_list" (seq ["[",
    commas (node "type_parameter_declaration"), maybe ",", "]"]),
  define "type_parameter_declaration" (seq [
    commas (.field "name" identifier),
    .field "type" (.kind "type_constraint" (node "type_elem"))]),
  define "parameter_list" (seq ["(",
    maybe (seq [
      maybe (commas (oneOf [node "parameter_declaration", node "variadic_parameter_declaration"])),
      maybe ","]),
    ")"]),
  define "parameter_declaration" (seq [
    maybe (commas (.field "name" identifier)), .field "type" anyType]),
  define "variadic_parameter_declaration" (seq [
    .field "name" (maybe identifier), "...", .field "type" anyType])]

/-- The definitions of named types. -/
def typeDeclarationRules : List Definition := [
  define "type_alias" (seq [
    .field "name" typeName,
    .field "type_parameters" (maybe (node "type_parameter_list")),
    "=",
    .field "type" anyType]),
  define "type_declaration" (seq ["type",
    oneOf [node "type_spec", node "type_alias",
      seq ["(", maybe (terminated (oneOf [node "type_spec", node "type_alias"])), ")"]]]),
  define "type_spec" (seq [
    .field "name" typeName,
    .field "type_parameters" (maybe (node "type_parameter_list")),
    .field "type" anyType])]

end GoGlobals.Go
