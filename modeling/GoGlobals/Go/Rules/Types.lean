import GoGlobals.Go.Rules.Basic

/-!
# The grammar of Go: types

A name in brackets behind an operand may be an index or a type argument.  Both readings are
followed where both are possible, and the weights of these definitions decide: arguments of types
weigh more than nothing, and a name that is only taken for a type weighs less.
-/

set_option autoImplicit false

namespace GoGlobals.Go

open Grammar

/-- The kinds of types that are not just a name. -/
def typeNodes : List Rule := [
  node "generic_type", node "qualified_type", node "pointer_type", node "struct_type",
  node "interface_type", node "array_type", node "slice_type", node "map_type",
  node "channel_type", node "function_type", node "negated_type"]

/-- The definitions of types. -/
def typeRules : List Definition := [
  define "expression_list" (commas expression),
  define "parenthesized_type" (seq ["(", anyType, ")"]),
  ⟨.family "simple_type", { rule := typeName, weight := -1 } :: typeNodes.map ({ rule := · })⟩,
  defineWeighing 1 "generic_type" (seq [
    .field "type" (oneOf [typeName, node "qualified_type", node "negated_type"]),
    .field "type_arguments" (node "type_arguments")]),
  defineWeighing 1 "type_arguments" (seq ["[", commas (node "type_elem"), maybe ",", "]"]),
  defineAt unary "pointer_type" (seq ["*", anyType]),
  defineAt 0 "array_type" (seq ["[", .field "length" expression, "]", .field "element" anyType])
    (some .right),
  define "implicit_length_array_type" (seq ["[", "...", "]", .field "element" anyType]),
  defineAt 0 "slice_type" (seq ["[", "]", .field "element" anyType]) (some .right),
  define "struct_type" (seq ["struct", node "field_declaration_list"]),
  defineAt 0 "negated_type" (seq ["~", anyType]) (some .left),
  define "field_declaration_list" (seq ["\x7b",
    maybe (terminated (node "field_declaration")), "\x7d"]),
  define "field_declaration" (seq [
    oneOf [
      seq [commas (.field "name" fieldName), .field "type" anyType],
      seq [maybe "*",
        .field "type" (oneOf [typeName, node "qualified_type", node "generic_type"])]],
    .field "tag" (maybe stringLiteral)]),
  define "interface_type" (seq ["interface", "\x7b",
    maybe (terminated (oneOf [node "method_elem", node "type_elem"])), "\x7d"]),
  define "method_elem" (seq [
    .field "name" fieldName, .field "parameters" (node "parameter_list"), result]),
  define "type_elem" (separated "|" anyType),
  defineAt 0 "map_type" (seq ["map",
    "[", .field "key" anyType, "]", .field "value" anyType]) (some .right),
  ⟨.construct "channel_type", [
    { rule := seq ["chan", .field "value" anyType], side := some .left },
    { rule := seq ["chan", "<-", .field "value" anyType], side := some .left },
    { rule := seq ["<-", "chan", .field "value" anyType]
      precedence := unary
      side := some .left }]⟩,
  defineAt 0 "function_type" (seq ["func",
    .field "parameters" (node "parameter_list"), result]) (some .right)]

/-- The definition of a type of another package. -/
def qualifiedTypeRule : Definition :=
  define "qualified_type" (seq [.field "package" packageName, ".", .field "name" typeName])

end GoGlobals.Go
