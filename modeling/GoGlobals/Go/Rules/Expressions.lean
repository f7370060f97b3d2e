import GoGlobals.Go.Rules.Basic

/-!
# The grammar of Go: expressions

A conversion to a type and an instantiation of one weigh less than the call and the index that look
the same, so they are what a text is only if it is neither of those.
-/

set_option autoImplicit false

namespace GoGlobals.Go

open Grammar

/-- The tokens that are literals. -/
def literals : List Rule := [
  stringLiteral, Symbol.lexeme "int_literal", Symbol.lexeme "float_literal",
  Symbol.lexeme "imaginary_literal", Symbol.lexeme "rune_literal", Symbol.constant "nil" "nil",
  Symbol.constant "true" "true", Symbol.constant "false" "false", Symbol.constant "iota" "iota"]

/-- The definitions of expressions that end in brackets, parentheses or braces, or are in them. -/
def operandRules : List Definition := [
  family "expression" ([
    node "unary_expression", node "binary_expression", node "selector_expression",
    node "index_expression", node "slice_expression", node "call_expression",
    node "type_assertion_expression", node "type_conversion_expression",
    node "type_instantiation_expression", identifier, allocator, node "composite_literal",
    node "func_literal"] ++ literals ++ [node "parenthesized_expression"]),
  define "parenthesized_expression" (seq ["(", expression, ")"]),
  ⟨.construct "call_expression", [
    { rule := seq [
        .field "function" allocator,
        .field "arguments" (.kind "argument_list" (node "special_argument_list"))]
      precedence := primary },
    { rule := seq [
        .field "function" expression,
        .field "type_arguments" (maybe (node "type_arguments")),
        .field "arguments" (node "argument_list")]
      precedence := primary }]⟩,
  defineAt 0 "variadic_argument" (seq [expression, "..."]) (some .right),
  define "special_argument_list" (seq ["(",
    maybe (seq [anyType, many (seq [",", expression]), maybe ","]), ")"]),
  define "argument_list" (seq ["(",
    maybe (seq [commas (oneOf [expression, node "variadic_argument"]), maybe ","]), ")"]),
  defineAt primary "selector_expression" (seq [
    .field "operand" expression, ".", .field "field" fieldName]),
  defineAt primary "index_expression" (seq [
    .field "operand" expression, "[", .field "index" expression, "]"]),
  defineAt primary "slice_expression" (seq [
    .field "operand" expression, "[",
    oneOf [
      seq [.field "start" (maybe expression), ":", .field "end" (maybe expression)],
      seq [.field "start" (maybe expression), ":", .field "end" expression, ":",
        .field "capacity" expression]],
    "]"]),
  defineAt primary "type_assertion_expression" (seq [
    .field "operand" expression, ".", "(", .field "type" anyType, ")"]),
  defineWeighing (-1) "type_conversion_expression" (seq [
    .field "type" anyType, "(", .field "operand" expression, maybe ",", ")"]),
  defineWeighing (-1) "type_instantiation_expression" (seq [
    .field "type" anyType, "[", commas anyType, maybe ",", "]"])]

/-- The definitions of literals of composite types and of functions. -/
def literalRules : List Definition := [
  defineAt composite "composite_literal" (seq [
    .field "type" (oneOf [
      node "map_type", node "slice_type", node "array_type", node "implicit_length_array_type",
      node "struct_type", typeName, node "generic_type", node "qualified_type"]),
    .field "body" (node "literal_value")]),
  define "literal_value" (seq ["\x7b",
    maybe (seq [
      maybe (commas (oneOf [node "literal_element", node "keyed_element"])), maybe ","]),
    "\x7d"]),
  define "literal_element" (oneOf [expression, node "literal_value"]),
  define "keyed_element" (seq [
    .field "key" (node "literal_element"), ":", .field "value" (node "literal_element")]),
  define "func_literal" (seq ["func",
    .field "parameters" (node "parameter_list"), result, .field "body" (node "block")])]

/-- The definitions of expressions with operators. -/
def operatorRules : List Definition := [
  defineAt unary "unary_expression" (seq [
    .field "operator" (oneOf ["+", "-", "!", "^", "*", "&", "<-"]),
    .field "operand" expression]),
  ⟨.construct "binary_expression", binaryOperators.map fun (precedence, operators) =>
    { rule := seq [
        .field "left" expression, .field "operator" (oneOf operators), .field "right" expression]
      precedence
      side := some .left }⟩]

/-- The definitions of expressions. -/
def expressionRules : List Definition :=
  operandRules ++ literalRules ++ operatorRules

end GoGlobals.Go
