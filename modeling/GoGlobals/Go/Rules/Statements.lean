import GoGlobals.Go.Rules.Basic

/-!
# The grammar of Go: statements

A label may stand last in a block, with no statement behind it.  A semicolon where a statement can
start is a statement of its own.
-/

set_option autoImplicit false

namespace GoGlobals.Go

open Grammar

/-- A label with no statement behind it. -/
def bareLabel : Rule := .kind "labeled_statement" (node "empty_labeled_statement")

/-- A simple statement in front of the rest of a header. -/
def initializer : Rule :=
  maybe (seq [.field "initializer" simpleStatement, ";"])

/-- Expressions that are assigned or declared by what follows. -/
def receiver : Rule :=
  maybe (seq [.field "left" expressions, oneOf ["=", ":="]])

/-- The definitions of blocks and of the families of statements. -/
def blockRules : List Definition := [
  define "block" (seq ["\x7b", maybe statements, "\x7d"]),
  family "statement_list" [
    seq [separated terminator statement, maybe (seq [terminator, maybe bareLabel])],
    bareLabel],
  family "statement" [
    Symbol.family "declaration", simpleStatement, node "return_statement", node "go_statement",
    node "defer_statement", node "if_statement", node "for_statement",
    node "expression_switch_statement", node "type_switch_statement", node "select_statement",
    node "labeled_statement", node "fallthrough_statement", node "break_statement",
    node "continue_statement", node "goto_statement", node "block", node "empty_statement"],
  define "empty_statement" ";",
  family "simple_statement" [
    node "expression_statement", node "send_statement", node "inc_statement",
    node "dec_statement", node "assignment_statement", node "short_var_declaration"]]

/-- The definitions of simple statements. -/
def simpleStatementRules : List Definition := [
  define "expression_statement" expression,
  define "send_statement" (seq [.field "channel" expression, "<-", .field "value" expression]),
  define "receive_statement" (seq [receiver, .field "right" expression]),
  define "inc_statement" (seq [expression, "++"]),
  define "dec_statement" (seq [expression, "--"]),
  define "assignment_statement" (seq [
    .field "left" expressions,
    .field "operator" (oneOf assignmentOperators),
    .field "right" expressions]),
  define "short_var_declaration" (seq [
    .field "left" expressions, ":=", .field "right" expressions])]

/-- The definitions of labels and jumps. -/
def jumpRules : List Definition := [
  define "labeled_statement" (seq [.field "label" labelName, ":", statement]),
  define "empty_labeled_statement" (seq [.field "label" labelName, ":"]),
  defineAt 0 "fallthrough_statement" "fallthrough" (some .left),
  define "break_statement" (seq ["break", maybe labelName]),
  define "continue_statement" (seq ["continue", maybe labelName]),
  define "goto_statement" (seq ["goto", labelName]),
  define "return_statement" (seq ["return", maybe expressions]),
  define "go_statement" (seq ["go", expression]),
  define "defer_statement" (seq ["defer", expression])]

/-- The definitions of branches and loops. -/
def branchRules : List Definition := [
  define "if_statement" (seq ["if",
    initializer,
    .field "condition" expression,
    .field "consequence" (node "block"),
    maybe (seq ["else",
      .field "alternative" (oneOf [node "block", node "if_statement"])])]),
  define "for_statement" (seq ["for",
    maybe (oneOf [expression, node "for_clause", node "range_clause"]),
    .field "body" (node "block")]),
  define "for_clause" (seq [
    .field "initializer" (maybe simpleStatement), ";",
    .field "condition" (maybe expression), ";",
    .field "update" (maybe simpleStatement)]),
  define "range_clause" (seq [receiver, "range", .field "right" expression])]

/-- The definitions of switches. -/
def switchRules : List Definition := [
  define "expression_switch_statement" (seq ["switch",
    initializer,
    .field "value" (maybe expression),
    "\x7b", many (oneOf [node "expression_case", node "default_case"]), "\x7d"]),
  define "expression_case" (seq ["case", .field "value" expressions, ":", maybe statements]),
  define "default_case" (seq ["default", ":", maybe statements]),
  define "type_switch_statement" (seq ["switch",
    Symbol.family "type_switch_header",
    "\x7b", many (oneOf [node "type_case", node "default_case"]), "\x7d"]),
  family "type_switch_header" [seq [
    initializer,
    maybe (seq [.field "alias" expressions, ":="]),
    .field "value" expression, ".", "(", "type", ")"]],
  define "type_case" (seq ["case", .field "type" (commas anyType), ":", maybe statements]),
  define "select_statement" (seq ["select",
    "\x7b", many (oneOf [node "communication_case", node "default_case"]), "\x7d"]),
  define "communication_case" (seq ["case",
    .field "communication" (oneOf [node "send_statement", node "receive_statement"]), ":",
    maybe statements])]

/-- The definitions of statements. -/
def statementRules : List Definition :=
  blockRules ++ simpleStatementRules ++ jumpRules ++ branchRules ++ switchRules

end GoGlobals.Go
