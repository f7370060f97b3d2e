import GoGlobals.Grammar.Rule

/-!
# The grammar of Go: common parts

The rules that follow describe Go text as it stands, with no tokens put in where lines end: a
statement ends at a line feed, at a semicolon or at a NUL byte, and a line feed is white space
wherever no statement can end.

The grammar is wider than the language.  Statements may stand at the level of a file, and a type
may stand where an expression is expected if parentheses or brackets follow.
-/

set_option autoImplicit false

namespace GoGlobals.Go

open Grammar

/-! ## Tokens that are not fixed -/

/-- An identifier. -/
def identifier : Symbol := .lexeme "identifier"

/-- A comment, which may stand between any two tokens. -/
def comment : Symbol := .lexeme "comment"

/-- The name of a package. -/
def packageName : Rule := .kind "package_identifier" identifier

/-- The name of a type. -/
def typeName : Rule := .kind "type_identifier" identifier

/-- The name of a field or a method. -/
def fieldName : Rule := .kind "field_identifier" identifier

/-- The name of a label. -/
def labelName : Rule := .kind "label_name" identifier

/-- A string. -/
def stringLiteral : Rule :=
  oneOf [Symbol.lexeme "raw_string_literal", Symbol.lexeme "interpreted_string_literal"]

/-! ## Families of constructs -/

/-- An expression. -/
def expression : Rule := .symbol (.family "expression")

/-- A type without parentheses around it. -/
def simpleType : Rule := .symbol (.family "simple_type")

/-- A type. -/
def anyType : Rule := oneOf [simpleType, node "parenthesized_type"]

/-- A statement. -/
def statement : Rule := .symbol (.family "statement")

/-- A statement that can stand in the header of another one. -/
def simpleStatement : Rule := .symbol (.family "simple_statement")

/-- The statements of a block or of a case. -/
def statements : Rule := .symbol (.family "statement_list")

/-! ## Parts of many rules -/

/-- What ends a statement. -/
def terminator : Rule := oneOf ["\n", ";", "\x00"]

/-- One or more parts with ends of statements in between, and perhaps one behind the last. -/
def terminated (r : Rule) : Rule :=
  seq [separated terminator r, maybe terminator]

/-- Expressions with commas in between. -/
def expressions : Rule := node "expression_list"

/-- What a function gives back. -/
def result : Rule :=
  .field "result" (maybe (oneOf [node "parameter_list", simpleType]))

/-- The two functions whose first argument is a type; as operands they are identifiers. -/
def allocator : Rule := .kind "identifier" (oneOf ["new", "make"])

/-! ## Precedences -/

/-- The precedence of what binds an operand to what follows it. -/
def primary : Int := 7

/-- The precedence of operators in front of an operand. -/
def unary : Int := 6

/-- The precedence of a literal with braces: a brace behind a name opens one only where nothing
else can use it. -/
def composite : Int := -1

/-- The operators between two operands, by precedence. -/
def binaryOperators : List (Int × List Rule) :=
  [(5, ["*", "/", "%", "<<", ">>", "&", "&^"]),
    (4, ["+", "-", "|", "^"]),
    (3, ["==", "!=", "<", "<=", ">", ">="]),
    (2, ["&&"]),
    (1, ["||"])]

/-- The operators of assignments. -/
def assignmentOperators : List Rule :=
  ["*=", "/=", "%=", "<<=", ">>=", "&=", "&^=", "+=", "-=", "|=", "^=", "="]

end GoGlobals.Go
