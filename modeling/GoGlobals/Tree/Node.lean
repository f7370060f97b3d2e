import GoGlobals.Text.Utf8

/-!
# Syntax trees

A syntax tree has a node for every construct and every token of a source text.  A node covers a
range of bytes and starts in a row and a column, the column counted in bytes; a token of fixed
spelling is a node that is not *named*.  A child may be found by the name of the field that its
parent keeps it under.

A tree with mistakes has nodes of kind `ERROR` and nodes that are *missing*; a node says whether
it holds a mistake, so that a search can pass by those that do not.
-/

set_option autoImplicit false

namespace GoGlobals

open Text (Source)

/-- A node of a syntax tree. -/
structure Node where
  kind : String
  start : Nat := 0
  stop : Nat := 0
  row : Nat := 0
  column : Nat := 0
  named : Bool := true
  missing : Bool := false
  hasError : Bool := false
  field : Option String := none
  children : List Node := []
deriving Inhabited, Repr

namespace Node

/-- The children that are not tokens of fixed spelling. -/
def namedChildren (n : Node) : List Node :=
  n.children.filter (·.named)

/-- The children under a field name. -/
def childrenAt (n : Node) (field : String) : List Node :=
  n.children.filter (·.field == some field)

/-- The first child under a field name. -/
def child? (n : Node) (field : String) : Option Node :=
  n.children.find? (·.field == some field)

/-- The text that a node covers. -/
def text (n : Node) (source : Source) : String :=
  Text.lossyText (Text.slice source n.start n.stop)

/-- The line of a node, counted from 1. -/
def line (n : Node) : Int :=
  n.row + 1

/-- Is the node a comment? -/
def isComment (n : Node) : Bool :=
  n.kind == "comment"

/-- Is the node itself a mistake? -/
def isMistake (n : Node) : Bool :=
  n.kind == "ERROR" || n.missing

end Node

end GoGlobals
