import GoGlobals.ParseError
import GoGlobals.Tree.Node

/-!
# Which trees are accepted

A tree is a Go file when it has no mistake, its first node that is not a comment is a package
clause, and everything else at the level of the file is a comment or a declaration.  The first
violation, in this order, refuses it.

## What is here

* `Node.firstMistake?` looks for the first mistake in preorder and passes by every child that
  says it holds none.
* `Node.refusal?` is the fault of a tree with its place, or nothing for an accepted tree.
-/

set_option autoImplicit false

namespace GoGlobals.Node

open Text (Source)

mutual

/-- The first mistake in preorder, in the children that say they hold one. -/
def firstMistake? (n : Node) : Option Node :=
  match n with
  | ⟨kind, start, stop, row, column, named, missing, hasError, field, children⟩ =>
    if kind == "ERROR" || missing then
      some ⟨kind, start, stop, row, column, named, missing, hasError, field, children⟩
    else firstMistakeIn? children

/-- The first mistake in a list of children. -/
def firstMistakeIn? : List Node → Option Node
  | [] => none
  | n :: ns =>
    if n.hasError then
      match firstMistake? n with
      | some found => some found
      | none => firstMistakeIn? ns
    else firstMistakeIn? ns

end

/-- The kinds of node that may stand at the level of a file, the package clause apart. -/
def topLevelKinds : List String :=
  ["comment", "import_declaration", "function_declaration", "method_declaration",
    "const_declaration", "var_declaration", "type_declaration"]

/-- The fault of a mistake. -/
def mistakeFault (bad : Node) (source : Source) : Fault :=
  if bad.missing then .missing bad.kind else .near (bad.text source)

/-- The first node of the file that is not a comment. -/
def firstConstruct? (root : Node) : Option Node :=
  root.namedChildren.find? fun n => !n.isComment

/-- The first node at the level of the file that starts elsewhere than the package clause and is
not a comment or a declaration. -/
def firstStray? (root clause : Node) : Option Node :=
  root.namedChildren.find? fun n => !(n.start == clause.start || topLevelKinds.contains n.kind)

/-- The place where a node starts. -/
def spot (n : Node) : Spot :=
  ⟨n.row, n.column⟩

/-- The refusal of a tree that holds a mistake. -/
def mistakeRefusal (root : Node) (source : Source) : Refusal :=
  let bad := (firstMistake? root).getD root
  ⟨mistakeFault bad source, some bad.spot⟩

/-- Why a tree without mistakes is refused, if it is. -/
def layoutRefusal? (root : Node) : Option Refusal :=
  match root.firstConstruct? with
  | none => some ⟨.noPackageClause, some ⟨0, 0⟩⟩
  | some first =>
    if first.kind != "package_clause" then some ⟨.noPackageClause, some ⟨first.row, 0⟩⟩
    else (root.firstStray? first).map fun n => ⟨.stray n.kind, some n.spot⟩

/-- Why a tree is refused, if it is. -/
def refusal? (root : Node) (source : Source) : Option Refusal :=
  if root.hasError then some (root.mistakeRefusal source) else root.layoutRefusal?

/-- Accepts a tree, or refuses it. -/
def accept (root : Node) (source : Source) : Except Refusal Unit :=
  match root.refusal? source with
  | none => .ok ()
  | some r => .error r

end GoGlobals.Node
