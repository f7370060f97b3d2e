/-!
# Variable declarations

The parts of a Go file that the rule looks at: its top-level `var` specifications, the names they
bind, and the shape of each initializer.  Nothing is evaluated.

## What is here

* `Initializer` is the shape of an initial value.  A call and a composite literal keep the
  qualifier and the member of a callee or type written `qualifier.member`, and nothing when it is
  written in another way.
* `Group` is one specification, such as `a, b = x, y`.  Its names and values are paired one to one
  by `Group.bindings`, unless their numbers differ.
* `SourceFile` is a file: its path, the name of its package, and its groups in order.
-/

set_option autoImplicit false

namespace GoGlobals

/-- The shape of an initial value. -/
inductive Initializer where
  | call (qualifier member : Option String)
  | composite (qualifier member : Option String)
  | literal (text : String)
  | other (kind : String)
deriving DecidableEq, Repr, Inhabited

/-- A bound name and the line it stands on. -/
structure Identifier where
  name : String
  line : Int
deriving DecidableEq, Repr, Inhabited

/-- A name paired with its initial value. -/
structure Binding where
  name : String
  line : Int
  value : Initializer
deriving DecidableEq, Repr, Inhabited

/-- One `var` specification. -/
structure Group where
  file : String
  line : Int
  names : List Identifier := []
  values : List Initializer := []
deriving DecidableEq, Repr, Inhabited

/-- The variable declarations of a file. -/
structure SourceFile where
  path : String
  package : String := ""
  groups : List Group := []
deriving DecidableEq, Repr, Inhabited

/-- The names and values of a group cannot be paired: how many there are, and where. -/
structure CountMismatch where
  file : String
  line : Int
  names : Nat
  values : Nat
deriving DecidableEq, Repr

/-- The wording of a mismatch. -/
def CountMismatch.message (e : CountMismatch) : String :=
  e.file ++ ":" ++ toString e.line ++ ": " ++ toString e.names ++ " names but " ++
    toString e.values ++ " values"

namespace Group

/-- Do the numbers of names and values differ? -/
def isMalformed (g : Group) : Bool :=
  g.names.length != g.values.length

/-- The names paired with the values of the same index. -/
def pairs (g : Group) : List Binding :=
  g.names.zipWith (fun n v => ⟨n.name, n.line, v⟩) g.values

/-- The bindings of a group that is not malformed. -/
def bindings (g : Group) : Except CountMismatch (List Binding) :=
  if g.isMalformed then .error ⟨g.file, g.line, g.names.length, g.values.length⟩
  else .ok g.pairs

theorem isMalformed_iff {g : Group} :
    g.isMalformed = true ↔ g.names.length ≠ g.values.length := by
  simp [isMalformed]

end Group

end GoGlobals
