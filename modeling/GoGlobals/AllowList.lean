/-!
# The allow list

The calls and composite literals `namespace.member` that may initialise a package-level variable.
The table is closed: no setting adds a row.
-/

set_option autoImplicit false

namespace GoGlobals

/-- An initializer that is allowed, some only for variables named like errors. -/
structure AllowRule where
  qualifier : String
  member : String
  requiresErrorName : Bool := false
deriving DecidableEq, Repr

/-- The rows of the allow list; no two have the same qualifier and member. -/
def allowRules : List AllowRule :=
  [⟨"regexp", "MustCompile", false⟩, ⟨"fmt", "Errorf", true⟩, ⟨"errors", "New", true⟩]

/-- The row for a qualifier and a member, both of which must be known. -/
def findRule? : (qualifier member : Option String) → Option AllowRule
  | some q, some m => allowRules.find? fun r => r.qualifier == q && r.member == m
  | _, _ => none

end GoGlobals
