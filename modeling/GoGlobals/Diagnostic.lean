/-!
# Diagnostics

A diagnostic names a package-level variable that is not allowed, and where it stands.
-/

set_option autoImplicit false

namespace GoGlobals

/-- A variable that is not allowed. -/
structure Diagnostic where
  file : String
  line : Int
  name : String
deriving DecidableEq, Repr, Inhabited

/-- The line that reports a diagnostic. -/
def Diagnostic.message (d : Diagnostic) : String :=
  d.file ++ ":" ++ toString d.line ++ " " ++ d.name ++ " is a global variable"

end GoGlobals
