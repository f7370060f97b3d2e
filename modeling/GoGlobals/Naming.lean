import GoGlobals.Text.Uppercase

/-!
# Naming conventions

A name is exported when its first character is upper case.  An error variable is named `Err…` when
it is exported and `err…` when it is not, so the first character decides which of the two
beginnings counts: `Errno` and `errno` look like errors, `ERR` and `eRR` do not.
-/

set_option autoImplicit false

namespace GoGlobals.Naming

/-- Does the name start with an upper case character? -/
def isExported (name : String) : Bool :=
  match name.toList with
  | [] => false
  | c :: _ => Text.isUppercase c

/-- How the name of an error starts. -/
def errorBeginning (exported : Bool) : String :=
  if exported then "Err" else "err"

/-- Does the name look like that of an error? -/
def looksLikeError (name : String) : Bool :=
  (errorBeginning (isExported name)).toList.isPrefixOf name.toList

end GoGlobals.Naming
