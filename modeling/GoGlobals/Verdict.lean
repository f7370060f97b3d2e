import GoGlobals.AllowList
import GoGlobals.Declaration
import GoGlobals.Diagnostic
import GoGlobals.Naming

/-!
# The rule

A package-level variable is reported unless its name is exempt or its initial value is on the allow
list.  A group whose names and values cannot be paired is reported once, for its first name.

## What is here

* `isAllowed` decides about one binding.
* `checkGroup` reports on one group and `check` on a file, in the order of the declarations.  The
  only way to fail is a malformed group without names.
-/

set_option autoImplicit false

namespace GoGlobals

/-- The names that are always allowed: the blank identifier and the version of a build. -/
def exemptNames : List String := ["version", "_"]

/-- May a call or literal `qualifier.member` initialise a variable of this name? -/
def isAllowedMember (name : String) (qualifier member : Option String) : Bool :=
  match findRule? qualifier member with
  | none => false
  | some rule => !rule.requiresErrorName || Naming.looksLikeError name

/-- May the variable with this initial value stay? -/
def isAllowed (name : String) (value : Initializer) : Bool :=
  exemptNames.contains name ||
    match value with
    | .call q m => isAllowedMember name q m
    | .composite q m => isAllowedMember name q m
    | .literal _ => false
    | .other _ => false

/-- A group has values and no name to report. -/
inductive CheckError where
  | nameless
deriving DecidableEq, Repr

/-- The diagnostics of one group. -/
def checkGroup (g : Group) : Except CheckError (List Diagnostic) :=
  match g.bindings with
  | .ok bindings =>
    .ok ((bindings.filter fun b => !isAllowed b.name b.value).map fun b =>
      ⟨g.file, b.line, b.name⟩)
  | .error _ =>
    match g.names with
    | [] => .error .nameless
    | first :: _ => .ok [⟨g.file, first.line, first.name⟩]

/-- The diagnostics of a file, in the order of its declarations. -/
def check (f : SourceFile) : Except CheckError (List Diagnostic) :=
  (f.groups.mapM checkGroup).map List.flatten

end GoGlobals
