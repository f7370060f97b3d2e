import GoGlobals.Path

/-!
# Settings

What can be set from outside: which files are checked, how much is logged, and where the service
listens.
-/

set_option autoImplicit false

namespace GoGlobals

/-- The settings of the program. -/
structure Settings where
  /-- Only files whose path ends like this are checked. -/
  sourceSuffix : String := ".go"
  /-- Files whose path ends like this are left out, unless tests are included. -/
  testSuffix : String := "_test.go"
  /-- Are tests included where nothing else is said? -/
  includeTests : Bool := false
  logLevel : String := "INFO"
  port : Int := 5001
  host : String := "0.0.0.0"
  corsOrigins : List String := ["*"]
deriving DecidableEq, Repr, Inhabited

/-- The endings that select files. -/
def Settings.endings (s : Settings) : Path.Endings :=
  ⟨s.sourceSuffix, s.testSuffix⟩

/-- Endings of which some are given; one that is not given, or empty, is that of the settings. -/
def Settings.endingsOr (s : Settings) (source test : Option String) : Path.Endings :=
  let choose (given : Option String) (fallback : String) : String :=
    match given with
    | some ending => if ending.isEmpty then fallback else ending
    | none => fallback
  ⟨choose source s.sourceSuffix, choose test s.testSuffix⟩

end GoGlobals
