import GoGlobals.Json.Parser
import GoGlobals.Schema
import GoGlobals.Settings.Basic
import GoGlobals.Settings.DotEnv
import GoGlobals.Text.Lowercase

/-!
# Loading settings

Settings come from the environment and from a file of assignments; the environment wins.  Names are
compared in lower case.  The list of origins is written in JSON, and each of the two sources is
asked for it before anything else is checked.

A name in the file that is no setting is refused; in the environment it is ignored.
-/

set_option autoImplicit false

namespace GoGlobals.Settings

/-- The names of the settings, in the order in which they are checked. -/
def fieldNames : List String :=
  ["source_suffix", "test_suffix", "include_tests", "log_level", "port", "host", "cors_origins"]

/-- The setting that is written in JSON. -/
def jsonField : String := "cors_origins"

/-- Where settings come from. -/
inductive Origin where
  | environment
  | file
deriving DecidableEq, Repr

/-- The name of a source of settings. -/
def Origin.name : Origin → String
  | environment => "EnvSettingsSource"
  | file => "DotEnvSettingsSource"

/-- Why settings cannot be loaded. -/
inductive LoadError where
  /-- A text that should be JSON is not. -/
  | notJson (field : String) (origin : Origin)
  | invalid (problems : List Problem)

/-- The wording of a text that is not JSON. -/
def notJsonMessage (field : String) (origin : Origin) : String :=
  "error parsing value for field \"" ++ field ++ "\" from source \"" ++ origin.name ++ "\""

/-- Names in lower case; of names that become equal, the last keeps its value. -/
def lowerNames {α : Type} (pairs : List (String × α)) : List (String × α) :=
  pairs.foldl (fun found p => DotEnv.assign (Text.lower p.1) p.2 found) []

/-- The value of a text that should be JSON.  A mark of the encoding in front of it is no JSON. -/
def jsonValue? (text : String) : Option Json :=
  match Json.parse text with
  | .ok value => some value
  | .error _ => none

/-- The value that a source gives a setting, if it gives one. -/
def fieldValue (origin : Origin) (pairs : List (String × Option String)) (field : String) :
    Except LoadError (Option Json) :=
  match (DotEnv.lastValue? pairs field).join with
  | none => .ok none
  | some text =>
    if field == jsonField then
      match jsonValue? text with
      | none => .error (.notJson field origin)
      | some .null => .ok none
      | some value => .ok (some value)
    else .ok (some (.ofText text))

/-- The values that a source gives. -/
def sourceValues (origin : Origin) (pairs : List (String × Option String)) :
    Except LoadError (List (JsonString × Json)) := do
  let values ← fieldNames.mapM fun field => do
    return (← fieldValue origin pairs field).map fun v => (JsonString.text field, v)
  return values.filterMap id

/-- The names of a file that are no settings and have a value. -/
def strangers (pairs : List (String × Option String)) : List (String × String) :=
  pairs.filterMap fun (name, value) =>
    match value with
    | none => none
    | some text =>
      if text.isEmpty || fieldNames.contains name then none else some (name, text)

/-- The problem with a name that is no setting. -/
def strangerProblem (p : String × String) : Problem :=
  { kind := .extraForbidden, way := [.field p.1], input := .ofText p.2 }

/-- Reads the settings from the values of the sources. -/
def readFields (o : Object) : Checked Settings :=
  let defaults : Settings := {}
  let files := Checked.both (o.optional "source_suffix" defaults.sourceSuffix readString)
    (Checked.both (o.optional "test_suffix" defaults.testSuffix readString)
      (o.optional "include_tests" defaults.includeTests readBool))
  let server := Checked.both (o.optional "log_level" defaults.logLevel readString)
    (Checked.both (o.optional "port" defaults.port readInt)
      (Checked.both (o.optional "host" defaults.host readString)
        (o.optional "cors_origins" defaults.corsOrigins (readList readString))))
  (Checked.both files server).map fun r =>
    { sourceSuffix := r.1.1, testSuffix := r.1.2.1, includeTests := r.1.2.2, logLevel := r.2.1
      port := r.2.2.1, host := r.2.2.2.1, corsOrigins := r.2.2.2.2 }

/-- Loads the settings. -/
def load (environment : List (String × String)) (file : Option String) :
    Except LoadError Settings := do
  let given := lowerNames (environment.map fun p => (p.1, some p.2))
  let written := lowerNames (DotEnv.read environment (file.getD ""))
  let first ← sourceValues .environment given
  let second ← sourceValues .file written
  let extra := (strangers written).map strangerProblem
  match readFields ⟨first ++ second⟩ with
  | .error problems => throw (.invalid (problems ++ extra))
  | .ok settings => if extra.isEmpty then return settings else throw (.invalid extra)

end GoGlobals.Settings
