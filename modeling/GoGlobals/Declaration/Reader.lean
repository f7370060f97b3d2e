import GoGlobals.Declaration
import GoGlobals.Diagnostic
import GoGlobals.Schema

/-!
# Declarations and diagnostics as data

The declarations of a file and single diagnostics can be handed in as JSON.  An initializer is an
object whose `kind` says which shape it has; the way to a problem inside it goes through that word.
-/

set_option autoImplicit false

namespace GoGlobals

/-- The shapes of an initializer, by the word for them. -/
def initializerReaders : List (String × (Object → Checked Initializer)) :=
  [("call", fun o =>
      ((o.optional "namespace" none readStringOrNull).both
        (o.optional "member" none readStringOrNull)).map fun r => .call r.1 r.2),
    ("composite", fun o =>
      ((o.optional "namespace" none readStringOrNull).both
        (o.optional "member" none readStringOrNull)).map fun r => .composite r.1 r.2),
    ("literal", fun o => (o.optional "text" "" readString).map .literal),
    ("other", fun o => (o.optional "node_type" "" readString).map .other)]

/-- Reads an initializer. -/
def readInitializer : Json → Checked Initializer
  | .obj members =>
    match Json.lookup members "kind" with
    | none => Checked.problem .unionTagNotFound (.obj members)
    | some (.str (.text tag)) =>
      match initializerReaders.lookup tag with
      | some read => Checked.under (.field tag) (read ⟨members⟩)
      | none => Checked.problem .unionTagInvalid (.obj members)
    | some _ => Checked.problem .unionTagInvalid (.obj members)
  | v => Checked.problem .modelAttributesType v

/-- Reads a bound name. -/
def readIdentifier : Json → Checked Identifier :=
  readObject .modelType fun o =>
    ((o.required "name" readString).both (o.required "line" readInt)).map fun r => ⟨r.1, r.2⟩

/-- Reads a group. -/
def readGroup : Json → Checked Group :=
  readObject .modelType fun o =>
    ((o.required "file_path" readString).both
      ((o.required "line" readInt).both
        ((o.optional "names" [] (readList readIdentifier)).both
          (o.optional "values" [] (readList readInitializer))))).map
      fun r => ⟨r.1, r.2.1, r.2.2.1, r.2.2.2⟩

/-- Reads the declarations of a file. -/
def readSourceFile : Json → Checked SourceFile :=
  readObject .modelType fun o =>
    ((o.required "path" readString).both
      ((o.optional "package" "" readString).both
        (o.optional "groups" [] (readList readGroup)))).map
      fun r => ⟨r.1, r.2.1, r.2.2⟩

/-- Reads a diagnostic. -/
def readDiagnostic : Json → Checked Diagnostic :=
  readObject .modelType fun o =>
    ((o.required "file" readString).both
      ((o.required "line" readInt).both (o.required "name" readString))).map
      fun r => ⟨r.1, r.2.1, r.2.2⟩

end GoGlobals
