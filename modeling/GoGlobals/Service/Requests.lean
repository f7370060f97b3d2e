import GoGlobals.Json.Parser
import GoGlobals.Schema
import GoGlobals.Text.Encoding

/-!
# Reading request bodies

The body of a request is JSON text in an encoding of its own.  It is read into a value, and the
value into the fields that a request has.

## What is here

* `readBody` reads the value of a body.  There are three ways to fail: nothing is there, the text is
  not JSON, and the body cannot be read at all.
* `ScanRequest` and `SourceRequest` are the two requests with a body.
-/

set_option autoImplicit false

namespace GoGlobals.Service

/-- Why no value can be read from a body. -/
inductive BodyError where
  | problem (problem : Problem)
  /-- The bytes are no text, or the text is beyond the limits of the reader. -/
  | unreadable

/-- The value of a body. -/
def readBody (body : List UInt8) : Except BodyError Json :=
  if body.isEmpty then .error (.problem { kind := .missing })
  else match Text.codePoints? body with
    | none => .error .unreadable
    | some points =>
      match Json.parsePoints points with
      | .ok value => .ok value
      | .error (.fault fault place) =>
        .error (.problem
          { kind := .jsonInvalid fault.message, way := [.index place], input := .obj [] })
      | .error .tooDeep => .error .unreadable
      | .error .tooManyDigits => .error .unreadable

/-- Reads a text with at least `n` characters. -/
def readLongString (n : Nat) (value : Json) : Checked String :=
  match readString value with
  | .ok s => if s.length < n then Checked.problem (.stringTooShort n) value else .ok s
  | .error ps => .error ps

/-- A request to scan a path. -/
structure ScanRequest where
  path : String
  includeTests : Option Bool := none
deriving DecidableEq, Repr

/-- Reads a request to scan a path. -/
def readScanRequest : Json → Checked ScanRequest :=
  readObject .modelAttributesType fun o =>
    (Checked.both (o.required "path" (readLongString 1))
      (o.optional "include_tests" none readBoolOrNull)).map fun r => ⟨r.1, r.2⟩

/-- A request to check a text. -/
structure SourceRequest where
  path : String := "main.go"
  content : String
deriving DecidableEq, Repr

/-- Reads a request to check a text. -/
def readSourceRequest : Json → Checked SourceRequest :=
  readObject .modelAttributesType fun o =>
    (Checked.both (o.optional "path" "main.go" readString)
      (o.required "content" readString)).map fun r => ⟨r.1, r.2⟩

end GoGlobals.Service
