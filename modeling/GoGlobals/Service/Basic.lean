import GoGlobals.Json.Basic
import GoGlobals.Schema

/-!
# Requests and replies

A request has a method, a url and a body of bytes.  A reply has a status and a payload, which is a
JSON value unless the service failed.

## What is here

* `Request` and `Reply`.
* `Problem.detail` is the entry of an invalid request's reply that tells about one problem.
* `Reply.payload` is what is sent.  A value that JSON cannot hold cannot be sent, so a reply that
  would echo one becomes a failure of the service.
-/

set_option autoImplicit false

namespace GoGlobals

/-- The wording of a problem with a request. -/
def ProblemKind.message : ProblemKind → String
  | missing => "Field required"
  | modelType => "Input should be a valid dictionary or instance"
  | modelAttributesType => "Input should be a valid dictionary or object to extract fields from"
  | stringType => "Input should be a valid string"
  | stringUnicode =>
    "Input should be a valid string, unable to parse raw data as a unicode string"
  | stringTooShort n =>
    "String should have at least " ++ toString n ++ (if n = 1 then " character" else " characters")
  | listType => "Input should be a valid list"
  | intType => "Input should be a valid integer"
  | intParsing => "Input should be a valid integer, unable to parse string as an integer"
  | intParsingSize => "Unable to parse input string as an integer, exceeded maximum size"
  | intFromFloat => "Input should be a valid integer, got a number with a fractional part"
  | finiteNumber => "Input should be a finite number"
  | boolType => "Input should be a valid boolean"
  | boolParsing => "Input should be a valid boolean, unable to interpret input"
  | unionTagNotFound => "Unable to extract tag"
  | unionTagInvalid => "Input tag does not match any of the expected tags"
  | extraForbidden => "Extra inputs are not permitted"
  | jsonInvalid _ => "JSON decode error"

/-- What a problem says beside its message. -/
def ProblemKind.context : ProblemKind → List (String × Json)
  | stringTooShort n => [("min_length", .int n)]
  | jsonInvalid error => [("error", .ofText error)]
  | _ => []

/-- A step on the way to a value. -/
def Waypoint.json : Waypoint → Json
  | field name => .ofText name
  | index i => .int i

/-- The entry about a problem. -/
def Problem.detail (p : Problem) : Json :=
  .object <| [("type", .ofText p.kind.name), ("loc", .arr (p.way.map Waypoint.json)),
    ("msg", .ofText p.kind.message), ("input", p.input)] ++
    (if p.kind.context.isEmpty then [] else [("ctx", .object p.kind.context)])

namespace Service

/-- A request. -/
structure Request where
  method : String := "POST"
  url : String
  body : List UInt8 := []

/-- What a request is answered with. -/
inductive Reply where
  /-- The service is up. -/
  | health (version sourceSuffix : String)
  /-- A scan succeeded: how many files were checked, and the lines that report what was found. -/
  | scanned (files : Nat) (messages : List String)
  /-- The request is invalid: what is wrong with it, and the start of its body. -/
  | invalid (problems : List Problem) (body : String)
  /-- The request fails for a reason that is told. -/
  | refused (status : Nat) (detail : String)
  /-- The service itself failed. -/
  | failed

/-- What is sent. -/
inductive Payload where
  | json (value : Json)
  | text (s : String)

/-- A status and what is sent with it. -/
structure Response where
  status : Nat
  payload : Payload

/-- The answer to a request that the service fails on. -/
def failure : Response :=
  ⟨500, .text "Internal Server Error"⟩

/-- A response with a JSON value, if the value can be sent. -/
def send (status : Nat) (value : Json) : Response :=
  if value.isWritable then ⟨status, .json value⟩ else failure

/-- The response of a reply; a scan took some time. -/
def Reply.response (elapsed : Json) : Reply → Response
  | health version sourceSuffix =>
    send 200 (.object [("status", .ofText "ok"), ("version", .ofText version),
      ("source_suffix", .ofText sourceSuffix)])
  | scanned files messages =>
    send 200 (.object [("message", .ofText "scan_complete"), ("files_scanned", .int files),
      ("diagnostics", .arr (messages.map Json.ofText)), ("scan_duration_ms", elapsed)])
  | invalid problems body =>
    send 422 (.object [("detail", .arr (problems.map Problem.detail)), ("body", .ofText body)])
  | refused status detail => send status (.object [("detail", .ofText detail)])
  | failed => failure

end Service

end GoGlobals
