import GoGlobals.Service

/-!
# Requests with a content type

The content type of a request says whether its body is JSON.  A body that is not said to be JSON is
not read: it is taken as it is, as bytes, and bytes are no object with fields.  An empty body is
nothing under any content type.

A request whose body does not have the fields that are asked for is answered with complaints.  Each
of them shows the value that it is about, which is part of the value of the body or all of the
bytes.

## What is here

* `Complaint` is a problem with a request, or with its bytes.
* `Submission.complaints?` is what there is to complain about in a request.
* `complain` answers with complaints, and `Submission.respond` answers any request.
-/

set_option autoImplicit false

namespace GoGlobals.Service

/-- A request, and whether its content type says that the body is JSON. -/
structure Submission where
  request : Request
  declaresJson : Bool := true

/-! ## Complaints -/

/-- What a complaint shows: a value that was read from the body, or the body. -/
inductive Shown where
  | value (v : Json)
  | bytes (bs : List UInt8)

/-- A complaint about a request. -/
structure Complaint where
  kind : ProblemKind
  way : List Waypoint
  shown : Shown

/-- The complaint about a problem with the body. -/
def Complaint.ofProblem (p : Problem) : Complaint :=
  ⟨p.kind, .field "body" :: p.way, .value p.input⟩

/-- The entry about a complaint.  There are no bytes in JSON. -/
def Complaint.detail? (c : Complaint) : Option Json :=
  match c.shown with
  | .value v => some (Problem.detail ⟨c.kind, c.way, v⟩)
  | .bytes _ => none

/-- The complaint about bytes that stand where an object should be. -/
def unreadComplaint (body : List UInt8) : Complaint :=
  ⟨.modelAttributesType, [.field "body"], .bytes body⟩

/-- The complaints about a body that is read by `read`.  A body that is not even a text is refused
without one. -/
def complaintsOf? {α : Type} (declaresJson : Bool) (body : List UInt8)
    (read : Json → Checked α) : Option (List Complaint) :=
  if declaresJson || body.isEmpty then
    match readBody body with
    | .error .unreadable => none
    | .error (.problem p) => some [.ofProblem p]
    | .ok value =>
      match read value with
      | .error problems => some (problems.map .ofProblem)
      | .ok _ => none
  else some [unreadComplaint body]

/-- The complaints about a request, if it comes to reading the body and there are any. -/
def Submission.complaints? (s : Submission) : Option (List Complaint) :=
  match route? s.request.url with
  | none => none
  | some route =>
    if s.request.method == route.method then
      match route with
      | .health => none
      | .scan => complaintsOf? s.declaresJson s.request.body readScanRequest
      | .source => complaintsOf? s.declaresJson s.request.body readSourceRequest
    else none

/-! ## Answers -/

/-- The answer with complaints.  It shows the body as a text and the complaints as JSON, and fails
where one of the two is impossible. -/
def complain (body : List UInt8) (complaints : List Complaint) : Response :=
  match Text.strictText? body, complaints.mapM Complaint.detail? with
  | some text, some details =>
    send 422 (.object [("detail", .arr details), ("body", .ofText (clip shownBody text))])
  | _, _ => failure

/-- The response to a request under its content type. -/
def Submission.respond (fs : FileSystem) (settings : Settings) (elapsed : Json) (s : Submission) :
    Response :=
  match s.complaints? with
  | some complaints => complain s.request.body complaints
  | none => (Service.respond fs settings elapsed s.request).value

end GoGlobals.Service
