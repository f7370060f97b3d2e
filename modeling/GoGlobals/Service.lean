import GoGlobals.Scan
import GoGlobals.Service.Basic
import GoGlobals.Service.Inspect
import GoGlobals.Service.Requests
import GoGlobals.Settings.Basic

/-!
# The service

Three things can be asked of the service: whether it is up, a scan of a path, and a check of a text.

## What is here

* `route?` finds what a url asks for.  A slash behind a known url leads to the url without it.
* `scanPath` and `scanSource` answer the two requests with a body.
* `handle` answers any request, and `respond` gives what is sent.
-/

set_option autoImplicit false

namespace GoGlobals.Service

/-! ## Routes -/

/-- What can be asked. -/
inductive Route where
  | health
  | scan
  | source
deriving DecidableEq, Repr

/-- The url of a route. -/
def Route.url : Route → String
  | health => "/health"
  | scan => "/scan"
  | source => "/scan/source"

/-- The method that a route takes. -/
def Route.method : Route → String
  | health => "GET"
  | scan => "POST"
  | source => "POST"

/-- The path of a url, without a query and a fragment.  A url without a slash in front is taken from
the root. -/
def pathOf (url : String) : List Char :=
  let path := url.toList.takeWhile fun c => c != '?' && c != '#'
  if path.head? == some '/' then path else '/' :: path

/-- The route of a path. -/
def routeOf? (path : List Char) : Option Route :=
  [Route.health, .scan, .source].find? fun r => r.url.toList == path

/-- The route of a url. -/
def route? (url : String) : Option Route :=
  let path := pathOf url
  match routeOf? path with
  | some r => some r
  | none => routeOf? (Text.trimRight (· == '/') path)

/-! ## Answers -/

/-- The version of the service. -/
def version : String := "1.0.0"

/-- The largest number of characters of a text that is checked. -/
def maxContent : Nat := 500000

/-- The number of characters of an invalid body that the reply shows. -/
def shownBody : Nat := 100

/-- The number of characters of an invalid body that the log shows. -/
def loggedBody : Nat := 500

/-- The first characters of a text. -/
def clip (n : Nat) (s : String) : String :=
  String.ofList (s.toList.take n)

/-- The answer to an invalid request.  It shows the body, so it fails for a body that is no text. -/
def reject (body : List UInt8) (problems : List Problem) : Logged Reply :=
  let problems := problems.map fun p => { p with way := .field "body" :: p.way }
  match Text.strictText? body with
  | none => pure .failed
  | some text => do
    Logged.tell .error .service ("Validation Error. Raw body: " ++ clip loggedBody text ++
      " | Errors: " ++ inspectProblems problems)
    return .invalid problems (clip shownBody text)

/-- Answers a request whose body is read by `read`. -/
def withBody {α : Type} (body : List UInt8) (read : Json → Checked α) (answer : α → Logged Reply) :
    Logged Reply :=
  match readBody body with
  | .error .unreadable => pure (.refused 400 "There was an error parsing the body")
  | .error (.problem p) => reject body [p]
  | .ok value =>
    match read value with
    | .error problems => reject body problems
    | .ok request => answer request

/-- Is the error that nothing is there? -/
def isMissing : ScanError → Bool
  | .unread .missing _ => true
  | .walk (.noRoot _) => true
  | .walk (.unlisted .missing _) => true
  | _ => false

/-- Answers a request to scan a path. -/
def scanPath (fs : FileSystem) (settings : Settings) (request : ScanRequest) : Logged Reply := do
  let tests := request.includeTests.getD settings.includeTests
  match ← GoGlobals.scan fs settings.endings request.path tests with
  | .ok result => return .scanned result.files result.messages
  | .error (.refused e) =>
    Logged.tell .error .scanRequests ("Scan aborted: " ++ e.render)
    return .refused 422 e.render
  | .error (.check _) => return .failed
  | .error e =>
    if isMissing e then return .refused 404 ("Path not found: " ++ request.path)
    else
      Logged.tell .error .scanRequests
        ("Scan failed reading " ++ request.path ++ ": " ++ e.message)
      return .refused 400 ("Could not read " ++ request.path)

/-- Answers a request to check a text. -/
def scanSource (request : SourceRequest) : Logged Reply := do
  if maxContent < request.content.length then
    return .refused 400
      ("Code exceeds maximum length of " ++ toString maxContent ++ " characters")
  else
    match ← checkSource (Text.bytesOf request.content).toArray request.path with
    | .ok found => return .scanned 1 (found.map (·.message))
    | .error (.refused e) => return .refused 422 e.render
    | .error _ => return .failed

/-- Answers a request for a route. -/
def answer (fs : FileSystem) (settings : Settings) (body : List UInt8) : Route → Logged Reply
  | .health => pure (.health version settings.sourceSuffix)
  | .scan => withBody body readScanRequest (scanPath fs settings)
  | .source => withBody body readSourceRequest scanSource

/-- Answers a request. -/
def handle (fs : FileSystem) (settings : Settings) (request : Request) : Logged Reply :=
  match route? request.url with
  | none => pure (.refused 404 "Not Found")
  | some route =>
    if request.method == route.method then answer fs settings request.body route
    else pure (.refused 405 "Method Not Allowed")

/-- The response to a request; a scan took some time.  A response to `HEAD` has no body. -/
def respond (fs : FileSystem) (settings : Settings) (elapsed : Json) (request : Request) :
    Logged Response := do
  let response := (← handle fs settings request).response elapsed
  return if request.method == "HEAD" then { response with payload := .text "" } else response

end GoGlobals.Service
