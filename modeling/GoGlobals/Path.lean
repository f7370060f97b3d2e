/-!
# Paths

A path is a text whose components are separated by `/`.  Everything here is lexical: no file
system is asked, so `link/..` is the empty way even where `link` is a symbolic link.

## What is here

* `components` splits a path and `Path.join` puts a name behind a directory.
* `normalize` cleans a path: no empty and no `.` components, every `..` taken back against the
  component before it, at most one `/` in front (exactly two are kept), and `.` for nothing.
* `splitRecursive` takes the marker `/...`, which asks for all subdirectories, off the end.
* `shouldDescend` and `shouldParse` decide what a walk enters and which files it checks.
-/

set_option autoImplicit false

namespace GoGlobals.Path

/-- The parts of a text between separators, at least one. -/
def splitOnSlash : List Char → List (List Char)
  | [] => [[]]
  | c :: cs =>
    if c == '/' then [] :: splitOnSlash cs
    else match splitOnSlash cs with
      | [] => [[c]]
      | part :: parts => (c :: part) :: parts

/-- The components of a path; some may be empty. -/
def components (path : String) : List String :=
  (splitOnSlash path.toList).map String.ofList

/-- Is the path absolute? -/
def isAbsolute (path : String) : Bool :=
  path.toList.head? == some '/'

/-- A name behind a directory.  An absolute name stands for itself. -/
def join (directory name : String) : String :=
  if isAbsolute name then name
  else if directory.isEmpty || directory.toList.getLast? == some '/' then directory ++ name
  else directory ++ "/" ++ name

/-- The number of slashes that a clean path keeps in front: exactly two are kept, more are one. -/
def leadingSlashes (cs : List Char) : Nat :=
  match cs with
  | '/' :: '/' :: '/' :: _ => 1
  | '/' :: '/' :: _ => 2
  | '/' :: _ => 1
  | _ => 0

/-- Adds a component to a clean list of components, last first.  A `..` takes back the component
before it; in front it is kept in a relative path and dropped in an absolute one. -/
def push (absolute : Bool) (stack : List String) (component : String) : List String :=
  if component == "" || component == "." then stack
  else if component == ".." then
    match stack with
    | [] => if absolute then [] else [".."]
    | top :: rest => if top == ".." then ".." :: stack else rest
  else component :: stack

/-- The components of a clean path. -/
def cleanComponents (path : String) : List String :=
  ((components path).foldl (push (isAbsolute path)) []).reverse

/-- The clean form of a path. -/
def normalize (path : String) : String :=
  let body := String.ofList (List.replicate (leadingSlashes path.toList) '/') ++
    "/".intercalate (cleanComponents path)
  if body.isEmpty then "." else body

/-! ## Roots and eligible files -/

/-- The marker that asks for all subdirectories. -/
def recursiveMarker : String := "/..."

/-- Does a text end with another? -/
def endsWith (s ending : String) : Bool :=
  ending.toList.isSuffixOf s.toList

/-- A root without a trailing marker, and whether the marker was there. -/
def splitRecursive (root : String) : String × Bool :=
  if endsWith root recursiveMarker then
    (String.ofList (root.toList.take (root.toList.length - recursiveMarker.toList.length)), true)
  else (root, false)

/-- The root is always entered, anything below it only in a recursive walk. -/
def shouldDescend (path root : String) (recursive : Bool) : Bool :=
  recursive || path == root

/-- The endings that select files: of sources, and of the tests among them. -/
structure Endings where
  source : String := ".go"
  test : String := "_test.go"
deriving DecidableEq, Repr, Inhabited

/-- Is a file of this path checked? -/
def shouldParse (path : String) (includeTests : Bool) (endings : Endings) : Bool :=
  endsWith path endings.source && (includeTests || !endsWith path endings.test)

end GoGlobals.Path
