import GoGlobals.Path
import GoGlobals.Text.Quoted
import GoGlobals.Text.Utf8

/-!
# File systems

A file system is a tree of entries: files with their bytes, directories with named entries, and
symbolic links with the path they stand for.  One directory of it is the current one, where the
relative paths start.

## What is here

* `Entry` and `FileSystem`.
* `resolve` follows a path.  A `..` leads to the directory that holds the current one, also behind
  a link, so the answer can differ from that of the lexical rules for paths.  At most `maxLinks`
  links are followed.
* `pathExists`, `isDirectory`, `read` and `list` ask what a path leads to.
* `PathFault` lists the ways in which following a path or opening its target can fail.
-/

set_option autoImplicit false

namespace GoGlobals

open Text (Source)

/-- Something in a directory. -/
inductive Entry where
  | file (content : Source)
  | link (target : String)
  | directory (entries : List (String × Entry))
deriving Inhabited

/-- The named entries of a directory. -/
abbrev Entries := List (String × Entry)

/-- Is the entry itself a directory?  A link to one is none. -/
def Entry.isDirectory : Entry → Bool
  | directory _ => true
  | file _ | link _ => false

/-- The entry of a name. -/
def Entries.get? (entries : Entries) (name : String) : Option Entry :=
  (entries.find? fun e => e.1 == name).map (·.2)

/-- A tree of entries, and the names that lead from its top to the current directory. -/
structure FileSystem where
  top : Entries
  current : List String := []

/-! ## Ways to fail -/

/-- Why a path cannot be followed, or its target not be opened. -/
inductive PathFault where
  | missing
  | notDirectory
  | isDirectory
  | tooLong
  | tooManyLinks
  /-- A path cannot hold the NUL character. -/
  | nul
deriving DecidableEq, Repr

/-- The number and the text that the system has for a fault. -/
def PathFault.system? : PathFault → Option (Nat × String)
  | missing => some (2, "No such file or directory")
  | notDirectory => some (20, "Not a directory")
  | isDirectory => some (21, "Is a directory")
  | tooLong => some (36, "File name too long")
  | tooManyLinks => some (40, "Too many levels of symbolic links")
  | nul => none

/-- The wording of a fault with a path. -/
def PathFault.message (fault : PathFault) (path : String) : String :=
  match fault.system? with
  | some (number, text) => "[Errno " ++ toString number ++ "] " ++ text ++ ": " ++ Text.quoted path
  | none => "embedded null byte"

/-! ## Following a path -/

/-- The largest number of links that are followed on one path. -/
def maxLinks : Nat := 40

/-- The largest number of bytes of a name. -/
def maxNameBytes : Nat := 255

/-- A path must have fewer bytes than this. -/
def pathBytesLimit : Nat := 4096

/-- A directory with its name. -/
structure Frame where
  name : String
  entries : Entries

/-- The way from the top to a directory: the directories on it, innermost first. -/
structure Trail where
  top : Entries
  frames : List Frame := []

namespace Trail

/-- The entries of the directory that the way leads to. -/
def entries (t : Trail) : Entries :=
  match t.frames with
  | [] => t.top
  | f :: _ => f.entries

/-- The way to the directory that holds this one; the top holds itself. -/
def up (t : Trail) : Trail :=
  { t with frames := t.frames.tail }

/-- The way to a directory inside. -/
def down (t : Trail) (name : String) (entries : Entries) : Trail :=
  { t with frames := ⟨name, entries⟩ :: t.frames }

/-- The way back to the top. -/
def toTop (t : Trail) : Trail :=
  { t with frames := [] }

/-- The names from the top on. -/
def names (t : Trail) : List String :=
  t.frames.reverse.map (·.name)

/-- Follows names as long as they are directories. -/
def descend (t : Trail) : List String → Trail
  | [] => t
  | name :: rest =>
    match t.entries.get? name with
    | some (.directory entries) => (t.down name entries).descend rest
    | _ => t

/-- The way on which a path starts that is met here. -/
def start (t : Trail) (path : String) : Trail :=
  if Path.isAbsolute path then t.toTop else t

end Trail

/-- An entry and the names that lead to it from the top. -/
structure Target where
  entry : Entry
  location : List String

/-- How far components lead without following a link. -/
inductive Step where
  | arrived (target : Target)
  /-- At a link: its target, the way to the directory that holds it, and the components left. -/
  | detour (path : String) (trail : Trail) (rest : List String)
  | lost (fault : PathFault)

/-- Follows components up to the first link.  A link at the end is the target itself, unless it
`follows` links there too. -/
def advance (follows : Bool) : Trail → List String → Step
  | t, [] => .arrived ⟨.directory t.entries, t.names⟩
  | t, c :: rest =>
    if c == "" || c == "." then advance follows t rest
    else if c == ".." then advance follows t.up rest
    else if maxNameBytes < c.utf8ByteSize then .lost .tooLong
    else match t.entries.get? c with
      | none => .lost .missing
      | some (.directory entries) => advance follows (t.down c entries) rest
      | some (.file content) =>
        if rest.isEmpty then .arrived ⟨.file content, t.names ++ [c]⟩ else .lost .notDirectory
      | some (.link target) =>
        if rest.isEmpty && !follows then .arrived ⟨.link target, t.names ++ [c]⟩
        else .detour target t rest

/-- Follows components and at most `links` links. -/
def resolveFrom (follows : Bool) (links : Nat) (trail : Trail) (components : List String) :
    Except PathFault Target :=
  match advance follows trail components with
  | .arrived target => .ok target
  | .lost fault => .error fault
  | .detour path trail rest =>
    match links with
    | 0 => .error .tooManyLinks
    | links + 1 => resolveFrom follows links (trail.start path) (Path.components path ++ rest)

namespace FileSystem

/-- The way to the current directory. -/
def here (fs : FileSystem) : Trail :=
  Trail.descend ⟨fs.top, []⟩ fs.current

/-- What is wrong with a path before it is followed. -/
def pathFault? (path : String) : Option PathFault :=
  if path.toList.contains '\x00' then some .nul
  else if path.isEmpty then some .missing
  else if pathBytesLimit ≤ path.utf8ByteSize then some .tooLong
  else none

/-- What a path leads to. -/
def resolve (fs : FileSystem) (path : String) (follows : Bool := true) : Except PathFault Target :=
  match pathFault? path with
  | some fault => .error fault
  | none => resolveFrom follows maxLinks (fs.here.start path) (Path.components path)

/-! ## Questions and reading -/

/-- Does the path lead to something? -/
def pathExists (fs : FileSystem) (path : String) : Bool :=
  (fs.resolve path).isOk

/-- Does the path lead to a directory? -/
def isDirectory (fs : FileSystem) (path : String) : Bool :=
  match fs.resolve path with
  | .ok target => target.entry.isDirectory
  | .error _ => false

/-- The bytes of a file. -/
def read (fs : FileSystem) (path : String) : Except PathFault Source :=
  match fs.resolve path with
  | .error fault => .error fault
  | .ok ⟨.file content, _⟩ => .ok content
  | .ok ⟨.directory _, _⟩ => .error .isDirectory
  | .ok ⟨.link _, _⟩ => .error .tooManyLinks

/-- The entries of a directory. -/
def list (fs : FileSystem) (path : String) : Except PathFault Entries :=
  match fs.resolve path with
  | .error fault => .error fault
  | .ok ⟨.directory entries, _⟩ => .ok entries
  | .ok ⟨.file _, _⟩ => .error .notDirectory
  | .ok ⟨.link _, _⟩ => .error .tooManyLinks

end FileSystem

end GoGlobals
