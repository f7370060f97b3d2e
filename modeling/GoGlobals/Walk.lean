import GoGlobals.FileSystem.Basic

/-!
# Walking a directory

A walk lists a directory, goes through its entries in the order of their names, enters the
directories among them at once, and selects files by the ends of their paths.  The path of an entry
is the clean form of its name behind the path of its directory.

## What is here

* `Visit` is what a walk meets: a file to check, or a directory that it passes by.
* `Walk` is all that a walk meets, in order, up to the first directory that cannot be listed.
* `Selection` says which files a walk selects and whether it enters directories.
* `walk` walks from a root, which may also be a file.
-/

set_option autoImplicit false

namespace GoGlobals

/-- What a walk meets. -/
inductive Visit where
  | file (path : String)
  /-- A directory that is not entered. -/
  | passedBy (path : String)
deriving DecidableEq, Repr

/-- Why a walk ends early. -/
inductive WalkError where
  /-- There is nothing at the root. -/
  | noRoot (root : String)
  /-- A directory cannot be listed. -/
  | unlisted (fault : PathFault) (directory : String)
deriving DecidableEq, Repr

/-- The wording of a failed walk. -/
def WalkError.message : WalkError → String
  | noRoot root => "no such file or directory: " ++ root
  | unlisted fault directory => fault.message directory

/-- What a walk met, and why it ended early if it did. -/
structure Walk where
  visits : List Visit := []
  error : Option WalkError := none
deriving DecidableEq, Repr

namespace Walk

/-- One more visit in front. -/
def cons (v : Visit) (w : Walk) : Walk :=
  { w with visits := v :: w.visits }

/-- A walk and what comes after it, which is nothing if the walk ended early. -/
def append (w next : Walk) : Walk :=
  match w.error with
  | some _ => w
  | none => ⟨w.visits ++ next.visits, next.error⟩

/-- The files of a walk. -/
def files (w : Walk) : List String :=
  w.visits.filterMap fun
    | .file path => some path
    | .passedBy _ => none

end Walk

/-- Which files a walk selects, and whether it enters the directories it meets. -/
structure Selection where
  endings : Path.Endings := {}
  includeTests : Bool := false
  recursive : Bool := false
deriving DecidableEq, Repr

namespace Selection

/-- Is a file of this path selected? -/
def selects (s : Selection) (path : String) : Bool :=
  Path.shouldParse path s.includeTests s.endings

/-- Is a directory of this path entered? -/
def enters (s : Selection) (root path : String) : Bool :=
  Path.shouldDescend path root s.recursive

end Selection

/-- The entries of a directory in the order of their names. -/
def Entries.sorted (entries : Entries) : Entries :=
  entries.mergeSort fun a b => decide (a.1 ≤ b.1)

/-- The path of an entry of a directory. -/
def entryPath (directory name : String) : String :=
  Path.normalize (Path.join directory name)

/-- Goes through entries in the order given; `enter` walks the directories among them. -/
def walkEntries (s : Selection) (root : String) (enter : String → Walk) (directory : String) :
    Entries → Walk
  | [] => {}
  | (name, entry) :: rest =>
    let path := entryPath directory name
    if entry.isDirectory then
      if s.enters root path then
        (enter path).append (walkEntries s root enter directory rest)
      else (walkEntries s root enter directory rest).cons (.passedBy path)
    else if s.selects path then (walkEntries s root enter directory rest).cons (.file path)
    else walkEntries s root enter directory rest

/-- Walks a directory.  A path grows with every directory that is entered and is of bounded length,
so as many levels as a path has bytes are enough. -/
def walkDirectory (fs : FileSystem) (s : Selection) (root : String) :
    (levels : Nat) → (directory : String) → Walk
  | 0, directory => { error := some (.unlisted .tooLong directory) }
  | levels + 1, directory =>
    match fs.list directory with
    | .error fault => { error := some (.unlisted fault directory) }
    | .ok entries =>
      walkEntries s root (walkDirectory fs s root levels) directory entries.sorted

/-- Walks from a root.  A file at the root is met under the path that was given for it. -/
def walk (fs : FileSystem) (s : Selection) (root : String) : Walk :=
  if fs.isDirectory root then walkDirectory fs s root pathBytesLimit root
  else if !fs.pathExists root then { error := some (.noRoot root) }
  else if s.selects root then { visits := [.file root] }
  else {}

end GoGlobals
