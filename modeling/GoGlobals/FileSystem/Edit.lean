import GoGlobals.FileSystem.Basic

/-!
# Changing a file system

Putting an entry at a path makes the directories that are missing on the way; it goes through links,
and a file put at a link goes where the link leads.  Removing takes away what stands at the path
itself, a link included.
-/

set_option autoImplicit false

namespace GoGlobals

namespace Entries

/-- The entries with one more; a name that is present keeps its place and takes the new entry. -/
def insert (name : String) (entry : Entry) : Entries → Entries
  | [] => [(name, entry)]
  | e :: es => if e.1 == name then (name, entry) :: es else e :: insert name entry es

/-- The entries of the directory of a name, none if there is no such directory. -/
def inside (entries : Entries) (name : String) : Entries :=
  match entries.get? name with
  | some (.directory es) => es
  | _ => []

/-- Puts an entry at the end of a way from here. -/
def insertAt (entry : Entry) : List String → Entries → Entries
  | [], entries => entries
  | [name], entries => entries.insert name entry
  | name :: rest, entries =>
    entries.insert name (.directory (insertAt entry rest (entries.inside name)))

/-- Takes away the entry at the end of a way from here. -/
def eraseAt : List String → Entries → Entries
  | [], entries => entries
  | [name], entries => entries.filter fun e => e.1 != name
  | name :: rest, entries => entries.insert name (.directory (eraseAt rest (entries.inside name)))

end Entries

/-- Follows components up to the first link; a missing name is a directory still to be made. -/
def settle (follows : Bool) : Trail → List String → Step
  | t, [] => .arrived ⟨.directory t.entries, t.names⟩
  | t, c :: rest =>
    if c == "" || c == "." then settle follows t rest
    else if c == ".." then settle follows t.up rest
    else match t.entries.get? c with
      | none => settle follows (t.down c []) rest
      | some (.directory entries) => settle follows (t.down c entries) rest
      | some (.file content) =>
        if rest.isEmpty then .arrived ⟨.file content, t.names ++ [c]⟩ else .lost .notDirectory
      | some (.link target) =>
        if rest.isEmpty && !follows then .arrived ⟨.link target, t.names ++ [c]⟩
        else .detour target t rest

/-- The names from the top to where components lead, once missing directories are made. -/
def settleFrom (follows : Bool) (links : Nat) (trail : Trail) (components : List String) :
    Option (List String) :=
  match settle follows trail components with
  | .arrived target => some target.location
  | .lost _ => none
  | .detour path trail rest =>
    match links with
    | 0 => none
    | links + 1 => settleFrom follows links (trail.start path) (Path.components path ++ rest)

namespace FileSystem

/-- Puts an entry at a path.  A directory that is there already stays as it is. -/
def put (fs : FileSystem) (path : String) (entry : Entry) : FileSystem :=
  let follows := match entry with
    | .link _ => false
    | _ => true
  if entry.isDirectory && fs.isDirectory path then fs
  else match settleFrom follows maxLinks (fs.here.start path) (Path.components path) with
    | none => fs
    | some location => { fs with top := Entries.insertAt entry location fs.top }

/-- Takes away what stands at a path, and tells whether there was something. -/
def remove (fs : FileSystem) (path : String) : FileSystem × Bool :=
  match fs.resolve path false with
  | .ok target => ({ fs with top := Entries.eraseAt target.location fs.top }, true)
  | .error _ => (fs, false)

end FileSystem

end GoGlobals
