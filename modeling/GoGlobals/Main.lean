import GoGlobals.CommandLine
import GoGlobals.FileSystem.Edit
import GoGlobals.Settings.Load

/-!
# The program

The program takes a picture of the part of the disk that its arguments name, loads its settings, and
runs the command on the picture.  Nothing is decided here.
-/

set_option autoImplicit false

namespace GoGlobals.Main

/-- A target that no picture holds, for links that lead nowhere. -/
def nowhere : String := "/\x00"

/-- Puts what stands at a path into a picture; `enter` says whether the entries of a directory are
put in too, and `selects` of which files below it the content is needed. -/
partial def capture (selects : String → Bool) (recursive enter needed : Bool) (fs : FileSystem)
    (path : String) : IO FileSystem := do
  let file := (← IO.currentDir) / path
  let kind ← try pure (some (← file.symlinkMetadata).type) catch _ => pure none
  match kind with
  | none => return fs
  | some .symlink =>
    let target ← try pure (some (← IO.FS.realPath file)) catch _ => pure none
    match target with
    | none => return fs.put path (.link nowhere)
    | some real =>
      capture selects recursive enter needed (fs.put path (.link real.toString)) real.toString
  | some .dir =>
    let mut picture := fs.put path (.directory [])
    if enter then
      let entries ← try file.readDir catch _ => pure #[]
      for e in entries do
        let below := Path.join path e.fileName
        picture ← capture selects recursive recursive (selects below) picture below
    return picture
  | some _ =>
    let content ← if needed then
        try IO.FS.readBinFile file catch _ => pure ByteArray.empty
      else pure ByteArray.empty
    return fs.put path (.file content.data)

/-- The paths that lead to a path, shortest first. -/
def leading (path : String) : List String :=
  let parts := Path.components path
  ((List.range parts.length).map fun n => "/".intercalate (parts.take n)).filter (!·.isEmpty)

/-- The picture of what a command needs. -/
def pictureFor (settings : Settings) (paths : List String) : IO FileSystem := do
  let here := (← IO.currentDir).toString
  let current := (Path.components here).filter (!·.isEmpty)
  let mut picture := { FileSystem.put ⟨[], []⟩ here (.directory []) with current }
  for path in paths do
    let (root, recursive) := Path.splitRecursive path
    for step in leading root do
      picture ← capture (fun _ => false) false false false picture step
    for place in [root, Path.normalize root] do
      picture ← capture (Path.endsWith · settings.sourceSuffix) recursive true true picture place
  return picture

/-- The settings of the surroundings. -/
def loadSettings : IO (Except Settings.LoadError Settings) := do
  let mut environment := []
  for name in Settings.fieldNames do
    for spelling in [name, String.ofList (name.toList.map Char.toUpper)] do
      if let some value ← IO.getEnv spelling then
        environment := environment ++ [(spelling, value)]
  let file ← try pure (some (← IO.FS.readFile ".env")) catch _ => pure none
  return Settings.load environment file

/-- The wording of settings that cannot be loaded. -/
def loadMessage : Settings.LoadError → String
  | .notJson field origin => Settings.notJsonMessage field origin
  | .invalid problems => "\n".intercalate (problems.map fun p => p.kind.name)

end GoGlobals.Main

open GoGlobals in
/-- Runs the command on the disk. -/
def main (arguments : List String) : IO UInt32 := do
  match ← Main.loadSettings with
  | .error e =>
    IO.eprintln (Main.loadMessage e)
    return 1
  | .ok settings =>
    let paths := match CommandLine.parse arguments with
      | .ok parsed => parsed.paths
      | .error _ => []
    let picture ← Main.pictureFor settings paths
    let output := (CommandLine.run picture settings arguments).value
    IO.print output.stdout
    IO.eprint output.stderr
    return output.status.toUInt32
