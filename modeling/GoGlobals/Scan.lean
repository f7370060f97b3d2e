import GoGlobals.Go.SourceTree
import GoGlobals.Log
import GoGlobals.Verdict
import GoGlobals.Walk

/-!
# Scanning

A scan checks the files of a walk in order.  It gives all diagnostics, or the error of the first
step that fails, where listing a directory and checking a file are the steps.

## What is here

* `ScanError` lists the ways to fail, and `ScanError.message` words them.
* `checkSource` checks a text and `checkFile` a file.
* `scan` checks everything below a root; a trailing `/...` asks for all subdirectories.
-/

set_option autoImplicit false

namespace GoGlobals

open Text (Source)

/-- Why a scan fails. -/
inductive ScanError where
  | refused (error : ParseError)
  /-- A file cannot be read. -/
  | unread (fault : PathFault) (path : String)
  | walk (error : WalkError)
  | check (error : CheckError)
deriving DecidableEq, Repr

/-- The wording of a failed scan. -/
def ScanError.message : ScanError → String
  | refused e => e.render
  | unread fault path => fault.message path
  | walk e => e.message
  | check .nameless => "a group has values and no names"

/-- The outcome of a scan: how many files were checked, and what was found in them. -/
structure ScanResult where
  files : Nat := 0
  diagnostics : List Diagnostic := []
deriving DecidableEq, Repr

/-- The lines that report what was found. -/
def ScanResult.messages (r : ScanResult) : List String :=
  r.diagnostics.map (·.message)

/-! ## Checking a file -/

/-- The declarations of a text, or the parse error that refuses it. -/
def readSource (source : Source) (path : String) : Logged (Except ScanError SourceFile) :=
  match SourceFile.read source path with
  | .error refusal => ⟨refusal.records path, .error (.refused (refusal.error path))⟩
  | .ok file => ⟨[], .ok file⟩

/-- The diagnostics of the declarations of a file. -/
def checkDeclarations (file : SourceFile) : Logged (Except ScanError (List Diagnostic)) :=
  ⟨file.malformedRecords, (check file).mapError .check⟩

/-- Checks a text as the content of a file. -/
def checkSource (source : Source) (path : String) :
    Logged (Except ScanError (List Diagnostic)) := do
  match ← readSource source path with
  | .error e => return .error e
  | .ok file => checkDeclarations file

/-- The record about a file that was read. -/
def parsedRecord (path : String) (file : SourceFile) : Record :=
  ⟨.debug, .walker, "Parsed " ++ path ++ " (package " ++ file.package ++ "): " ++
    toString file.groups.length ++ " var specs"⟩

/-- Checks a file. -/
def checkFile (fs : FileSystem) (path : String) : Logged (Except ScanError (List Diagnostic)) := do
  match fs.read path with
  | .error fault => return .error (.unread fault path)
  | .ok source =>
    match ← readSource source path with
    | .error e => return .error e
    | .ok file => (checkDeclarations file).after [parsedRecord path file]

/-! ## Scanning a root -/

/-- The record about a directory that a walk passed by. -/
def passedByRecord (path : String) : Record :=
  ⟨.debug, .walker, "Skipping directory " ++ path ++ " (not recursive)"⟩

/-- The records of a walk by itself. -/
def Walk.records (w : Walk) : List Record :=
  w.visits.filterMap fun
    | .file _ => none
    | .passedBy path => some (passedByRecord path)

/-- Checks what a walk met, from the first visit on; at the end the walk's own error counts. -/
def scanVisits (fs : FileSystem) (error : Option WalkError) :
    List Visit → ScanResult → Logged (Except ScanError ScanResult)
  | [], result =>
    match error with
    | some e => pure (.error (.walk e))
    | none => pure (.ok result)
  | .passedBy path :: rest, result =>
    (scanVisits fs error rest result).after [passedByRecord path]
  | .file path :: rest, result =>
    let checked := checkFile fs path
    match checked.value with
    | .error e => ⟨checked.records, .error e⟩
    | .ok found =>
      (scanVisits fs error rest ⟨result.files + 1, result.diagnostics ++ found⟩).after
        checked.records

/-- The record about a scan that succeeded. -/
def scannedRecord (root : String) (result : ScanResult) : Record :=
  ⟨.info, .walker, "Scanned " ++ toString result.files ++ " files under " ++ root ++ ": " ++
    toString result.diagnostics.length ++ " global variables"⟩

/-- The root and the selection that a scan of a path asks for. -/
def selectionOf (path : String) (endings : Path.Endings) (includeTests : Bool) :
    String × Selection :=
  let (root, recursive) := Path.splitRecursive path
  (root, ⟨endings, includeTests, recursive⟩)

/-- Scans a path. -/
def scan (fs : FileSystem) (endings : Path.Endings) (path : String) (includeTests : Bool := false) :
    Logged (Except ScanError ScanResult) := do
  let (root, selection) := selectionOf path endings includeTests
  let walked := walk fs selection root
  match ← scanVisits fs walked.error walked.visits {} with
  | .error e => return .error e
  | .ok result => ⟨[scannedRecord root result], .ok result⟩

end GoGlobals
