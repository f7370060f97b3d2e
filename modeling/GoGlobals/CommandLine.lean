import GoGlobals.CommandLine.Arguments
import GoGlobals.Scan
import GoGlobals.Settings.Basic
import GoGlobals.Text.Fill

/-!
# The command

The command scans its paths in order and prints one line for each variable that is found.  It is all
or nothing: when a path fails, its error is the only thing printed.

The status is 0 when nothing was found, 1 when something was, and 2 for errors.
-/

set_option autoImplicit false

namespace GoGlobals.CommandLine

/-- What the command leaves behind. -/
structure Output where
  status : Nat
  stdout : String := ""
  stderr : String := ""
deriving DecidableEq, Repr

/-! ## Usage and help -/

/-- How the command is used. -/
def usage : String :=
  "usage: noglobals [-h] [-t] [paths ...]\n"

/-- The column where the explanations of the help start. -/
def helpColumn : Nat := 14

/-- The number of columns of the help. -/
def helpWidth : Nat := 78

/-- An item of the help: what is explained, padded, and the lines of the explanation. -/
def helpItem (name explanation : String) : String :=
  let padded := "  " ++ name ++ String.ofList (List.replicate (helpColumn - 2 - name.length) ' ')
  let margin := String.ofList (List.replicate helpColumn ' ')
  padded ++ ("\n" ++ margin).intercalate (Text.fill (helpWidth - helpColumn) explanation) ++ "\n"

/-- The help. -/
def help (settings : Settings) : String :=
  usage ++
    "\nReport top-level Go variables that are not allow-listed.\n" ++
    "\npositional arguments:\n" ++
    helpItem "paths" "directories or files to check; append /... to recurse" ++
    "\noptions:\n" ++
    helpItem "-h, --help" "show this help message and exit" ++
    helpItem "-t" ("include " ++ settings.testSuffix ++ " files")

/-! ## Running -/

/-- The lines that report what was found. -/
def report (messages : List String) : String :=
  String.join (messages.map (· ++ "\n"))

/-- Scans paths in order; the first that fails ends the run. -/
def scanAll (fs : FileSystem) (settings : Settings) (tests : Bool) :
    List String → Logged (Except (String × ScanError) (List String))
  | [] => pure (.ok [])
  | path :: rest => do
    match ← scan fs settings.endings path tests with
    | .error e => return .error (path, e)
    | .ok result =>
      match ← scanAll fs settings tests rest with
      | .error e => return .error e
      | .ok messages => return .ok (result.messages ++ messages)

/-- Runs the command with arguments that were read. -/
def execute (fs : FileSystem) (settings : Settings) (arguments : Arguments) : Logged Output := do
  match ← scanAll fs settings (arguments.tests || settings.includeTests) arguments.paths with
  | .error (path, e) =>
    Logged.tell .error .commandLine ("Scan of " ++ path ++ " failed")
    return { status := 2, stderr := e.message ++ "\n" }
  | .ok messages =>
    return { status := if messages.isEmpty then 0 else 1, stdout := report messages }

/-- Runs the command. -/
def run (fs : FileSystem) (settings : Settings) (arguments : List String) : Logged Output :=
  match parse arguments with
  | .error .help => pure { status := 0, stdout := help settings }
  | .error (.usage e) =>
    pure { status := 2, stderr := usage ++ "noglobals: error: " ++ e.message ++ "\n" }
  | .ok arguments => execute fs settings arguments

end GoGlobals.CommandLine
