import GoGlobals.Text.Digit
import GoGlobals.Text.Quoted

/-!
# The arguments of the command line

The command takes flags and paths.  Flags of one letter can be written together, long flags can be
abbreviated, and an argument `--` makes all that follow it paths.

The paths must stand together: the first run of arguments that are no flags gives them, and
arguments of a later run are not recognized.

## What is here

* `classify` tells what an argument is.
* `Progress.step` takes one argument, left to right; it may fail, and a request for help ends the
  reading at once.
* `parse` reads all arguments.
-/

set_option autoImplicit false

namespace GoGlobals.CommandLine

/-! ## Flags -/

/-- The flags. -/
inductive Flag where
  | help
  | tests
deriving DecidableEq, Repr

/-- The spellings of the flags. -/
def spellings : List (List Char × Flag) :=
  [("-h".toList, .help), ("--help".toList, .help), ("-t".toList, .tests)]

/-- The flag of a spelling. -/
def flagOf? (spelling : List Char) : Option Flag :=
  (spellings.find? fun s => s.1 == spelling).map (·.2)

/-- All spellings of a flag. -/
def Flag.label : Flag → String
  | help => "-h/--help"
  | tests => "-t"

/-- What is wrong with the arguments. -/
inductive UsageError where
  /-- A text is attached to a flag that takes none. -/
  | attached (flag : Flag) (text : String)
  | unrecognized (arguments : List String)
deriving DecidableEq, Repr

/-- The wording of an error. -/
def UsageError.message : UsageError → String
  | attached flag text =>
    "argument " ++ flag.label ++ ": ignored explicit argument " ++ Text.quoted text
  | unrecognized arguments => "unrecognized arguments: " ++ " ".intercalate arguments

/-! ## Kinds of argument -/

/-- What an argument is. -/
inductive Kind where
  /-- A path. -/
  | plain
  /-- A flag, whether it is spelled with one dash, and the text attached to it. -/
  | flag (flag : Flag) (short : Bool) (attached : Option (List Char))
  /-- Something that looks like a flag. -/
  | unknown
deriving DecidableEq, Repr

/-- The text in front of the first equals sign and the text behind it. -/
def splitEquals? (cs : List Char) : Option (List Char × List Char) :=
  match cs.span (· != '=') with
  | (before, '=' :: after) => some (before, after)
  | _ => none

/-- Is the text behind a dash a number? -/
def isNumber (cs : List Char) : Bool :=
  let cs := if cs.getLast? == some '\n' then cs.dropLast else cs
  let (whole, rest) := cs.span Text.isDecimalDigit
  match rest with
  | [] => !whole.isEmpty
  | '.' :: places => !places.isEmpty && places.all Text.isDecimalDigit
  | _ => false

/-- A flag that an argument spells exactly, up to an equals sign. -/
def exactFlag? (argument : List Char) : Option Kind :=
  match flagOf? argument with
  | some flag => some (.flag flag (argument.length == 2) none)
  | none =>
    match splitEquals? argument with
    | some (before, after) =>
      (flagOf? before).map fun flag => .flag flag (before.length == 2) (some after)
    | none => none

/-- A flag that an argument abbreviates, or that starts a group of letters. -/
def looseFlag? (argument : List Char) : Option Kind :=
  match argument with
  | '-' :: '-' :: _ =>
    let (before, after) := match splitEquals? argument with
      | some (before, after) => (before, some after)
      | none => (argument, none)
    (spellings.find? fun s => before.isPrefixOf s.1).map fun s => .flag s.2 false after
  | '-' :: c :: rest => (flagOf? ['-', c]).map fun flag => .flag flag true (some rest)
  | _ => none

/-- What an argument is.  A single dash, a negative number and an argument with a blank are paths
unless they spell a flag. -/
def classify (argument : List Char) : Kind :=
  match argument with
  | '-' :: c :: rest =>
    match exactFlag? argument with
    | some kind => kind
    | none =>
      match looseFlag? argument with
      | some kind => kind
      | none => if isNumber (c :: rest) || argument.contains ' ' then .plain else .unknown
  | _ => .plain

/-- The flags of a group of letters behind a flag. -/
def group (flag : Flag) : List Char → Except UsageError (List Flag)
  | [] => .ok [flag]
  | c :: cs =>
    match flagOf? ['-', c] with
    | some next => (group next cs).map (flag :: ·)
    | none => .error (.attached flag (String.ofList (c :: cs)))

/-- The flags of an argument. -/
def flagsOf (flag : Flag) (short : Bool) (attached : Option (List Char)) :
    Except UsageError (List Flag) :=
  match attached with
  | none => .ok [flag]
  | some [] => .error (.attached flag "")
  | some (c :: cs) =>
    if short then group flag (c :: cs) else .error (.attached flag (String.ofList (c :: cs)))

/-! ## Reading the arguments -/

/-- How far the paths have been read. -/
inductive Run where
  | before
  | inside
  | over
deriving DecidableEq, Repr

/-- What has been read. -/
structure Progress where
  tests : Bool := false
  paths : List String := []
  run : Run := .before
  unrecognized : List String := []
  /-- Has `--` been read? -/
  onlyPaths : Bool := false
deriving DecidableEq, Repr

/-- Why the reading stops. -/
inductive Stop where
  | help
  | usage (error : UsageError)
deriving DecidableEq, Repr

namespace Progress

/-- Takes an argument that is no flag. -/
def plain (p : Progress) (argument : String) : Progress :=
  if p.run = .over then { p with unrecognized := p.unrecognized ++ [argument] }
  else { p with run := .inside, paths := p.paths ++ [argument] }

/-- Takes the argument that makes all others paths; it is no path itself. -/
def separator (p : Progress) : Progress :=
  let p := { p with onlyPaths := true }
  if p.run = .over then { p with unrecognized := p.unrecognized ++ ["--"] }
  else { p with run := .inside }

/-- Ends the run of paths, if one has begun. -/
def endRun (p : Progress) : Progress :=
  if p.run = .inside then { p with run := .over } else p

/-- Takes the flags of an argument in order. -/
def flags (p : Progress) (flags : List Flag) : Except Stop Progress :=
  if flags.contains .help then .error .help else .ok { p with tests := true }

/-- Takes one argument. -/
def step (p : Progress) (argument : String) : Except Stop Progress :=
  if p.onlyPaths then .ok (p.plain argument)
  else if argument == "--" then .ok p.separator
  else match classify argument.toList with
    | .plain => .ok (p.plain argument)
    | .unknown =>
      let p := p.endRun
      .ok { p with unrecognized := p.unrecognized ++ [argument] }
    | .flag flag short attached =>
      match flagsOf flag short attached with
      | .error e => .error (.usage e)
      | .ok fs => p.endRun.flags fs

end Progress

/-- What the command is asked to do. -/
structure Arguments where
  tests : Bool
  paths : List String
deriving DecidableEq, Repr

/-- The paths where none are given. -/
def defaultPaths : List String := ["."]

/-- Reads the arguments. -/
def parse (arguments : List String) : Except Stop Arguments := do
  let p ← arguments.foldlM Progress.step {}
  if p.unrecognized.isEmpty then
    return ⟨p.tests, if p.paths.isEmpty then defaultPaths else p.paths⟩
  else throw (.usage (.unrecognized p.unrecognized))

end GoGlobals.CommandLine
