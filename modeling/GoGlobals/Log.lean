import GoGlobals.Declaration
import GoGlobals.ParseError

/-!
# The log

What the program does beside its answers is told in records.  A record has a level, the part of the
program that tells it, and a message.

## What is here

* `Record` and `Record.render`, the line of a record without its time.
* `Logged α`, a value with the records that were made on the way to it.
* The records about files that are refused and groups that cannot be paired.
-/

set_option autoImplicit false

namespace GoGlobals

/-- How important a record is. -/
inductive Level where
  | debug
  | info
  | error
deriving DecidableEq, Repr

/-- The name of a level. -/
def Level.name : Level → String
  | debug => "DEBUG"
  | info => "INFO"
  | error => "ERROR"

/-- The parts of the program that keep a log. -/
inductive Channel where
  | parser
  | rule
  | walker
  | commandLine
  | scanRequests
  | service
deriving DecidableEq, Repr

/-- The name of a part of the program. -/
def Channel.name : Channel → String
  | parser => "noglobals.parser"
  | rule => "noglobals.rules.global_variable"
  | walker => "noglobals.walker"
  | commandLine => "noglobals.cli"
  | scanRequests => "noglobals.scan"
  | service => "noglobals"

/-- One record. -/
structure Record where
  level : Level
  channel : Channel
  message : String
deriving DecidableEq, Repr

/-- The line of a record. -/
def Record.render (r : Record) : String :=
  r.level.name ++ " " ++ r.channel.name ++ ": " ++ r.message

/-! ## Values with records -/

/-- A value and the records made on the way to it. -/
structure Logged (α : Type) where
  records : List Record := []
  value : α

namespace Logged

variable {α β : Type}

/-- The value with more records in front. -/
def after (records : List Record) (x : Logged α) : Logged α :=
  ⟨records ++ x.records, x.value⟩

instance : Monad Logged where
  pure a := ⟨[], a⟩
  bind x f := (f x.value).after x.records

/-- Makes a record. -/
def tell (level : Level) (channel : Channel) (message : String) : Logged Unit :=
  ⟨[⟨level, channel, message⟩], ()⟩

end Logged

/-! ## Files and groups -/

/-- The records about a refused file: only a break of the grammar is told, with its place if that
is known. -/
def Refusal.records (r : Refusal) (file : String) : List Record :=
  if r.fault.isSyntactic then
    let place := match r.spot with
      | some s => " at " ++ toString (s.row + 1) ++ ":" ++ toString (s.column + 1)
      | none => ""
    [⟨.debug, .parser, "Parse failed for " ++ file ++ place⟩]
  else []

/-- The record about a group whose names and values cannot be paired. -/
def Group.malformedRecord (g : Group) : Record :=
  ⟨.debug, .rule, "Malformed var spec at " ++ g.file ++ ":" ++ toString g.line ++ " (" ++
    toString g.names.length ++ " names, " ++ toString g.values.length ++ " values)"⟩

/-- The records about the groups of a file. -/
def SourceFile.malformedRecords (f : SourceFile) : List Record :=
  (f.groups.filter (·.isMalformed)).map (·.malformedRecord)

end GoGlobals
