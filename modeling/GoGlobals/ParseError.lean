import GoGlobals.Text.Quoted

/-!
# Parse errors

A file that is not a Go file of the accepted form is refused with a parse error: what is wrong, in
which file, and where, as far as that is known.

## What is here

* `Fault` lists the causes and `Fault.message` words them.
* `ParseError` puts a message at a place, and `ParseError.render` is the line that reports it.
* `Refusal` is a fault with its place in the file, before it is put into words.
-/

set_option autoImplicit false

namespace GoGlobals

/-- Why a file is refused. -/
inductive Fault where
  /-- The text is not in the language; the place is not known. -/
  | unreadable
  /-- A part of the tree is an error; the text it covers is given. -/
  | near (text : String)
  /-- A token of this kind is missing. -/
  | missing (kind : String)
  /-- The file does not start with a package clause. -/
  | noPackageClause
  /-- Something that is not a declaration stands at the level of the file. -/
  | stray (kind : String)
deriving DecidableEq, Repr

/-- Is it the grammar that a file breaks, and not the rules for the level of a file? -/
def Fault.isSyntactic : Fault → Bool
  | unreadable | near _ | missing _ => true
  | noPackageClause | stray _ => false

/-- The number of characters of an offending text that a message shows. -/
def snippetLength : Nat := 40

/-- The wording of a fault. -/
def Fault.message : Fault → String
  | unreadable => "syntax error"
  | near text =>
    "syntax error near " ++ Text.quoted (String.ofList (text.toList.take snippetLength))
  | missing kind => "missing " ++ kind
  | noPackageClause => "expected 'package' clause"
  | stray kind => "non-declaration statement outside function body (" ++ kind ++ ")"

/-- A message about a place in a file; a column counts only with a line. -/
structure ParseError where
  message : String
  file : String := "<unknown>"
  line : Option Int := none
  column : Option Int := none
deriving DecidableEq, Repr

/-- The place of a parse error: the file, the line if it is known, and then the column. -/
def ParseError.location (e : ParseError) : String :=
  match e.line, e.column with
  | some line, some column => e.file ++ ":" ++ toString line ++ ":" ++ toString column
  | some line, none => e.file ++ ":" ++ toString line
  | none, _ => e.file

/-- The line that reports a parse error. -/
def ParseError.render (e : ParseError) : String :=
  e.location ++ ": " ++ e.message

/-! ## Refusals -/

/-- The row and the column of a place in a file, both counted from 0. -/
structure Spot where
  row : Nat
  column : Nat
deriving DecidableEq, Repr

/-- Why a file is refused, and where, if that is known. -/
structure Refusal where
  fault : Fault
  spot : Option Spot := none
deriving DecidableEq, Repr

/-- The parse error of a refused file; it counts lines and columns from 1. -/
def Refusal.error (r : Refusal) (file : String) : ParseError :=
  ⟨r.fault.message, file, r.spot.map (·.row + 1), r.spot.map (·.column + 1)⟩

end GoGlobals
