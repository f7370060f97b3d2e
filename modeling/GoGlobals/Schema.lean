import GoGlobals.Json.Basic
import GoGlobals.Text.Blank

/-!
# Reading typed data out of JSON

Data that comes from outside is checked field by field.  A check does not stop at the first
problem: the problems of all fields are collected, in the order of the fields and of the elements
of a list, each with the way that leads to it.

## What is here

* `Problem` is one complaint: its kind, the way to the offending value, and the value.
* `Checked α` is a value or the list of problems; `Checked.both` joins the problems of two checks.
* `readString`, `readInt`, `readBool` and `readList` read single values.  Reading is lenient where
  the meaning is clear: a whole number may be written as a text or with a zero fraction, a truth
  value as a word.
* `Object.required` and `Object.optional` read the fields of an object.  Unknown fields are
  ignored.
-/

set_option autoImplicit false

namespace GoGlobals

/-- What is wrong with a value. -/
inductive ProblemKind where
  | missing
  | modelType
  | modelAttributesType
  | stringType
  | stringUnicode
  | stringTooShort (minLength : Nat)
  | listType
  | intType
  | intParsing
  | intParsingSize
  | intFromFloat
  | finiteNumber
  | boolType
  | boolParsing
  | unionTagNotFound
  | unionTagInvalid
  | extraForbidden
  | jsonInvalid (error : String)
deriving DecidableEq, Repr

/-- The name of a kind of problem. -/
def ProblemKind.name : ProblemKind → String
  | missing => "missing"
  | modelType => "model_type"
  | modelAttributesType => "model_attributes_type"
  | stringType => "string_type"
  | stringUnicode => "string_unicode"
  | stringTooShort _ => "string_too_short"
  | listType => "list_type"
  | intType => "int_type"
  | intParsing => "int_parsing"
  | intParsingSize => "int_parsing_size"
  | intFromFloat => "int_from_float"
  | finiteNumber => "finite_number"
  | boolType => "bool_type"
  | boolParsing => "bool_parsing"
  | unionTagNotFound => "union_tag_not_found"
  | unionTagInvalid => "union_tag_invalid"
  | extraForbidden => "extra_forbidden"
  | jsonInvalid _ => "json_invalid"

/-- One step on the way to a value. -/
inductive Waypoint where
  | field (name : String)
  | index (i : Nat)
deriving DecidableEq, Repr

/-- A complaint about a value. -/
structure Problem where
  kind : ProblemKind
  way : List Waypoint := []
  input : Json := .null

/-- A value, or everything that is wrong with it. -/
abbrev Checked (α : Type) := Except (List Problem) α

namespace Checked

/-- A single problem with a value. -/
def problem {α : Type} (kind : ProblemKind) (input : Json) : Checked α :=
  .error [{ kind, input }]

/-- Both results, or the problems of both in order. -/
def both {α β : Type} : Checked α → Checked β → Checked (α × β)
  | .ok a, .ok b => .ok (a, b)
  | .error ps, .ok _ => .error ps
  | .ok _, .error qs => .error qs
  | .error ps, .error qs => .error (ps ++ qs)

/-- The check of a part: the way to each problem starts with `step`. -/
def under {α : Type} (step : Waypoint) : Checked α → Checked α
  | .ok a => .ok a
  | .error ps => .error (ps.map fun p => { p with way := step :: p.way })

/-- Checks the elements of a list from index `i` on. -/
def elementsFrom {α : Type} (read : Json → Checked α) : (i : Nat) → List Json → Checked (List α)
  | _, [] => .ok []
  | i, v :: vs =>
    (both (under (.index i) (read v)) (elementsFrom read (i + 1) vs)).map fun r => r.1 :: r.2

end Checked

/-! ## Single values -/

/-- Reads a text. -/
def readString : Json → Checked String
  | .str (.text s) => .ok s
  | v@(.str (.torn _)) => Checked.problem .stringUnicode v
  | v => Checked.problem .stringType v

/-- Reads a text or nothing. -/
def readStringOrNull : Json → Checked (Option String)
  | .null => .ok none
  | v => (readString v).map some

/-- Reads a list. -/
def readList {α : Type} (read : Json → Checked α) : Json → Checked (List α)
  | .arr vs => Checked.elementsFrom read 0 vs
  | v => Checked.problem .listType v

/-! ### Integers

A text writes an integer with white space at the ends, a sign, zeros in front, underscores between
digits and a fraction of zeros.  All of these are taken away, in this order, and what is left must
be the plain numeral. -/

/-- The text behind leading zeros and the underscores among them, of which the last character read
is given.  A digit or a minus sign ends them; of zeros alone, or in front of a fraction, the last
one stays. -/
def behindZeros? (last : Char) : List Char → Option (List Char)
  | [] => some [last]
  | c :: cs =>
    if c == '0' || c == '_' then behindZeros? c cs
    else if c.isDigit || c == '-' then some (c :: cs)
    else if c == '.' then some (last :: c :: cs)
    else none

/-- The text without leading zeros, if it starts like a numeral. -/
def withoutZeros? : List Char → Option (List Char)
  | [] => none
  | c :: cs =>
    if c == '0' then behindZeros? c cs
    else if c.isDigit || c == '-' then some (c :: cs)
    else none

/-- The text without a fraction of zeros; a point with nothing behind it is no fraction. -/
def withoutFraction (cs : List Char) : List Char :=
  let (whole, fraction) := cs.span (· != '.')
  if 1 < fraction.length && fraction.tail.all (· == '0') then whole else cs

/-- Do two underscores stand side by side? -/
def hasDoubleUnderscore : List Char → Bool
  | c :: d :: rest => (c == '_' && d == '_') || hasDoubleUnderscore (d :: rest)
  | _ => false

/-- The text without underscores, if they stand alone and inside it. -/
def withoutUnderscores (cs : List Char) : List Char :=
  if cs.head? == some '_' || cs.getLast? == some '_' || hasDoubleUnderscore cs then cs
  else cs.filter (· != '_')

/-- The greatest number of digits of an integer that is written as a text. -/
def maxDigits : Nat := 4300

/-- The integer of a plain numeral: a minus sign, perhaps, and digits without a zero in front. -/
def readNumeral (cs : List Char) : Except ProblemKind Int :=
  let (negative, unsigned) := match cs with
    | '-' :: rest => (true, rest)
    | rest => (false, rest)
  let (digits, rest) := unsigned.span Char.isDigit
  if digits.head? == some '0' && 1 < digits.length then .error .intParsing
  else if maxDigits < digits.length then .error .intParsingSize
  else if digits.isEmpty || !rest.isEmpty then .error .intParsing
  else
    let value : Int := digits.foldl (fun n c => n * 10 + (c.toNat - '0'.toNat)) 0
    .ok (if negative then -value else value)

/-- The integer that a text writes. -/
def intOfText (s : List Char) : Except ProblemKind Int :=
  let (negative, unsigned) := match Text.trim Text.isWhiteSpace s with
    | '-' :: rest => (true, rest)
    | '+' :: '-' :: _ => (false, [])
    | '+' :: rest => (false, rest)
    | rest => (false, rest)
  match withoutZeros? unsigned with
  | none => .error .intParsing
  | some numeral =>
    let numeral := withoutUnderscores (withoutFraction numeral)
    readNumeral (if negative then '-' :: numeral else numeral)

/-- The least number that is too great for a word of 64 bits with a sign. -/
def wordLimit : Int := 0x8000000000000000

/-- The integer that a floating point number is; it must be less than the limit in magnitude. -/
def intOfFloat (x : Decimal.Binary64) : Except ProblemKind Int :=
  match x with
  | .finite .. =>
    match x.toInt? with
    | none => .error .intFromFloat
    | some n => if -wordLimit < n ∧ n < wordLimit then .ok n else .error .intParsingSize
  | _ => .error .finiteNumber

/-- Reads an integer. -/
def readInt (v : Json) : Checked Int :=
  let read : Except ProblemKind Int := match v with
    | .int n => .ok n
    | .bool b => .ok (if b then 1 else 0)
    | .float x => intOfFloat x
    | .str (.text s) => intOfText s.toList
    | .str (.torn _) => .error .stringUnicode
    | _ => .error .intType
  match read with
  | .ok n => .ok n
  | .error kind => Checked.problem kind v

/-! ### Truth values -/

/-- The words for `false` and for `true`, in lower case. -/
def falseWords : List String := ["0", "off", "f", "false", "n", "no"]

@[inherit_doc falseWords]
def trueWords : List String := ["1", "on", "t", "true", "y", "yes"]

/-- The truth value that a text names, whatever the case of its letters. -/
def boolOfText? (s : String) : Option Bool :=
  let word := String.ofList (s.toList.map Char.toLower)
  if trueWords.contains word then some true
  else if falseWords.contains word then some false
  else none

/-- The truth value of 0 or 1. -/
def boolOfInt (n : Int) : Except ProblemKind Bool :=
  if n = 1 then .ok true else if n = 0 then .ok false else .error .boolParsing

/-- Reads a truth value.  A number that does not fit into a word is not taken for one
at all. -/
def readBool (v : Json) : Checked Bool :=
  let read : Except ProblemKind Bool := match v with
    | .bool b => .ok b
    | .int n => if -wordLimit ≤ n ∧ n < wordLimit then boolOfInt n else .error .boolType
    | .float x =>
      match intOfFloat x with
      | .ok n => boolOfInt n
      | .error _ => .error .boolType
    | .str (.text s) =>
      match boolOfText? s with
      | some b => .ok b
      | none => .error .boolParsing
    | .str (.torn _) => .error .boolParsing
    | _ => .error .boolType
  match read with
  | .ok b => .ok b
  | .error kind => Checked.problem kind v

/-- Reads a truth value or nothing. -/
def readBoolOrNull : Json → Checked (Option Bool)
  | .null => .ok none
  | v => (readBool v).map some

/-! ## Objects -/

/-- The members of an object, with the object itself for complaints about what it lacks. -/
structure Object where
  members : List (JsonString × Json)

namespace Object

/-- A field that must be present. -/
def required {α : Type} (o : Object) (name : String) (read : Json → Checked α) : Checked α :=
  Checked.under (.field name) <|
    match Json.lookup o.members name with
    | some v => read v
    | none => Checked.problem .missing (.obj o.members)

/-- A field with a value for its absence. -/
def optional {α : Type} (o : Object) (name : String) (absent : α) (read : Json → Checked α) :
    Checked α :=
  match Json.lookup o.members name with
  | some v => Checked.under (.field name) (read v)
  | none => .ok absent

end Object

/-- Reads an object; anything else is a problem of the given kind. -/
def readObject {α : Type} (kind : ProblemKind) (read : Object → Checked α) : Json → Checked α
  | .obj members => read ⟨members⟩
  | v => Checked.problem kind v

end GoGlobals
