import GoGlobals.Decimal.Binary64

/-!
# JSON values

A JSON value keeps what its text says: integers are exact, other numbers are binary64, the members
of an object stand in the order of their first appearance and carry their last value.

A string escape can name a surrogate that has no partner.  No text holds such a code point, so a
string is either a text or *torn*, a list of code points one of which is a surrogate.
-/

set_option autoImplicit false

namespace GoGlobals

/-- A JSON string: a text, or code points with a surrogate among them. -/
inductive JsonString where
  | text (s : String)
  | torn (points : List Nat)
deriving DecidableEq, Repr, Inhabited

/-- Is the code point a surrogate? -/
def isSurrogate (n : Nat) : Bool :=
  0xD800 ≤ n && n < 0xE000

/-- The string of a list of code points. -/
def JsonString.ofPoints (points : List Nat) : JsonString :=
  if points.any isSurrogate then torn points else text (String.ofList (points.map Char.ofNat))

/-- A JSON value. -/
inductive Json where
  | null
  | bool (b : Bool)
  | int (n : Int)
  | float (x : Decimal.Binary64)
  | str (s : JsonString)
  | arr (elements : List Json)
  | obj (members : List (JsonString × Json))
deriving Inhabited

namespace Json

/-- A string value of a text. -/
def ofText (s : String) : Json := str (.text s)

/-- An object whose names are texts. -/
def object (members : List (String × Json)) : Json :=
  obj (members.map fun m => (.text m.1, m.2))

/-- The members with one more: a name that is present keeps its place and takes the new value. -/
def insertMember (name : JsonString) (value : Json) :
    List (JsonString × Json) → List (JsonString × Json)
  | [] => [(name, value)]
  | m :: ms => if m.1 = name then (name, value) :: ms else m :: insertMember name value ms

/-- The value of a name in a list of members. -/
def lookup (members : List (JsonString × Json)) (name : String) : Option Json :=
  (members.find? fun m => m.1 = .text name).map (·.2)

/-- The member of an object. -/
def get? (value : Json) (name : String) : Option Json :=
  match value with
  | obj members => lookup members name
  | _ => none

mutual

/-- Can the value be written as strict JSON in UTF-8?  Infinite numbers, NaN and torn strings
cannot. -/
def isWritable : Json → Bool
  | null | bool _ | int _ => true
  | float x => match x with
    | .finite .. => true
    | _ => false
  | str s => match s with
    | .text _ => true
    | .torn _ => false
  | arr elements => allWritable elements
  | obj members => allMembersWritable members

/-- Can every value be written? -/
def allWritable : List Json → Bool
  | [] => true
  | v :: vs => isWritable v && allWritable vs

/-- Can every name and value be written? -/
def allMembersWritable : List (JsonString × Json) → Bool
  | [] => true
  | (name, v) :: ms =>
    (match name with
      | .text _ => true
      | .torn _ => false) && isWritable v && allMembersWritable ms

end

end Json

end GoGlobals
