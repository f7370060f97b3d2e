import GoGlobals.Json.Basic
import GoGlobals.Schema
import GoGlobals.Service.Basic
import GoGlobals.Text.Quoted

/-!
# Values in the log

How the values and the problems of an invalid request are written in the log: texts are quoted as in
messages, the words for nothing, truth and numbers without a value are `None`, `True`, `False`,
`nan` and `inf`, and a way is written in parentheses.
-/

set_option autoImplicit false

namespace GoGlobals

/-- A string between quotes; a surrogate is written by its code point. -/
def JsonString.inspect : JsonString → String
  | text s => Text.quoted s
  | torn points =>
    let q := Text.quoteFor (points.map Char.ofNat)
    String.ofList (q :: (points.flatMap (fun n =>
      if isSurrogate n then '\\' :: 'u' :: Text.hexDigits 4 n
      else Text.escape q (Char.ofNat n)) ++ [q]))

/-- A number. -/
def Decimal.Binary64.inspect (x : Decimal.Binary64) : String :=
  if x.text == "NaN" then "nan"
  else if x.text == "Infinity" then "inf"
  else if x.text == "-Infinity" then "-inf"
  else x.text

mutual

/-- A value. -/
def Json.inspect : Json → String
  | .null => "None"
  | .bool b => if b then "True" else "False"
  | .int n => toString n
  | .float x => x.inspect
  | .str s => s.inspect
  | .arr elements => "[" ++ ", ".intercalate (inspectAll elements) ++ "]"
  | .obj members => "\x7b" ++ ", ".intercalate (inspectMembers members) ++ "\x7d"

/-- Several values. -/
def Json.inspectAll : List Json → List String
  | [] => []
  | v :: vs => inspect v :: inspectAll vs

/-- Several members. -/
def Json.inspectMembers : List (JsonString × Json) → List String
  | [] => []
  | (name, v) :: ms => (name.inspect ++ ": " ++ inspect v) :: inspectMembers ms

end

/-- The way to a value. -/
def inspectWay (way : List Waypoint) : String :=
  match way.map fun w => w.json.inspect with
  | [single] => "(" ++ single ++ ",)"
  | steps => "(" ++ ", ".intercalate steps ++ ")"

/-- A problem. -/
def Problem.inspect (p : Problem) : String :=
  "\x7b'type': " ++ Text.quoted p.kind.name ++ ", 'loc': " ++ inspectWay p.way ++
    ", 'msg': " ++ Text.quoted p.kind.message ++ ", 'input': " ++ p.input.inspect ++
    (if p.kind.context.isEmpty then "" else
      ", 'ctx': " ++ (Json.object p.kind.context).inspect) ++ "\x7d"

/-- Several problems. -/
def inspectProblems (problems : List Problem) : String :=
  "[" ++ ", ".intercalate (problems.map Problem.inspect) ++ "]"

end GoGlobals
