import GoGlobals.Json.Basic
import GoGlobals.Text.Quoted

/-!
# The text of a JSON value

Elements and members are separated by a comma and a blank, a name and its value by a colon and a
blank.  In a string the quote, the backslash and the controls below U+0020 are escaped and all
other characters stand as they are.
-/

set_option autoImplicit false

namespace GoGlobals.Json

/-- How a character is written in a JSON string. -/
def escape (c : Char) : List Char :=
  if c == '"' || c == '\\' then ['\\', c]
  else if c == '\n' then ['\\', 'n']
  else if c == '\r' then ['\\', 'r']
  else if c == '\t' then ['\\', 't']
  else if c == '\x08' then ['\\', 'b']
  else if c == '\x0c' then ['\\', 'f']
  else if c.toNat < 0x20 then '\\' :: 'u' :: Text.hexDigits 4 c.toNat
  else [c]

/-- A string between quotes; a surrogate is written by its code point. -/
def stringText : JsonString → List Char
  | .text s => '"' :: (s.toList.flatMap escape ++ ['"'])
  | .torn points => '"' :: (points.flatMap (fun n =>
      if isSurrogate n then '\\' :: 'u' :: Text.hexDigits 4 n else escape (Char.ofNat n)) ++ ['"'])

/-- The parts with a comma and a blank between them. -/
def separated : List (List Char) → List Char
  | [] => []
  | [part] => part
  | part :: parts => part ++ ',' :: ' ' :: separated parts

mutual

/-- The text of a value. -/
def chars : Json → List Char
  | null => "null".toList
  | bool b => (if b then "true" else "false").toList
  | int n => (toString n).toList
  | float x => x.text.toList
  | str s => stringText s
  | arr elements => '[' :: (separated (elementTexts elements) ++ [']'])
  | obj members => '{' :: (separated (memberTexts members) ++ ['}'])

/-- The texts of several values. -/
def elementTexts : List Json → List (List Char)
  | [] => []
  | v :: vs => chars v :: elementTexts vs

/-- The texts of several members. -/
def memberTexts : List (JsonString × Json) → List (List Char)
  | [] => []
  | (name, v) :: ms => (stringText name ++ ':' :: ' ' :: chars v) :: memberTexts ms

end

/-- The text of a value. -/
def render (value : Json) : String :=
  String.ofList (chars value)

end GoGlobals.Json
