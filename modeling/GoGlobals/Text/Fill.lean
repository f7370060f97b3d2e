/-!
# Filling lines

A text is set in lines of a given width: its words are put on a line as long as they fit, with one
blank between them.  A word that is longer than a line is cut.
-/

set_option autoImplicit false

namespace GoGlobals.Text

/-- Is the character ASCII white space? -/
def isAsciiSpace (c : Char) : Bool :=
  c == ' ' || (9 ≤ c.toNat && c.toNat ≤ 13)

/-- The words of a text, from the one that was begun, last character first. -/
def wordsFrom : (begun : List Char) → List Char → List (List Char)
  | [], [] => []
  | begun, [] => [begun.reverse]
  | begun, c :: cs =>
    if isAsciiSpace c then
      if begun.isEmpty then wordsFrom [] cs else begun.reverse :: wordsFrom [] cs
    else wordsFrom (c :: begun) cs

/-- The words of a text. -/
def words (s : String) : List (List Char) :=
  wordsFrom [] s.toList

/-- Puts one more word behind finished lines and an open one.  A word that is longer than a line
fills up the open line first; `fuel` bounds the number of cuts. -/
def placeWord (width : Nat) : (fuel : Nat) → (done : List (List Char)) → (line word : List Char) →
    List (List Char) × List Char
  | 0, done, line, word => (done, line ++ word)
  | fuel + 1, done, line, word =>
    let gap : List Char := if line.isEmpty then [] else [' ']
    if line.length + gap.length + word.length ≤ width then (done, line ++ gap ++ word)
    else if word.length ≤ width then (done ++ [line], word)
    else
      let room := width - (line.length + gap.length)
      if room = 0 then placeWord width fuel (done ++ [line]) [] word
      else placeWord width fuel (done ++ [line ++ gap ++ word.take room]) [] (word.drop room)

/-- The lines of a text. -/
def fill (width : Nat) (s : String) : List String :=
  let (done, line) := (words s).foldl
    (fun (acc : List (List Char) × List Char) word =>
      placeWord width (word.length + 2) acc.1 acc.2 word) ([], [])
  ((if line.isEmpty then done else done ++ [line])).map String.ofList

end GoGlobals.Text
