import GoGlobals.Text.Blank

/-!
# Files of assignments

A file of assignments has lines `NAME=value`.  The word `export` may stand in front, blanks may
stand around the equals sign, and `#` starts a comment at the start of a line or behind a blank.  A
value may be quoted, and then it may hold line feeds and escapes.  A line that breaks these rules is
passed by.

In a value, `${NAME}` stands for the value of a name, and `${NAME:-text}` for `text` if
the name has none.

## What is here

* `assignments` reads the lines.
* `expand` puts values in for names, each from the assignments before it and the surroundings.
* `read` gives the names in the order of their first assignments, with their last values.
-/

set_option autoImplicit false

namespace GoGlobals.DotEnv

/-- A name and its value; a name without an equals sign has none. -/
structure Assignment where
  name : String
  value : Option String
deriving DecidableEq, Repr

/-! ## Characters -/

/-- Every end of a line as a line feed. -/
def unixLines : List Char → List Char
  | [] => []
  | '\r' :: '\n' :: rest => '\n' :: unixLines rest
  | '\r' :: rest => '\n' :: unixLines rest
  | c :: rest => c :: unixLines rest

/-- Is the character white space inside a line? -/
def isInlineBlank (c : Char) : Bool :=
  Text.isBlank c && c != '\n'

/-- Can the character stand in a name without quotes? -/
def isNameChar (c : Char) : Bool :=
  c != '=' && c != '#' && !Text.isBlank c

/-- The text behind the end of the line. -/
def restOfLine (cs : List Char) : List Char :=
  (cs.dropWhile (· != '\n')).drop 1

/-! ## Quoted texts -/

/-- The text up to the closing quote and the rest.  A backslash takes the next character with it,
which must not be a line feed; without a closing quote there is no text. -/
def quotedText? (q : Char) : (escaped : Bool) → (taken : List Char) → List Char →
    Option (List Char × List Char)
  | _, _, [] => none
  | true, taken, c :: cs => if c == '\n' then none else quotedText? q false (c :: taken) cs
  | false, taken, c :: cs =>
    if c == q then some (taken.reverse, cs) else quotedText? q (c == '\\') (c :: taken) cs

/-- The characters that a backslash stands for between double quotes. -/
def doubleEscapes : List (Char × Char) :=
  [('\\', '\\'), ('\'', '\''), ('"', '"'), ('a', '\x07'), ('b', '\x08'), ('f', '\x0c'),
    ('n', '\n'), ('r', '\r'), ('t', '\t'), ('v', '\x0b')]

/-- The characters that a backslash stands for between single quotes. -/
def singleEscapes : List (Char × Char) :=
  [('\\', '\\'), ('\'', '\'')]

/-- The text with its escapes replaced; other backslashes stay. -/
def unescape (escapes : List (Char × Char)) : List Char → List Char
  | [] => []
  | '\\' :: c :: rest =>
    match escapes.lookup c with
    | some d => d :: unescape escapes rest
    | none => '\\' :: unescape escapes (c :: rest)
  | c :: rest => c :: unescape escapes rest

/-! ## Lines -/

/-- A value without quotes, up to a comment: a number sign behind white space. -/
def uncommented : (afterBlank : Bool) → List Char → List Char
  | _, [] => []
  | afterBlank, c :: cs =>
    if c == '#' && afterBlank then [] else c :: uncommented (Text.isBlank c) cs

/-- A value and the rest; `afterBlank` tells whether a blank stands in front of it. -/
def value? (afterBlank : Bool) (cs : List Char) : Option (List Char × List Char) :=
  match cs with
  | '\'' :: rest =>
    (quotedText? '\'' false [] rest).map fun p => (unescape singleEscapes p.1, p.2)
  | '"' :: rest =>
    (quotedText? '"' false [] rest).map fun p => (unescape doubleEscapes p.1, p.2)
  | _ =>
    let (line, rest) := cs.span (· != '\n')
    some (Text.trimRight Text.isBlank (uncommented afterBlank line), rest)

/-- The text behind the word `export`, if it stands there with a blank behind it. -/
def skipExport (cs : List Char) : List Char :=
  if "export".toList.isPrefixOf cs then
    let rest := cs.drop 6
    let after := rest.dropWhile isInlineBlank
    if after.length < rest.length then after else cs
  else cs

/-- A name and the rest.  A comment has no name. -/
def name? (cs : List Char) : Option (Option (List Char) × List Char) :=
  match cs with
  | '#' :: _ => some (none, cs)
  | '\'' :: rest =>
    match rest.span (· != '\'') with
    | (name, _ :: after) => if name.isEmpty then none else some (some name, after)
    | (_, []) => none
  | _ =>
    let (name, after) := cs.span isNameChar
    if name.isEmpty then none else some (some name, after)

/-- The text behind a comment and the end of the line, if the line ends there. -/
def lineEnd? (cs : List Char) : Option (List Char) :=
  let cs := cs.dropWhile isInlineBlank
  let cs := if cs.head? == some '#' then cs.dropWhile (· != '\n') else cs
  match cs with
  | [] => some []
  | c :: rest => if c == '\n' then some rest else none

/-- What a line says, and the text behind it. -/
structure Line where
  assignment : Option Assignment
  rest : List Char

/-- The line that starts with a name. -/
def namedLine (name : Option (List Char)) (value : Option (List Char)) (cs : List Char) : Line :=
  match lineEnd? cs with
  | none => ⟨none, restOfLine cs⟩
  | some rest =>
    ⟨name.map fun n => ⟨String.ofList n, value.map String.ofList⟩, rest⟩

/-- Reads a line; `cs` does not start with white space. -/
def readLine (cs : List Char) : Line :=
  let start := skipExport cs
  match name? start with
  | none => ⟨none, restOfLine start⟩
  | some (name, rest) =>
    let rest := rest.dropWhile isInlineBlank
    match rest with
    | '=' :: after =>
      let (blanks, after) := after.span isInlineBlank
      match value? (!blanks.isEmpty) after with
      | none => ⟨none, restOfLine after⟩
      | some (value, rest) => namedLine name (some value) rest
    | _ => namedLine name none rest

/-- Reads at most `fuel` lines. -/
def assignmentsFrom : (fuel : Nat) → List Char → List Assignment
  | 0, _ => []
  | fuel + 1, cs =>
    match cs.dropWhile Text.isBlank with
    | [] => []
    | c :: rest =>
      let line := readLine (c :: rest)
      line.assignment.toList ++ assignmentsFrom fuel line.rest

/-- The text behind a mark of the encoding. -/
def skipMark : List Char → List Char
  | '\uFEFF' :: rest => rest
  | cs => cs

/-- The assignments of a text, in order.  Every line has a character, so there are no more lines
than characters. -/
def assignments (text : String) : List Assignment :=
  let cs := unixLines (skipMark text.toList)
  assignmentsFrom cs.length cs

/-! ## Values of names -/

/-- A name in braces, perhaps with a text to fall back on, and the rest; `cs` starts behind the
opening brace. -/
def reference? (cs : List Char) : Option (List Char × List Char × List Char) :=
  let (name, rest) := cs.span fun c => c != '}' && c != ':'
  match rest with
  | '}' :: after => some (name, [], after)
  | ':' :: '-' :: more =>
    match more.span (· != '}') with
    | (fallback, _ :: after) => some (name, fallback, after)
    | (_, []) => none
  | _ => none

/-- A text with the values of names put in. -/
def expandFrom (valueOf : String → Option String) : (fuel : Nat) → List Char → List Char
  | 0, cs => cs
  | _, [] => []
  | fuel + 1, '$' :: '{' :: rest =>
    match reference? rest with
    | some (name, fallback, after) =>
      ((valueOf (String.ofList name)).getD (String.ofList fallback)).toList ++
        expandFrom valueOf fuel after
    | none => '$' :: expandFrom valueOf fuel ('{' :: rest)
  | fuel + 1, c :: rest => c :: expandFrom valueOf fuel rest

/-- A text with the values of names put in. -/
def expand (valueOf : String → Option String) (s : String) : String :=
  String.ofList (expandFrom valueOf s.toList.length s.toList)

/-- The last value of a name in a list of pairs. -/
def lastValue? {α : Type} (pairs : List (String × α)) (name : String) : Option α :=
  (pairs.reverse.find? fun p => p.1 == name).map (·.2)

/-- The pairs with one more; a name that is present keeps its place and takes the new value. -/
def assign {α : Type} (name : String) (value : α) : List (String × α) → List (String × α)
  | [] => [(name, value)]
  | p :: ps => if p.1 == name then (name, value) :: ps else p :: assign name value ps

/-- The value that a name has in a text: what was assigned before, or else what the surroundings
give it.  A name that was assigned nothing has an empty value. -/
def valueIn (surroundings : List (String × String)) (before : List (String × Option String))
    (name : String) : Option String :=
  match lastValue? before name with
  | some value => some (value.getD "")
  | none => lastValue? surroundings name

/-- The names of a text with their values. -/
def read (surroundings : List (String × String)) (text : String) :
    List (String × Option String) :=
  (assignments text).foldl
    (fun before a => assign a.name (a.value.map (expand (valueIn surroundings before))) before) []

end GoGlobals.DotEnv
