import GoGlobals.Go.Grammar
import GoGlobals.Grammar.Reading
import GoGlobals.Text.Identifier

/-!
# Tokens of Go text

A token is looked for at a place in the text, together with what is expected there: a line feed is
a token only where a statement can end, an operator is the longest one of those that can stand
there, and some words are reserved only where they mean something.

## What is here

* Scanners measure a lexeme: they give the number of pieces it has.  Numbers, runes, strings and
  comments have a scanner each.  A NUL byte belongs to no comment and to no literal.
* `Vocabulary` holds the numbers of the tokens in the grammar.
* `Vocabulary.token?` finds the token at a place.
-/

set_option autoImplicit false

namespace GoGlobals.Go

open Text (Piece Place Cursor)
open Grammar (Symbol Compiled Token)

/-! ## Classes and counting -/

/-- Is the piece this character? -/
def isChar (c : Char) : Piece → Bool :=
  Piece.is (· == c)

/-- Is the piece the NUL character? -/
def isNul : Piece → Bool :=
  isChar '\x00'

/-- Is the character a hexadecimal digit? -/
def isHexDigit (c : Char) : Bool :=
  c.isDigit || ('a' ≤ c && c ≤ 'f') || ('A' ≤ c && c ≤ 'F')

/-- Is the character an octal digit? -/
def isOctalDigit (c : Char) : Bool :=
  '0' ≤ c && c ≤ '7'

/-- Is the character a binary digit? -/
def isBinaryDigit (c : Char) : Bool :=
  c == '0' || c == '1'

/-- The number of pieces of a class at the start, added to `n`. -/
def countWhile (p : Piece → Bool) : (n : Nat) → List Piece → Nat
  | n, [] => n
  | n, c :: cs => if p c then countWhile p (n + 1) cs else n

/-! ## Numbers -/

/-- The length of a run of digits that starts with a digit and in which single underscores may
stand between digits, added to `n`; `after` tells whether the piece before was a digit. -/
def digitRunFrom (p : Char → Bool) : (after : Bool) → (n : Nat) → List Piece → Nat
  | _, n, [] => n
  | after, n, c :: cs =>
    if c.is p then digitRunFrom p true (n + 1) cs
    else if after && isChar '_' c then
      match cs with
      | [] => n
      | d :: _ => if d.is p then digitRunFrom p false (n + 1) cs else n
    else n

/-- The length of a run of digits, 0 if there is none. -/
def digitRun (p : Char → Bool) (ps : List Piece) : Nat :=
  digitRunFrom p false 0 ps

/-- The length of an underscore that may stand here. -/
def underscore : List Piece → Nat
  | c :: _ => if isChar '_' c then 1 else 0
  | [] => 0

/-- The length of digits after an optional underscore, 0 if there are no digits. -/
def markedRun (p : Char → Bool) (ps : List Piece) : Nat :=
  let u := underscore ps
  let n := digitRun p (ps.drop u)
  if n = 0 then 0 else u + n

/-- The length of an exponent with one of the two letters, 0 if there is none. -/
def exponentLength (lower upper : Char) : List Piece → Nat
  | e :: rest =>
    if isChar lower e || isChar upper e then
      let sign := match rest with
        | s :: _ => if isChar '+' s || isChar '-' s then 1 else 0
        | [] => 0
      let n := digitRun Char.isDigit (rest.drop sign)
      if n = 0 then 0 else 1 + sign + n
    else 0
  | [] => 0

/-- The length of an integer, 0 if none starts here. -/
def intLength (ps : List Piece) : Nat :=
  match ps with
  | .char '0' :: rest =>
    let radix := match rest with
      | .char c :: digits =>
        if c == 'b' || c == 'B' then
          let n := markedRun isBinaryDigit digits
          if n = 0 then 0 else 1 + n
        else if c == 'x' || c == 'X' then
          let n := markedRun isHexDigit digits
          if n = 0 then 0 else 1 + n
        else if c == 'o' || c == 'O' then
          let n := markedRun isOctalDigit digits
          if n = 0 then 0 else 1 + n
        else markedRun isOctalDigit rest
      | _ => 0
    1 + radix
  | _ => digitRun Char.isDigit ps

/-- The length of a decimal floating point number, 0 if none starts here. -/
def decimalFloatLength (ps : List Piece) : Nat :=
  let whole := digitRun Char.isDigit ps
  match ps.drop whole with
  | .char '.' :: rest =>
    let places := digitRun Char.isDigit rest
    if whole + places = 0 then 0
    else whole + 1 + places + exponentLength 'e' 'E' (rest.drop places)
  | rest =>
    let e := exponentLength 'e' 'E' rest
    if whole = 0 || e = 0 then 0 else whole + e

/-- The length of a hexadecimal floating point number, 0 if none starts here. -/
def hexFloatLength (ps : List Piece) : Nat :=
  match ps with
  | .char '0' :: .char x :: digits =>
    if x == 'x' || x == 'X' then
      let whole := markedRun isHexDigit digits
      let mantissa := match digits.drop whole with
        | .char '.' :: rest =>
          let places := digitRun isHexDigit rest
          if whole + places = 0 then 0 else whole + 1 + places
        | _ => whole
      let e := exponentLength 'p' 'P' (digits.drop mantissa)
      if mantissa = 0 || e = 0 then 0 else 2 + mantissa + e
    else 0
  | _ => 0

/-- The length of an imaginary number with a part of length `n` in front of its `i`. -/
def imaginaryLength (n : Nat) (ps : List Piece) : Nat :=
  if n = 0 then 0
  else match ps.drop n with
    | .char 'i' :: _ => n + 1
    | _ => 0

/-- The longest number that starts here, its kind and its length. -/
def numberAt? (ps : List Piece) : Option (String × Nat) :=
  let int := intLength ps
  let float := max (decimalFloatLength ps) (hexFloatLength ps)
  let imaginary := max (imaginaryLength (digitRun Char.isDigit ps) ps)
    (max (imaginaryLength int ps) (imaginaryLength float ps))
  if int < imaginary && float < imaginary then some ("imaginary_literal", imaginary)
  else if int < float then some ("float_literal", float)
  else if 0 < int then some ("int_literal", int)
  else none

/-! ## Runes and strings -/

/-- The number of pieces of a rune after its opening quote.  A byte that is not UTF-8 may stand for
a character. -/
def runeTail? : List Piece → Option Nat
  | .char '\\' :: .char e :: rest =>
    let n :=
      if e == 'x' then 1 + 2 else if e == 'u' then 1 + 4 else if e == 'U' then 1 + 8
      else if isOctalDigit e then 3 else 1
    let digits := rest.take (n - 1)
    let class_ := if isOctalDigit e then isOctalDigit else isHexDigit
    if n = 1 && !("abfnrtv\\'\"".toList.contains e) then none
    else if digits.length = n - 1 && digits.all (Piece.is class_) then
      match rest.drop (n - 1) with
      | .char '\'' :: _ => some (1 + n + 1)
      | _ => none
    else none
  | .char c :: .char '\'' :: _ =>
    if c == '\'' || c == '\\' || c == '\x00' then none else some 2
  | .broken 1 :: .char '\'' :: _ => some 2
  | _ => none

/-- Where the reading of a string stands. -/
inductive StringState where
  | plain
  | escape
  | hex (left : Nat)

/-- The number of pieces up to and with the closing quote, added to `n`.  A backslash may stand
before anything; after `x`, `u` and `U` hexadecimal digits must follow. -/
def stringTail? : StringState → (n : Nat) → List Piece → Option Nat
  | _, _, [] => none
  | .plain, n, c :: cs =>
    if isChar '"' c then some (n + 1)
    else if isChar '\\' c then stringTail? .escape (n + 1) cs
    else if isChar '\n' c || isNul c then none
    else stringTail? .plain (n + 1) cs
  | .escape, n, c :: cs =>
    if isChar 'x' c then stringTail? (.hex 2) (n + 1) cs
    else if isChar 'u' c then stringTail? (.hex 4) (n + 1) cs
    else if isChar 'U' c then stringTail? (.hex 8) (n + 1) cs
    else if isNul c then none
    else stringTail? .plain (n + 1) cs
  | .hex left, n, c :: cs =>
    if c.is isHexDigit then
      stringTail? (if left ≤ 1 then .plain else .hex (left - 1)) (n + 1) cs
    else none

/-- The number of pieces of a raw string after its opening quote. -/
def rawTail? (ps : List Piece) : Option Nat :=
  let n := countWhile (fun c => !isChar '\x60' c && !isNul c) 0 ps
  match ps.drop n with
  | c :: _ => if isChar '\x60' c then some (n + 1) else none
  | [] => none

/-! ## Comments -/

/-- The number of pieces of a block comment after its opening, added to `n`; `star` tells whether
the piece before was a star. -/
def blockTail? : (star : Bool) → (n : Nat) → List Piece → Option Nat
  | _, _, [] => none
  | star, n, c :: cs =>
    if star && isChar '/' c then some (n + 1)
    else if isNul c then none
    else blockTail? (isChar '*' c) (n + 1) cs

/-- The length of the comment that starts here.  An unclosed block comment is none: its slash and
star are operators. -/
def commentLength? : List Piece → Option Nat
  | .char '/' :: .char '/' :: rest =>
    some (2 + countWhile (fun c => !isChar '\n' c && !isNul c) 0 rest)
  | .char '/' :: .char '*' :: rest => (blockTail? false 0 rest).map (2 + ·)
  | _ => none

/-! ## The tokens of the grammar -/

/-- The reserved words. -/
def keywords : List String :=
  ["break", "case", "chan", "const", "continue", "default", "defer", "else", "fallthrough", "for",
    "func", "go", "goto", "if", "import", "interface", "map", "package", "range", "return",
    "select", "struct", "switch", "type", "var"]

/-- The numbers of tokens. -/
structure Vocabulary where
  newline : Nat
  nul : Nat
  less : Nat
  arrow : Nat
  identifier : Nat
  comment : Nat
  /-- The numbers of numerals and strings, by kind. -/
  literal : String → Nat
  /-- The words of fixed spelling. -/
  words : List (String × Nat)
  /-- The operators and delimiters, longer ones first. -/
  operators : List (List Char × Nat)

/-- Is the spelling that of a word? -/
def isWord (spelling : String) : Bool :=
  match spelling.toList with
  | c :: _ => Text.isIdentifierStart c
  | [] => false

/-- The tokens of a grammar. -/
def Vocabulary.ofGrammar (g : Compiled) : Vocabulary :=
  let spelled := g.symbols.toList.filterMap fun s =>
    s.spelling?.map fun spelling => (spelling, g.number s)
  let marks := spelled.filter fun (spelling, _) =>
    !isWord spelling && spelling != "\n" && spelling != "\x00"
  { newline := g.number (.text "\n")
    nul := g.number (.text "\x00")
    less := g.number (.text "<")
    arrow := g.number (.text "<-")
    identifier := g.number Go.identifier
    comment := g.number Go.comment
    literal := fun kind => g.number (.lexeme kind)
    words := spelled.filter fun (spelling, _) => isWord spelling
    operators := (marks.map fun (spelling, n) => (spelling.toList, n)).mergeSort
      fun a b => b.1.length ≤ a.1.length }

/-! ## Finding a token -/

/-- Is the piece white space in every place? -/
def isBlank : Piece → Bool :=
  Piece.is fun c => c == ' ' || c == '\t' || c == '\r' || c == '\x0b' || c == '\x0c'

/-- Does the text start with these characters? -/
def startsWith : List Char → List Piece → Bool
  | [], _ => true
  | _ :: _, [] => false
  | c :: cs, p :: ps => isChar c p && startsWith cs ps

/-- The text of leading pieces. -/
def wordOf (n : Nat) (ps : List Piece) : String :=
  String.ofList ((ps.take n).map Piece.toChar)

/-- The cursor behind white space.  A line feed is white space unless it ends a statement, and a
byte order mark only at the very start. -/
def skipSpace (newlineEnds : Bool) (c : Cursor) : Cursor :=
  let c := match c.offset, c.rest with
    | 0, .char '\uFEFF' :: _ => c.skip 1
    | _, _ => c
  c.skipWhile fun p => isBlank p || (!newlineEnds && isChar '\n' p)

namespace Vocabulary

/-- A token of `n` pieces. -/
def tokenOf (symbol : Nat) (n : Nat) (c : Cursor) : Token :=
  { symbol, start := c.place, stop := c.skip n }

/-- What the end of the text is.  It ends a statement behind a value, where a comparison could go on
with `<` but nothing can be sent with `<-`. -/
def endOfText (v : Vocabulary) (expects : Nat → Bool) : Nat :=
  if expects v.nul && expects v.less && !expects v.arrow then v.nul else 0

/-- The token of a word.  A word of fixed spelling that is not reserved is an identifier where it is
not expected, and can become one. -/
def wordToken (v : Vocabulary) (expects : Nat → Bool) (n : Nat) (c : Cursor) : Token :=
  let word := wordOf n c.rest
  match v.words.lookup word with
  | none => tokenOf v.identifier n c
  | some symbol =>
    if keywords.contains word then tokenOf symbol n c
    else if expects symbol then { tokenOf symbol n c with otherwise := some v.identifier }
    else tokenOf v.identifier n c

/-- The token of an operator or a delimiter: the longest one that is expected. -/
def operatorToken? (v : Vocabulary) (expects : Nat → Bool) (c : Cursor) : Option Token :=
  (v.operators.find? fun (spelling, n) => startsWith spelling c.rest && expects n).map
    fun (spelling, n) => tokenOf n spelling.length c

/-- The token that starts at a place behind white space. -/
def tokenAt? (v : Vocabulary) (expects : Nat → Bool) (c : Cursor) : Option Token :=
  match c.rest with
  | [] => some (tokenOf (v.endOfText expects) 0 c)
  | .broken _ :: _ => none
  | .char first :: rest =>
    if first == '\n' then some (tokenOf v.newline 1 c)
    else if first == '\x00' then some (tokenOf v.nul 1 c)
    else if Text.isIdentifierStart first then
      some (v.wordToken expects (countWhile (Piece.is Text.isIdentifierPart) 1 rest) c)
    else if first == '"' then
      (stringTail? .plain 1 rest).map fun n =>
        tokenOf (v.literal "interpreted_string_literal") n c
    else if first == '\x60' then
      (rawTail? rest).map fun n => tokenOf (v.literal "raw_string_literal") (1 + n) c
    else if first == '\'' then
      (runeTail? rest).map fun n => tokenOf (v.literal "rune_literal") (1 + n) c
    else match commentLength? c.rest, numberAt? c.rest with
      | some n, _ => some { tokenOf v.comment n c with extra := true }
      | none, some (kind, n) =>
        if expects (v.literal kind) then some (tokenOf (v.literal kind) n c)
        else v.operatorToken? expects c
      | none, none => v.operatorToken? expects c

/-- The next token, given which tokens are expected. -/
def token? (v : Vocabulary) (expects : Nat → Bool) (c : Cursor) : Option Token :=
  v.tokenAt? expects (skipSpace (expects v.newline) c)

end Vocabulary

/-- The tokens of Go. -/
def vocabulary : Vocabulary :=
  .ofGrammar grammar

end GoGlobals.Go
