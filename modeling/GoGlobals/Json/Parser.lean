import GoGlobals.Json.Basic

/-!
# Reading JSON text

The reader takes a list of code points and either gives a value or names a fault and the place of
it, counted in code points from 0.

## What is here

* `parse` reads a whole text: white space, one value, white space.
* A number is an integer unless it has a fraction or an exponent; `NaN`, `Infinity` and
  `-Infinity` are accepted as values.
* `Fault` lists what can be wrong with a text.  The place of a fault is where the missing thing
  should stand; an unterminated string is reported at its opening quote, a bad escape at its
  backslash and a bad `u` escape at the letter.
* Two more refusals are not faults of the text: a value nested deeper than `maxDepth`, and an
  integer of more than `maxDigits` digits.

Every function that calls itself takes an amount of `fuel`.  `parse` hands out more than twice as
much of it as there are code points, and no code point takes more than two calls, so it does not
run out.
-/

set_option autoImplicit false

namespace GoGlobals.Json

/-- What is wrong with a text. -/
inductive Fault where
  | expectingValue
  | expectingName
  | expectingColon
  | expectingComma
  | extraData
  | controlCharacter
  | badEscape
  | badUnicodeEscape
  | unterminatedString
deriving DecidableEq, Repr

/-- The wording of a fault. -/
def Fault.message : Fault → String
  | expectingValue => "Expecting value"
  | expectingName => "Expecting property name enclosed in double quotes"
  | expectingColon => "Expecting ':' delimiter"
  | expectingComma => "Expecting ',' delimiter"
  | extraData => "Extra data"
  | controlCharacter => "Invalid control character at"
  | badEscape => "Invalid \\escape"
  | badUnicodeEscape => "Invalid \\uXXXX escape"
  | unterminatedString => "Unterminated string starting at"

/-- Why a text is refused. -/
inductive Refusal where
  | fault (fault : Fault) (place : Nat)
  | tooDeep
  | tooManyDigits
deriving DecidableEq, Repr

/-- The deepest nesting of arrays and objects that is read. -/
def maxDepth : Nat := 950

/-- The largest number of digits of an integer. -/
def maxDigits : Nat := 4300

/-- What is left of a text, and the place where it starts. -/
structure Cursor where
  rest : List Nat
  place : Nat

/-- What reading gives: a result and the cursor after it. -/
abbrev Reader (α : Type) := Cursor → Except Refusal (α × Cursor)

/-- JSON white space: blank, tab, line feed, carriage return. -/
def isSpace (n : Nat) : Bool :=
  n == 0x20 || n == 0x09 || n == 0x0a || n == 0x0d

/-- The cursor after leading code points of a class. -/
def Cursor.skip (p : Nat → Bool) (c : Cursor) : Cursor :=
  go c.rest c.place
where
  go : List Nat → Nat → Cursor
    | [], place => ⟨[], place⟩
    | n :: ns, place => if p n then go ns (place + 1) else ⟨n :: ns, place⟩

/-- The cursor after white space. -/
def Cursor.skipSpace (c : Cursor) : Cursor :=
  c.skip isSpace

/-- The cursor after one code point. -/
def Cursor.next (c : Cursor) : Cursor :=
  ⟨c.rest.tail, c.place + 1⟩

/-- Does the text go on with these characters? -/
def Cursor.looksAt (c : Cursor) (word : String) : Bool :=
  (word.toList.map Char.toNat).isPrefixOf c.rest

/-- The cursor after a word. -/
def Cursor.after (c : Cursor) (word : String) : Cursor :=
  ⟨c.rest.drop word.length, c.place + word.length⟩

/-! ## Strings -/

/-- The value of a hexadecimal digit. -/
def hexValue? (n : Nat) : Option Nat :=
  if 0x30 ≤ n && n ≤ 0x39 then some (n - 0x30)
  else if 0x41 ≤ n && n ≤ 0x46 then some (n - 0x41 + 10)
  else if 0x61 ≤ n && n ≤ 0x66 then some (n - 0x61 + 10)
  else none

/-- The value of exactly four hexadecimal digits at the start of a list. -/
def hex4? : List Nat → Option Nat
  | a :: b :: c :: d :: _ => do
    let a ← hexValue? a
    let b ← hexValue? b
    let c ← hexValue? c
    let d ← hexValue? d
    some (((a * 16 + b) * 16 + c) * 16 + d)
  | _ => none

/-- The character that a letter names after a backslash. -/
def escapeValue? (n : Nat) : Option Nat :=
  if n == 0x22 || n == 0x5c || n == 0x2f then some n
  else if n == 0x62 then some 0x08
  else if n == 0x66 then some 0x0c
  else if n == 0x6e then some 0x0a
  else if n == 0x72 then some 0x0d
  else if n == 0x74 then some 0x09
  else none

/-- Reads the four digits of a `u` escape and, after a high surrogate, the low surrogate that
follows.  The cursor stands on the letter.  At least one code point must follow the digits. -/
def unicodeEscape : Reader Nat := fun c =>
  let digits := c.rest.tail
  if (digits.drop 4).isEmpty then .error (.fault .badUnicodeEscape c.place)
  else match hex4? digits with
    | none => .error (.fault .badUnicodeEscape c.place)
    | some high =>
      let after : Cursor := ⟨digits.drop 4, c.place + 5⟩
      match after.rest with
      | 0x5c :: 0x75 :: more =>
        if 0xD800 ≤ high && high < 0xDC00 && !(more.drop 4).isEmpty then
          match hex4? more with
          | none => .error (.fault .badUnicodeEscape (after.place + 1))
          | some low =>
            if 0xDC00 ≤ low && low < 0xE000 then
              .ok (0x10000 + (high - 0xD800) * 0x400 + (low - 0xDC00),
                ⟨more.drop 4, after.place + 6⟩)
            else .ok (high, after)
        else .ok (high, after)
      | _ => .ok (high, after)

/-- Reads the inside of a string and its closing quote; `start` is the place of the opening quote
and `points` holds what was read, last first. -/
def stringFrom (start : Nat) : (fuel : Nat) → (points : List Nat) → Reader JsonString
  | 0, _, _ => .error (.fault .unterminatedString start)
  | fuel + 1, points, c =>
    match c.rest with
    | [] => .error (.fault .unterminatedString start)
    | n :: ns =>
      if n == 0x22 then .ok (.ofPoints points.reverse, c.next)
      else if n == 0x5c then
        match ns with
        | [] => .error (.fault .unterminatedString start)
        | e :: _ =>
          if e == 0x75 then
            match unicodeEscape c.next with
            | .error r => .error r
            | .ok (point, c') => stringFrom start fuel (point :: points) c'
          else match escapeValue? e with
            | none => .error (.fault .badEscape c.place)
            | some point => stringFrom start fuel (point :: points) c.next.next
      else if n < 0x20 then .error (.fault .controlCharacter c.place)
      else stringFrom start fuel (n :: points) c.next

/-- Reads a string; the cursor stands on its opening quote. -/
def string (fuel : Nat) : Reader JsonString := fun c =>
  stringFrom c.place fuel [] c.next

/-! ## Numbers -/

/-- Is the code point a decimal digit? -/
def isDigit (n : Nat) : Bool :=
  0x30 ≤ n && n ≤ 0x39

/-- The number that decimal digits write. -/
def digitsValue (digits : List Nat) : Nat :=
  digits.foldl (fun value d => value * 10 + (d - 0x30)) 0

/-- Splits off the digits at the start. -/
def Cursor.digits (c : Cursor) : List Nat × Cursor :=
  let (ds, rest) := c.rest.span isDigit
  (ds, ⟨rest, c.place + ds.length⟩)

/-- The digits after a point, and the cursor after them; without a digit there is no fraction. -/
def fraction (c : Cursor) : Option (List Nat × Cursor) :=
  match c.rest with
  | 0x2e :: _ =>
    match c.next.digits with
    | ([], _) => none
    | found => some found
  | _ => none

/-- The exponent after an `e`, and the cursor after it; without a digit there is none. -/
def exponent (c : Cursor) : Option (Int × Cursor) :=
  match c.rest with
  | e :: rest =>
    if e == 0x65 || e == 0x45 then
      let (negative, signed) := match rest with
        | 0x2d :: _ => (true, c.next.next)
        | 0x2b :: _ => (false, c.next.next)
        | _ => (false, c.next)
      match signed.digits with
      | ([], _) => none
      | (ds, c') =>
        let value : Int := digitsValue ds
        some (if negative then -value else value, c')
    else none
  | [] => none

/-- Reads a number. -/
def number : Reader Json := fun c =>
  let (negative, unsigned) := match c.rest with
    | 0x2d :: _ => (true, c.next)
    | _ => (false, c)
  let (whole, afterWhole) := match unsigned.rest with
    | 0x30 :: _ => ([0x30], unsigned.next)
    | _ => unsigned.digits
  if whole.isEmpty then .error (.fault .expectingValue c.place)
  else match fraction afterWhole, exponent ((fraction afterWhole).map (·.2) |>.getD afterWhole) with
    | none, none =>
      if maxDigits < whole.length then .error .tooManyDigits
      else
        let value : Int := digitsValue whole
        .ok (.int (if negative then -value else value), afterWhole)
    | f, e =>
      let places := (f.map (·.1)).getD []
      let afterFraction := (f.map (·.2)).getD afterWhole
      let power : Int := (e.map (·.1)).getD 0
      .ok (.float (.ofDecimal negative (digitsValue (whole ++ places)) (power - places.length)),
        (e.map (·.2)).getD afterFraction)

/-! ## Values -/

/-- The words that are values. -/
def words : List (String × Json) :=
  [("null", .null), ("true", .bool true), ("false", .bool false), ("NaN", .float .notANumber),
    ("Infinity", .float (.infinite false)), ("-Infinity", .float (.infinite true))]

mutual

/-- Reads a value at a depth of nesting. -/
def value : (fuel : Nat) → (depth : Nat) → Reader Json
  | 0, _, _ => .error .tooDeep
  | fuel + 1, depth, c =>
    match c.rest with
    | 0x22 :: _ =>
      match string fuel c with
      | .error r => .error r
      | .ok (s, c') => .ok (.str s, c')
    | 0x7b :: _ =>
      if maxDepth ≤ depth then .error .tooDeep
      else
        let inner := c.next.skipSpace
        match inner.rest with
        | 0x7d :: _ => .ok (.obj [], inner.next)
        | _ => members fuel (depth + 1) [] inner
    | 0x5b :: _ =>
      if maxDepth ≤ depth then .error .tooDeep
      else
        let inner := c.next.skipSpace
        match inner.rest with
        | 0x5d :: _ => .ok (.arr [], inner.next)
        | _ => elements fuel (depth + 1) [] inner
    | _ =>
      match words.find? fun w => c.looksAt w.1 with
      | some w => .ok (w.2, c.after w.1)
      | none => number c

/-- Reads the elements of an array and its closing bracket. -/
def elements : (fuel : Nat) → (depth : Nat) → (found : List Json) → Reader Json
  | 0, _, _, _ => .error .tooDeep
  | fuel + 1, depth, found, c =>
    match value fuel depth c with
    | .error r => .error r
    | .ok (v, c') =>
      let after := c'.skipSpace
      match after.rest with
      | 0x5d :: _ => .ok (.arr (v :: found).reverse, after.next)
      | 0x2c :: _ => elements fuel depth (v :: found) after.next.skipSpace
      | _ => .error (.fault .expectingComma after.place)

/-- Reads the members of an object and its closing brace. -/
def members : (fuel : Nat) → (depth : Nat) → (found : List (JsonString × Json)) → Reader Json
  | 0, _, _, _ => .error .tooDeep
  | fuel + 1, depth, found, c =>
    match c.rest with
    | 0x22 :: _ =>
      match string fuel c with
      | .error r => .error r
      | .ok (name, c') =>
        let colon := c'.skipSpace
        match colon.rest with
        | 0x3a :: _ =>
          match value fuel depth colon.next.skipSpace with
          | .error r => .error r
          | .ok (v, c'') =>
            let found := insertMember name v found
            let after := c''.skipSpace
            match after.rest with
            | 0x7d :: _ => .ok (.obj found, after.next)
            | 0x2c :: _ => members fuel depth found after.next.skipSpace
            | _ => .error (.fault .expectingComma after.place)
        | _ => .error (.fault .expectingColon colon.place)
    | _ => .error (.fault .expectingName c.place)

end

/-- Reads a whole text given by its code points. -/
def parsePoints (points : List Nat) : Except Refusal Json :=
  let start : Cursor := Cursor.skipSpace ⟨points, 0⟩
  match value (2 * points.length + 2) 0 start with
  | .error r => .error r
  | .ok (v, c) =>
    let stop := c.skipSpace
    if stop.rest.isEmpty then .ok v else .error (.fault .extraData stop.place)

/-- Reads a whole text. -/
def parse (s : String) : Except Refusal Json :=
  parsePoints (s.toList.map Char.toNat)

end GoGlobals.Json
