import GoGlobals.Text.Printable

/-!
# Quoted text

A text inside a message is written between quotes, so that it is one line of printable characters
whatever it holds.  The quotes are single, unless the text has a single quote and no double one.
A backslash and the quote in use are escaped by a backslash, line feed, carriage return and tab
have their letters, and every other character that is not printable is written by its code point,
in two, four or eight hexadecimal digits, the fewest that hold it.
-/

set_option autoImplicit false

namespace GoGlobals.Text

/-- The lower case hexadecimal digits of `n`, the last `width` of them. -/
def hexDigits : (width : Nat) → (n : Nat) → List Char
  | 0, _ => []
  | width + 1, n => hexDigits width (n / 16) ++ [Nat.digitChar (n % 16)]

/-- A character by its code point. -/
def escapeByCode (c : Char) : List Char :=
  let n := c.toNat
  if n < 0x100 then '\\' :: 'x' :: hexDigits 2 n
  else if n < 0x10000 then '\\' :: 'u' :: hexDigits 4 n
  else '\\' :: 'U' :: hexDigits 8 n

/-- How a character is written between quotes `q`. -/
def escape (q c : Char) : List Char :=
  if c == '\\' || c == q then ['\\', c]
  else if c == '\n' then ['\\', 'n']
  else if c == '\r' then ['\\', 'r']
  else if c == '\t' then ['\\', 't']
  else if isPrintable c then [c]
  else escapeByCode c

/-- The quote that a text is written with. -/
def quoteFor (cs : List Char) : Char :=
  if cs.contains '\'' && !cs.contains '"' then '"' else '\''

/-- The text between quotes. -/
def quoted (s : String) : String :=
  let q := quoteFor s.toList
  String.ofList (q :: (s.toList.flatMap (escape q) ++ [q]))

end GoGlobals.Text
