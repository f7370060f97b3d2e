import GoGlobals.Text.Utf8

/-!
# Places in a text

A place counts what stands before it: bytes, line feeds, and bytes since the last line feed.  A
cursor is a place together with the pieces of text behind it, so that reading on from a place needs
no look-up.
-/

set_option autoImplicit false

namespace GoGlobals.Text

/-- A place in a text: the number of bytes before it, the number of line feeds before it, and the
number of bytes since the last of them. -/
structure Place where
  offset : Nat := 0
  row : Nat := 0
  column : Nat := 0
deriving DecidableEq, Repr, Inhabited

/-- The place after a piece of text. -/
def Place.advance (p : Place) (piece : Piece) : Place :=
  if piece = .char '\n' then ⟨p.offset + 1, p.row + 1, 0⟩
  else ⟨p.offset + piece.width, p.row, p.column + piece.width⟩

/-- A place and the text behind it. -/
structure Cursor where
  place : Place := {}
  rest : List Piece := []
deriving Inhabited

namespace Cursor

/-- The number of bytes before the cursor. -/
def offset (c : Cursor) : Nat :=
  c.place.offset

/-- The cursor at the start of a byte string. -/
def ofBytes (bytes : List UInt8) : Cursor :=
  ⟨{}, decode bytes⟩

/-- The cursor behind the next `n` pieces. -/
def skip : (n : Nat) → Cursor → Cursor
  | 0, c => c
  | _ + 1, ⟨place, []⟩ => ⟨place, []⟩
  | n + 1, ⟨place, piece :: rest⟩ => skip n ⟨place.advance piece, rest⟩

/-- The cursor behind the leading pieces of a class. -/
def skipWhile (p : Piece → Bool) : Cursor → Cursor
  | ⟨place, []⟩ => ⟨place, []⟩
  | ⟨place, piece :: rest⟩ =>
    if p piece then skipWhile p ⟨place.advance piece, rest⟩ else ⟨place, piece :: rest⟩
termination_by c => c.rest.length

end Cursor

end GoGlobals.Text
