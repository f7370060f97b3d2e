/-!
# Bytes read as UTF-8

A byte string need not be UTF-8.  It is read as a sequence of *pieces*: a piece is a character, or
a maximal invalid subpart, the longest run of bytes that begins like some character and is not
continued as one (a byte that begins no character is such a run by itself).  Nothing is lost: the
widths of the pieces add up to the number of bytes.

## What is here

* `decode` reads a byte string as pieces, one byte at a time, through the machine `Decoder`.
* `lossyText` is the text of a byte string, with one replacement character for each invalid
  subpart.
* `bytesOf` is the other direction, the UTF-8 form of a text.
* `slice` cuts a range of bytes; an end beyond the last byte is moved back to it, and a range whose
  start is not before its end is empty.
-/

set_option autoImplicit false

namespace GoGlobals.Text

/-- A character, or a maximal run of bytes that is the beginning of no valid character. -/
inductive Piece where
  | char (c : Char)
  | broken (width : Nat)
deriving DecidableEq, Repr

namespace Piece

/-- The number of bytes that the piece takes up. -/
def width : Piece → Nat
  | char c => c.utf8Size
  | broken w => w

/-- The character that stands for the piece in a text. -/
def toChar : Piece → Char
  | char c => c
  | broken _ => '\uFFFD'

/-- Is the piece a character of the class `p`?  An invalid subpart is in no class. -/
def is (p : Char → Bool) : Piece → Bool
  | char c => p c
  | broken _ => false

end Piece

/-! ## The decoder -/

/-- What is still wanted after a lead byte: `need` more bytes, of which the next lies between `lo`
and `hi`; `point` holds the bits read so far and `seen` counts the bytes they came from. -/
structure Pending where
  need : Nat
  lo : UInt8
  hi : UInt8
  point : Nat
  seen : Nat

/-- The state of the decoder: the pieces read so far, last first, and an unfinished sequence. -/
structure Decoder where
  pieces : List Piece := []
  pending : Option Pending := none

/-- How a byte begins a sequence: the second byte's range excludes overlong forms, surrogates and
code points above U+10FFFF. -/
def Pending.ofLead (b : UInt8) : Option Pending :=
  let n := b.toNat
  if n < 0xC2 then none
  else if n < 0xE0 then some ⟨1, 0x80, 0xBF, n - 0xC0, 1⟩
  else if n == 0xE0 then some ⟨2, 0xA0, 0xBF, 0, 1⟩
  else if n == 0xED then some ⟨2, 0x80, 0x9F, 0xD, 1⟩
  else if n < 0xF0 then some ⟨2, 0x80, 0xBF, n - 0xE0, 1⟩
  else if n == 0xF0 then some ⟨3, 0x90, 0xBF, 0, 1⟩
  else if n < 0xF4 then some ⟨3, 0x80, 0xBF, n - 0xF0, 1⟩
  else if n == 0xF4 then some ⟨3, 0x80, 0x8F, 4, 1⟩
  else none

/-- Reads a byte where a new piece begins. -/
def Decoder.begin (pieces : List Piece) (b : UInt8) : Decoder :=
  if b.toNat < 0x80 then ⟨.char (Char.ofNat b.toNat) :: pieces, none⟩
  else match Pending.ofLead b with
    | some p => ⟨pieces, some p⟩
    | none => ⟨.broken 1 :: pieces, none⟩

/-- Reads one byte.  A byte that does not continue an unfinished sequence ends it as broken, and is
then read as the beginning of the next piece. -/
def Decoder.feed (d : Decoder) (b : UInt8) : Decoder :=
  match d.pending with
  | none => Decoder.begin d.pieces b
  | some p =>
    if p.lo ≤ b ∧ b ≤ p.hi then
      let point := p.point * 64 + (b.toNat - 0x80)
      if p.need ≤ 1 then ⟨.char (Char.ofNat point) :: d.pieces, none⟩
      else ⟨d.pieces, some ⟨p.need - 1, 0x80, 0xBF, point, p.seen + 1⟩⟩
    else Decoder.begin (.broken p.seen :: d.pieces) b

/-- The pieces read, in order, once there are no more bytes. -/
def Decoder.finish (d : Decoder) : List Piece :=
  match d.pending with
  | none => d.pieces.reverse
  | some p => (.broken p.seen :: d.pieces).reverse

/-- Reads a byte string as pieces. -/
def decode (bytes : List UInt8) : List Piece :=
  (bytes.foldl Decoder.feed {}).finish

/-- The text of a byte string, each maximal invalid subpart replaced by U+FFFD. -/
def lossyText (bytes : List UInt8) : String :=
  String.ofList ((decode bytes).map Piece.toChar)

/-- The text of a byte string that is valid UTF-8. -/
def strictText? (bytes : List UInt8) : Option String :=
  let pieces := decode bytes
  if pieces.all (Piece.is fun _ => true) then some (String.ofList (pieces.map Piece.toChar))
  else none

/-- The UTF-8 form of a text. -/
def bytesOf (s : String) : List UInt8 :=
  s.toList.flatMap String.utf8EncodeChar

/-- The bytes of a file. -/
abbrev Source := Array UInt8

/-- The bytes from `start` up to `stop`, which is moved back to the end of the bytes. -/
def slice (source : Source) (start stop : Nat) : List UInt8 :=
  (source.extract start stop).toList

end GoGlobals.Text
