import GoGlobals.Text.Utf8

/-!
# Encodings of Unicode

Bytes that hold a JSON text can be in one of five encodings.  A mark at the start names the
encoding, and is no part of the text; without one, where the zero bytes are tells it.

The code points of a text may be lone surrogates: each encoding is read so that it can hold them.
A text that cannot be read has no code points.

## What is here

* `Encoding.detect` tells the encoding of bytes and how long its mark is.
* `Encoding.points?` reads code points, and `codePoints?` does both.
-/

set_option autoImplicit false

namespace GoGlobals.Text

/-- An encoding; the flag of the wider ones says that the high byte stands first. -/
inductive Encoding where
  | utf8
  | utf16 (bigEndian : Bool)
  | utf32 (bigEndian : Bool)
deriving DecidableEq, Repr

namespace Encoding

/-- The encoding that a mark at the start names, and the length of the mark. -/
def marked? : List UInt8 → Option (Encoding × Nat)
  | 0x00 :: 0x00 :: 0xFE :: 0xFF :: _ => some (.utf32 true, 4)
  | 0xFF :: 0xFE :: 0x00 :: 0x00 :: _ => some (.utf32 false, 4)
  | 0xFE :: 0xFF :: _ => some (.utf16 true, 2)
  | 0xFF :: 0xFE :: _ => some (.utf16 false, 2)
  | 0xEF :: 0xBB :: 0xBF :: _ => some (.utf8, 3)
  | _ => none

/-- The encoding that the zero bytes among the first four, or among two, tell. -/
def guessed : List UInt8 → Encoding
  | [a, b] =>
    if a = 0 then .utf16 true else if b = 0 then .utf16 false else .utf8
  | a :: b :: c :: d :: _ =>
    if a = 0 then if b = 0 then .utf32 true else .utf16 true
    else if b = 0 then if c = 0 ∧ d = 0 then .utf32 false else .utf16 false
    else .utf8
  | _ => .utf8

/-- The encoding of bytes and the length of the mark in front of them. -/
def detect (bytes : List UInt8) : Encoding × Nat :=
  (marked? bytes).getD (guessed bytes, 0)

/-! ## UTF-8 with surrogates -/

/-- What has been read: code points, last first, and an unfinished sequence. -/
structure Reading where
  points : List Nat := []
  pending : Option Pending := none

/-- How a byte begins a sequence; surrogates are allowed. -/
def lead? (b : UInt8) : Option Pending :=
  if b = 0xED then some ⟨2, 0x80, 0xBF, 0xD, 1⟩ else Pending.ofLead b

/-- Reads one byte. -/
def Reading.feed (r : Reading) (b : UInt8) : Option Reading :=
  match r.pending with
  | none =>
    if b.toNat < 0x80 then some ⟨b.toNat :: r.points, none⟩
    else (lead? b).map fun p => ⟨r.points, some p⟩
  | some p =>
    if p.lo ≤ b ∧ b ≤ p.hi then
      let point := p.point * 64 + (b.toNat - 0x80)
      if p.need ≤ 1 then some ⟨point :: r.points, none⟩
      else some ⟨r.points, some ⟨p.need - 1, 0x80, 0xBF, point, p.seen + 1⟩⟩
    else none

/-- The code points, once there are no more bytes. -/
def Reading.finish (r : Reading) : Option (List Nat) :=
  match r.pending with
  | none => some r.points.reverse
  | some _ => none

/-! ## Wider encodings -/

/-- The number that two bytes make. -/
def unit (bigEndian : Bool) (a b : UInt8) : Nat :=
  if bigEndian then a.toNat * 256 + b.toNat else b.toNat * 256 + a.toNat

/-- The units of 16 bits, put in front of those read before, last first. -/
def units? (bigEndian : Bool) : (found : List Nat) → List UInt8 → Option (List Nat)
  | found, [] => some found.reverse
  | _, [_] => none
  | found, a :: b :: rest => units? bigEndian (unit bigEndian a b :: found) rest

/-- Joins the pairs of surrogates; other surrogates stay as they are. -/
def joinPairs : (found : List Nat) → List Nat → List Nat
  | found, [] => found.reverse
  | found, [u] => (u :: found).reverse
  | found, u :: v :: rest =>
    if 0xD800 ≤ u ∧ u < 0xDC00 ∧ 0xDC00 ≤ v ∧ v < 0xE000 then
      joinPairs ((0x10000 + (u - 0xD800) * 0x400 + (v - 0xDC00)) :: found) rest
    else joinPairs (u :: found) (v :: rest)

/-- The code points of units of 32 bits. -/
def quads? (bigEndian : Bool) : (found : List Nat) → List UInt8 → Option (List Nat)
  | found, [] => some found.reverse
  | found, a :: b :: c :: d :: rest =>
    let (high, low) := if bigEndian then (unit true a b, unit true c d)
      else (unit false c d, unit false a b)
    let point := high * 0x10000 + low
    if point < 0x110000 then quads? bigEndian (point :: found) rest else none
  | _, _ => none

/-- The code points of bytes in an encoding. -/
def points? : Encoding → List UInt8 → Option (List Nat)
  | utf8, bytes => (bytes.foldlM Reading.feed {}).bind Reading.finish
  | utf16 bigEndian, bytes => (units? bigEndian [] bytes).map (joinPairs [])
  | utf32 bigEndian, bytes => quads? bigEndian [] bytes

end Encoding

/-- The code points of bytes in the encoding that they show. -/
def codePoints? (bytes : List UInt8) : Option (List Nat) :=
  let (encoding, mark) := Encoding.detect bytes
  encoding.points? (bytes.drop mark)

end GoGlobals.Text
