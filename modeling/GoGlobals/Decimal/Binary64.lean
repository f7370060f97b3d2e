/-!
# Binary floating point numbers and their decimal text

A number with a fraction or an exponent is kept as the binary64 number nearest to it.  All
arithmetic here is exact, on natural numbers: a finite number is `mantissa · 2 ^ exponent`.

## What is here

* `ofDecimal` rounds `digits · 10 ^ exponent` to the nearest binary64 number, a tie going to the
  even mantissa.
* `shortest` finds the fewest digits that read back as the same number, and of those the nearest.
* `text` writes them: positionally for decimal exponents from -4 to 15, and with a two digit
  exponent otherwise.
-/

set_option autoImplicit false

namespace GoGlobals.Decimal

/-- A binary64 number; a finite one is `mantissa · 2 ^ exponent`. -/
inductive Binary64 where
  | finite (negative : Bool) (mantissa : Nat) (exponent : Int)
  | infinite (negative : Bool)
  | notANumber
deriving DecidableEq, Repr, Inhabited

/-- The quotient rounded to the nearest natural number, a tie going to the even one. -/
def roundDiv (num den : Nat) : Nat :=
  let q := num / den
  let r := num % den
  if 2 * r < den then q
  else if den < 2 * r then q + 1
  else if q % 2 == 0 then q else q + 1

/-- The number `num / den · base ^ exponent` as a fraction. -/
def scale (num den base : Nat) (exponent : Int) : Nat × Nat :=
  if 0 ≤ exponent then (num * Nat.pow base exponent.toNat, den)
  else (num, den * Nat.pow base (-exponent).toNat)

namespace Binary64

/-- The least exponent of a binary64 number. -/
def minExponent : Int := -1074

/-- The greatest exponent of a binary64 number. -/
def maxExponent : Int := 971

/-- The binary64 number nearest to the positive fraction `num / den`. -/
def ofFraction (negative : Bool) (num den : Nat) : Binary64 :=
  -- the quotient has at most 54 binary digits above this exponent
  let guess : Int := (num.log2 : Int) - (den.log2 : Int) - 52
  let exponentOf (e : Int) : Int := max e minExponent
  let mantissaOf (e : Int) : Nat :=
    let (n, d) := scale num den 2 (-e)
    roundDiv n d
  let fits (e : Int) : Bool := mantissaOf e < Nat.pow 2 53
  let e := exponentOf (guess - 1)
  let e := if fits e then e else if fits (e + 1) then e + 1 else e + 2
  if maxExponent < e then infinite negative else finite negative (mantissaOf e) e

/-- The binary64 number nearest to `digits · 10 ^ exponent`. -/
def ofDecimal (negative : Bool) (digits : Nat) (exponent : Int) : Binary64 :=
  if digits == 0 then finite negative 0 minExponent
  else
    let magnitude : Int := (Nat.toDigits 10 digits).length + exponent
    if 400 < magnitude then infinite negative
    else if magnitude < -400 then finite negative 0 minExponent
    else
      let (n, d) := scale digits 1 10 exponent
      ofFraction negative n d

/-- The integer that the number is, if it is one. -/
def toInt? : Binary64 → Option Int
  | finite negative m e =>
    let (n, d) := scale m 1 2 e
    if n % d == 0 then
      let q : Int := (n / d : Nat)
      some (if negative then -q else q)
    else none
  | _ => none

/-! ## The shortest decimal -/

/-- The least `k` up to `fuel` with `den ≤ num · 10 ^ k`. -/
def leadingZeros : (fuel : Nat) → (num den : Nat) → Nat
  | 0, _, _ => 0
  | fuel + 1, num, den => if den ≤ num then 0 else leadingZeros fuel (num * 10) den + 1

/-- The decimal exponent of the first digit of the positive fraction `num / den`. -/
def firstPlace (num den : Nat) : Int :=
  if den ≤ num then ((Nat.toDigits 10 (num / den)).length : Int) - 1
  else -(leadingZeros 400 num den : Int)

/-- Does `digits · 10 ^ place` round to `mantissa · 2 ^ exponent`?  The interval of such numbers
reaches half way to the two neighbours and has its ends exactly if the mantissa is even. -/
def readsBack (mantissa : Nat) (exponent : Int) (digits : Nat) (place : Int) : Bool :=
  let (n, d) := scale digits 1 10 place
  -- everything in quarters of the last place of the number
  let (a, b) := scale (4 * n) d 2 (-exponent)
  let below := if mantissa == Nat.pow 2 52 && minExponent < exponent then 1 else 2
  let lo := (4 * mantissa - below) * b
  let hi := (4 * mantissa + 2) * b
  if mantissa % 2 == 0 then lo ≤ a && a ≤ hi else lo < a && a < hi

/-- Of the two neighbours of the number on the grid of the given place, the nearest that reads
back. -/
def onGrid? (mantissa : Nat) (exponent : Int) (place : Int) : Option Nat :=
  let (n, d) := scale mantissa 1 2 exponent
  let (n, d) := scale n d 10 (-place)
  let low := n / d
  let lowFirst := 2 * (n % d) ≤ d
  let candidates := if lowFirst then [low, low + 1] else [low + 1, low]
  candidates.find? fun digits => readsBack mantissa exponent digits place

/-- The fewest digits that read back, from the grid of the first digit to finer ones. -/
def shortestFrom (mantissa : Nat) (exponent : Int) : (fuel : Nat) → (place : Int) → Nat × Int
  | 0, place => ((onGrid? mantissa exponent place).getD 0, place)
  | fuel + 1, place =>
    match onGrid? mantissa exponent place with
    | some digits => (digits, place)
    | none => shortestFrom mantissa exponent fuel (place - 1)

/-- The digits and the decimal place of the last of them. -/
def shortest (mantissa : Nat) (exponent : Int) : Nat × Int :=
  let (n, d) := scale mantissa 1 2 exponent
  shortestFrom mantissa exponent 17 (firstPlace n d)

/-- Digits whose last one stands at `place`, written positionally with at least one place after
the point. -/
def positional (digits : List Char) (place : Int) : List Char :=
  if 0 ≤ place then digits ++ List.replicate place.toNat '0' ++ ['.', '0']
  else
    let after := (-place).toNat
    let padded := List.replicate (after + 1 - digits.length) '0' ++ digits
    padded.take (padded.length - after) ++ '.' :: padded.drop (padded.length - after)

/-- Digits in front of an exponent: the point follows the first digit. -/
def scientific (digits : List Char) (first : Int) : List Char :=
  let mantissa := match digits with
    | d :: e :: rest => d :: '.' :: e :: rest
    | ds => ds
  let power := (Nat.toDigits 10 first.natAbs)
  mantissa ++ ['e', if first < 0 then '-' else '+'] ++
    List.replicate (2 - power.length) '0' ++ power

/-- The text of a number. -/
def text : Binary64 → String
  | finite negative m e =>
    let sign := if negative then "-" else ""
    if m == 0 then sign ++ "0.0"
    else
      let (digits, place) := shortest m e
      let ds := Nat.toDigits 10 digits
      let first : Int := place + ds.length - 1
      -- a digit grid may end in zeros when the next power of ten is the nearest neighbour
      let trimmed := (ds.reverse.dropWhile (· == '0')).reverse
      let place := place + (ds.length - trimmed.length : Nat)
      if -4 ≤ first && first < 16 then sign ++ String.ofList (positional trimmed place)
      else sign ++ String.ofList (scientific trimmed first)
  | infinite negative => if negative then "-Infinity" else "Infinity"
  | notANumber => "NaN"

end Binary64

end GoGlobals.Decimal
