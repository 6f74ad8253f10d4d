import CssTypings.Text.Basic

/-!
# Double-precision numbers

A double is a sign and a magnitude. The magnitude is the word of 63 bits that encodes it: magnitudes
are ordered as the numbers they stand for, with zero first and infinity last. All arithmetic is on
natural numbers, and a number that no double equals is rounded to the nearest one, ties to the even
word.
-/

namespace CssTypings

/-- A double-precision number. -/
inductive Double where
  /-- Not a number. -/
  | nan
  /-- The sign and the encoded magnitude. -/
  | number (negative : Bool) (magnitude : Nat)
deriving DecidableEq, Repr

namespace Double

/-- The magnitude of infinity. -/
def infinity : Nat := 0x7FF0000000000000

/-- The quotient of two numbers rounded to the nearest number, ties to even. -/
def roundQuotient (a b : Nat) : Nat :=
  let q := a / b
  let r := a % b
  if b < 2 * r ∨ (b = 2 * r ∧ q % 2 = 1) then q + 1 else q

/-- The quotient `a / (b * 2 ^ e)`, as a pair of numbers. -/
def scaled (a b : Nat) (e : Int) : Nat × Nat :=
  if 0 ≤ e then (a, b * Nat.pow 2 e.toNat) else (a * Nat.pow 2 (-e).toNat, b)

/-- The exponent of the greatest power of two that is at most `a / b`; neither may be zero. -/
def exponent (a b : Nat) : Int :=
  let e : Int := a.log2 - b.log2
  let (a', b') := scaled a b e
  if a' < b' then e - 1 else e

/-- The magnitude nearest to `a / b`. The word of `m * 2 ^ e` with `m` below `2 ^ 53` is `m` plus
`2 ^ 52` for each step of the exponent above the least, so a carry out of `m` needs no care. -/
def magnitudeOf (a b : Nat) : Nat :=
  if a = 0 then 0
  else
    let e := max (-1074) (exponent a b - 52)
    let (a', b') := scaled a b e
    min infinity ((e + 1074).toNat * Nat.pow 2 52 + roundQuotient a' b')

/-- The double nearest to `digits * 10 ^ e`, or to its negative. Exponents far out of range are
answered without computing the power. -/
def ofDecimal (negative : Bool) (digits : Nat) (e : Int) : Double :=
  number negative <|
    if digits = 0 ∨ e < -400 - digits.log2 then 0
    else if 400 < e then infinity
    else if 0 ≤ e then magnitudeOf (digits * Nat.pow 10 e.toNat) 1
    else magnitudeOf digits (Nat.pow 10 (-e).toNat)

/-- The double nearest to an integer, if that is finite. -/
def ofInt? (n : Int) : Option Double :=
  let magnitude := magnitudeOf n.natAbs 1
  if magnitude < infinity then some (number (decide (n < 0)) magnitude) else none

/-- Whether the number is zero or less; this is false of `nan`. -/
def isAtMostZero : Double → Bool
  | nan => false
  | number negative magnitude => negative || magnitude == 0

/-- The whole milliseconds in a number of seconds, at most a day; there are none in `nan`. -/
def milliseconds : Double → Nat
  | nan => 0
  | number negative magnitude =>
    let day := 24 * 60 * 60 * 1000
    let biased := magnitude / Nat.pow 2 52
    let mantissa := if biased = 0 then magnitude else magnitude % Nat.pow 2 52 + Nat.pow 2 52
    let e := max 1 biased
    if negative then 0
    else if 1075 ≤ e then day
    else min day (mantissa * 1000 / Nat.pow 2 (1075 - e))

/-- One half. -/
def half : Double := number false 0x3FE0000000000000

/-- The word of a number in hexadecimal digits. -/
def word : Double → Text
  | nan => "nan".toList
  | number negative magnitude => Text.hex 16 ((if negative then Nat.pow 2 63 else 0) + magnitude)

end Double

end CssTypings
