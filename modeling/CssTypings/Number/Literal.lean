import CssTypings.Number.Double

/-!
# Reading doubles

A literal is an optional sign, digits with an optional fraction, and an optional exponent; the words
`inf` and `nan` may stand for the digits. What it stands for is the double nearest to it.
-/

namespace CssTypings.Double

/-- The sign in front of a text, `true` for a minus, and the rest of the text. -/
def readSign : Text → Bool × Text
  | '-' :: r => (true, r)
  | '+' :: r => (false, r)
  | t => (false, t)

/-- An optional exponent that is the whole of a text. -/
def readExponent? : Text → Option Int
  | [] => some 0
  | c :: r =>
    if c = 'e' ∨ c = 'E' then
      let (negative, digits) := readSign r
      if digits ≠ [] ∧ digits.all Text.isDigit then
        let n : Int := Text.digitsValue digits
        some (if negative then -n else n)
      else none
    else none

/-- An optional fraction at the start of a text, and the rest of the text. -/
def readFraction : Text → Text × Text
  | '.' :: r => r.span Text.isDigit
  | t => ([], t)

/-- The double that a literal stands for. -/
def ofLiteral? (t : Text) : Option Double :=
  let (negative, t) := readSign t
  if t = "inf".toList then some (number negative infinity)
  else if t = "nan".toList then some nan
  else
    let (whole, t) := t.span Text.isDigit
    let (fraction, t) := readFraction t
    if whole = [] ∧ fraction = [] then none
    else (readExponent? t).map fun e ↦
      ofDecimal negative (Text.digitsValue (whole ++ fraction)) (e - fraction.length)

end CssTypings.Double
