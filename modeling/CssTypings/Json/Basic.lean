import CssTypings.Number.Double

/-!
# JSON values

The members of an object are kept in order, each name once.

A text in a value is made of code points. All of them but the surrogates are characters; a surrogate
can only come from an escape, where no other one follows that would make a character with it.
-/

namespace CssTypings

/-- A character or a surrogate, by its number. -/
abbrev CodePoint := Fin 0x110000

/-- The code point of a character. -/
def CodePoint.ofChar (c : Char) : CodePoint :=
  ⟨c.toNat, by
    have hvalid : c.toNat < 0xD800 ∨ 0xDFFF < c.toNat ∧ c.toNat < 0x110000 := c.valid
    omega⟩

/-- A text in which surrogates may stand alone. Such texts are compared code point by code point. -/
abbrev Codes := List CodePoint

/-- The code points of a text. -/
def Text.codes (t : Text) : Codes := t.map CodePoint.ofChar

/-- A JSON value. Integers are exact and of any size. -/
inductive Json where
  | null
  | bool (b : Bool)
  | integer (n : Int)
  | float (d : Double)
  | text (t : Codes)
  | array (items : List Json)
  | object (members : List (Codes × Json))
deriving Repr

namespace Json

/-- The members of an object with one more; a member of that name is replaced in its place. -/
def setMember (members : List (Codes × Json)) (name : Codes) (value : Json) : List (Codes × Json) :=
  if members.any (·.1 = name) then
    members.map fun m ↦ if m.1 = name then (name, value) else m
  else members ++ [(name, value)]

end Json

end CssTypings
