import CssTypings.Json.Basic

/-!
# Printing JSON texts

A text is printed in ASCII: every other character is written by its code, those beyond the basic
plane by a pair of surrogates.
-/

namespace CssTypings.Json

/-- A code unit of sixteen bits. -/
def escapeUnit (n : Nat) : Text := '\\' :: 'u' :: Text.hex 4 n

/-- A character inside a printed text. -/
def printChar (c : Char) : Text :=
  if c = '"' then ['\\', '"']
  else if c = '\\' then ['\\', '\\']
  else if c = '\n' then ['\\', 'n']
  else if c = '\r' then ['\\', 'r']
  else if c = '\t' then ['\\', 't']
  else if c.toNat = 0x08 then ['\\', 'b']
  else if c.toNat = 0x0C then ['\\', 'f']
  else if 0x20 ≤ c.toNat ∧ c.toNat < 0x7F then [c]
  else if c.toNat < 0x10000 then escapeUnit c.toNat
  else
    let n := c.toNat - 0x10000
    escapeUnit (0xD800 + n / 0x400) ++ escapeUnit (0xDC00 + n % 0x400)

/-- A printed text. -/
def printText (t : Text) : Text := '"' :: t.flatMap printChar ++ ['"']

end CssTypings.Json
