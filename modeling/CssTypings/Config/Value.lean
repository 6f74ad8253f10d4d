import CssTypings.Number.Double

/-!
# Configuration values

What a configuration file says, before any of it is checked: a tree of values whose inner nodes are
lists and tables. A table holds each key once.
-/

namespace CssTypings.Config

/-- A value in a configuration. -/
inductive Value where
  /-- Nothing. A file cannot say this. -/
  | null
  /-- A truth value. -/
  | bool (b : Bool)
  /-- An integer of any size. -/
  | integer (n : Int)
  /-- A number with a fraction or an exponent. -/
  | float (d : Double)
  /-- A text. -/
  | text (t : Text)
  /-- A date, a time or both. -/
  | moment
  /-- A list. -/
  | list (items : List Value)
  /-- A table. -/
  | table (entries : List (Text × Value))
deriving Repr

/-- The entries of a table. -/
abbrev Table := List (Text × Value)

namespace Table

/-- The value under a key. -/
def get? (entries : Table) (key : Text) : Option Value := entries.lookup key

end Table

end CssTypings.Config
