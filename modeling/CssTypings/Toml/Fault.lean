import CssTypings.Text.Basic

/-!
# Where a document is wrong

A scanner works on what is left of the document, so what is left when it gives up says where that
was. The place is told by line and column, both from one.
-/

namespace CssTypings.Toml

/-- Why a document cannot be read. -/
inductive Fault where
  /-- The form is wrong; `rest` is what was left of the document. -/
  | malformed (what : String) (rest : Text)
  /-- An integer has this many digits, which are too many. -/
  | tooManyDigits (count : Nat)
  /-- Too many lists and inline tables are inside one another. -/
  | tooDeep
deriving DecidableEq, Repr

/-- The place in a document of which `rest` is left. -/
def placeOf (document rest : Text) : String :=
  if rest = [] then "end of document"
  else
    let read := document.take (document.length - rest.length)
    let line := read.count '\n' + 1
    let column := (read.reverse.takeWhile (· ≠ '\n')).length + 1
    "line " ++ String.ofList (Text.decimal line) ++ ", column " ++
      String.ofList (Text.decimal column)

/-- The most digits that an integer may have. -/
def digitLimit : Nat := 4300

/-- The wording of a fault in a document. -/
def Fault.message (document : Text) : Fault → String
  | .malformed what rest => what ++ " (at " ++ placeOf document rest ++ ")"
  | .tooManyDigits count =>
    "Exceeds the limit (" ++ String.ofList (Text.decimal digitLimit) ++
      " digits) for integer string conversion: value has " ++ String.ofList (Text.decimal count) ++
      " digits; use sys.set_int_max_str_digits() to increase the limit"
  | .tooDeep => "maximum recursion depth exceeded"

end CssTypings.Toml
