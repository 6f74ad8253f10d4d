import CssTypings.Text.Word
import CssTypings.Toml.Scan

/-!
# Keys

A key is a list of parts with dots between them. A part is a run of letters, digits, hyphens and
underscores of ASCII, or a string of one line.
-/

namespace CssTypings.Toml

/-- A key as its parts; there is at least one. -/
abbrev Key := List Text

/-- A character of a part that needs no quotes. -/
def isBare (c : Char) : Bool := Text.isLetter c || Text.isDigit c || c == '-' || c == '_'

/-- A character that a key can start with. -/
def startsKey (c : Char) : Bool := isBare c || c == '"' || c == '\''

/-- The part that starts here. -/
def readPart (t : Text) : Except Fault (Text × Text) :=
  match t with
  | '\'' :: r => readLiteral ['\''] isIllegal r
  | '"' :: r => readBasic false r
  | _ =>
    match t.span isBare with
    | ([], _) => .error (.malformed "Invalid initial character for a key part" t)
    | result => .ok result

/-- The parts of a key from the next one on, and what is left behind the blanks that follow. Each
part takes a character. -/
def readParts : (fuel : Nat) → Text → Except Fault (Key × Text)
  | 0, t => .error (.malformed "Invalid initial character for a key part" t)
  | fuel + 1, t => do
    let (part, t) ← readPart t
    match skipBlanks t with
    | '.' :: r =>
      let (parts, t) ← readParts fuel (skipBlanks r)
      return (part :: parts, t)
    | t => return ([part], t)

/-- The key that starts here, and what is left behind the blanks that follow. -/
def readKey (t : Text) : Except Fault (Key × Text) := readParts (t.length + 1) t

/-- A key for messages. -/
def quotedKey (key : Key) : String :=
  let parts := ", ".intercalate (key.map fun part ↦ String.ofList part.quoted)
  "(" ++ parts ++ (if key.length = 1 then ",)" else ")")

end CssTypings.Toml
