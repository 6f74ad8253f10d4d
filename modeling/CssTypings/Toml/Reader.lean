import CssTypings.Toml.Scalar
import CssTypings.Toml.Table

/-!
# Reading documents

A document is a sequence of statements, one a line: a header that opens a table or adds one to a
list, or a key with its value. The values of a document are its top-level table.

Lists and inline tables may be inside one another as long as there is room: a list takes two units
of it, an inline table three.
-/

namespace CssTypings.Toml

open Config (Value Table)

/-- A scalar that starts here. -/
def readScalar (t : Text) : Except Fault (Value × Text) :=
  match readString? t with
  | some result => result.map fun (content, rest) ↦ (.text content, rest)
  | none =>
    match Text.after? "true".toList t, Text.after? "false".toList t with
    | some rest, _ => .ok (.bool true, rest)
    | none, some rest => .ok (.bool false, rest)
    | none, none =>
      match (readMoment? t).or (readNumber? t) with
      | some result => result
      | none => .error (.malformed "Invalid value" t)

/-- A key and the `=` behind it, and what is left behind the blanks that follow. -/
def readKeyFor (t : Text) : Except Fault (Key × Text) := do
  let (key, t) ← readKey t
  match t with
  | '=' :: r => return (key, skipBlanks r)
  | t => .error (.malformed "Expected '=' after a key in a key/value pair" t)

/-- The room for lists and inline tables inside one another. -/
def roomLimit : Nat := 975

/-- What is left of the room inside a value that takes some of it. -/
def roomWithin (room taken : Nat) : Except Fault Nat :=
  if room < taken then .error .tooDeep else .ok (room - taken)

mutual

/-- The value that starts here. -/
def readValue : (fuel room : Nat) → Text → Except Fault (Value × Text)
  | 0, _, t => .error (.malformed "Invalid value" t)
  | fuel + 1, room, t => do
    match t with
    | '[' :: r =>
      let room ← roomWithin room 2
      match ← skipFiller r with
      | ']' :: r => return (.list [], r)
      | r =>
        let (items, r) ← readItems fuel room r
        return (.list items, r)
    | '\x7b' :: r =>
      let room ← roomWithin room 3
      match skipBlanks r with
      | '\x7d' :: r => return (.table [], r)
      | r =>
        let (entries, r) ← readEntries fuel room [] [] r
        return (.table entries, r)
    | t => readScalar t

/-- The items of a list from the next one on. -/
def readItems : (fuel room : Nat) → Text → Except Fault (List Value × Text)
  | 0, _, t => .error (.malformed "Unclosed array" t)
  | fuel + 1, room, t => do
    let (item, t) ← readValue fuel room t
    match ← skipFiller t with
    | ']' :: r => return ([item], r)
    | ',' :: r =>
      match ← skipFiller r with
      | ']' :: r => return ([item], r)
      | r =>
        let (items, r) ← readItems fuel room r
        return (item :: items, r)
    | t => .error (.malformed "Unclosed array" t)

/-- The entries of an inline table, of which some were read, from the next one on. Lists and tables
in it are frozen once another entry follows. -/
def readEntries :
    (fuel room : Nat) → Table → (frozen : List Key) → Text → Except Fault (Table × Text)
  | 0, _, _, _, t => .error (.malformed "Unclosed inline table" t)
  | fuel + 1, room, entries, frozen, t => do
    let (key, t) ← readKeyFor t
    let (value, t) ← readValue fuel room t
    let entries ← assignInline entries frozen key value t
    match skipBlanks t with
    | '\x7d' :: r => return (entries, r)
    | ',' :: r =>
      let frozen := match value with
        | .list _ | .table _ => key :: frozen
        | _ => frozen
      readEntries fuel room entries frozen (skipBlanks r)
    | t => .error (.malformed "Unclosed inline table" t)

end

/-- The statement that starts here. -/
def readStatement (document : Document) (t : Text) : Except Fault (Document × Text) :=
  match t with
  | '[' :: '[' :: r => do
    let (key, t) ← readKey (skipBlanks r)
    let document ← document.endSection.addTable key t
    match t with
    | ']' :: ']' :: r => return (document, r)
    | t => .error (.malformed "Expected ']]' at the end of an array declaration" t)
  | '[' :: r => do
    let (key, t) ← readKey (skipBlanks r)
    let document ← document.endSection.openTable key t
    match t with
    | ']' :: r => return (document, r)
    | t => .error (.malformed "Expected ']' at the end of a table declaration" t)
  | t => do
    let (key, t) ← readKeyFor t
    -- Each step of the reader takes a character or is followed by one that does.
    let (value, t) ← readValue (2 * t.length + 2) roomLimit t
    return (← document.assign key value t, t)

/-- The document with the statements of a text added. Each round takes a line. -/
def readStatements : (fuel : Nat) → Document → Text → Except Fault Document
  | 0, document, _ => .ok document
  | fuel + 1, document, t => do
    match skipBlanks t with
    | [] => return document
    | '\n' :: r => readStatements fuel document r
    | c :: r =>
      let (document, t) ←
        if startsKey c || c == '[' then readStatement document (c :: r)
        else if c = '#' then pure (document, c :: r)
        else .error (.malformed "Invalid statement" (c :: r))
      match ← skipComment (skipBlanks t) with
      | [] => return document
      | '\n' :: r => readStatements fuel document r
      | t => .error (.malformed "Expected newline or end of document after a statement" t)

/-- The text with `\r\n` as line end turned into `\n`. -/
def unifyLineEnds : Text → Text
  | [] => []
  | '\r' :: '\n' :: r => '\n' :: unifyLineEnds r
  | c :: r => c :: unifyLineEnds r

/-- The table that a document writes whose lines end in `\n`. -/
def read (t : Text) : Except Fault Table :=
  return (← readStatements (t.length + 1) .empty t).entries

end CssTypings.Toml
