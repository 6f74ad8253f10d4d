import CssTypings.Config.Value
import CssTypings.Toml.Key

/-!
# Tables under construction

While a document is read, values are put into nested tables, and some places are closed to later
statements. Writing a value list or an inline table closes it and everything below it. A table can
be opened by a header only once, and a table that a dotted key made can neither be opened by a
header nor extended by a dotted key from another section.
-/

namespace CssTypings.Toml

open Config (Value Table)

/-! ### Nested tables -/

/-- The table with the value under a key changed or added; a key that is there keeps its place. -/
def setEntry (entries : Table) (key : Text) (value : Value) : Table :=
  if entries.any (·.1 = key) then
    entries.map fun e ↦ if e.1 = key then (key, value) else e
  else entries ++ [(key, value)]

/-- Changes the table at a key, which is made if it is not there. A list stands for its last table
if `lists` allows. There is no result if something else is in the way, or if the change has none. -/
def changeAt (lists : Bool) (change : Table → Option Table) : List Text → Table → Option Table
  | [], entries => change entries
  | part :: rest, entries =>
    match entries.get? part with
    | none => (changeAt lists change rest []).map fun sub ↦ setEntry entries part (.table sub)
    | some (.table sub) =>
      (changeAt lists change rest sub).map fun sub ↦ setEntry entries part (.table sub)
    | some (.list items) =>
      match lists, items.getLast? with
      | true, some (.table sub) =>
        (changeAt lists change rest sub).map fun sub ↦
          setEntry entries part (.list (items.dropLast ++ [.table sub]))
      | _, _ => none
    | some _ => none

/-- Whether a table has a key. -/
def hasKey (entries : Table) (key : Text) : Bool := (entries.get? key).isSome

/-- The table with one more empty table at the end of a list. -/
def appendTable (key : Text) (entries : Table) : Option Table :=
  match entries.get? key with
  | none => some (setEntry entries key (.list [.table []]))
  | some (.list items) => some (setEntry entries key (.list (items ++ [.table []])))
  | some _ => none

/-! ### Documents -/

/-- What was read of a document. -/
structure Document where
  entries : Table
  /-- Tables that may not be opened by a header. -/
  closed : List Key
  /-- Keys at and below which nothing may be changed. -/
  frozen : List Key
  /-- Tables that will be closed when the section ends. -/
  pending : List Key
  /-- The table that statements are about. -/
  header : Key

namespace Document

/-- Nothing was read. -/
def empty : Document := ⟨[], [], [], [], []⟩

/-- Whether a key is at or below a frozen one. -/
def isFrozen (document : Document) (key : Key) : Bool :=
  document.frozen.any fun f ↦ f.isPrefixOf key

/-- Whether a table may not be opened by a header. -/
def isClosed (document : Document) (key : Key) : Bool := document.closed.contains key

/-- The document at the end of a section. -/
def endSection (document : Document) : Document :=
  { document with closed := document.pending ++ document.closed, pending := [] }

/-- Opens a table by a header. `rest` is what is left of the text, for faults. -/
def openTable (document : Document) (key : Key) (rest : Text) : Except Fault Document :=
  if document.isClosed key || document.isFrozen key then
    .error (.malformed ("Cannot declare " ++ quotedKey key ++ " twice") rest)
  else
    match changeAt true some key document.entries with
    | none => .error (.malformed "Cannot overwrite a value" rest)
    | some entries =>
      .ok { document with entries, closed := key :: document.closed, header := key }

/-- Adds a table to a list of tables by a header. What was said about the former table of the list
does not hold for the new one. -/
def addTable (document : Document) (key : Key) (rest : Text) : Except Fault Document :=
  if document.isFrozen key then
    .error (.malformed ("Cannot mutate immutable namespace " ++ quotedKey key) rest)
  else
    let below (k : Key) : Bool := key.isPrefixOf k
    match changeAt true (appendTable (key.getLastD [])) key.dropLast document.entries with
    | none => .error (.malformed "Cannot overwrite a value" rest)
    | some entries =>
      .ok { document with
        entries
        closed := key :: document.closed.filter (!below ·)
        frozen := document.frozen.filter (!below ·)
        header := key }

/-- The tables that a dotted key leads through, from the outermost. -/
def passed (header key : Key) : List Key :=
  (List.range key.length).tail.map fun n ↦ header ++ key.take n

/-- Puts a value under a key of the current table. -/
def assign (document : Document) (key : Key) (value : Value) (rest : Text) :
    Except Fault Document := do
  let header := document.header
  match (passed header key).find? document.isClosed with
  | some k => .error (.malformed ("Cannot redefine namespace " ++ quotedKey k) rest)
  | none =>
    let parent := header ++ key.dropLast
    let stem := key.getLastD []
    if document.isFrozen parent then
      .error (.malformed ("Cannot mutate immutable namespace " ++ quotedKey parent) rest)
    else
      let put (entries : Table) : Option Table :=
        if hasKey entries stem then none else some (setEntry entries stem value)
      match changeAt true put parent document.entries with
      | none => .error (.malformed "Cannot overwrite a value" rest)
      | some entries =>
        let frozen := match value with
          | .list _ | .table _ => (header ++ key) :: document.frozen
          | _ => document.frozen
        .ok { document with entries, frozen, pending := passed header key ++ document.pending }

end Document

/-! ### Inline tables -/

/-- Puts a value under a key of an inline table, in which the keys `frozen` are frozen. -/
def assignInline (entries : Table) (frozen : List Key) (key : Key) (value : Value) (rest : Text) :
    Except Fault Table :=
  let stem := key.getLastD []
  if frozen.any fun f ↦ f.isPrefixOf key then
    .error (.malformed ("Cannot mutate immutable namespace " ++ quotedKey key) rest)
  else
    match changeAt false some key.dropLast entries with
    | none => .error (.malformed "Cannot overwrite a value" rest)
    | some _ =>
      let put (entries : Table) : Option Table :=
        if hasKey entries stem then none else some (setEntry entries stem value)
      match changeAt false put key.dropLast entries with
      | some entries => .ok entries
      | none =>
        .error (.malformed ("Duplicate inline table key " ++ String.ofList stem.quoted) rest)

end CssTypings.Toml
