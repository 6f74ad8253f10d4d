import CssTypings.Path.Basic
import CssTypings.Text.Utf8

/-!
# Directory trees

A tree is the list of what it holds, each thing under its location: the names that lead to it from
the root. The root is a directory and is not listed. There are no links, so a location is the only
way to a thing, and `..` leads to the directory that a directory is in. There are no permissions
either: whatever is there can be read and changed. Names are Unicode texts, so each of their bytes
belongs to a character.

Every write is stamped by the clock of the tree, which then moves on, so that no two writes have the
same stamp.
-/

namespace CssTypings

/-- The names that lead from the root to a thing. -/
abbrev Location := List Text

/-- A thing in a tree. -/
inductive Entry where
  | directory
  /-- A file with its contents and the time of its last write. -/
  | file (bytes : Bytes) (modified : Int)
deriving DecidableEq, Repr

namespace Entry

/-- Whether the thing is a file. -/
def isFile : Entry → Bool
  | directory => false
  | file .. => true

end Entry

/-- A directory tree. -/
structure Tree where
  /-- The things below the root, each location once. -/
  entries : List (Location × Entry)
  /-- The stamp of the next write. -/
  clock : Int
deriving DecidableEq, Repr

namespace Tree

/-- What is at a location. -/
def find? (tree : Tree) : Location → Option Entry
  | [] => some .directory
  | location => tree.entries.lookup location

/-- The tree with a thing put at a location, in place of what was there. -/
def put (tree : Tree) (location : Location) (entry : Entry) : Tree :=
  { tree with entries := (location, entry) :: tree.entries.filter (·.1 ≠ location) }

/-- The tree without what is at a location and below it. -/
def remove (tree : Tree) (location : Location) : Tree :=
  { tree with entries := tree.entries.filter fun e ↦ !location.isPrefixOf e.1 }

/-- The names of the things in the directory at a location. -/
def names (tree : Tree) (location : Location) : List Text :=
  tree.entries.filterMap fun e ↦
    match e.1.getLast? with
    | some name => if e.1.dropLast = location then some name else none
    | none => none

/-! ### Laws of the list -/

theorem find?_put_self (tree : Tree) {location : Location} (h : location ≠ []) (entry : Entry) :
    (tree.put location entry).find? location = some entry := by
  cases location with
  | nil => contradiction
  | cons name rest => simp [find?, put]

private theorem lookup_filter_of_ne {location other : Location} (h : other ≠ location)
    (entries : List (Location × Entry)) :
    (entries.filter (·.1 ≠ location)).lookup other = entries.lookup other := by
  induction entries with
  | nil => rfl
  | cons e rest ih =>
    obtain ⟨l, x⟩ := e
    by_cases hl : l = location
    · have : (other == l) = false := by simpa [hl] using h
      simpa [hl, List.lookup_cons, this, hl ▸ this] using ih
    · simp only [ne_eq, decide_not] at ih
      simp [hl, List.lookup_cons, ih]

theorem find?_put_of_ne (tree : Tree) {location other : Location} (h : other ≠ location)
    (entry : Entry) : (tree.put location entry).find? other = tree.find? other := by
  cases other with
  | nil => rfl
  | cons name rest =>
    have hb : ((name :: rest) == location) = false := by simpa using h
    simp only [find?, put, List.lookup_cons, hb]
    exact lookup_filter_of_ne h tree.entries

end Tree

end CssTypings
