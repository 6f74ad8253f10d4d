import CssTypings.Path.Basic

/-!
# Changes between two looks

A snapshot says for every source how large it is and when it was written. Comparing two snapshots
gives the sources that were added, changed and removed, each group in the order of paths. Additions
and changes are worth an event; removals are not.
-/

namespace CssTypings.Watch

/-- What a snapshot keeps of a file. -/
structure Stamp where
  /-- The number of bytes. -/
  size : Int
  /-- The time of the last write, in nanoseconds. -/
  modified : Int
deriving DecidableEq, Repr

/-- The stamps of files, each path once, in the order in which they were found. -/
abbrev Snapshot := List (Path × Stamp)

namespace Snapshot

/-- The stamp of a file. -/
def stamp? (snapshot : Snapshot) (path : Path) : Option Stamp := snapshot.lookup path

/-- The snapshot with a stamp set; a path that is there keeps its place. -/
def set (snapshot : Snapshot) (path : Path) (stamp : Stamp) : Snapshot :=
  if (snapshot.stamp? path).isSome then
    snapshot.map fun entry ↦ if entry.1 = path then (path, stamp) else entry
  else snapshot ++ [(path, stamp)]

/-- The snapshot of a list of findings, where a later one of a path replaces an earlier one. -/
def ofList (entries : List (Path × Stamp)) : Snapshot :=
  entries.foldl (fun snapshot entry ↦ snapshot.set entry.1 entry.2) []

/-- The paths in a snapshot. -/
def paths (snapshot : Snapshot) : List Path := snapshot.map Prod.fst

end Snapshot

/-- The difference between two snapshots. -/
structure Delta where
  added : List Path
  changed : List Path
  removed : List Path
deriving DecidableEq, Repr

/-- What happened to a source. -/
inductive Change where
  | added
  | changed
deriving DecidableEq, Repr

/-- The word for a change. -/
def Change.name : Change → String
  | added => "added"
  | changed => "changed"

/-- A source that has to be converted, and why. -/
structure Event where
  change : Change
  path : Path
deriving DecidableEq, Repr

namespace Delta

/-- The difference between two snapshots, each group in order. -/
def between (previous current : Snapshot) : Delta where
  added := Path.sort (current.paths.filter fun p ↦ (previous.stamp? p).isNone)
  changed := Path.sort (current.paths.filter fun p ↦
    (previous.stamp? p).isSome ∧ previous.stamp? p ≠ current.stamp? p)
  removed := Path.sort (previous.paths.filter fun p ↦ (current.stamp? p).isNone)

/-- The events of a difference: the additions, then the changes. -/
def events (delta : Delta) : List Event :=
  delta.added.map (⟨.added, ·⟩) ++ delta.changed.map (⟨.changed, ·⟩)

end Delta

end CssTypings.Watch
