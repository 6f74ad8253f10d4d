import CssTypings.Console
import CssTypings.Tree.Access

/-!
# The workspace of a run

What a run reads and changes: the tree, the time, the reports that it makes, and the number of
scratch names that it has taken. A scratch name holds a number that is never used twice, so no two
scratch files get in each other's way.
-/

namespace CssTypings

/-- Where a run takes place, and what it has said so far. -/
structure Workspace where
  /-- The directory tree. -/
  tree : Tree
  /-- The directory that relative paths are read from. -/
  here : Path
  /-- The directory for scratch files. -/
  temp : Path
  /-- The time, as it is logged. -/
  now : Text
  /-- How many scratch names were taken. -/
  scratch : Nat
  /-- The reports made so far, in order. -/
  reports : List Report
deriving DecidableEq, Repr

namespace Workspace

/-- The workspace with one more report. -/
def report (space : Workspace) (r : Report) : Workspace :=
  { space with reports := space.reports ++ [r] }

end Workspace

/-! ### Scratch files -/

/-- Where scratch files are put and how their names begin. -/
structure Store where
  directory : Path
  label : Text
deriving DecidableEq, Repr

namespace Store

/-- The label of scratch files, unless another one is given. -/
def defaultLabel : Text := "cmft-".toList

/-- A path that was not given out before. -/
def allocate (store : Store) (suffix : Text) (space : Workspace) : Path × Workspace :=
  (store.directory.join (.ofText (store.label ++ Text.hex 32 space.scratch ++ suffix)),
    { space with scratch := space.scratch + 1 })

/-- Runs an action with the path of a scratch file, which is gone afterwards, however the action
ends. At a path about which nothing can be asked there is nothing to be removed. -/
def withScratch {α : Type} (store : Store) (suffix : Text)
    (action : Path → Workspace → α × Workspace) (space : Workspace) : α × Workspace :=
  let (path, space) := store.allocate suffix space
  let (result, space) := action path space
  (result, { space with tree := (space.tree.release path).toOption.getD space.tree })

end Store

end CssTypings
