import CssTypings.Glob.Exclude
import CssTypings.Glob.Expand
import CssTypings.Path.Absolute
import CssTypings.Watch.Delta

/-!
# Sources

What the operator asks for becomes a set of sources. A single path is a place to search: it turns
into a pattern, which can be searched again later. Two or more paths are taken as they are, whether
or not anything is there, and leave nothing to search again.
-/

namespace CssTypings

/-- The sources of a run. -/
structure SourceSet where
  /-- The sources found or given. -/
  files : List Path
  /-- The pattern that finds them. -/
  pattern : Option Text
  /-- Where the search starts. -/
  root : Option Path
deriving DecidableEq, Repr

namespace SourceSet

/-- Why there is nothing to work on. -/
inductive Fault where
  /-- No path was given. -/
  | noPaths
  /-- These files cannot be watched, since no pattern finds them. -/
  | notWatchable (files : List Path)
  /-- The sources cannot be looked for. -/
  | access (fault : Tree.Fault)
deriving DecidableEq, Repr

/-- The wording of a fault. -/
def Fault.message : Fault → String
  | .noPaths => "No input paths given."
  | .notWatchable files =>
    "Watch mode requires a single path... Not " ++ ", ".intercalate (files.map Path.toString)
  | .access fault => fault.message

/-- The pattern of the sources below a path: every file with the extension below a directory, and a
file itself. Dots in front of the extension do not count. -/
def patternFor (tree : Tree) (root : Path) (extension : Text) : Except Tree.Fault Text := do
  let start := Glob.escape root.text
  if ← tree.hasFile root then return start
  else
    let between := if start.getLast? = some '/' then [] else ['/']
    return start ++ between ++ "**/*.".toList ++ extension.dropWhile (· = '.')

/-- The files that match a pattern and are not ignored, in order. -/
def expand (tree : Tree) (here : Path) (pattern : Text) (root : Path) (exclude : List Text) :
    Except Tree.Fault (List Path) := do
  let found ← Glob.search tree here pattern
  return Path.sort (found.filter fun p ↦ !Glob.ignores exclude root p)

/-- The sources for the paths that the operator gave, read from the directory `cwd`. -/
def resolve (tree : Tree) (here cwd : Path) (paths : List Text) (extension : Text)
    (exclude : List Text) : Except Fault SourceSet :=
  match paths with
  | [] => .error .noPaths
  | [t] => do
    let root := here.absolute (cwd.join (.ofText t))
    let pattern ← (patternFor tree root extension).mapError .access
    let files ← (expand tree here pattern root exclude).mapError .access
    return ⟨files, some pattern, some root⟩
  | _ => .ok ⟨paths.map fun t ↦ here.absolute (cwd.join (.ofText t)), none, none⟩

/-- The pattern and the root of a set that can be watched. -/
def watchable (sources : SourceSet) : Except Fault (Text × Path) :=
  match sources.pattern, sources.root with
  | some pattern, some root => .ok (pattern, root)
  | _, _ => .error (.notWatchable sources.files)

end SourceSet

namespace Tree

/-- The stamp of the file at a path. -/
def stamp? (tree : Tree) (path : Path) : Option Watch.Stamp :=
  match tree.look path with
  | .ok (some (.file bytes modified)) => some ⟨bytes.length, modified⟩
  | _ => none

end Tree

/-- The stamps of the files that match a pattern and are not ignored, in order. -/
def Watch.Snapshot.take (tree : Tree) (here : Path) (pattern : Text) (root : Path)
    (exclude : List Text) : Except Tree.Fault Watch.Snapshot := do
  let files ← SourceSet.expand tree here pattern root exclude
  return .ofList (files.filterMap fun path ↦ (tree.stamp? path).map (path, ·))

end CssTypings
