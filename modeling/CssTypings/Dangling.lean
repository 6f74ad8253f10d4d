import CssTypings.Console
import CssTypings.Path.Artifact
import CssTypings.Sources

/-!
# Dangling artifacts

An artifact dangles if its source is not among the live sources. Dangling artifacts are looked for
where the sources are looked for, by the pattern of the sources with the suffix appended. They are
only reported; nothing is ever deleted. An artifact whose source would be ignored is passed over.
-/

namespace CssTypings.Dangling

/-- The artifacts that match a pattern with the suffix appended and have no live source, in order.
Ignore patterns need a root to be read from. -/
def find (tree : Tree) (here : Path) (pattern : Text) (live : List Path) (suffix : Text)
    (root : Option Path) (exclude : List Text) : Except Tree.Fault (List Path) := do
  let live := live.map here.absolute
  let dangles (artifact : Path) : Bool :=
    match Path.source? suffix artifact with
    | none => false
    | some source => !live.contains source && !root.any (Glob.ignores exclude · source)
  return Path.sort ((← Glob.search tree here (pattern ++ suffix)).filter dangles)

/-- The advice about dangling artifacts: a headline with their number, and a line for each. -/
def reports (here cwd : Path) (suffix : Text) (dangling : List Path) : List Report :=
  if dangling = [] then []
  else
    .warning ("Detected " ++ String.ofList (Text.decimal dangling.length) ++ " dangling " ++
      String.ofList suffix ++ " file(s), that can be removed:") ::
    dangling.map fun artifact ↦ .warning ("- " ++ String.ofList (here.display cwd artifact))

end CssTypings.Dangling
