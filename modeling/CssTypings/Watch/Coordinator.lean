import CssTypings.Pipeline
import CssTypings.Watch.Delta

/-!
# Watching sources

Sources are watched by looking at them again and again. The first look is the baseline; each later
one is compared with the one before, and every source that was added or changed is converted.

The conversions of a look are all begun at once. They are run one after the other here, which is one
of the ways they may go, and others come to the same if no artifact is a source.
-/

namespace CssTypings.Watch

/-- What a watch looks at, and what it saw last. -/
structure Coordinator where
  pattern : Text
  root : Path
  exclude : List Text
  /-- The last look, if there was one. -/
  snapshot : Option Snapshot
deriving DecidableEq, Repr

/-- What came of a look. -/
structure Look where
  events : List Event
  /-- The outcomes of the conversions, in the order of the events. -/
  outcomes : List Outcome
deriving Repr

namespace Coordinator

/-- The watch over a set of sources, which must have a pattern. -/
def make (sources : SourceSet) (exclude : List Text) : Except SourceSet.Fault Coordinator := do
  let (pattern, root) ← sources.watchable
  return ⟨pattern, root, exclude, none⟩

/-- What a watch sees in a workspace. -/
def scan (watch : Coordinator) (space : Workspace) : Except Tree.Fault Snapshot :=
  Snapshot.take space.tree space.here watch.pattern watch.root watch.exclude

/-- The watch after a look that is only remembered. -/
def subscribe (watch : Coordinator) (space : Workspace) : Except Tree.Fault Coordinator :=
  (watch.scan space).map fun snapshot ↦ { watch with snapshot := some snapshot }

/-- Looks at the sources and converts what was added or changed since the last look, one source
after the other; the turns that conversions may have otherwise make no difference if none of them
reads or goes through what another one writes. The first look converts nothing. A look is remembered
even if one of its conversions cannot be logged. -/
def poll (watch : Coordinator) (pipeline : Pipeline) (space : Workspace) :
    Except Tree.Fault Look × Coordinator × Workspace :=
  match watch.scan space with
  | .error fault => (.error fault, watch, space)
  | .ok current =>
    let watch' := { watch with snapshot := some current }
    match watch.snapshot with
    | none => (.ok ⟨[], []⟩, watch', space)
    | some previous =>
      let events := (Delta.between previous current).events
      let (outcomes, space) := pipeline.processAll (events.map Event.path) space
      (outcomes.map (⟨events, ·⟩), watch', space)

/-- Looks once for each step, which changes the tree in advance. The first fault ends the looks. -/
def pollAll (watch : Coordinator) (pipeline : Pipeline) :
    List (Tree → Tree) → Workspace → Except Tree.Fault (List Look) × Coordinator × Workspace
  | [], space => (.ok [], watch, space)
  | step :: rest, space =>
    match watch.poll pipeline { space with tree := step space.tree } with
    | (.error fault, watch, space) => (.error fault, watch, space)
    | (.ok look, watch, space) =>
      let (looks, watch, space) := watch.pollAll pipeline rest space
      (looks.map (look :: ·), watch, space)

/-- Runs a watch from its baseline until the given steps are over. -/
def run (watch : Coordinator) (pipeline : Pipeline) (steps : List (Tree → Tree))
    (space : Workspace) : Except Tree.Fault (List Look) × Coordinator × Workspace :=
  match watch.subscribe space with
  | .error fault => (.error fault, watch, space)
  | .ok watch => watch.pollAll pipeline steps space

end Coordinator

end CssTypings.Watch
