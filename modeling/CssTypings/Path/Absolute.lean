import CssTypings.Path.Basic

/-!
# Absolute and relative forms

A path is made absolute by reading it from a working directory and letting every `..` take away the
component in front of it. This never asks what the path leads to, so the result is a path without
`..` even if none of its components exist.

Resolving a path does the same and writes the root with one slash, but it refuses a path that holds
a null character.
-/

namespace CssTypings.Path

/-- The components with every `..` taking away the one in front; at the root it does nothing.
`kept` are the components kept so far, backwards. -/
def collapseFrom : (kept : List Text) → List Text → List Text
  | kept, [] => kept.reverse
  | kept, part :: rest =>
    if part = up then collapseFrom (kept.drop 1) rest else collapseFrom (part :: kept) rest

/-- The components below the root with every `..` taking away the one in front. -/
def collapse (parts : List Text) : List Text := collapseFrom [] parts

/-- The absolute form of a path read from the directory `cwd`. -/
def absolute (cwd p : Path) : Path :=
  let joined := cwd.join p
  ⟨joined.anchor, collapse joined.parts⟩

/-- The absolute form with a single slash for the root. A component that holds a null character is
refused even if a `..` takes it away. -/
def resolve? (cwd p : Path) : Option Path :=
  if (cwd.join p).hasNull then none else some ⟨.root, (absolute cwd p).parts⟩

/-- The components that lead from one list of components to another: one `..` for each component
left, then the components entered. -/
def route : (start target : List Text) → List Text
  | s :: start, t :: target =>
    if s = t then route start target
    else up :: (start.map fun _ ↦ up) ++ t :: target
  | start, target => (start.map fun _ ↦ up) ++ target

/-- The path shown to the operator: the way from `base`, with `./` in front unless it leaves `base`.
Both are read from the directory `cwd`. -/
def display (cwd base p : Path) : Text :=
  match route (absolute cwd base).parts (absolute cwd p).parts with
  | [] => dot ++ '/' :: dot
  | first :: rest =>
    let way := Text.join ['/'] (first :: rest)
    if first = up then way else dot ++ '/' :: way

end CssTypings.Path
