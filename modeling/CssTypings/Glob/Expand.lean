import CssTypings.Glob.Token
import CssTypings.Tree.Access

/-!
# Files that match a pattern

A pattern of paths is a path in which components may be wildcards. It is followed from the root, or
from a given directory if it is relative: a plain component leads where it says, a wildcard leads to
every name that matches it, and the component `**` leads to the directory itself and to everything
below it. Names that start with a dot are passed over, except by a wildcard that starts with one.

A pattern that ends with a slash asks for directories and so has no files. A file that can be
reached in several ways is listed once for each. Whether there is a file is asked by the path that
the pattern spells out, which keeps every `.` and `..` of the pattern, and every slash in front of
the first wildcard. If that path is too long to be asked about, the file is passed over. Nothing
else limits how deep a search goes: what room is left to a run is not a matter of the tree.

The directory in front of the first wildcard is the only one that is opened without having been
found. It need not be there, but its name may not hold a null character.
-/

namespace CssTypings.Glob

/-- A component of a pattern of paths. -/
inductive Segment where
  /-- A component that stands for itself. -/
  | plain (part : Text)
  /-- A wildcard. -/
  | wild (pattern : Text)
  /-- Any number of directories. -/
  | deep
deriving DecidableEq, Repr

/-- The characters that make a component a wildcard. -/
def isMagic (c : Char) : Bool := c == '*' || c == '?' || c == '['

/-- The text as a pattern that stands for it alone. -/
def escape (t : Text) : Text := t.flatMap fun c ↦ if isMagic c then ['[', c, ']'] else [c]

namespace Segment

/-- The component that a text writes. -/
def ofText (t : Text) : Segment :=
  if t = ['*', '*'] then deep else if t.any isMagic then wild t else plain t

/-- A name that wildcards pass over. -/
def isHidden (name : Text) : Bool := name.head? == some '.'

/-- Everything below a location that can be reached by names that are not hidden. -/
def below (tree : Tree) (here : Location) : List Location :=
  tree.entries.filterMap fun e ↦
    if here.isPrefixOf e.1 ∧ e.1 ≠ here ∧ (e.1.drop here.length).all (!isHidden ·) then some e.1
    else none

/-- Where a component that stands for itself leads from a directory, if anything is there. -/
def enter (here : Location) (part : Text) : Location :=
  if part = [] ∨ part = Path.dot then here else if part = Path.up then here.dropLast
  else here ++ [part]

/-- Where a component leads from a location, which has to be a directory. -/
def step (tree : Tree) (here : Location) (segment : Segment) : List Location :=
  match tree.find? here with
  | some .directory =>
    match segment with
    | plain part => if (tree.find? (enter here part)).isSome then [enter here part] else []
    | wild pattern =>
      let names := (tree.names here).filter fun name ↦
        (isHidden pattern || !isHidden name) && wildcard pattern name
      names.map fun name ↦ here ++ [name]
    | deep => here :: below tree here
  | _ => []

/-- How a component is spelled where it led from one location to another one. -/
def spelled (here next : Location) : Segment → List Text
  | plain part => [part]
  | wild _ | deep => next.drop here.length

end Segment

/-- A place that a pattern leads to. -/
structure Place where
  /-- The components of the path by which the pattern spells it. -/
  spelled : List Text
  location : Location
deriving DecidableEq, Repr

namespace Place

/-- Where a component of a pattern leads from a place. -/
def next (tree : Tree) (place : Place) (segment : Segment) : List Place :=
  (segment.step tree place.location).map fun location ↦
    ⟨place.spelled ++ segment.spelled place.location location, location⟩

/-- Whether a file is at a place, as far as its spelled path can be asked about. -/
def isFile (tree : Tree) (anchor : Anchor) (place : Place) : Bool :=
  Tree.withinLimits ⟨anchor, place.spelled⟩ && (tree.find? place.location).any Entry.isFile

end Place

/-- The components of a pattern; none if it asks for directories. A component may be empty in front
of the first wildcard only, and not right in front of it, unless there are nothing but slashes. -/
def segments? (pattern : Text) : Option (List Segment) :=
  let parts := Text.splitOn '/' pattern
  if parts.getLast? = some [] then none
  else
    let (plain, wild) := (parts.drop (Anchor.ofText pattern).text.length).span fun part ↦
      !part.any isMagic
    let plain := if plain.all (· = []) then plain
      else (plain.reverse.dropWhile (· = [])).reverse
    some ((plain ++ wild.filter (· ≠ [])).map Segment.ofText)

/-- The path of the directory in front of the first wildcard, if there is a wildcard. -/
def opened? (pattern : Text) : Option Path :=
  let (plain, wild) := (Text.splitOn '/' pattern).span fun part ↦ !part.any isMagic
  if wild = [] then none else some ⟨Anchor.ofText pattern, plain.filter (· ≠ [])⟩

/-- The files that match a pattern, which is read from the directory `here` if it is relative. -/
def files (tree : Tree) (here : Path) (pattern : Text) : List Path :=
  match segments? pattern with
  | none => []
  | some segments =>
    let anchor := Anchor.ofText pattern
    let start : Path := if anchor = .relative then here else ⟨anchor, []⟩
    let found := segments.foldl
      (fun places segment ↦ places.flatMap fun place ↦ place.next tree segment) [⟨[], start.parts⟩]
    (found.filter (Place.isFile tree anchor)).map fun place ↦ ⟨start.anchor, place.location⟩

/-- The files that match a pattern, unless a directory has to be opened for it whose name holds a
null character. -/
def search (tree : Tree) (here : Path) (pattern : Text) : Except Tree.Fault (List Path) :=
  if (opened? pattern).any Path.hasNull then .error .nullCharacter
  else .ok (files tree here pattern)

end CssTypings.Glob
