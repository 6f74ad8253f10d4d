import CssTypings.Text.Basic

/-!
# Paths

A path is an anchor and a list of components. Reading a path drops empty components and the
component `.`, so that repeated and trailing slashes do not matter; `..` stays, since what it means
depends on where the path leads. Two leading slashes are an anchor of their own, three or more are
the same as one.

Paths are ordered by their components, the anchor being the first of an absolute path. That is not
the order of their texts: `a/b` comes before `a-b`.
-/

namespace CssTypings

/-- Where a path starts. -/
inductive Anchor where
  /-- Wherever it is read from. -/
  | relative
  /-- At the root, written with one slash. -/
  | root
  /-- At the root, written with two slashes. -/
  | doubleRoot
deriving DecidableEq, Repr

namespace Anchor

/-- The slashes of an anchor. -/
def text : Anchor → Text
  | relative => []
  | root => ['/']
  | doubleRoot => ['/', '/']

/-- The anchor that the start of a text writes. -/
def ofText : Text → Anchor
  | '/' :: '/' :: '/' :: _ => root
  | '/' :: '/' :: _ => doubleRoot
  | '/' :: _ => root
  | _ => relative

end Anchor

/-- A path as its anchor and its components. -/
structure Path where
  anchor : Anchor
  parts : List Text
deriving DecidableEq, Repr

namespace Path

/-- The component that stays where it is. -/
def dot : Text := ['.']

/-- The component that goes up. -/
def up : Text := ['.', '.']

/-- The path that a text writes. -/
def ofText (t : Text) : Path :=
  ⟨Anchor.ofText t, (Text.splitOn '/' t).filter fun part ↦ part ≠ [] ∧ part ≠ dot⟩

/-- The text of a path; that of the empty relative path is a dot. -/
def text : Path → Text
  | ⟨.relative, []⟩ => dot
  | ⟨anchor, parts⟩ => anchor.text ++ Text.join ['/'] parts

/-- The text of a path as a string. -/
def toString (p : Path) : String := String.ofList p.text

/-- Whether the path starts at the root. -/
def isAbsolute (p : Path) : Bool := p.anchor ≠ .relative

/-- The second path read from the first; an absolute one replaces it. -/
def join (base p : Path) : Path :=
  if p.isAbsolute then p else ⟨base.anchor, base.parts ++ p.parts⟩

/-- The path with one more component. -/
def child (p : Path) (part : Text) : Path := ⟨p.anchor, p.parts ++ [part]⟩

/-- The last component; it is empty if there is none. -/
def name (p : Path) : Text := p.parts.getLastD []

/-- The path without its last component. -/
def parent (p : Path) : Path := ⟨p.anchor, p.parts.dropLast⟩

/-- Whether a component holds a null character. No name on a disk does, so nothing can be asked
about such a path. -/
def hasNull (p : Path) : Bool := p.parts.any (·.contains (Char.ofNat 0))

/-- What remains of the path below `base`, which has to share its anchor and to be an initial part
of it. -/
def below? (base p : Path) : Option (List Text) :=
  if p.anchor = base.anchor ∧ base.parts.isPrefixOf p.parts then
    some (p.parts.drop base.parts.length)
  else none

/-! ### Order -/

/-- The components with the anchor in front. -/
def key (p : Path) : List Text :=
  match p.anchor with
  | .relative => p.parts
  | anchor => anchor.text :: p.parts

/-- The order of paths: that of their components. -/
def le (p q : Path) : Bool := !List.lex q.key p.key Text.isBefore

/-- The paths in order; equal ones are all kept. -/
def sort (paths : List Path) : List Path := paths.mergeSort le

end Path

end CssTypings
