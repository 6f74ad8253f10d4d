import CssTypings.Glob.Token
import CssTypings.Path.Basic

/-!
# Ignored paths

A path is ignored if one of the ignore patterns accounts for it, either as it is written or with a
slash in front. So a pattern such as `*/vendor/*` reaches directories at the top as well. Patterns
are read against the part of the path below the root of the search.
-/

namespace CssTypings.Glob

/-- Whether one of the patterns ignores a relative path. -/
def excludes (patterns : List Text) (relative : Text) : Bool :=
  patterns.any fun pattern ↦ wildcard pattern relative || wildcard pattern ('/' :: relative)

/-- The text that the patterns are read against: the part of the path below the root, the last
component of the root itself, and the whole of a path that is not below the root. -/
def subject (root path : Path) : Text :=
  if path = root then path.name
  else match root.below? path with
    | some parts => Path.text ⟨.relative, parts⟩
    | none => path.text

/-- Whether one of the patterns ignores the path. -/
def ignores (patterns : List Text) (root path : Path) : Bool :=
  excludes patterns (subject root path)

end CssTypings.Glob
