import CssTypings.Path.Basic

/-!
# Artifacts

The declaration of a stylesheet stands next to it: the path of the artifact is the path of the
source with a suffix appended to its text.
-/

namespace CssTypings.Path

/-- The path of the artifact of a source. -/
def artifact (suffix : Text) (source : Path) : Path := ofText (source.text ++ suffix)

/-- The path of the source of an artifact: the text without the suffix, which has to be shorter
than the text. Removing the empty suffix leaves nothing. -/
def source? (suffix : Text) (artifact : Path) : Option Path :=
  match Text.before? suffix artifact.text with
  | none | some [] => none
  | some t => some (ofText (if suffix = [] then [] else t))

end CssTypings.Path
