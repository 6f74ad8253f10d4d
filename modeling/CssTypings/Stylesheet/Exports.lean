import CssTypings.Stylesheet.AtRule
import CssTypings.Stylesheet.Block
import CssTypings.Stylesheet.Mask
import CssTypings.Stylesheet.Selector

/-!
# The names a stylesheet exports

A rule exports the class and id names of its selectors, an animation its own name, and a
conditional group whatever the rules inside it export. A name is listed once, where it occurs
first.

Groups, and likewise the scopes of a selector, may be inside one another to any depth. What limits
the depth in a run is the room that is left to it, which is not a matter of the text.
-/

namespace CssTypings.Stylesheet

/-- The names that a masked text exports, in order and with repetitions. -/
def occurrences (t : Text) : Except Fault (List Text) :=
  match _ : Block.split t with
  | .error fault => .error fault
  | .ok blocks => do
    let names ← blocks.attach.mapM fun ⟨block, _⟩ ↦
      match AtRule.ofPrelude? block.prelude with
      | none => Selector.listNames block.prelude
      | some rule =>
        match rule.role with
        | .keyframes => .ok (AtRule.animation? rule.argument).toList
        | .nesting => occurrences block.body
        | .ignored => .ok []
    return names.flatten
termination_by t.length
decreasing_by exact Block.length_body_lt_of_mem_split ‹_› ‹_›

/-- The names that a stylesheet exports, each once, in the order of first occurrence. -/
def exported (css : Text) : Except Fault (List Text) :=
  return (← occurrences (mask css)).eraseDups

end CssTypings.Stylesheet
