import CssTypings.Text.Basic

/-!
# What can be wrong with a stylesheet

The scanners tolerate everything but unbalanced brackets: braces around rules, and parentheses and
square brackets inside a selector.
-/

namespace CssTypings.Stylesheet

/-- Why the names of a stylesheet cannot be read off. -/
inductive Fault where
  /-- A `}` with no block open. -/
  | unexpectedClose
  /-- The text ends inside a block. -/
  | unclosedBlock
  /-- The bracket `opening` has no partner in `selector`. -/
  | unclosedBracket (opening : Char) (selector : Text)
deriving DecidableEq, Repr

/-- The wording of a fault; a selector is quoted without the blanks around it. -/
def Fault.message : Fault → String
  | .unexpectedClose => "Unexpected '\x7d'."
  | .unclosedBlock => "Unclosed '\x7b'."
  | .unclosedBracket opening selector =>
    "Unclosed '" ++ opening.toString ++ "' in selector '" ++ String.ofList selector.trim ++ "'."

end CssTypings.Stylesheet
