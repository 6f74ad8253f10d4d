import CssTypings.Stylesheet.Identifier

/-!
# At-rules

The prelude of an at-rule is an `@`, a keyword and an argument. What its block means for the names
of the sheet depends on the keyword alone: an animation exports its own name, a conditional group
holds further rules, and any other block is of no interest.
-/

namespace CssTypings.Stylesheet

/-- The prelude of an at-rule. -/
structure AtRule where
  /-- The keyword, in lowercase. -/
  keyword : Text
  /-- What follows the keyword, without the blanks around it. -/
  argument : Text
deriving DecidableEq, Repr

/-- What the block of an at-rule is for. -/
inductive AtRule.Role where
  /-- The frames of an animation. -/
  | keyframes
  /-- Further rules. -/
  | nesting
  /-- Neither. -/
  | ignored
deriving DecidableEq, Repr

namespace AtRule

/-- Reads the prelude of a block as that of an at-rule. -/
def ofPrelude? : Text → Option AtRule
  | '@' :: r =>
    match r.takeWhile Text.isWordOrHyphen with
    | [] => none
    | word => some ⟨word.map Text.lower, Text.trim (r.drop word.length)⟩
  | _ => none

/-- The at-rules whose blocks hold further rules. -/
def nestingKeywords : List Text :=
  ["media", "supports", "layer", "container", "document", "scope"].map String.toList

/-- The role of an at-rule. The keyword of an animation may carry a vendor's name in front. -/
def role (rule : AtRule) : Role :=
  if "keyframes".toList.isSuffixOf rule.keyword then .keyframes
  else if rule.keyword ∈ nestingKeywords then .nesting
  else .ignored

/-- The name of an animation: the argument is a single identifier, which may stand inside
`:local(…)`. The two parentheses need not come together. -/
def animation? (argument : Text) : Option Text := do
  let t := match Text.after? ":local(".toList argument with
    | some r => r.trimLeft
    | none => argument
  let (raw, rest) ← Identifier.scan? t
  -- The closing parenthesis is taken with or without an opening one.
  match rest.trimLeft with
  | [] | [')'] => some (Identifier.unescape raw)
  | _ => none

end AtRule

end CssTypings.Stylesheet
