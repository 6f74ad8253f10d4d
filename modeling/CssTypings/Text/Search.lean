import CssTypings.Text.Basic

/-!
# Searching texts

Finding and replacing a text inside another one. Occurrences are found from the left and do not
overlap.
-/

namespace CssTypings.Text

/-- What follows the first occurrence of a text, if there is one. -/
def behind? (needle : Text) : Text → Option Text
  | [] => if needle = [] then some [] else none
  | c :: r =>
    match after? needle (c :: r) with
    | some rest => some rest
    | none => behind? needle r

/-- Whether a text occurs inside another one. -/
def occurs (needle t : Text) : Bool := (behind? needle t).isSome

/-- The text with every occurrence of `needle` replaced, where the first `skip` characters belong
to an occurrence that was replaced already. -/
def replaceFrom (needle substitute : Text) : (skip : Nat) → Text → Text
  | _, [] => []
  | skip + 1, _ :: r => replaceFrom needle substitute skip r
  | 0, c :: r =>
    if needle.isPrefixOf (c :: r) then
      substitute ++ replaceFrom needle substitute (needle.length - 1) r
    else c :: replaceFrom needle substitute 0 r

/-- The text with every occurrence of a non-empty text replaced. -/
def replace (needle substitute t : Text) : Text := replaceFrom needle substitute 0 t

end CssTypings.Text
