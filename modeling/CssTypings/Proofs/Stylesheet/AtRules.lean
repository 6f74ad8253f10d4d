import CssTypings.Proofs.Text.Ends
import CssTypings.Stylesheet.AtRule

/-!
# Reading the prelude of a block

Whether a prelude is that of an at-rule is decided by its first character, and what an animation is
called by what its argument leaves behind an opening `:local(` (`unwrapped`). The argument is read
in two steps here, so that the first one can be reasoned about alone.
-/

namespace CssTypings.Stylesheet

namespace AtRule

/-- What is left of the argument of an animation behind `:local(`, or else all of it. -/
def unwrapped (argument : Text) : Text :=
  match Text.after? ":local(".toList argument with
  | some r => r.trimLeft
  | none => argument

theorem unwrapped_append (t : Text) : unwrapped (":local(".toList ++ t) = t.trimLeft := by
  rw [unwrapped, Text.after?_append]

theorem unwrapped_of_head? {t : Text} (ht : ':' ∉ t.head?) : unwrapped t = t := by
  rw [unwrapped, Text.after?_eq_none_of_head? (c := ':') (by decide) ht]

/-- The name of an animation whose raw form was read, if nothing but a closing parenthesis is left
of the argument. -/
def closed? (read : Text × Text) : Option Text :=
  match read.2.trimLeft with
  | [] | [')'] => some (Identifier.unescape read.1)
  | _ => none

theorem closed?_of_eq {raw rest : Text} (h : rest.trimLeft = [] ∨ rest.trimLeft = [')']) :
    closed? (raw, rest) = some (Identifier.unescape raw) := by
  rw [closed?]
  rcases h with h | h
  · rw [h]
  · rw [h]
    rfl

theorem closed?_of_ne {raw rest : Text} (hnil : rest.trimLeft ≠ [])
    (hclose : rest.trimLeft ≠ [')']) : closed? (raw, rest) = none := by
  rw [closed?]
  split <;> simp_all

theorem animation?_eq (argument : Text) :
    animation? argument = (Identifier.scan? (unwrapped argument)).bind closed? := rfl

theorem ofPrelude?_cons (r : Text) :
    ofPrelude? ('@' :: r) = if r.takeWhile Text.isWordOrHyphen = [] then none
      else some ⟨(r.takeWhile Text.isWordOrHyphen).map Text.lower,
        Text.trim (r.dropWhile Text.isWordOrHyphen)⟩ := by
  have hdrop : r.drop (r.takeWhile Text.isWordOrHyphen).length =
      r.dropWhile Text.isWordOrHyphen := by
    have h : (r.takeWhile Text.isWordOrHyphen ++ r.dropWhile Text.isWordOrHyphen).drop
        (r.takeWhile Text.isWordOrHyphen).length = r.dropWhile Text.isWordOrHyphen := List.drop_left
    rwa [List.takeWhile_append_dropWhile] at h
  rw [← hdrop, ofPrelude?]
  split
  · next h => rw [if_pos h]
  · next h => rw [if_neg h]

/-- A style rule is not read as an at-rule. -/
theorem ofPrelude?_eq_none {t : Text} (ht : t.head? ≠ some '@') :
    ofPrelude? t = none := by
  cases t with
  | nil => rfl
  | cons c t =>
    rw [ofPrelude?]
    rintro r hr
    exact ht (by rw [(List.cons.inj hr).1]; rfl)

end AtRule

end CssTypings.Stylesheet
