import CssTypings.Text.Basic

/-!
# Bracket partners

The partner of an opening bracket is the closing bracket of its kind before which as many brackets
of the kind were closed as were opened. Brackets of other kinds do not count.
-/

namespace CssTypings.Stylesheet

/-- Splits a text that stands inside a bracket at the end of the bracket: what is inside, and what
follows the closing character. `depth` further brackets are open inside. -/
def splitAtClose (opening closing : Char) : (depth : Nat) → Text → Option (Text × Text)
  | _, [] => none
  | 0, c :: r =>
    if c = opening then (splitAtClose opening closing 1 r).map fun (i, o) ↦ (c :: i, o)
    else if c = closing then some ([], r)
    else (splitAtClose opening closing 0 r).map fun (i, o) ↦ (c :: i, o)
  | d + 1, c :: r =>
    if c = opening then (splitAtClose opening closing (d + 2) r).map fun (i, o) ↦ (c :: i, o)
    else if c = closing then (splitAtClose opening closing d r).map fun (i, o) ↦ (c :: i, o)
    else (splitAtClose opening closing (d + 1) r).map fun (i, o) ↦ (c :: i, o)

/-- A bracket's inside, its closing character and the rest make up the text. -/
theorem append_of_splitAtClose {opening closing : Char} {depth : Nat} {t inside rest : Text}
    (h : splitAtClose opening closing depth t = some (inside, rest)) :
    inside ++ closing :: rest = t := by
  fun_induction splitAtClose opening closing depth t generalizing inside rest <;> simp_all
  all_goals
    obtain ⟨i, hi, rfl⟩ := h
    simp_all

theorem length_add_lt_of_splitAtClose {opening closing : Char} {depth : Nat}
    {t inside rest : Text} (h : splitAtClose opening closing depth t = some (inside, rest)) :
    inside.length + rest.length < t.length := by
  rw [← append_of_splitAtClose h]
  simp only [List.length_append, List.length_cons]
  omega

end CssTypings.Stylesheet
