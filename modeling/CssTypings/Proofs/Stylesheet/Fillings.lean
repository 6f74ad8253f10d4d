import CssTypings.Proofs.Stylesheet.BlankRuns
import CssTypings.Proofs.Stylesheet.Masking
import CssTypings.Stylesheet.Exports

/-!
# Comments and literals between code

A stylesheet is code with comments and string literals in between. What these contain, of which kind
they are, how long and how many, does not influence the names that the sheet exports, nor whether it
has a fault: `exported_weave`. It is a statement about two sheets with the same code, whose gaps are
filled independently.

The masker turns each filling into blanks, at least two of them, of which the first is a space. So
the masks of both sheets are alike (`alike_mask_weave`), and alike texts export the same names. The
space in front matters where the code before a gap ends in a backslash: that escapes the same
character in both sheets, and there is still a blank behind it.
-/

namespace CssTypings.Stylesheet

/-- A comment or a string literal, up to its end. -/
inductive Filling where
  /-- A comment, with what stands between its delimiters. -/
  | comment (body : Text) (isClosed : ¬ ['*', '/'] <:+: body)
  /-- A literal, with what stands between its delimiters. -/
  | literal (delimiter : Char) (isQuote : isQuote delimiter = true) (body : Text)
    (isBody : IsLiteralBody delimiter body)

/-- What stands between two pieces of code: one filling at least. -/
structure Gap where
  /-- The filling behind the code. -/
  first : Filling
  /-- Further fillings behind it. -/
  more : List Filling

/-- A piece of code. -/
structure Code where
  /-- The code as it is written. -/
  text : Text
  /-- It has no quotes and opens no comment. -/
  isCode : IsCode text

/-- A filling as it is written. -/
def Filling.text : Filling → Text
  | comment body _ => '/' :: '*' :: (body ++ ['*', '/'])
  | literal delimiter _ body _ => delimiter :: (body ++ [delimiter])

/-- Fillings as they are written, one after the other. -/
def Gap.text (gap : Gap) : Text := gap.first.text ++ gap.more.flatMap Filling.text

/-- Pieces of code with gaps between them; only as many gaps are used as there are places. -/
def weave (code : Code) : List Code → (Nat → Gap) → Text
  | [], _ => code.text
  | next :: others, gaps =>
    code.text ++ ((gaps 0).text ++ weave next others fun n ↦ gaps (n + 1))

/-! ### The mask of a filling -/

theorem isGap_map_blanked_append (body : Text) {g : Text} (hg : IsGap g) :
    IsGap (body.map blanked ++ g) := by
  refine ⟨by simp [hg.1], fun c hc ↦ ?_⟩
  rcases List.mem_append.1 hc with hc | hc
  · obtain ⟨d, -, rfl⟩ := List.mem_map.1 hc
    exact isBlank_blanked d
  · exact hg.2 c hc

/-- A filling begins with its delimiter, which does not end the opening of a comment. -/
theorem Filling.head?_text_append (filling : Filling) (r : Text) :
    (filling.text ++ r).head? ≠ some '*' := by
  cases filling with
  | comment body isClosed => simp [text]
  | literal delimiter isQuote body isBody =>
    have hne : delimiter ≠ '*' := Text.ne_of_pos_of_neg isQuote (by decide)
    simpa [text] using hne

/-- **A filling is masked to a space and a run of blanks**, and code follows. -/
theorem Filling.exists_mask_append (filling : Filling) :
    ∃ g, IsGap g ∧ ∀ r, mask (filling.text ++ r) = ' ' :: (g ++ mask r) := by
  cases filling with
  | comment body isClosed =>
    refine ⟨' ' :: (body.map blanked ++ [' ', ' ']),
      (isGap_map_blanked_append body isGap_space.cons_space).cons_space, fun r ↦ ?_⟩
    have hbody := maskFrom_comment_append isClosed r
    rw [text, List.cons_append, List.cons_append, List.append_assoc, List.cons_append,
      List.singleton_append, mask, maskFrom, hbody]
    simp [mask]
  | literal delimiter isQuote body isBody =>
    refine ⟨body.map blanked ++ [' '], isGap_map_blanked_append body isGap_space,
      fun r ↦ ?_⟩
    have hne {c : Char} (hc : Stylesheet.isQuote c = false) : delimiter ≠ c :=
      Text.ne_of_pos_of_neg isQuote hc
    have hbody := maskFrom_quoted_append (hne (by decide)) isBody r
    rw [text, List.cons_append, List.append_assoc, List.singleton_append, mask, maskFrom,
      if_pos isQuote, hbody]
    · simp [mask]
    · rintro r' hslash
      exact absurd hslash (hne (by decide))

theorem Gap.exists_mask_append (gap : Gap) :
    ∃ g, IsGap g ∧ ∀ r, mask (gap.text ++ r) = ' ' :: (g ++ mask r) := by
  have hmore (fillings : List Filling) {g : Text} (hg : IsGap g) :
      ∃ h, IsGap h ∧ ∀ r, g ++ mask (fillings.flatMap Filling.text ++ r) = h ++ mask r := by
    induction fillings generalizing g with
    | nil => exact ⟨g, hg, fun r ↦ rfl⟩
    | cons filling fillings ih =>
      obtain ⟨h, hh, hmask⟩ := filling.exists_mask_append
      obtain ⟨h', hh', hrest⟩ := ih (hg.append hh.cons_space)
      refine ⟨h', hh', fun r ↦ ?_⟩
      rw [← hrest, List.flatMap_cons, List.append_assoc, hmask]
      simp
  obtain ⟨g, hg, hmask⟩ := gap.first.exists_mask_append
  obtain ⟨h, hh, hrest⟩ := hmore gap.more hg
  refine ⟨h, hh, fun r ↦ ?_⟩
  rw [text, List.append_assoc, hmask, hrest]

/-! ### Two sheets with the same code -/

/-- Code in front of a space and blanks. A backslash at its end escapes the space. -/
theorem Alike.append_space {g h t u : Text} (a : Text) (hg : IsGap g) (hh : IsGap h)
    (htu : Alike t u) : Alike (a ++ ' ' :: (g ++ t)) (a ++ ' ' :: (h ++ u)) := by
  induction a using Identifier.unescape.induct with
  | case1 =>
    have hblanks := blanks hg.cons_space hh.cons_space htu
    exact hblanks
  | case2 c a ih => exact escape c ih
  | case3 c a hpair ih =>
    by_cases hc : c = '\\'
    · subst hc
      cases a with
      | nil => exact escape ' ' (blanks hg hh htu)
      | cons d a => exact absurd rfl (hpair d a rfl)
    · exact plain hc ih

theorem alike_mask_weave (code : Code) (others : List Code) (gaps gaps' : Nat → Gap) :
    Alike (mask (weave code others gaps)) (mask (weave code others gaps')) := by
  induction others generalizing code gaps gaps' with
  | nil => exact Alike.refl _
  | cons next others ih =>
    have hmask (gaps : Nat → Gap) : mask (weave code (next :: others) gaps) =
        code.text ++ mask ((gaps 0).text ++ weave next others fun n ↦ gaps (n + 1)) := by
      refine maskFrom_code_append code.isCode ?_
      rw [Gap.text, List.append_assoc]
      exact (gaps 0).first.head?_text_append _
    obtain ⟨g, hg, hleft⟩ := (gaps 0).exists_mask_append
    obtain ⟨h, hh, hright⟩ := (gaps' 0).exists_mask_append
    rw [hmask, hmask, hleft, hright]
    exact Alike.append_space code.text hg hh (ih _ _ _)

/-- **What stands in comments and literals has no influence on the exported names.** Two sheets with
the same code export the same names, or both have a fault, however their gaps are filled. -/
theorem exported_weave (code : Code) (others : List Code) (gaps gaps' : Nat → Gap) :
    (exported (weave code others gaps)).toOption =
      (exported (weave code others gaps')).toOption := by
  have hnames := occurrences_agree (alike_mask_weave code others gaps gaps')
  have hfirst : Agree (· = ·) (exported (weave code others gaps))
      (exported (weave code others gaps')) :=
    hnames.bind fun _ _ heq ↦ .ok (congrArg List.eraseDups heq)
  exact hfirst.toOption_eq

end CssTypings.Stylesheet
