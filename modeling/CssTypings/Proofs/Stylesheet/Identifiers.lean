import CssTypings.Proofs.Text.Ends
import CssTypings.Stylesheet.Identifier

/-!
# What an identifier is

The raw form of an identifier is given here by its grammar (`IsRaw`). The scanner gives identifiers
and reads them as a whole (`isRaw_iff_scan?`). What an identifier stands for is never empty and has
only characters of the identifier in it, none of which is the end of a line.
-/

namespace CssTypings.Stylesheet.Identifier

/-- What may follow the first character of an identifier: word characters, hyphens and escapes. -/
inductive IsTail : Text → Prop
  | nil : IsTail []
  | word {c : Char} {t : Text} : Text.isWordOrHyphen c = true → IsTail t → IsTail (c :: t)
  | escape {c : Char} {t : Text} : c ≠ '\n' → IsTail t → IsTail ('\\' :: c :: t)

/-- An identifier without a hyphen in front: a letter of ASCII, an underscore or an escape begins
it. -/
inductive IsPlain : Text → Prop
  | letter {c : Char} {t : Text} : Text.isLetter c = true ∨ c = '_' → IsTail t → IsPlain (c :: t)
  | escape {c : Char} {t : Text} : c ≠ '\n' → IsTail t → IsPlain ('\\' :: c :: t)

/-- An identifier in its raw form. -/
inductive IsRaw : Text → Prop
  | plain {t : Text} : IsPlain t → IsRaw t
  | hyphen {t : Text} : IsPlain t → IsRaw ('-' :: t)

variable {t raw rest : Text}

/-- The character that begins an identifier is not any other one. -/
theorem ne_of_isLetter_or {c d : Char} (hc : Text.isLetter c = true ∨ c = '_')
    (hd : (Text.isLetter d || d == '_') = false) : c ≠ d := by
  rintro rfl
  simp_all

/-! ### Scanning -/

theorem isTail_of_scanTail (h : scanTail t = (raw, rest)) : IsTail raw := by
  fun_induction scanTail t generalizing raw rest with
  | case1 | case2 | case5 =>
    cases h
    exact .nil
  | case3 c r hc run rest' hscan ih =>
    cases h
    exact .escape hc (ih hscan)
  | case4 c r _ hc run rest' hscan ih =>
    cases h
    exact .word hc (ih hscan)

theorem isPlain_of_scanPlain? (h : scanPlain? t = some (raw, rest)) : IsPlain raw := by
  unfold scanPlain? at h
  split at h
  · cases h
  · next c r =>
    split at h
    · cases h
    · next hc =>
      cases h
      exact .escape hc (isTail_of_scanTail rfl)
  · next c r _ =>
    split at h
    · next hc =>
      cases h
      exact .letter (by simpa using hc) (isTail_of_scanTail rfl)
    · cases h

/-- **The scanner gives identifiers.** -/
theorem isRaw_of_scan? (h : scan? t = some (raw, rest)) : IsRaw raw := by
  unfold scan? at h
  split at h
  · obtain ⟨⟨raw', rest'⟩, hplain, heq⟩ := Option.map_eq_some_iff.1 h
    cases heq
    exact .hyphen (isPlain_of_scanPlain? hplain)
  · exact .plain (isPlain_of_scanPlain? h)

theorem scanTail_of_isTail (h : IsTail t) : scanTail t = (t, []) := by
  induction h with
  | nil => rfl
  | @word c t hc _ ih =>
    have hne : c ≠ '\\' := Text.ne_of_pos_of_neg hc (by decide)
    rw [scanTail, if_pos hc, ih]
    exact fun _ _ heq _ ↦ hne heq
  | escape hc _ ih => rw [scanTail, if_neg hc, ih]

theorem scanPlain?_of_isPlain (h : IsPlain t) : scanPlain? t = some (t, []) := by
  cases h with
  | @letter c t hc ht =>
    rw [scanPlain?, if_pos (by simpa using hc), scanTail_of_isTail ht]
    exact fun _ _ heq _ ↦ ne_of_isLetter_or hc (by decide) heq
  | escape hc ht => rw [scanPlain?, if_neg hc, scanTail_of_isTail ht]

/-- The scanner reads an identifier as a whole. -/
theorem isRaw_iff_scan? : IsRaw t ↔ scan? t = some (t, []) := by
  refine ⟨fun h ↦ ?_, isRaw_of_scan?⟩
  cases h with
  | hyphen h => rw [scan?, scanPlain?_of_isPlain h]; rfl
  | plain h =>
    rw [scan?, scanPlain?_of_isPlain h]
    rintro r rfl
    cases h with
    | letter hc => exact absurd hc (by decide)

/-! ### What an identifier stands for -/

theorem unescape_sublist (t : Text) : List.Sublist (unescape t) t := by
  induction t using unescape.induct with
  | case1 => exact List.Sublist.refl _
  | case2 c r ih =>
    rw [unescape]
    exact (ih.cons_cons c).cons '\\'
  | case3 c r hpair ih =>
    rw [unescape]
    · exact ih.cons_cons c
    · exact hpair

theorem unescape_ne_nil (ht : t ≠ []) : unescape t ≠ [] := by
  fun_cases unescape t with
  | case1 => exact absurd rfl ht
  | case2 | case3 => exact List.cons_ne_nil _ _

theorem IsRaw.ne_nil (h : IsRaw raw) : raw ≠ [] := by
  rcases h with ⟨h | h⟩ | h <;> exact List.cons_ne_nil _ _

theorem IsTail.newline_not_mem (h : IsTail t) : '\n' ∉ t := by
  induction h with
  | nil => exact List.not_mem_nil
  | word hc _ ih => simpa [ih] using (Text.ne_of_pos_of_neg hc (by decide)).symm
  | escape hc _ ih => simpa [ih] using hc.symm

theorem IsPlain.newline_not_mem (h : IsPlain t) : '\n' ∉ t := by
  cases h with
  | letter hc ht => simpa [ht.newline_not_mem] using (ne_of_isLetter_or hc (by decide)).symm
  | escape hc ht => simpa [ht.newline_not_mem] using hc.symm

theorem IsRaw.newline_not_mem (h : IsRaw raw) : '\n' ∉ raw := by
  cases h with
  | plain h => exact h.newline_not_mem
  | hyphen h => simpa using h.newline_not_mem

end CssTypings.Stylesheet.Identifier
