import CssTypings.Proofs.Text.Ends
import CssTypings.Stylesheet.Mask
import Mathlib.Data.List.Forall2
import Mathlib.Data.List.Infix

/-!
# What the masker does to each region

The masker keeps code and blanks the rest. Three equations say so, one for each region it can be in,
and each is stated over an arbitrary rest of the text, so that they chain:

* `maskFrom_code_append`: code is kept;
* `maskFrom_comment_append`: a comment is blanked up to its first `*/`, and code follows;
* `maskFrom_quoted_append`: a literal is blanked up to the first delimiter that is not escaped, and
  code follows.

Code is text without quotes and without `/*`. The second condition is about two neighbours, so a
concatenation of code is code only if the seam is not a `/` before a `*` (`IsCode.append`).

Whatever the text, what is left of it is code (`isCode_maskFrom`), and every character stands where
it stood or is blanked (`forall₂_maskFrom`). `mask_keeps_places` puts these together.
-/

namespace CssTypings.Stylesheet

/-! ### Code -/

/-- A text with nothing to mask: no quote, and no opening of a comment. -/
def IsCode (t : Text) : Prop := (∀ c ∈ t, isQuote c = false) ∧ ¬ ['/', '*'] <:+: t

theorem isCode_nil : IsCode [] := by simp [IsCode]

theorem isCode_cons {c : Char} {t : Text} :
    IsCode (c :: t) ↔ isQuote c = false ∧ ¬ (c = '/' ∧ t.head? = some '*') ∧ IsCode t := by
  have hhead : ['/', '*'] <+: c :: t ↔ c = '/' ∧ t.head? = some '*' := by
    cases t with
    | nil => simp
    | cons d t => simp [List.cons_prefix_cons, eq_comm]
  simp only [IsCode, List.forall_mem_cons, List.infix_cons_iff, hhead, not_or]
  tauto

theorem isCode_of_forall {t : Text} (ht : ∀ c ∈ t, isQuote c = false ∧ c ≠ '/') : IsCode t := by
  induction t with
  | nil => exact isCode_nil
  | cons c t ih =>
    obtain ⟨⟨hquote, hslash⟩, ht⟩ := List.forall_mem_cons.1 ht
    exact isCode_cons.2 ⟨hquote, fun h ↦ hslash h.1, ih ht⟩

/-- A class of characters without quotes and slashes makes code. -/
theorem isCode_of_class {p : Char → Bool} (hquote : p '\'' = false ∧ p '"' = false)
    (hslash : p '/' = false) {t : Text} (ht : ∀ c ∈ t, p c = true) : IsCode t :=
  isCode_of_forall fun c hc ↦
    ⟨by simp [isQuote, Text.ne_of_pos_of_neg (ht c hc) hquote.1,
        Text.ne_of_pos_of_neg (ht c hc) hquote.2],
      Text.ne_of_pos_of_neg (ht c hc) hslash⟩

/-- **Code before code is code**, unless a comment opens at the seam. -/
theorem IsCode.append {a b : Text} (ha : IsCode a) (hb : IsCode b)
    (hseam : a.getLast? = some '/' → b.head? ≠ some '*') : IsCode (a ++ b) := by
  induction a with
  | nil => exact hb
  | cons c a ih =>
    obtain ⟨hc, hopen, ha⟩ := isCode_cons.1 ha
    rw [List.cons_append, isCode_cons]
    cases a with
    | nil => exact ⟨hc, fun ⟨hslash, hstar⟩ ↦ hseam (by simp [hslash]) hstar, hb⟩
    | cons d a =>
      refine ⟨hc, hopen, ih ha ?_⟩
      rwa [List.getLast?_cons_cons] at hseam

/-- A character between two pieces of code that takes no part in a comment's delimiters. -/
theorem IsCode.append_cons {a b : Text} {c : Char} (ha : IsCode a) (hb : IsCode b)
    (hquote : isQuote c = false) (hslash : c ≠ '/') (hstar : c ≠ '*') : IsCode (a ++ c :: b) :=
  ha.append (isCode_cons.2 ⟨hquote, fun h ↦ hslash h.1, hb⟩) fun _ h ↦ hstar (by simpa using h)

theorem maskFrom_code_cons {c : Char} {r : Text} (hquote : isQuote c = false)
    (hopen : ¬ (c = '/' ∧ r.head? = some '*')) :
    maskFrom .code (c :: r) = c :: maskFrom .code r := by
  rw [maskFrom]
  · simp [hquote]
  · rintro r' rfl rfl
    exact hopen ⟨rfl, rfl⟩

/-- **Code is kept**, whatever follows it, unless a comment opens at the seam. -/
theorem maskFrom_code_append {a r : Text} (ha : IsCode a) (hr : r.head? ≠ some '*') :
    maskFrom .code (a ++ r) = a ++ maskFrom .code r := by
  induction a with
  | nil => rfl
  | cons c a ih =>
    obtain ⟨hc, hopen, ha⟩ := isCode_cons.1 ha
    rw [List.cons_append, List.cons_append, maskFrom_code_cons hc, ih ha]
    rintro ⟨hslash, hstar⟩
    cases a with
    | nil => exact hr hstar
    | cons d a => exact hopen ⟨hslash, hstar⟩

/-- A text of code is its own mask. -/
theorem mask_of_isCode {t : Text} (ht : IsCode t) : mask t = t := by
  simpa [mask, maskFrom] using maskFrom_code_append (r := []) ht (by simp)

/-! ### Comments and literals -/

/-- The inside of a string literal: backslashes come in pairs with what they escape, and the
delimiter does not stand alone. -/
def IsLiteralBody (delimiter : Char) : Text → Prop
  | [] => True
  | ['\\'] => False
  | '\\' :: _ :: r => IsLiteralBody delimiter r
  | c :: r => c ≠ delimiter ∧ IsLiteralBody delimiter r

/-- **A comment ends at its first `*/`.** -/
theorem maskFrom_comment_append {body : Text} (hbody : ¬ ['*', '/'] <:+: body) (r : Text) :
    maskFrom .comment (body ++ '*' :: '/' :: r) =
      body.map blanked ++ ' ' :: ' ' :: maskFrom .code r := by
  induction body with
  | nil => rfl
  | cons c body ih =>
    rw [List.infix_cons_iff, not_or] at hbody
    rw [List.cons_append, List.map_cons, List.cons_append, ← ih hbody.2, maskFrom]
    -- no `*/` begins here: the `/` would be the next character of the body
    rintro r' rfl hr'
    cases body with
    | nil => simp at hr'
    | cons d body =>
      obtain ⟨rfl, -⟩ := List.cons.inj hr'
      exact hbody.1 (by simp)

/-- **A literal ends at the first delimiter that is not escaped.** -/
theorem maskFrom_quoted_append {q : Char} (hq : q ≠ '\\') {body : Text}
    (hbody : IsLiteralBody q body) (r : Text) :
    maskFrom (.quoted q) (body ++ q :: r) = body.map blanked ++ ' ' :: maskFrom .code r := by
  fun_induction IsLiteralBody q body with
  | case1 =>
    rw [List.nil_append, maskFrom]
    · simp
    · rintro c r' rfl
      exact absurd rfl hq
  | case2 => exact absurd hbody id
  | case3 c body ih =>
    rw [List.cons_append, List.cons_append, maskFrom, ih hbody]
    simp [blanked]
  | case4 c body hlone hpair ih =>
    obtain ⟨hc, hbody⟩ := hbody
    have hslash : c ≠ '\\' := by
      rintro rfl
      cases body with
      | nil => exact hlone rfl rfl
      | cons d body => exact hpair d body rfl rfl
    rw [List.cons_append, maskFrom, if_neg hc, ih hbody]
    · simp
    · rintro d r' rfl
      exact absurd rfl hslash

/-- A masked character is blank. -/
theorem isBlank_blanked (c : Char) : Text.isBlank (blanked c) = true := by
  unfold blanked
  split <;> decide

/-! ### Nothing is left to mask -/

theorem isQuote_blanked (c : Char) : isQuote (blanked c) = false := by
  unfold blanked
  split <;> decide

/-- A star at the start of masked code was there before: the masker puts blanks only. -/
theorem head?_of_head?_maskFrom_code {t : Text} (h : (maskFrom .code t).head? = some '*') :
    t.head? = some '*' := by
  cases t with
  | nil => simp [maskFrom] at h
  | cons c r =>
    by_cases hopen : c = '/' ∧ r.head? = some '*'
    · obtain ⟨rfl, hstar⟩ := hopen
      obtain ⟨r', rfl⟩ := List.head?_eq_some_iff.1 hstar
      simp [maskFrom] at h
    · cases hquote : isQuote c with
      | true =>
        rw [maskFrom, if_pos hquote] at h
        · simp at h
        · rintro r' rfl rfl
          exact hopen ⟨rfl, rfl⟩
      | false => rwa [maskFrom_code_cons hquote hopen, List.head?_cons] at h

/-- **What the masker leaves is code**, whatever it begins inside of. A comment cannot open in it:
where a `/` was kept, the character behind it was read as code, and a `*` there would have opened a
comment. -/
theorem isCode_maskFrom (region : Region) (t : Text) : IsCode (maskFrom region t) := by
  have hblank {c : Char} {r : Text} (hr : IsCode r) : IsCode (blanked c :: r) := by
    refine isCode_cons.2 ⟨isQuote_blanked c, fun h ↦ ?_, hr⟩
    exact absurd h.1 (Text.ne_of_pos_of_neg (isBlank_blanked c) (by decide))
  have hspace {r : Text} (hr : IsCode r) : IsCode (' ' :: r) := hblank (c := ' ') hr
  fun_induction maskFrom region t with
  | case1 => exact isCode_nil
  | case2 r ih | case5 r ih => exact hspace (hspace ih)
  | case3 c r _ _ ih | case8 c r _ ih => exact hspace ih
  | case4 c r hopen hcode ih =>
    refine isCode_cons.2 ⟨by simpa using hcode, ?_, ih⟩
    rintro ⟨rfl, hstar⟩
    obtain ⟨r', rfl⟩ := List.head?_eq_some_iff.1 (head?_of_head?_maskFrom_code hstar)
    exact hopen r' rfl rfl
  | case6 c r _ ih | case9 q c r _ _ ih => exact hblank ih
  | case7 q c r ih => exact hspace (hblank ih)

/-- The masker leaves no quote, whatever it begins inside of. -/
theorem isQuote_of_mem_maskFrom (region : Region) (t : Text) :
    ∀ c ∈ maskFrom region t, isQuote c = false :=
  (isCode_maskFrom region t).1

/-! ### Places are kept -/

/-- What the masker may make of a character: it keeps it or puts a space in its place, and newlines
stay what they are. -/
def MaskedTo (c d : Char) : Prop := (d = c ∨ d = ' ') ∧ (d = '\n' ↔ c = '\n')

theorem maskedTo_self (c : Char) : MaskedTo c c := ⟨Or.inl rfl, Iff.rfl⟩

theorem maskedTo_space {c : Char} (hc : c ≠ '\n') : MaskedTo c ' ' :=
  ⟨Or.inr rfl, by simp [hc]⟩

theorem maskedTo_blanked (c : Char) : MaskedTo c (blanked c) := by
  by_cases hc : c = '\n'
  · subst hc
    exact maskedTo_self _
  · rw [blanked, if_neg hc]
    exact maskedTo_space hc

/-- The region is one that the masker enters: a literal begins with a quote. -/
def Region.IsProper : Region → Prop
  | .quoted q => isQuote q = true
  | _ => True

/-- **Character by character** the mask is the text or blank. -/
theorem forall₂_maskFrom (region : Region) (hregion : region.IsProper) (t : Text) :
    List.Forall₂ MaskedTo t (maskFrom region t) := by
  have hquote {q : Char} (hq : isQuote q = true) : MaskedTo q ' ' :=
    maskedTo_space (Text.ne_of_pos_of_neg hq (by decide))
  have hmark {c : Char} (hc : c = '/' ∨ c = '*' ∨ c = '\\') : MaskedTo c ' ' := by
    refine maskedTo_space ?_
    rcases hc with rfl | rfl | rfl <;> decide
  fun_induction maskFrom region t with
  | case1 => exact .nil
  | case2 r ih => exact .cons (hmark (by simp)) (.cons (hmark (by simp)) (ih trivial))
  | case3 c r _ hopen ih => exact .cons (hquote hopen) (ih hopen)
  | case4 c r _ _ ih => exact .cons (maskedTo_self c) (ih trivial)
  | case5 r ih => exact .cons (hmark (by simp)) (.cons (hmark (by simp)) (ih trivial))
  | case6 c r _ ih => exact .cons (maskedTo_blanked c) (ih trivial)
  | case7 q c r ih => exact .cons (hmark (by simp)) (.cons (maskedTo_blanked c) (ih hregion))
  | case8 q r _ ih => exact .cons (hquote hregion) (ih trivial)
  | case9 q c r _ _ ih => exact .cons (maskedTo_blanked c) (ih hregion)

/-- **Masking keeps every place and is done once.** The mask is as long as the text; at each place
it has the character of the text or a space, and newlines exactly where the text has them. No quote
is left in it and no comment opens in it, so masking it again changes nothing. -/
theorem mask_keeps_places (t : Text) :
    (mask t).length = t.length ∧
    (∀ i : Nat,
      ((mask t)[i]? = t[i]? ∨ i < t.length ∧ (mask t)[i]? = some ' ') ∧
      ((mask t)[i]? = some '\n' ↔ t[i]? = some '\n')) ∧
    (∀ c ∈ mask t, isQuote c = false) ∧
    ¬ ['/', '*'] <:+: mask t ∧
    mask (mask t) = mask t := by
  have hplaces := forall₂_maskFrom .code trivial t
  have hcode := isCode_maskFrom .code t
  have hlength : (mask t).length = t.length := hplaces.length_eq.symm
  refine ⟨hlength, fun i ↦ ?_, hcode.1, hcode.2, mask_of_isCode hcode⟩
  by_cases hi : i < t.length
  · have hi' : i < (mask t).length := hlength ▸ hi
    obtain ⟨hkept, hline⟩ := hplaces.get hi hi'
    rw [List.getElem?_eq_getElem hi, List.getElem?_eq_getElem hi', Option.some.injEq,
      Option.some.injEq, Option.some.injEq, Option.some.injEq]
    exact ⟨hkept.imp_right fun hspace ↦ ⟨hi, hspace⟩, hline⟩
  · have hnone : t[i]? = none := List.getElem?_eq_none (Nat.le_of_not_lt hi)
    have hnone' : (mask t)[i]? = none := List.getElem?_eq_none (hlength ▸ Nat.le_of_not_lt hi)
    simp [hnone, hnone']

end CssTypings.Stylesheet
