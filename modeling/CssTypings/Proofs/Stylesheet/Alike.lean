import CssTypings.Proofs.Stylesheet.Lockstep
import CssTypings.Stylesheet.AtRule

/-!
# Texts that differ in the length of blanks

Two texts are alike when they are the same but for runs of blanks: where one has such a run, the
other has one too, of any length and of any blanks (`Alike`). A backslash and the character behind
it are taken together, since that character may be a blank that a scanner keeps.

The relation is closed under what the scanners do to a text, and what they read off alike texts is
the same.

* Alike texts stay alike when they are trimmed (`Alike.trim`).
* They begin with the same word (`Alike.takeWhile_eq`), the same fixed text (`Alike.after?`) and the
  same identifier (`Alike.scan?`), and then with alike rests.
* Runs of blanks are asides, so alike texts are scanned in lockstep (`Alike.lockstep`).
-/

namespace CssTypings.Stylesheet

/-- A run of blanks. -/
def IsGap (g : Text) : Prop := g ≠ [] ∧ ∀ c ∈ g, Text.isBlank c = true

theorem IsGap.exists_cons {g : Text} (hg : IsGap g) :
    ∃ b g', g = b :: g' ∧ Text.isBlank b = true := by
  obtain ⟨hne, hblank⟩ := hg
  cases g with
  | nil => exact absurd rfl hne
  | cons b g' => exact ⟨b, g', rfl, hblank b List.mem_cons_self⟩

theorem IsGap.not_mem {g : Text} (hg : IsGap g) {c : Char} (hc : Text.isBlank c = false) : c ∉ g :=
  fun hmem ↦ Text.ne_of_pos_of_neg (hg.2 c hmem) hc rfl

theorem isGap_space : IsGap [' '] := ⟨by simp, by simp; decide⟩

theorem IsGap.append {g h : Text} (hg : IsGap g) (hh : IsGap h) : IsGap (g ++ h) :=
  ⟨by simp [hg.1], fun c hc ↦ (List.mem_append.1 hc).elim (hg.2 c) (hh.2 c)⟩

theorem IsGap.cons_space {g : Text} (hg : IsGap g) : IsGap (' ' :: g) := isGap_space.append hg

theorem IsGap.not_mem_head? {g : Text} (hg : IsGap g) {c : Char} (hc : Text.isBlank c = false)
    (t : Text) : c ∉ (g ++ t).head? := by
  obtain ⟨b, g', rfl, hb⟩ := hg.exists_cons
  simpa using Text.ne_of_pos_of_neg hb hc

/-- The texts are the same but for the length of runs of blanks. -/
inductive Alike : Text → Text → Prop
  | nil : Alike [] []
  | blanks {g h t u : Text} : IsGap g → IsGap h → Alike t u → Alike (g ++ t) (h ++ u)
  | escape (c : Char) {t u : Text} : Alike t u → Alike ('\\' :: c :: t) ('\\' :: c :: u)
  /-- A backslash at the end of a text; the character it escapes was cut off. -/
  | backslash : Alike ['\\'] ['\\']
  | plain {c : Char} {t u : Text} : c ≠ '\\' → Alike t u → Alike (c :: t) (c :: u)

namespace Alike

variable {t u : Text}

theorem refl (t : Text) : Alike t t := by
  induction t using Identifier.unescape.induct with
  | case1 => exact nil
  | case2 c r ih => exact escape c ih
  | case3 c r hpair ih =>
    by_cases hc : c = '\\'
    · subst hc
      cases r with
      | nil => exact backslash
      | cons d r => exact absurd rfl (hpair d r rfl)
    · exact plain hc ih

theorem symm (h : Alike t u) : Alike u t := by
  induction h with
  | nil => exact nil
  | blanks hg hh _ ih => exact blanks hh hg ih
  | escape c _ ih => exact escape c ih
  | backslash => exact backslash
  | plain hc _ ih => exact plain hc ih

theorem eq_nil_iff (h : Alike t u) : t = [] ↔ u = [] := by
  cases h with
  | blanks hg hh _ => simp [hg.1, hh.1]
  | _ => simp

/-- A character that is neither a blank nor a backslash stands alone in both texts or in none. -/
theorem eq_singleton {c : Char} (h : Alike [c] u) (hblank : Text.isBlank c = false)
    (hslash : c ≠ '\\') : u = [c] := by
  generalize ht : [c] = t at h
  cases h with
  | nil => exact absurd ht (by simp)
  | blanks hg _ _ =>
    obtain ⟨b, g', rfl, hb⟩ := hg.exists_cons
    obtain ⟨rfl, -⟩ := List.cons.inj ht
    exact absurd hb (by simp [hblank])
  | escape d _ => exact absurd (List.cons.inj ht).1 hslash
  | backslash => exact absurd (List.cons.inj ht).1 hslash
  | plain _ hrest =>
    obtain ⟨rfl, rfl⟩ := List.cons.inj ht
    rw [hrest.eq_nil_iff.1 rfl]

theorem eq_singleton_iff {c : Char} (h : Alike t u) (hblank : Text.isBlank c = false)
    (hslash : c ≠ '\\') : t = [c] ↔ u = [c] := by
  constructor
  · rintro rfl
    exact h.eq_singleton hblank hslash
  · rintro rfl
    exact h.symm.eq_singleton hblank hslash

/-! ### Trimming -/

theorem trimLeft (h : Alike t u) : Alike t.trimLeft u.trimLeft := by
  induction h with
  | nil => exact nil
  | blanks hg hh _ ih =>
    rwa [Text.trimLeft_append_of_isBlank hg.2, Text.trimLeft_append_of_isBlank hh.2]
  | escape c h _ =>
    have hslash (r : Text) : Text.trimLeft ('\\' :: r) = '\\' :: r :=
      Text.trimLeft_cons_of_not_isBlank (by decide) r
    rw [hslash, hslash]
    exact escape c h
  | backslash => exact backslash
  | @plain c t u hc h ih =>
    by_cases hblank : Text.isBlank c = true
    · have hdrop (r : Text) : Text.trimLeft (c :: r) = r.trimLeft :=
        List.dropWhile_cons_of_pos hblank
      rwa [hdrop, hdrop]
    · rw [Text.trimLeft_cons_of_not_isBlank (by simpa using hblank),
        Text.trimLeft_cons_of_not_isBlank (by simpa using hblank)]
      exact plain hc h

theorem trimRight (h : Alike t u) : Alike t.trimRight u.trimRight := by
  induction h with
  | nil => exact nil
  | @blanks g h t u hg hh _ ih =>
    rw [Text.trimRight_append, Text.trimRight_append, Text.trimRight_eq_nil_iff.2 hg.2,
      Text.trimRight_eq_nil_iff.2 hh.2]
    by_cases hnil : t.trimRight = []
    · rw [if_pos hnil, if_pos (ih.eq_nil_iff.1 hnil)]
      exact nil
    · rw [if_neg hnil, if_neg fun hu ↦ hnil (ih.eq_nil_iff.2 hu)]
      exact blanks hg hh ih
  | @escape c t u h ih =>
    have hslash (r : Text) : Text.trimRight ('\\' :: r) = '\\' :: r.trimRight :=
      Text.trimRight_append_of_not_isBlank (s := ['\\']) (by simp; decide) r
    rw [hslash, hslash, Text.trimRight_cons, Text.trimRight_cons]
    -- an escaped blank at the end is dropped, and leaves its backslash behind
    by_cases hdrop : t.trimRight = [] ∧ Text.isBlank c = true
    · rw [if_pos hdrop, if_pos ⟨ih.eq_nil_iff.1 hdrop.1, hdrop.2⟩]
      exact backslash
    · rw [if_neg hdrop, if_neg fun hu ↦ hdrop ⟨ih.eq_nil_iff.2 hu.1, hu.2⟩]
      exact escape c ih
  | backslash => exact backslash
  | @plain c t u hc h ih =>
    rw [Text.trimRight_cons, Text.trimRight_cons]
    by_cases hdrop : t.trimRight = [] ∧ Text.isBlank c = true
    · rw [if_pos hdrop, if_pos ⟨ih.eq_nil_iff.1 hdrop.1, hdrop.2⟩]
      exact nil
    · rw [if_neg hdrop, if_neg fun hu ↦ hdrop ⟨ih.eq_nil_iff.2 hu.1, hu.2⟩]
      exact plain hc ih

theorem trim (h : Alike t u) : Alike t.trim u.trim := h.trimLeft.trimRight

/-! ### Words and fixed texts -/

/-- A run of characters of a class that has neither blanks nor the backslash. -/
theorem takeWhile_eq {p : Char → Bool} (hslash : p '\\' = false)
    (hblank : ∀ c, Text.isBlank c = true → p c = false) (h : Alike t u) :
    t.takeWhile p = u.takeWhile p ∧ Alike (t.dropWhile p) (u.dropWhile p) := by
  induction h with
  | nil => exact ⟨rfl, nil⟩
  | @blanks g h t u hg hh hrest _ =>
    have hstop {g : Text} (hg : IsGap g) (t : Text) :
        (g ++ t).takeWhile p = [] ∧ (g ++ t).dropWhile p = g ++ t := by
      obtain ⟨b, g', rfl, hb⟩ := hg.exists_cons
      simp [hblank b hb]
    rw [(hstop hg t).1, (hstop hg t).2, (hstop hh u).1, (hstop hh u).2]
    exact ⟨rfl, blanks hg hh hrest⟩
  | escape c hrest _ => simpa [hslash] using escape c hrest
  | backslash => simpa [hslash] using backslash
  | @plain c t u hc hrest ih =>
    by_cases hp : p c = true
    · simpa [hp] using ih
    · simpa [hp] using plain hc hrest

/-- A character is neither a blank nor a backslash. -/
def isSolid (c : Char) : Bool := c != '\\' && !Text.isBlank c

theorem after? {s : Text} (hs : s.all isSolid = true) (h : Alike t u) :
    Option.Rel Alike (Text.after? s t) (Text.after? s u) := by
  induction s generalizing t u with
  | nil => exact .some h
  | cons c s ih =>
    rw [List.all_cons, isSolid, Bool.and_eq_true, Bool.and_eq_true, bne_iff_ne,
      Bool.not_eq_true'] at hs
    obtain ⟨⟨hslash, hblank⟩, htail⟩ := hs
    have hnone {t : Text} (ht : c ∉ t.head?) : Text.after? (c :: s) t = none :=
      Text.after?_eq_none_of_head? (c := c) rfl ht
    cases h with
    | nil => exact .none
    | blanks hg hh _ =>
      rw [hnone (hg.not_mem_head? hblank _), hnone (hh.not_mem_head? hblank _)]
      exact .none
    | escape d _ =>
      rw [hnone (by simpa using hslash.symm), hnone (by simpa using hslash.symm)]
      exact .none
    | backslash =>
      rw [hnone (by simpa using hslash.symm)]
      exact .none
    | @plain d t u hd hrest =>
      by_cases hcd : d = c
      · subst hcd
        have hcons (r : Text) : Text.after? (d :: s) (d :: r) = Text.after? s r := by
          simp [Text.after?]
        rw [hcons, hcons]
        exact ih htail hrest
      · rw [hnone (by simpa using hcd), hnone (by simpa using hcd)]
        exact .none

/-! ### Lockstep -/

theorem stops_append_of_isGap {g : Text} (hg : IsGap g) (t : Text) : Element.Stops (g ++ t) := by
  obtain ⟨b, g', rfl, hb⟩ := hg.exists_cons
  exact Element.stops_cons.2 ⟨Text.not_isWordOrHyphen_of_isBlank hb,
    Text.ne_of_pos_of_neg hb (by decide), Text.ne_of_pos_of_neg hb (by decide)⟩

theorem isAside_of_isGap {g : Text} (hg : IsGap g) : IsAside (fun _ ↦ True) id g where
  stops _ := stops_append_of_isGap hg _
  isBracket_of_mem _ hc := Selector.isBracket_of_class (by decide) (hg.2 _ hc)
  reads _ _ _ :=
    Selector.namesFrom_append_of_isInert fun _ hc ↦ Piece.isInert_of_class (by decide) (hg.2 _ hc)

/-- Runs of blanks as asides, whatever follows them. -/
def gaps : Asides where
  SameEffect g h := IsGap g ∧ IsGap h
  Follows _ := True
  follows_of_prefix _ _ := trivial
  ne_nil h := by simp [h.1.1]
  isAside h := ⟨id, isAside_of_isGap h.1, isAside_of_isGap h.2⟩

/-- Alike texts are scanned in lockstep. -/
theorem lockstep (h : Alike t u) : Lockstep gaps t u := by
  induction h with
  | nil => exact .nil
  | blanks hg hh _ ih => exact .aside ⟨hg, hh⟩ trivial trivial ih
  | escape c _ ih => exact .escape c ih
  | backslash => exact .backslash
  | plain hc _ ih => exact .plain hc ih

theorem of_lockstep (h : Lockstep gaps t u) : Alike t u := by
  induction h with
  | nil => exact nil
  | aside hgh _ _ _ ih => exact blanks hgh.1 hgh.2 ih
  | escape c _ ih => exact escape c ih
  | backslash => exact backslash
  | plain hc _ ih => exact plain hc ih

/-- The same was read off two texts, and what is left of them is alike. -/
def SameRead {α : Type} (x y : α × Text) : Prop := x.1 = y.1 ∧ Alike x.2 y.2

theorem scan? (h : Alike t u) : Option.Rel SameRead (Identifier.scan? t) (Identifier.scan? u) := by
  rcases optionRel_iff.1 h.lockstep.scan? with ⟨ht, hu⟩ | ⟨x, y, ht, hu, hread, hrest⟩
  · rw [ht, hu]
    exact .none
  · rw [ht, hu]
    exact .some ⟨hread, of_lockstep hrest⟩

end Alike

end CssTypings.Stylesheet
