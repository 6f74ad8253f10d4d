import CssTypings.Text.Word
import Mathlib.Data.List.DropRight

/-!
# The two ends of a text

Scanners look at how a text begins, and trimming also at how it ends. This module holds what the
proofs about scanners share on both.

* **A blank is not a word character** (`not_isWord_of_isBlank`). Both classes are tables of ranges,
  so beyond ASCII this is the disjointness of two tables, which is decided.
* **A fixed text in front** is either taken off (`after?_append`) or missed already at its first
  character (`after?_eq_none_of_head?`).
* **Trimming looks at the two ends only.** Blanks in front are dropped (`trim_append_of_isBlank`),
  and the right end is described from the left (`trimRight_append`, `trimRight_cons`), since that is
  how every scanner reads.
-/

namespace CssTypings

theorem inRanges_eq_false_of_disjoint {a b : List (Nat × Nat)} {c : Char}
    (hab : ∀ r ∈ a, ∀ s ∈ b, r.2 < s.1 ∨ s.2 < r.1) (h : inRanges a c = true) :
    inRanges b c = false := by
  by_contra hb
  simp only [inRanges, List.any_eq_true, Bool.and_eq_true, decide_eq_true_eq,
    Bool.not_eq_false] at h hb
  obtain ⟨r, hr, hr₁, hr₂⟩ := h
  obtain ⟨s, hs, hs₁, hs₂⟩ := hb
  have := hab r hr s hs
  omega

namespace Text

/-! ### Blanks are not word characters -/

theorem not_isWord_of_isBlank {c : Char} (h : isBlank c = true) : isWord c = false := by
  by_cases hc : c.toNat < 0x80
  · -- among the characters of ASCII a blank is no greater than the space
    have hle : c.toNat ≤ 0x20 := by
      simp [isBlank, inRanges, blankRanges] at h
      omega
    have hword : ∀ n ≤ 0x20, isWord (Char.ofNat n) = false := by decide
    rw [← Char.ofNat_toNat c]
    exact hword _ hle
  · rw [isWord, if_neg hc]
    exact inRanges_eq_false_of_disjoint (by decide +kernel) h

theorem not_isWordOrHyphen_of_isBlank {c : Char} (h : isBlank c = true) :
    isWordOrHyphen c = false := by
  have hne : c ≠ '-' := by rintro rfl; exact absurd h (by decide)
  simp [isWordOrHyphen, not_isWord_of_isBlank h, hne]

theorem not_isBlank_of_isWordOrHyphen {c : Char} (h : isWordOrHyphen c = true) :
    isBlank c = false := by
  by_contra hb
  rw [not_isWordOrHyphen_of_isBlank (by simpa using hb)] at h
  exact absurd h (by decide)

theorem isWordOrHyphen_of_isLetter {c : Char} (h : isLetter c = true) :
    isWordOrHyphen c = true := by
  have hle : c.toNat < 0x80 := by
    simp only [isLetter, Bool.or_eq_true, Bool.and_eq_true, decide_eq_true_eq, Char.le_def,
      UInt32.le_iff_toNat_le] at h
    show c.val.toNat < 0x80
    rcases h with ⟨-, h⟩ | ⟨-, h⟩ <;> exact lt_of_le_of_lt h (by decide)
  simp [isWordOrHyphen, isWord, hle, h]

/-- Characters that a class tells apart are different. -/
theorem ne_of_pos_of_neg {p : Char → Bool} {c d : Char} (hc : p c = true) (hd : p d = false) :
    c ≠ d := by
  rintro rfl
  rw [hc] at hd
  exact absurd hd (by decide)

/-! ### How a text begins -/

/-- A text begins as its initial parts do. -/
theorem mem_head?_mono {s t : Text} (h : s <+: t) {c : Char} (hc : c ∈ s.head?) :
    c ∈ t.head? := by
  obtain ⟨r, rfl⟩ := h
  cases s with
  | nil => simp at hc
  | cons d s => exact hc

theorem after?_append (s t : Text) : after? s (s ++ t) = some t := by
  rw [after?, if_pos (List.isPrefixOf_iff_prefix.2 (List.prefix_append s t)), List.drop_left]

theorem after?_cons_cons (c : Char) (s t : Text) : after? (c :: s) (c :: t) = after? s t := by
  simp [after?]

theorem eq_append_of_after? {s t r : Text} (h : after? s t = some r) : t = s ++ r := by
  simp only [after?, Option.ite_none_right_eq_some, Option.some.injEq] at h
  obtain ⟨hinitial, rfl⟩ := h
  exact (List.prefix_iff_eq_append.1 (List.isPrefixOf_iff_prefix.1 hinitial)).symm

theorem after?_eq_none_of_head? {c : Char} {s t : Text} (hs : c ∈ s.head?) (ht : c ∉ t.head?) :
    after? s t = none := by
  rw [after?, if_neg]
  intro h
  exact ht (mem_head?_mono (List.isPrefixOf_iff_prefix.1 h) hs)

/-! ### Trimming on the left -/

theorem trimLeft_append_of_isBlank {b : Text} (hb : ∀ c ∈ b, isBlank c = true) (t : Text) :
    trimLeft (b ++ t) = trimLeft t :=
  List.dropWhile_append_of_pos hb

theorem trimLeft_cons_of_not_isBlank {c : Char} (hc : isBlank c = false) (t : Text) :
    trimLeft (c :: t) = c :: t :=
  List.dropWhile_cons_of_neg (by simp [hc])

/-! ### Trimming on the right -/

@[simp] theorem trimRight_nil : trimRight [] = [] := rfl

theorem trimRight_eq_nil_iff {t : Text} : trimRight t = [] ↔ ∀ c ∈ t, isBlank c = true :=
  List.rdropWhile_eq_nil_iff

/-- Whatever is in front of a text that does not vanish stays. -/
theorem trimRight_append (s t : Text) :
    trimRight (s ++ t) = if trimRight t = [] then trimRight s else s ++ trimRight t := by
  simp only [trimRight, List.reverse_append, List.dropWhile_append, List.isEmpty_iff,
    List.reverse_eq_nil_iff]
  split <;> simp

/-- **The recursion for the right end.** A character is dropped when it is blank and nothing behind
it stays. -/
theorem trimRight_cons (c : Char) (t : Text) :
    trimRight (c :: t) =
      if trimRight t = [] ∧ isBlank c = true then [] else c :: trimRight t := by
  rw [← List.singleton_append, trimRight_append]
  by_cases ht : trimRight t = []
  · rw [if_pos ht, ht]
    by_cases hc : isBlank c = true <;> simp [hc, trimRight]
  · simp [ht]

theorem trimRight_prefix_self (t : Text) : trimRight t <+: t := List.rdropWhile_prefix _ t

theorem trimRight_append_of_isBlank {b : Text} (hb : ∀ c ∈ b, isBlank c = true) (t : Text) :
    trimRight (t ++ b) = trimRight t := by
  rw [trimRight_append, if_pos (trimRight_eq_nil_iff.2 hb)]

/-- What is not blank stays, whatever follows it. -/
theorem trimRight_append_of_not_isBlank {s : Text} (hs : ∀ c ∈ s, isBlank c = false) (t : Text) :
    trimRight (s ++ t) = s ++ trimRight t := by
  induction s with
  | nil => rfl
  | cons c s ih =>
    obtain ⟨hc, hs⟩ := List.forall_mem_cons.1 hs
    rw [List.cons_append, trimRight_cons, if_neg (by simp [hc]), ih hs, List.cons_append]

/-- A text that does not end in a blank stays, whatever follows it. -/
theorem trimRight_append_of_getLast? {s : Text} (hs : ∀ c ∈ s.getLast?, isBlank c = false)
    (t : Text) : trimRight (s ++ t) = s ++ trimRight t := by
  rw [trimRight_append]
  split
  · next ht =>
    have hself : trimRight s = s := by
      refine List.rdropWhile_eq_self_iff.2 fun hne ↦ ?_
      simp [hs _ (List.getLast?_eq_some_getLast hne)]
    rw [ht, hself, List.append_nil]
  · rfl

/-- A run of a class without blanks is not shortened. -/
theorem takeWhile_trimRight {p : Char → Bool} (hp : ∀ c, isBlank c = true → p c = false) (t : Text) :
    (trimRight t).takeWhile p = t.takeWhile p := by
  induction t with
  | nil => rfl
  | cons c t ih =>
    rw [trimRight_cons]
    split
    · next h => rw [List.takeWhile_nil, List.takeWhile_cons_of_neg (by simp [hp c h.2])]
    · rw [List.takeWhile_cons, List.takeWhile_cons, ih]

theorem head?_any_trimRight {p : Char → Bool} (hp : ∀ c, isBlank c = true → p c = false) (t : Text) :
    (trimRight t).head?.any p = t.head?.any p := by
  cases t with
  | nil => rfl
  | cons c t =>
    rw [trimRight_cons]
    split
    · next h => simp [hp c h.2]
    · rfl

/-! ### Trimming at both ends -/

theorem trim_append_of_isBlank {b : Text} (hb : ∀ c ∈ b, isBlank c = true) (t : Text) :
    trim (b ++ t) = trim t := by
  rw [trim, trimLeft_append_of_isBlank hb, trim]

theorem trim_cons_of_not_isBlank {c : Char} (hc : isBlank c = false) (t : Text) :
    trim (c :: t) = c :: trimRight t := by
  rw [trim, trimLeft_cons_of_not_isBlank hc, trimRight_cons, if_neg (by simp [hc])]

/-- Blanks at the end may be dropped before. -/
theorem trim_trimRight (t : Text) : trim (trimRight t) = trim t := by
  obtain ⟨b, hb, ht⟩ : ∃ b : Text, (∀ c ∈ b, isBlank c = true) ∧ trimRight t ++ b = t :=
    ⟨t.rtakeWhile isBlank, fun _ ↦ List.mem_rtakeWhile_imp, List.rdropWhile_append_rtakeWhile⟩
  conv_rhs => rw [← ht]
  rw [trim, trim, trimLeft, trimLeft, List.dropWhile_append]
  split
  · next h =>
    have hnil : trimRight (b.dropWhile isBlank) = [] :=
      trimRight_eq_nil_iff.2 fun c hc ↦ hb c (List.dropWhile_subset _ hc)
    rw [List.isEmpty_iff.1 h, hnil, trimRight_nil]
  · rw [trimRight_append_of_isBlank hb]

/-- Trimming takes a contiguous part. -/
theorem trim_infix (t : Text) : trim t <:+: t :=
  (trimRight_prefix_self _).isInfix.trans (List.dropWhile_suffix _).isInfix

end Text

end CssTypings
