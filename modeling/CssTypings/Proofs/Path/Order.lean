import CssTypings.Proofs.Path.Reading
import Mathlib.Data.List.Dedup
import Mathlib.Data.List.Lex
import Mathlib.Data.String.Basic

/-!
# The order of paths

Texts come one before the other as their lists of characters do in the lexicographic order, and
paths as their lists of components (`le_iff`). So sorting paths puts them in a linear order, and
different paths that start at the same place end up with strictly ascending components
(`pairwise_parts_sort`). Paths that start at different places do so as well, with the anchor as a
component, if they are read from texts: an anchor is then unlike any component (`ascending_sort`).
-/

namespace CssTypings

theorem Text.isBefore_eq (s t : Text) : Text.isBefore s t = decide (s < t) := by
  rw [isBefore, List.lex_eq_decide_lex]
  exact decide_eq_decide.2 (by simp)

namespace Path

theorem le_iff (p q : Path) : p.le q = true ↔ p.key ≤ q.key := by
  rw [le, List.lex_eq_decide_lex]
  simp only [Text.isBefore_eq, decide_eq_true_eq, Bool.not_eq_true', decide_eq_false_iff_not]
  show ¬ q.key < p.key ↔ p.key ≤ q.key
  exact not_lt

variable {paths : List Path} {p : Path}

@[simp] theorem mem_sort : p ∈ sort paths ↔ p ∈ paths := List.mem_mergeSort

theorem nodup_sort (h : paths.Nodup) : (sort paths).Nodup :=
  (List.mergeSort_perm paths le).nodup_iff.2 h

/-- Sorted paths are in order. -/
theorem pairwise_sort (paths : List Path) : (sort paths).Pairwise fun p q ↦ p.key ≤ q.key := by
  have htrans : ∀ p q r : Path, p.le q = true → q.le r = true → p.le r = true := by
    intro p q r hpq hqr
    rw [le_iff] at hpq hqr ⊢
    exact hpq.trans hqr
  have htotal : ∀ p q : Path, (p.le q || q.le p) = true := by
    intro p q
    rw [Bool.or_eq_true, le_iff, le_iff]
    exact le_total p.key q.key
  exact (List.pairwise_mergeSort htrans htotal paths).imp fun {p q} h ↦ (le_iff p q).1 h

/-- Different paths with one start are ordered by their components. -/
theorem parts_lt_of_key_le {q : Path} (hanchor : p.anchor = q.anchor) (hle : p.key ≤ q.key)
    (hne : p ≠ q) : p.parts < q.parts := by
  obtain ⟨a, parts⟩ := p
  obtain ⟨b, parts'⟩ := q
  obtain rfl : a = b := hanchor
  have hparts : parts ≤ parts' := by
    by_contra hlt
    have hkey : Path.key ⟨a, parts'⟩ < Path.key ⟨a, parts⟩ := by
      cases a with
      | relative => exact not_le.1 hlt
      | root => exact List.Lex.cons (not_le.1 hlt)
      | doubleRoot => exact List.Lex.cons (not_le.1 hlt)
    exact absurd hle (not_le.2 hkey)
  exact lt_of_le_of_ne hparts fun heq ↦ hne (congrArg (Path.mk a) heq)

section Anchor

variable (anchor : Anchor) (hanchor : ∀ p ∈ paths, p.anchor = anchor)
include hanchor

/-- **Sorted paths without repetitions** have ascending components. -/
theorem pairwise_parts_dedup_sort : (sort paths).dedup.Pairwise fun p q ↦ p.parts < q.parts := by
  have hle := (pairwise_sort paths).sublist (List.dedup_sublist (sort paths))
  refine (hle.and (List.nodup_dedup _)).imp_of_mem fun {p q} hp hq h ↦ ?_
  have hmem : ∀ p ∈ (sort paths).dedup, p.anchor = anchor := fun p hp ↦
    hanchor p (mem_sort.1 (List.mem_dedup.1 hp))
  exact parts_lt_of_key_le ((hmem p hp).trans (hmem q hq).symm) h.1 h.2

/-- **Different paths with one start are sorted by their components.** -/
theorem pairwise_parts_sort (hnodup : paths.Nodup) :
    (sort paths).Pairwise fun p q ↦ p.parts < q.parts := by
  have hsorted := pairwise_parts_dedup_sort anchor hanchor
  rwa [(nodup_sort hnodup).dedup] at hsorted

/-- Sorting depends on the members alone if there are no repetitions. -/
theorem sort_eq_dedup {others : List Path} (hnodup : others.Nodup)
    (hmem : ∀ p, p ∈ others ↔ p ∈ paths) : sort others = (sort paths).dedup := by
  have hperm : (sort others).Perm (sort paths).dedup := by
    refine (List.perm_ext_iff_of_nodup (nodup_sort hnodup) (List.nodup_dedup _)).2 fun p ↦ ?_
    rw [mem_sort, List.mem_dedup, mem_sort, hmem]
  have hanchor' : ∀ p ∈ others, p.anchor = anchor := fun p hp ↦ hanchor p ((hmem p).1 hp)
  exact hperm.eq_of_pairwise (fun p q _ _ hpq hqp ↦ absurd hqp (lt_asymm hpq))
    (pairwise_parts_sort anchor hanchor' hnodup) (pairwise_parts_dedup_sort anchor hanchor)

end Anchor

/-! ### Paths with different starts -/

theorem isAbsolute_iff_of_isProper (h : p.IsProper) :
    p.isAbsolute = true ↔ ∃ part ∈ p.key, '/' ∈ part := by
  obtain ⟨anchor, parts⟩ := p
  cases anchor with
  | relative =>
    refine iff_of_false (by simp [isAbsolute]) ?_
    rintro ⟨part, hpart, hslash⟩
    exact (h part hpart).not_mem_slash hslash
  | root | doubleRoot =>
    exact iff_of_true (by simp [isAbsolute]) ⟨_, List.mem_cons_self, by simp [Anchor.text]⟩

/-- Proper paths with the same components, the anchor among them, are the same. -/
theorem eq_of_key_eq {q : Path} (hp : p.IsProper) (hq : q.IsProper) (h : p.key = q.key) : p = q := by
  have habsolute : p.isAbsolute = true ↔ q.isAbsolute = true := by
    rw [isAbsolute_iff_of_isProper hp, isAbsolute_iff_of_isProper hq, h]
  obtain ⟨a, parts⟩ := p
  obtain ⟨b, parts'⟩ := q
  cases a <;> cases b <;> simp_all [key, isAbsolute, Anchor.text]

/-- The components ascend, the anchor being the first of an absolute path. -/
def Ascending (paths : List Path) : Prop := paths.Pairwise fun p q ↦ p.key < q.key

theorem ascending_sort (hnodup : paths.Nodup) (hproper : ∀ p ∈ paths, p.IsProper) :
    Ascending (sort paths) := by
  refine ((pairwise_sort paths).and (nodup_sort hnodup)).imp_of_mem fun {p q} hp hq h ↦ ?_
  exact lt_of_le_of_ne h.1 fun hkey ↦
    h.2 (eq_of_key_eq (hproper p (mem_sort.1 hp)) (hproper q (mem_sort.1 hq)) hkey)

theorem Ascending.nodup (h : Ascending paths) : paths.Nodup := by
  refine List.Pairwise.imp ?_ h
  rintro p q hlt rfl
  exact lt_irrefl p.key hlt

/-- Ascending paths with the same members are the same. -/
theorem Ascending.eq_of_mem_iff {others : List Path} (h : Ascending paths) (h' : Ascending others)
    (hmem : ∀ p, p ∈ paths ↔ p ∈ others) : paths = others :=
  ((List.perm_ext_iff_of_nodup h.nodup h'.nodup).2 hmem).eq_of_pairwise
    (fun _ _ _ _ hpq hqp ↦ absurd hqp (lt_asymm hpq)) h h'

/-- Paths are sorted into the order in which they ascend. -/
theorem Ascending.sort_eq {others : List Path} (h : Ascending others)
    (hproper : ∀ p ∈ others, p.IsProper) (hperm : paths.Perm others) : sort paths = others := by
  have hsort : Ascending (sort paths) :=
    ascending_sort (hperm.nodup_iff.2 h.nodup) fun p hp ↦ hproper p (hperm.mem_iff.1 hp)
  exact hsort.eq_of_mem_iff h fun p ↦ mem_sort.trans hperm.mem_iff

end Path

end CssTypings
