import CssTypings.Text.Basic
import Mathlib.Data.List.Basic
import Mathlib.Data.List.Flatten

/-!
# Parts between separators

A text is taken apart at a separator, and parts that have no separator in them are put together with
it. The one undoes the other (`splitOn_join`), also where each part has its separator behind it, as
lines have (`splitOn_flatMap_concat`). What is appended to a text can only change its last part
(`splitOn_append_of_not_mem`), unless it starts with a separator (`splitOn_append_cons`).
-/

namespace CssTypings.Text

variable {c : Char} {s t part : Text}

theorem splitOn_eq (c : Char) (t : Text) : splitOn c t = List.splitOn c t := by
  induction t with
  | nil => exact (List.splitOn_nil c).symm
  | cons d t ih =>
    have hstep := List.splitOnP_cons_eq_if_modifyHead (p := (· == c)) d t
    simp only [beq_iff_eq] at hstep
    rw [splitOn, ih]
    exact hstep.symm

theorem splitOn_ne_nil (c : Char) (t : Text) : splitOn c t ≠ [] := by
  rw [splitOn_eq]
  exact List.splitOn_ne_nil c t

theorem splitOn_of_not_mem (h : c ∉ t) : splitOn c t = [t] := by
  induction t with
  | nil => rfl
  | cons d t ih =>
    obtain ⟨hd, ht⟩ := not_or.1 (mt List.mem_cons.2 h)
    rw [splitOn, if_neg (Ne.symm hd), ih ht]
    rfl

/-- What holds no separator lengthens the last part. -/
theorem splitOn_append_of_not_mem (h : c ∉ t) (s : Text) :
    splitOn c (s ++ t) = (splitOn c s).dropLast ++ [(splitOn c s).getLastD [] ++ t] := by
  induction s with
  | nil => exact splitOn_of_not_mem h
  | cons d s ih =>
    obtain ⟨first, others, hparts⟩ := List.exists_cons_of_ne_nil (splitOn_ne_nil c s)
    rw [hparts] at ih
    rw [List.cons_append, splitOn, splitOn, ih, hparts]
    by_cases hd : d = c
    · simp [hd]
    · cases others <;> simp [hd]

theorem not_mem_of_mem_splitOn (h : part ∈ splitOn c t) : c ∉ part := by
  induction t generalizing part with
  | nil =>
    rw [List.mem_singleton.1 h]
    exact List.not_mem_nil
  | cons d t ih =>
    rw [splitOn] at h
    split at h
    · rcases List.mem_cons.1 h with rfl | h
      · exact List.not_mem_nil
      · exact ih h
    · next hd =>
      cases hparts : splitOn c t with
      | nil => exact absurd hparts (splitOn_ne_nil c t)
      | cons first others =>
        rw [hparts] at h ih
        rcases List.mem_cons.1 h with rfl | h
        · intro hc
          rcases List.mem_cons.1 hc with hc | hc
          · exact hd hc.symm
          · exact ih List.mem_cons_self hc
        · exact ih (List.mem_cons_of_mem _ h)

theorem splitOn_join {parts : List Text} (hne : parts ≠ []) (h : ∀ part ∈ parts, c ∉ part) :
    splitOn c (join [c] parts) = parts := by
  rw [splitOn_eq]
  exact List.splitOn_intercalate c h hne

theorem join_splitOn (c : Char) (t : Text) : join [c] (splitOn c t) = t := by
  rw [splitOn_eq]
  exact List.intercalate_splitOn c

theorem join_append_singleton (s : Text) {parts : List Text} (hne : parts ≠ []) (part : Text) :
    join s (parts ++ [part]) = join s parts ++ s ++ part := by
  induction parts with
  | nil => exact absurd rfl hne
  | cons first others ih =>
    cases others with
    | nil => simp [join]
    | cons second others =>
      have hrest := ih (by simp)
      simp only [join, List.cons_append, List.intercalate_cons_cons] at hrest ⊢
      rw [hrest]
      simp

/-- Every part but the first has a separator in front of it. -/
theorem join_cons (s part : Text) (parts : List Text) :
    join s (part :: parts) = part ++ parts.flatMap (s ++ ·) := by
  induction parts generalizing part with
  | nil => simp [join]
  | cons second parts ih =>
    rw [join, List.intercalate_cons_cons, ← join, ih, List.flatMap_cons]
    simp only [List.append_assoc]

/-- With a separator in front, every part of a text has one. -/
theorem cons_eq_flatMap_splitOn (c : Char) (t : Text) :
    c :: t = (splitOn c t).flatMap (c :: ·) := by
  obtain ⟨first, others, hparts⟩ := List.exists_cons_of_ne_nil (splitOn_ne_nil c t)
  have hjoin := join_splitOn c t
  rw [hparts, join_cons] at hjoin
  rw [hparts, List.flatMap_cons, ← hjoin]
  rfl

/-- Every part but the last has a separator behind it. -/
theorem join_concat (s part : Text) (parts : List Text) :
    join s (parts ++ [part]) = parts.flatMap (· ++ s) ++ part := by
  induction parts with
  | nil => simp [join]
  | cons first parts ih =>
    obtain ⟨second, others, hparts⟩ := List.exists_cons_of_ne_nil (l := parts ++ [part]) (by simp)
    rw [hparts] at ih
    rw [List.cons_append, hparts, join, List.intercalate_cons_cons, ← join, ih, List.flatMap_cons]
    simp only [List.append_assoc]

/-- Without some of the parts the text is shorter. -/
theorem join_sublist {parts parts' : List Text} (h : List.Sublist parts parts') (s : Text) :
    List.Sublist (join s parts) (join s parts') := by
  cases h with
  | slnil => exact List.Sublist.refl _
  | @cons _ parts' first h =>
    have hbehind := h.flatMap (s ++ ·)
    cases parts with
    | nil => exact List.nil_sublist _
    | cons part parts =>
      rw [join_cons, join_cons]
      rw [List.flatMap_cons, List.append_assoc] at hbehind
      exact ((List.sublist_append_right s _).trans hbehind).trans (List.sublist_append_right first _)
  | cons_cons first h =>
    rw [join_cons, join_cons]
    exact List.Sublist.append_left (h.flatMap (s ++ ·)) first

/-- A separator between two texts separates their parts. -/
theorem splitOn_append_cons (s t : Text) :
    splitOn c (s ++ c :: t) = splitOn c s ++ splitOn c t := by
  induction s with
  | nil => simp [splitOn]
  | cons d s ih =>
    obtain ⟨first, others, hparts⟩ := List.exists_cons_of_ne_nil (splitOn_ne_nil c s)
    rw [List.cons_append, splitOn, splitOn, ih, hparts]
    by_cases hd : d = c <;> simp [hd]

/-- Between two texts, parts with a separator before each of them and behind the last one are parts
of the whole. -/
theorem splitOn_flatMap_cons {parts : List Text} (h : ∀ part ∈ parts, c ∉ part) (s t : Text) :
    splitOn c (s ++ (parts.flatMap (c :: ·) ++ c :: t)) =
      splitOn c s ++ (parts ++ splitOn c t) := by
  induction parts generalizing s with
  | nil => exact splitOn_append_cons s t
  | cons part parts ih =>
    obtain ⟨hpart, hparts⟩ := List.forall_mem_cons.1 h
    rw [List.flatMap_cons, List.append_assoc, List.cons_append, splitOn_append_cons, ih hparts,
      splitOn_of_not_mem hpart]
    rfl

/-- What is appended to a joined text is appended to its last part. -/
theorem join_concat_append (s : Text) (parts : List Text) (part t : Text) :
    join s (parts ++ [part]) ++ t = join s (parts ++ [part ++ t]) := by
  rw [join_concat, join_concat, List.append_assoc]

/-- Lines are read back, and behind the end of the last line there is an empty part. -/
theorem splitOn_flatMap_concat {parts : List Text} (h : ∀ part ∈ parts, c ∉ part) :
    splitOn c (parts.flatMap (· ++ [c])) = parts ++ [[]] := by
  induction parts with
  | nil => rfl
  | cons part parts ih =>
    obtain ⟨hpart, hparts⟩ := List.forall_mem_cons.1 h
    rw [List.flatMap_cons, List.append_assoc, List.singleton_append, splitOn_append_cons,
      splitOn_of_not_mem hpart, ih hparts]
    rfl

end CssTypings.Text
