import CssTypings.Path.Absolute
import CssTypings.Proofs.Collect
import CssTypings.Proofs.Text.Parts
import CssTypings.Proofs.Tree.Changes
import CssTypings.Sources

/-!
# Places of paths

Where a path leads does not depend on the tree: if it leads anywhere, then to its place, which is
its components with every `..` taking away the one in front (`eq_place_of_walk`). Whether it leads
there does depend on the tree. For a path without `..` in a sound tree it is enough that something
is at the place and that no name is too long (`Sound.walk_eq_some`), for whatever is there stands in
directories.

So what can be learnt about a file from its path, its contents (`Sound.read_eq_ok`) and its stamp
(`Sound.stamp?_congr`), depends on nothing but what is at its place.
-/

namespace CssTypings

variable {tree tree' : Tree} {here location : Location} {parts : List Text} {p : Path}

/-- The place that a path leads to if it leads anywhere. -/
def Path.place (p : Path) : Location := collapse p.parts

theorem Path.place_of_isPlain (h : p.IsPlain) : p.place = p.parts :=
  collapseFrom_of_not_mem h.up_not_mem

/-- No name in the path is too long, nor is the path itself, and it can be asked about. -/
structure Path.IsShort (p : Path) : Prop where
  hasNull : p.hasNull = false
  text : ¬ Tree.pathLimit < Utf8.size p.text
  name : ∀ part ∈ p.parts, ¬ Tree.nameLimit < Utf8.size part

theorem Path.isShort_iff : p.IsShort ↔ Tree.withinLimits p = true := by
  simp only [Tree.withinLimits, Bool.and_eq_true, Bool.not_eq_true', decide_eq_true_eq,
    List.all_eq_true, ← Nat.not_lt]
  exact ⟨fun h ↦ ⟨⟨h.hasNull, h.text⟩, h.name⟩, fun h ↦ ⟨h.1.1, h.1.2, h.2⟩⟩

/-- A path with some of the components is short if the whole path is. -/
theorem Path.IsShort.of_sublist {anchor : Anchor} (h : IsShort ⟨anchor, parts⟩)
    {parts' : List Text} (hsub : parts'.Sublist parts) (hne : parts' ≠ []) :
    IsShort ⟨anchor, parts'⟩ := by
  have hsize : Utf8.size (Path.text ⟨anchor, parts'⟩) ≤ Utf8.size (Path.text ⟨anchor, parts⟩) := by
    have hne' : parts ≠ [] := fun hnil ↦ hne (List.sublist_nil.1 (hnil ▸ hsub))
    rw [Path.text_eq hne, Path.text_eq hne']
    have htext := (List.Sublist.refl anchor.text).append (Text.join_sublist hsub ['/'])
    exact (htext.flatMap String.utf8EncodeChar).length_le
  refine ⟨?_, fun hlong ↦ h.text (Nat.lt_of_lt_of_le hlong hsize), fun part hpart ↦
    h.name part (hsub.subset hpart)⟩
  have hnull := h.hasNull
  rw [Path.hasNull, List.any_eq_false] at hnull ⊢
  exact fun part hpart ↦ hnull part (hsub.subset hpart)

namespace Tree

/-! ### Where paths lead -/

theorem follow_eq_collapseFrom {entry : Option Entry}
    (h : tree.follow here parts = .ok (location, entry)) :
    location = Path.collapseFrom here.reverse parts := by
  induction parts generalizing here with
  | nil =>
    obtain ⟨rfl, -⟩ := Prod.mk.inj (Except.ok.inj h)
    exact (List.reverse_reverse here).symm
  | cons part rest ih =>
    obtain ⟨-, -, hrest⟩ := follow_cons_eq_ok.1 h
    rw [ih hrest, Path.collapseFrom, enter]
    by_cases hup : part = Path.up
    · rw [if_pos hup, if_pos hup, List.drop_one, List.tail_reverse]
    · rw [if_neg hup, if_neg hup, List.reverse_concat]

/-- **A path leads to its place** if it leads anywhere. -/
theorem eq_place_of_walk {entry : Option Entry} (h : tree.walk p = .ok (location, entry)) :
    location = p.place :=
  follow_eq_collapseFrom (walk_eq_ok.1 h).2.2

theorem eq_place_of_target (h : tree.target p = .ok location) : location = p.place := by
  obtain ⟨entry, hwalk, -⟩ := target_eq_ok.1 h
  exact eq_place_of_walk hwalk

theorem isFree_of_place (h : tree.find? p.place = none) : tree.IsFree p := by
  intro location entry hwalk
  rw [find?_of_walk hwalk, eq_place_of_walk hwalk, h]

/-! ### Whether they lead there -/

theorem short_of_follow {entry : Option Entry} (h : tree.follow here parts = .ok (location, entry)) :
    ∀ part ∈ parts, ¬ nameLimit < Utf8.size part := by
  induction parts generalizing here with
  | nil => exact fun part hpart ↦ absurd hpart List.not_mem_nil
  | cons first rest ih =>
    obtain ⟨-, hfirst, hrest⟩ := follow_cons_eq_ok.1 h
    exact List.forall_mem_cons.2 ⟨hfirst, ih hrest⟩

theorem isShort_of_walk {entry : Option Entry} (h : tree.walk p = .ok (location, entry)) :
    p.IsShort := by
  obtain ⟨hnull, htext, hfollow⟩ := walk_eq_ok.1 h
  exact ⟨hnull, htext, short_of_follow hfollow⟩

/-- Whatever is there is reached through directories. -/
theorem Sound.follow_eq_some (hsound : tree.Sound) (hup : Path.up ∉ parts)
    (hshort : ∀ part ∈ parts, ¬ nameLimit < Utf8.size part) {entry : Entry}
    (hfind : tree.find? (here ++ parts) = some entry) :
    tree.follow here parts = .ok (here ++ parts, some entry) := by
  induction parts generalizing here with
  | nil =>
    rw [List.append_nil] at hfind ⊢
    rw [follow, hfind]
  | cons part rest ih =>
    obtain ⟨hpart, hrest⟩ := not_or.1 (mt List.mem_cons.2 hup)
    obtain ⟨hfirst, hshort⟩ := List.forall_mem_cons.1 hshort
    have hdir : tree.find? here = some .directory :=
      hsound.find?_of_prefix hfind (List.prefix_append _ _) (by simp)
    have hnext : enter here part = here ++ [part] := if_neg (Ne.symm hpart)
    have hassoc : here ++ part :: rest = (here ++ [part]) ++ rest := by simp
    refine follow_cons_eq_ok.2 ⟨hdir, hfirst, ?_⟩
    rw [hnext, hassoc]
    exact ih hrest hshort (hassoc ▸ hfind)

/-- Whatever is there is reached, unless a name on the way is too long. -/
theorem Sound.follow_of_find? (hsound : tree.Sound) (hup : Path.up ∉ parts) {entry : Entry}
    (hfind : tree.find? (here ++ parts) = some entry) :
    tree.follow here parts = .ok (here ++ parts, some entry) ∨
      tree.follow here parts = .error .nameTooLong := by
  by_cases hshort : ∀ part ∈ parts, ¬ nameLimit < Utf8.size part
  · exact Or.inl (hsound.follow_eq_some hup hshort hfind)
  · refine Or.inr ?_
    induction parts generalizing here with
    | nil => exact absurd (fun part hpart ↦ absurd hpart List.not_mem_nil) hshort
    | cons part rest ih =>
      obtain ⟨hpart, hrest⟩ := not_or.1 (mt List.mem_cons.2 hup)
      have hdir : tree.find? here = some .directory :=
        hsound.find?_of_prefix hfind (List.prefix_append _ _) (by simp)
      have hnext : enter here part = here ++ [part] := if_neg (Ne.symm hpart)
      have hassoc : here ++ part :: rest = (here ++ [part]) ++ rest := by simp
      refine follow_cons_eq_long.2 ⟨hdir, ?_⟩
      by_cases hfirst : nameLimit < Utf8.size part
      · exact Or.inl hfirst
      · rw [hnext]
        refine Or.inr (ih hrest (hassoc ▸ hfind) fun hall ↦ hshort ?_)
        exact List.forall_mem_cons.2 ⟨hfirst, hall⟩

section Plain

variable (hsound : tree.Sound) (hplain : p.IsPlain)
include hsound hplain

/-- **A plain path leads to what is at its place** if it is short. -/
theorem Sound.walk_eq_some {entry : Entry} :
    tree.walk p = .ok (location, some entry) ↔
      p.IsShort ∧ location = p.parts ∧ tree.find? p.parts = some entry := by
  constructor
  · intro h
    have hlocation := eq_parts_of_walk hplain h
    exact ⟨isShort_of_walk h, hlocation, hlocation ▸ (find?_of_walk h).symm⟩
  · rintro ⟨hshort, rfl, hfind⟩
    exact walk_eq_ok.2 ⟨hshort.hasNull, hshort.text,
      hsound.follow_eq_some hplain.up_not_mem hshort.name (by simpa using hfind)⟩

theorem Sound.look_eq_some {entry : Entry} :
    tree.look p = .ok (some entry) ↔ p.IsShort ∧ tree.find? p.parts = some entry := by
  constructor
  · intro h
    obtain ⟨location, hwalk⟩ := exists_walk_of_look h
    obtain ⟨hshort, -, hfind⟩ := (hsound.walk_eq_some hplain).1 hwalk
    exact ⟨hshort, hfind⟩
  · rintro ⟨hshort, hfind⟩
    exact look_of_walk ((hsound.walk_eq_some hplain).2 ⟨hshort, rfl, hfind⟩)

/-- Where a path leads to nothing there is nothing, if the path can be asked about. -/
theorem Sound.find?_eq_none (hnull : p.hasNull = false) (h : tree.look p = .ok none) :
    tree.find? p.parts = none := by
  by_contra hsome
  obtain ⟨entry, hfind⟩ := Option.ne_none_iff_exists'.1 hsome
  rw [look_eq, hnull, if_neg Bool.false_ne_true] at h
  split at h
  · cases h
  · rw [← List.nil_append p.parts] at hfind
    rcases hsound.follow_of_find? hplain.up_not_mem hfind with hfollow | hfollow
    · rw [hfollow] at h
      cases h
    · rw [hfollow] at h
      cases h

theorem Sound.read_eq_ok {bytes : Bytes} :
    tree.read p = .ok bytes ↔
      p.IsShort ∧ ∃ modified, tree.find? p.parts = some (.file bytes modified) := by
  constructor
  · intro h
    rw [read] at h
    split at h
    · next location bytes' modified hwalk =>
      cases h
      obtain ⟨hshort, -, hfind⟩ := (hsound.walk_eq_some hplain).1 hwalk
      exact ⟨hshort, modified, hfind⟩
    · cases h
    · cases h
    · cases h
  · rintro ⟨hshort, modified, hfind⟩
    exact read_of_walk ((hsound.walk_eq_some hplain).2 ⟨hshort, rfl, hfind⟩)

end Plain

/-- **A path that does not go up leads to a file** if it is short and a file is at its place. -/
theorem Sound.hasFile_iff (hsound : tree.Sound) (hup : Path.up ∉ p.parts) :
    tree.hasFile p = .ok true ↔ p.IsShort ∧ (tree.find? p.parts).any Entry.isFile = true := by
  constructor
  · intro h
    obtain ⟨found, hlook, hfile⟩ := exists_of_map_eq_ok h
    obtain ⟨entry, rfl, -⟩ := (Option.any_eq_true _ _).1 hfile
    obtain ⟨location, hwalk⟩ := exists_walk_of_look hlook
    have hlocation : location = p.parts := by
      rw [eq_place_of_walk hwalk, Path.place, Path.collapse, Path.collapseFrom_of_not_mem hup]
      exact List.nil_append _
    rw [← hlocation, ← find?_of_walk hwalk]
    exact ⟨isShort_of_walk hwalk, hfile⟩
  · rintro ⟨hshort, hfile⟩
    obtain ⟨entry, hfind, hentry⟩ := (Option.any_eq_true _ _).1 hfile
    have hlook := (hsound.look_eq_some (isPlain_of_isFile hsound hfile)).2 ⟨hshort, hfind⟩
    rw [hasFile, hlook]
    exact congrArg Except.ok hentry

/-! ### Stamps -/

theorem stamp?_eq_some {stamp : Watch.Stamp} :
    tree.stamp? p = some stamp ↔ ∃ bytes modified,
      tree.look p = .ok (some (.file bytes modified)) ∧ ⟨bytes.length, modified⟩ = stamp := by
  rw [stamp?]
  constructor
  · intro h
    split at h
    · next bytes modified hlook => exact ⟨bytes, modified, hlook, Option.some.inj h⟩
    · cases h
  · rintro ⟨bytes, modified, hlook, rfl⟩
    rw [hlook]

/-- Every file with a short path has a stamp. -/
theorem Sound.exists_stamp? (hsound : tree.Sound) (hshort : p.IsShort)
    (hfile : (tree.find? p.parts).any Entry.isFile = true) : ∃ stamp, tree.stamp? p = some stamp := by
  obtain ⟨entry, hfind, hentry⟩ := (Option.any_eq_true _ _).1 hfile
  cases entry with
  | directory => cases hentry
  | file bytes modified =>
    have hlook := (hsound.look_eq_some (isPlain_of_isFile hsound hfile)).2 ⟨hshort, hfind⟩
    exact ⟨_, stamp?_eq_some.2 ⟨bytes, modified, hlook, rfl⟩⟩

/-- **The stamp of a path** is that of the file at its place. -/
theorem Sound.stamp?_congr (hsound : tree.Sound) (hsound' : tree'.Sound) (hplain : p.IsPlain)
    (h : tree'.find? p.parts = tree.find? p.parts) : tree'.stamp? p = tree.stamp? p := by
  refine Option.ext fun stamp ↦ ?_
  simp only [stamp?_eq_some, hsound.look_eq_some hplain,
    hsound'.look_eq_some hplain, h]

end Tree

end CssTypings
