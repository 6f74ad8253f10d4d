import CssTypings.Glob.Expand
import CssTypings.Proofs.Tree.Places
import Mathlib.Data.List.Nodup

/-!
# Steps of a search

A search goes from place to place, one component of the pattern after the other. A component leads
nowhere twice (`Segment.nodup_step`), and where the components lead together is `reach`.

With each location comes the path by which the pattern spells it (`places`). The names that lead to
the location are among the components of that path (`sublist_of_mem_places`), so whatever is asked
by it can be asked by the location as well. Unless the pattern has components like `..`, the two are
the same (`places_of_steady`), and a search is a matter of locations only: `files_of_steady`.
-/

namespace CssTypings

variable {tree : Tree} {here l next : Location} {name part pattern : Text}

/-! ### Names in a directory -/

namespace Tree

/-- The last component of a location in a directory. -/
def nameIn? (here l : Location) : Option Text := if l.dropLast = here then l.getLast? else none

theorem nameIn?_eq_some : nameIn? here l = some name ↔ l = here ++ [name] := by
  rw [nameIn?]
  constructor
  · intro h
    split at h
    · next hdir => rw [← hdir, List.dropLast_append_getLast? _ h]
    · cases h
  · rintro rfl
    simp

theorem names_eq (tree : Tree) (here : Location) :
    tree.names here = (tree.entries.map Prod.fst).filterMap (nameIn? here) := by
  rw [names, List.filterMap_map]
  congr 1
  funext e
  simp only [Function.comp_apply, nameIn?]
  cases e.1.getLast? <;> simp

theorem mem_names : name ∈ tree.names here ↔ ∃ entry, (here ++ [name], entry) ∈ tree.entries := by
  simp [names_eq, nameIn?_eq_some]

theorem Sound.mem_names (h : tree.Sound) :
    name ∈ tree.names here ↔ (tree.find? (here ++ [name])).isSome = true := by
  rw [Tree.mem_names, Option.isSome_iff_exists]
  exact ⟨fun ⟨entry, hmem⟩ ↦ ⟨entry, h.find?_of_mem hmem⟩,
    fun ⟨entry, hfind⟩ ↦ ⟨entry, mem_of_find? (by simp) hfind⟩⟩

theorem Sound.nodup_names (h : tree.Sound) (here : Location) : (tree.names here).Nodup := by
  rw [names_eq]
  refine h.nodup.filterMap fun l l' name hl hl' ↦ ?_
  rw [nameIn?_eq_some.1 hl, nameIn?_eq_some.1 hl']

end Tree

namespace Glob

variable {segment : Segment} {segments : List Segment}

/-! ### Steps of a search -/

namespace Segment

theorem isHidden_iff : isHidden name = true ↔ name.head? = some '.' := by
  simp [isHidden]

theorem mem_below : l ∈ below tree here ↔
    ∃ rest, rest ≠ [] ∧ l = here ++ rest ∧ (∀ part ∈ rest, part.head? ≠ some '.') ∧
      ∃ entry, (l, entry) ∈ tree.entries := by
  simp only [below, List.mem_filterMap]
  constructor
  · rintro ⟨⟨location, entry⟩, hmem, h⟩
    split at h
    · next hcond =>
      cases h
      obtain ⟨hstart, hne, hall⟩ := hcond
      obtain ⟨rest, rfl⟩ := List.isPrefixOf_iff_prefix.1 hstart
      refine ⟨rest, ?_, rfl, ?_, entry, hmem⟩
      · rintro rfl
        exact hne (List.append_nil here)
      · intro part hpart hhead
        rw [List.drop_left] at hall
        have hvisible := List.all_eq_true.1 hall part hpart
        rw [isHidden_iff.2 hhead] at hvisible
        cases hvisible
    · cases h
  · rintro ⟨rest, hne, rfl, hall, entry, hmem⟩
    refine ⟨_, hmem, if_pos ⟨by simp, by simpa using hne, ?_⟩⟩
    rw [List.drop_left, List.all_eq_true]
    intro part hpart
    have hvisible : isHidden part ≠ true := fun h ↦ hall part hpart (isHidden_iff.1 h)
    simpa using hvisible

theorem nodup_below (h : tree.Sound) (here : Location) : (below tree here).Nodup := by
  have hbelow : below tree here = (tree.entries.map Prod.fst).filterMap fun l ↦
      if here.isPrefixOf l ∧ l ≠ here ∧ (l.drop here.length).all (!isHidden ·) then some l
      else none := by
    rw [below, List.filterMap_map]
    rfl
  rw [hbelow]
  refine h.nodup.filterMap fun l l' found hl hl' ↦ ?_
  split at hl <;> split at hl' <;> simp_all

theorem exists_of_mem_step_wild (h : l ∈ step tree here (.wild pattern)) :
    ∃ name, l = here ++ [name] := by
  rw [step.eq_def] at h
  split at h
  · obtain ⟨name, -, rfl⟩ := List.mem_map.1 h
    exact ⟨name, rfl⟩
  · exact absurd h List.not_mem_nil

/-- A component leads nowhere twice. -/
theorem nodup_step (h : tree.Sound) (here : Location) (segment : Segment) :
    (segment.step tree here).Nodup := by
  rw [step.eq_def]
  split
  · cases segment with
    | plain part =>
      simp only
      split
      · exact List.nodup_singleton _
      · exact List.nodup_nil
    | wild pattern =>
      refine ((h.nodup_names here).filter _).map fun name name' heq ↦ ?_
      simpa using heq
    | deep =>
      refine List.nodup_cons.2 ⟨fun hmem ↦ ?_, nodup_below h here⟩
      obtain ⟨rest, hrest, heq, -⟩ := mem_below.1 hmem
      exact hrest (by simpa using heq)
  · exact List.nodup_nil

theorem find?_of_mem_step (h : next ∈ segment.step tree here) :
    tree.find? here = some .directory := by
  rw [step.eq_def] at h
  split at h
  · assumption
  · cases h

/-! ### Spelled components -/

/-- A component that is spelled by what it adds to a location. -/
def IsSteady : Segment → Prop
  | plain part => Path.IsName part
  | wild _ | deep => True

theorem isSteady_ofText (h : (∀ c ∈ part, isMagic c = false) → Path.IsName part) :
    (ofText part).IsSteady := by
  rw [ofText]
  split
  · trivial
  · split
    · trivial
    · next hmagic =>
      refine h fun c hc ↦ Bool.eq_false_iff.2 fun hc' ↦ ?_
      exact hmagic (List.any_eq_true.2 ⟨c, hc, hc'⟩)

theorem enter_of_isName (h : Path.IsName part) (here : Location) :
    enter here part = here ++ [part] := by
  rw [enter, if_neg (not_or.2 ⟨h.ne_nil, h.ne_dot⟩), if_neg h.ne_up]

theorem IsSteady.eq_append (hsteady : segment.IsSteady) (h : next ∈ segment.step tree here) :
    next = here ++ segment.spelled here next := by
  have hdir := find?_of_mem_step h
  rw [step.eq_def, hdir] at h
  cases segment with
  | plain part =>
    simp only at h
    split at h
    · rw [List.mem_singleton.1 h, enter_of_isName hsteady]
      rfl
    · exact absurd h List.not_mem_nil
  | wild pattern =>
    obtain ⟨name, -, rfl⟩ := List.mem_map.1 h
    exact congrArg _ List.drop_left.symm
  | deep =>
    rcases List.mem_cons.1 h with rfl | hbelow
    · show next = next ++ next.drop next.length
      rw [List.drop_length, List.append_nil]
    · obtain ⟨rest, -, rfl, -⟩ := mem_below.1 hbelow
      exact congrArg _ List.drop_left.symm

/-- What a component adds to a location is spelled, and more than that at most. -/
theorem sublist_spelled {front : List Text} (h : next ∈ segment.step tree here)
    (hsub : here.Sublist front) : next.Sublist (front ++ segment.spelled here next) := by
  cases segment with
  | plain part =>
    have hdir := find?_of_mem_step h
    rw [step.eq_def, hdir] at h
    simp only at h
    split at h
    · rw [List.mem_singleton.1 h, enter, spelled]
      split
      · exact hsub.trans (List.sublist_append_left _ _)
      · split
        · exact ((List.dropLast_sublist _).trans hsub).trans (List.sublist_append_left _ _)
        · exact hsub.append (List.Sublist.refl _)
    · exact absurd h List.not_mem_nil
  | wild pattern =>
    obtain ⟨name, rfl⟩ := exists_of_mem_step_wild h
    rw [spelled, List.drop_left]
    exact hsub.append (List.Sublist.refl _)
  | deep =>
    have hdeep : IsSteady .deep := trivial
    have heq : next = here ++ next.drop here.length := hdeep.eq_append h
    rw [spelled, heq, List.drop_left]
    exact hsub.append (List.Sublist.refl _)

end Segment

/-! ### Where components lead -/

section Lead

variable {α σ : Type} {f : α → σ → List α} {x a : α} {s : σ} {steps : List σ}

/-- What steps lead to from several places, they lead to from one of them. -/
theorem mem_foldl_flatMap {starts : List α} :
    x ∈ steps.foldl (fun xs s ↦ xs.flatMap (f · s)) starts ↔
      ∃ a ∈ starts, x ∈ steps.foldl (fun xs s ↦ xs.flatMap (f · s)) [a] := by
  induction steps generalizing starts with
  | nil => simp
  | cons s rest ih =>
    simp only [List.foldl_cons, List.flatMap_singleton]
    rw [ih]
    constructor
    · rintro ⟨b, hb, hx⟩
      obtain ⟨a, ha, hab⟩ := List.mem_flatMap.1 hb
      exact ⟨a, ha, ih.2 ⟨b, hab, hx⟩⟩
    · rintro ⟨a, ha, hx⟩
      obtain ⟨b, hb, hx⟩ := ih.1 hx
      exact ⟨b, List.mem_flatMap.2 ⟨a, ha, hb⟩, hx⟩

theorem mem_foldl_flatMap_cons :
    x ∈ (s :: steps).foldl (fun xs s ↦ xs.flatMap (f · s)) [a] ↔
      ∃ b ∈ f a s, x ∈ steps.foldl (fun xs s ↦ xs.flatMap (f · s)) [b] := by
  rw [List.foldl_cons, List.flatMap_singleton, mem_foldl_flatMap]

end Lead

/-- Where components lead from some locations. -/
def reach (tree : Tree) (locations : List Location) (segments : List Segment) : List Location :=
  segments.foldl (fun locations segment ↦ locations.flatMap (segment.step tree ·)) locations

theorem mem_reach_cons :
    l ∈ reach tree [here] (segment :: segments) ↔
      ∃ next ∈ segment.step tree here, l ∈ reach tree [next] segments :=
  mem_foldl_flatMap_cons (f := fun here segment ↦ Segment.step tree here segment)

/-- Where components lead from some places. -/
def places (tree : Tree) (starts : List Place) (segments : List Segment) : List Place :=
  segments.foldl (fun places segment ↦ places.flatMap fun place ↦ place.next tree segment) starts

theorem Place.mem_next {place start : Place} :
    place ∈ start.next tree segment ↔ ∃ location ∈ segment.step tree start.location,
      ⟨start.spelled ++ segment.spelled start.location location, location⟩ = place :=
  List.mem_map

theorem mem_places_cons {place start : Place} :
    place ∈ places tree [start] (segment :: segments) ↔
      ∃ next ∈ start.next tree segment, place ∈ places tree [next] segments :=
  mem_foldl_flatMap_cons (f := fun start segment ↦ Place.next tree start segment)

/-- **Whatever leads to a location is spelled.** -/
theorem sublist_of_mem_places {place start : Place} (h : place ∈ places tree [start] segments)
    (hsub : start.location.Sublist start.spelled) : place.location.Sublist place.spelled := by
  induction segments generalizing start with
  | nil => rwa [List.mem_singleton.1 h]
  | cons segment rest ih =>
    obtain ⟨next, hnext, hplace⟩ := mem_places_cons.1 h
    obtain ⟨location, hlocation, rfl⟩ := Place.mem_next.1 hnext
    exact ih hplace (Segment.sublist_spelled hlocation hsub)

/-! ### Patterns without detours -/

/-- The place of a location that is spelled by the names that lead to it. -/
def Place.ofLocation (l : Location) : Place := ⟨l, l⟩

theorem Place.isFile_ofLocation {anchor : Anchor} :
    (Place.ofLocation l).isFile tree anchor = true ↔
      Path.IsShort ⟨anchor, l⟩ ∧ (tree.find? l).any Entry.isFile = true := by
  rw [Place.isFile, Bool.and_eq_true, ← Path.isShort_iff]
  rfl

/-- **Without detours every place is spelled by its location.** -/
theorem places_of_steady (h : ∀ segment ∈ segments, segment.IsSteady) (starts : List Location) :
    places tree (starts.map Place.ofLocation) segments =
      (reach tree starts segments).map Place.ofLocation := by
  induction segments generalizing starts with
  | nil => rfl
  | cons segment rest ih =>
    obtain ⟨hfirst, hrest⟩ := List.forall_mem_cons.1 h
    have hnext : ∀ l, (Place.ofLocation l).next tree segment =
        (segment.step tree l).map Place.ofLocation := by
      intro l
      refine List.map_congr_left fun next (hnext : next ∈ segment.step tree l) ↦ ?_
      show Place.mk (l ++ segment.spelled l next) next = ⟨next, next⟩
      rw [← hfirst.eq_append hnext]
    rw [places, List.foldl_cons, ← places, List.flatMap_map]
    simp only [hnext]
    rw [← List.map_flatMap, ih hrest, reach, reach, List.foldl_cons]

/-! ### Files that are found -/

/-- Where a search starts. -/
def start (here : Path) (pattern : Text) : Path :=
  if Anchor.ofText pattern = .relative then here else ⟨Anchor.ofText pattern, []⟩

theorem start_of_ne_relative (h : Anchor.ofText pattern ≠ .relative) (base : Path) :
    start base pattern = ⟨Anchor.ofText pattern, []⟩ := if_neg h

theorem files_eq (h : segments? pattern = some segments) (tree : Tree) (base : Path) :
    files tree base pattern =
      ((places tree [⟨[], (start base pattern).parts⟩] segments).filter
        (Place.isFile tree (Anchor.ofText pattern))).map
          fun place ↦ ⟨(start base pattern).anchor, place.location⟩ := by
  rw [files, h]
  rfl

/-- **The files that an absolute pattern without detours finds.** -/
theorem files_of_steady (h : segments? pattern = some segments)
    (hsteady : ∀ segment ∈ segments, segment.IsSteady) (habsolute : Anchor.ofText pattern ≠ .relative)
    (tree : Tree) (base : Path) :
    files tree base pattern =
      ((reach tree [[]] segments).filter fun l ↦
        (Place.ofLocation l).isFile tree (Anchor.ofText pattern)).map
          (Path.mk (Anchor.ofText pattern)) := by
  have hplaces : places tree ([[]].map Place.ofLocation) segments =
      (reach tree [[]] segments).map Place.ofLocation := places_of_steady hsteady [[]]
  rw [files_eq h, start_of_ne_relative habsolute]
  show ((places tree ([[]].map Place.ofLocation) segments).filter _).map _ = _
  rw [hplaces, List.filter_map, List.map_map]
  rfl

end Glob

end CssTypings
