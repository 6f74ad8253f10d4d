import CssTypings.Proofs.Glob.Search

/-!
# Searches in trees that grow

A search goes from place to place, and only to places where something is. So what is found in a tree
is found in every tree that has its directories, as long as the file itself is there: `files_mono`.
This holds for any pattern, and the files that are found all start where the search starts
(`mem_files`).
-/

namespace CssTypings.Glob

variable {tree tree' : Tree} {here p : Path} {place origin : Place} {next l : Location}
  {segment : Segment} {segments : List Segment} {pattern : Text}

/-! ### Growing trees -/

namespace Segment

/-- A component leads to whatever is still there. -/
theorem mem_step_mono {here : Location} (hsound' : tree'.Sound)
    (hdir : tree'.find? here = some .directory) (h : next ∈ segment.step tree here)
    (hfind : (tree'.find? next).isSome = true) : next ∈ segment.step tree' here := by
  have hhere := find?_of_mem_step h
  rw [step.eq_def, hhere] at h
  rw [step.eq_def, hdir]
  cases segment with
  | plain part =>
    simp only at h ⊢
    split at h
    · rw [List.mem_singleton] at h
      rw [← h, if_pos hfind]
      exact List.mem_singleton_self next
    · cases h
  | wild pattern =>
    obtain ⟨name, hname, rfl⟩ := List.mem_map.1 h
    obtain ⟨-, hmatch⟩ := List.mem_filter.1 hname
    exact List.mem_map.2 ⟨name, List.mem_filter.2 ⟨hsound'.mem_names.2 hfind, hmatch⟩, rfl⟩
  | deep =>
    rcases List.mem_cons.1 h with rfl | hbelow
    · exact List.mem_cons_self
    · obtain ⟨rest, hrest, rfl, hvisible, -⟩ := mem_below.1 hbelow
      obtain ⟨entry, hentry⟩ := Option.isSome_iff_exists.1 hfind
      refine List.mem_cons_of_mem _ (mem_below.2 ⟨rest, hrest, rfl, hvisible, entry, ?_⟩)
      exact Tree.mem_of_find? (by simp [hrest]) hentry

end Segment

/-- **Components lead to whatever is still there**, by the directories that are still there. -/
theorem places_mono (hsound' : tree'.Sound)
    (hdirs : ∀ l, tree.find? l = some .directory → tree'.find? l = some .directory)
    (h : place ∈ places tree [origin] segments)
    (hfind : (tree'.find? place.location).isSome = true) : place ∈ places tree' [origin] segments := by
  induction segments generalizing origin with
  | nil => exact h
  | cons segment rest ih =>
    obtain ⟨next, hnext, hplace⟩ := mem_places_cons.1 h
    obtain ⟨location, hlocation, rfl⟩ := Place.mem_next.1 hnext
    have hdir := hdirs _ (Segment.find?_of_mem_step hlocation)
    have hthere : (tree'.find? location).isSome = true := by
      cases rest with
      | nil => rwa [List.mem_singleton.1 hplace] at hfind
      | cons second rest =>
        -- the search went on from here, so there is a directory
        obtain ⟨_, hsecond, -⟩ := mem_places_cons.1 hplace
        obtain ⟨_, hsecond, -⟩ := Place.mem_next.1 hsecond
        rw [hdirs _ (Segment.find?_of_mem_step hsecond)]
        rfl
    have hlocation' := Segment.mem_step_mono hsound' hdir hlocation hthere
    exact mem_places_cons.2 ⟨_, Place.mem_next.2 ⟨location, hlocation', rfl⟩, ih hplace⟩

/-! ### Files that are found -/

theorem mem_files :
    p ∈ files tree here pattern ↔
      ∃ segments spelled, segments? pattern = some segments ∧
        p.anchor = (start here pattern).anchor ∧
        ⟨spelled, p.parts⟩ ∈ places tree [⟨[], (start here pattern).parts⟩] segments ∧
        Path.IsShort ⟨Anchor.ofText pattern, spelled⟩ ∧
        (tree.find? p.parts).any Entry.isFile = true := by
  cases hsegments : segments? pattern with
  | none => simp [files, hsegments]
  | some segments =>
    rw [files_eq hsegments]
    simp only [List.mem_map, List.mem_filter, Option.some.injEq, exists_and_left, exists_eq_left',
      Place.isFile, Bool.and_eq_true, ← Path.isShort_iff]
    constructor
    · rintro ⟨⟨spelled, l⟩, ⟨hplace, hshort, hfile⟩, rfl⟩
      exact ⟨rfl, spelled, hplace, hshort, hfile⟩
    · rintro ⟨hanchor, spelled, hplace, hshort, hfile⟩
      exact ⟨⟨spelled, p.parts⟩, ⟨hplace, hshort, hfile⟩, by rw [← hanchor]⟩

theorem anchor_of_mem_files (h : p ∈ files tree here pattern) :
    p.anchor = (start here pattern).anchor := by
  obtain ⟨-, -, -, hanchor, -⟩ := mem_files.1 h
  exact hanchor

theorem isAbsolute_of_mem_files (habsolute : here.isAbsolute = true)
    (h : p ∈ files tree here pattern) : p.isAbsolute = true := by
  have hanchor := anchor_of_mem_files h
  have hstart : (start here pattern).isAbsolute = true := by
    rw [start]
    split
    · exact habsolute
    · next hne => exact decide_eq_true hne
  rwa [Path.isAbsolute, hanchor]

theorem isFile_of_mem_files (h : p ∈ files tree here pattern) :
    (tree.find? p.parts).any Entry.isFile = true := by
  obtain ⟨-, -, -, -, -, -, hfile⟩ := mem_files.1 h
  exact hfile

/-- **Whatever an absolute pattern finds can be asked about**, since its path is no longer than the
one that the pattern spells. -/
theorem isShort_of_mem_files (habsolute : Anchor.ofText pattern ≠ .relative)
    (h : p ∈ files tree here pattern) : p.IsShort := by
  obtain ⟨segments, spelled, -, hanchor, hplace, hshort, hfile⟩ := mem_files.1 h
  rw [start_of_ne_relative habsolute] at hanchor hplace
  have hsub := sublist_of_mem_places hplace (List.Sublist.refl _)
  obtain ⟨anchor, parts⟩ := p
  obtain rfl : anchor = Anchor.ofText pattern := hanchor
  exact hshort.of_sublist hsub (Tree.ne_nil_of_isFile hfile)

/-- Files that are found at one place are the same. -/
theorem eq_of_mem_files {q : Path} (hp : p ∈ files tree here pattern)
    (hq : q ∈ files tree' here pattern) (hparts : p.parts = q.parts) : p = q := by
  have hanchor := anchor_of_mem_files hp
  have hanchor' := anchor_of_mem_files hq
  obtain ⟨a, parts⟩ := p
  obtain ⟨b, parts'⟩ := q
  obtain rfl : parts = parts' := hparts
  rw [show a = b from hanchor.trans hanchor'.symm]

/-- What a pattern with a wildcard at the end finds has a name that matches it. -/
theorem exists_name_of_mem_files {w : Text}
    (hsegments : segments? pattern = some (segments ++ [.wild w]))
    (h : p ∈ files tree here pattern) :
    ∃ directory name, p.parts = directory ++ [name] ∧ wildcard w name = true := by
  obtain ⟨segments', spelled, hsegments', -, hplace, -⟩ := mem_files.1 h
  obtain rfl : segments ++ [.wild w] = segments' := Option.some.inj (hsegments.symm.trans hsegments')
  -- the last component leads to the file from some place
  have hlast : ∀ (segments : List Segment) (start place : Place),
      place ∈ places tree [start] (segments ++ [.wild w]) →
      ∃ here, place.location ∈ Segment.step tree here (.wild w) := by
    intro segments start place hplace
    rw [places, List.foldl_append, List.foldl_cons, List.foldl_nil] at hplace
    obtain ⟨before, -, hnext⟩ := List.mem_flatMap.1 hplace
    obtain ⟨l, hl, rfl⟩ := Place.mem_next.1 hnext
    exact ⟨_, hl⟩
  obtain ⟨directory, hstep⟩ := hlast _ _ _ hplace
  have hdir := Segment.find?_of_mem_step hstep
  rw [Segment.step, hdir] at hstep
  obtain ⟨name, hname, hparts⟩ := List.mem_map.1 hstep
  have hmatch := (List.mem_filter.1 hname).2
  exact ⟨directory, name, hparts.symm, (Bool.and_eq_true _ _ ▸ hmatch).2⟩

/-- **What was found is found again** in a tree that has the directories and the file. -/
theorem files_mono (hsound' : tree'.Sound)
    (hdirs : ∀ l, tree.find? l = some .directory → tree'.find? l = some .directory)
    (h : p ∈ files tree here pattern) (hfile : (tree'.find? p.parts).any Entry.isFile = true) :
    p ∈ files tree' here pattern := by
  obtain ⟨segments, spelled, hsegments, hanchor, hplace, hshort, -⟩ := mem_files.1 h
  have hfind : (tree'.find? p.parts).isSome = true := by
    obtain ⟨entry, hentry, -⟩ := (Option.any_eq_true _ _).1 hfile
    rw [hentry]
    rfl
  exact mem_files.2 ⟨segments, spelled, hsegments, hanchor, places_mono hsound' hdirs hplace hfind,
    hshort, hfile⟩

end CssTypings.Glob
