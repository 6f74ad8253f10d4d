import CssTypings.Proofs.Glob.Growth

/-!
# Searches where there is no directory

A search need not start from a directory. Escaped components lead to one place at most, whatever is
in the tree (`mem_reach_of_escape`), so below a root that is no directory nothing is found
(`files_of_not_directory`). If the root is a file, its escaped path is the pattern: it finds the
file and nothing else (`files_escape`), and with a suffix behind it, names in the directory of the
file (`files_escape_append`).
-/

namespace CssTypings.Glob

variable {tree : Tree} {here l next : Location} {part tail suffix : Text} {parts : List Text}
  {segments : List Segment} {root p : Path}

/-! ### Escaped components -/

/-- An escaped name leads to what has that name and nowhere else. -/
theorem Segment.eq_of_mem_step_escape (hpart : Path.IsName part)
    (h : next ∈ step tree here (ofText (escape part))) : next = here ++ [part] := by
  have hdir := find?_of_mem_step h
  rw [ofText, if_neg (escape_ne_deep part), any_isMagic_escape] at h
  split at h
  · rw [step, hdir] at h
    obtain ⟨name, hname, rfl⟩ := List.mem_map.1 h
    have hmatch := (Bool.and_eq_true _ _ ▸ (List.mem_filter.1 hname).2).2
    rw [wildcard_escape.1 hmatch]
  · next hmagic =>
    have hplain : escape part = part :=
      escape_of_not_isMagic (not_isMagic_of_any (Bool.eq_false_iff.2 hmagic))
    rw [step, hdir, hplain] at h
    simp only [enter_of_isName hpart] at h
    split at h
    · exact List.mem_singleton.1 h
    · exact absurd h List.not_mem_nil

/-- **Escaped components lead to one place at most.** -/
theorem mem_reach_of_escape (hparts : ∀ part ∈ parts, Path.IsName part)
    (h : l ∈ reach tree [here] (parts.map (fun part ↦ .ofText (escape part)) ++ segments)) :
    l ∈ reach tree [here ++ parts] segments := by
  induction parts generalizing here with
  | nil => rwa [List.append_nil]
  | cons part rest ih =>
    obtain ⟨hpart, hrest⟩ := List.forall_mem_cons.1 hparts
    rw [List.map_cons, List.cons_append, mem_reach_cons] at h
    obtain ⟨next, hnext, hl⟩ := h
    rw [Segment.eq_of_mem_step_escape hpart hnext] at hl
    have hassoc : here ++ part :: rest = (here ++ [part]) ++ rest := by simp
    rw [hassoc]
    exact ih hrest hl

variable (hroot : root.IsPlain) (habsolute : root.isAbsolute = true)
include hroot habsolute

/-- **Below what is no directory nothing is found.** -/
theorem files_of_not_directory (htail : '/' ∉ tail) (hdir : tree.find? root.parts ≠ some .directory)
    (here : Path) : files tree here (searchPattern root tail) = [] := by
  have hanchor := anchor_searchPattern hroot tail
  rw [files_of_steady (segments?_searchPattern hroot htail) (steady_searchPattern hroot tail)
    (by rw [hanchor]; exact of_decide_eq_true habsolute)]
  refine List.eq_nil_iff_forall_not_mem.2 fun p hp ↦ hdir ?_
  obtain ⟨l, hl, -⟩ := List.mem_map.1 hp
  obtain ⟨next, hnext, -⟩ := mem_reach_cons.1 (mem_reach_of_escape hroot (List.mem_filter.1 hl).1)
  exact Segment.find?_of_mem_step hnext

/-! ### The pattern of a file -/

omit habsolute

section File

variable (hne : root.parts ≠ []) (hslash : '/' ∉ suffix)
include hne

omit hroot in
theorem escape_text_append (suffix : Text) :
    escape root.text ++ suffix = root.anchor.text ++
      Text.join ['/'] (root.parts.dropLast.map escape ++ [escape root.name ++ suffix]) := by
  have hparts : root.parts.map escape = root.parts.dropLast.map escape ++ [escape root.name] := by
    conv_lhs => rw [← Path.dropLast_concat_name hne]
    simp
  rw [Path.text_eq hne, escape_append, escape_anchor, escape_join, hparts, List.append_assoc,
    Text.join_concat_append]

include hslash

theorem parts_escape_text_append :
    ∀ part ∈ root.parts.dropLast.map escape ++ [escape root.name ++ suffix],
      part ≠ [] ∧ '/' ∉ part := by
  have hescape : ∀ part ∈ root.parts, escape part ≠ [] ∧ '/' ∉ escape part := fun part hpart ↦
    ⟨escape_ne_nil (hroot part hpart).ne_nil,
      not_mem_escape (hroot part hpart).not_mem_slash (by decide) (by decide)⟩
  intro part hpart
  rcases List.mem_append.1 hpart with hpart | hpart
  · obtain ⟨name, hname, rfl⟩ := List.mem_map.1 hpart
    exact hescape name (List.dropLast_subset _ hname)
  · obtain ⟨hname, hname'⟩ := hescape _ (Path.name_mem hne)
    rw [List.mem_singleton.1 hpart, List.mem_append]
    exact ⟨List.append_ne_nil_of_left_ne_nil hname _, not_or.2 ⟨hname', hslash⟩⟩

/-- The search for a file opens directories that lead to the file. -/
theorem hasNull_opened_escape (hnull : root.hasNull = false) :
    (opened? (escape root.text ++ suffix)).any Path.hasNull = false := by
  let isPlain (part : Text) : Bool := !part.any isMagic
  let front : List Text := (root.anchor.text.map fun _ ↦ []) ++ root.parts.dropLast.map escape
  have hsplit : Text.splitOn '/' (escape root.text ++ suffix) =
      front ++ [escape root.name ++ suffix] := by
    rw [escape_text_append hne, splitOn_anchor, Text.splitOn_join (by simp) fun part hpart ↦
      (parts_escape_text_append hroot hne hslash part hpart).2, List.append_assoc]
  rw [opened?, List.span_eq_takeWhile_dropWhile]
  simp only
  split
  · rfl
  · next hwild =>
    -- the last component is not opened, whether or not it is a wildcard
    have hstop : (Text.splitOn '/' (escape root.text ++ suffix)).takeWhile isPlain <+: front := by
      by_contra hlong
      refine hwild (List.dropWhile_eq_nil_iff.2 ?_)
      rw [hsplit] at hlong ⊢
      obtain hall | hshort := List.prefix_concat_iff.1
        (List.takeWhile_prefix isPlain (l := front ++ [escape root.name ++ suffix]))
      · exact List.takeWhile_eq_self_iff.1 hall
      · exact absurd hshort hlong
    refine Bool.eq_false_iff.2 fun hany ↦ ?_
    obtain ⟨part, hpart, hzero⟩ := List.any_eq_true.1 hany
    have hpart := (List.mem_filter.1 hpart).1
    have hplain : isPlain part = true := List.mem_takeWhile_imp hpart
    rw [Path.hasNull, List.any_eq_false] at hnull
    rcases List.mem_append.1 (hstop.subset hpart) with hmem | hmem
    · obtain ⟨-, -, rfl⟩ := List.mem_map.1 hmem
      cases hzero
    · obtain ⟨name, hname, rfl⟩ := List.mem_map.1 hmem
      have hmagic : ∀ c ∈ name, isMagic c = false := by
        simpa [isPlain, any_isMagic_escape] using hplain
      rw [escape_of_not_isMagic hmagic] at hzero
      exact hnull name (List.dropLast_subset _ hname) hzero

theorem segments?_escape :
    segments? (escape root.text ++ suffix) =
      some (root.parts.dropLast.map (fun part ↦ .ofText (escape part)) ++
        [.ofText (escape root.name ++ suffix)]) := by
  rw [escape_text_append hne, segments?_join _ (by simp) (parts_escape_text_append hroot hne hslash)]
  simp [Function.comp_def]

theorem anchor_escape : Anchor.ofText (escape root.text ++ suffix) = root.anchor := by
  rw [escape_text_append hne]
  exact Path.anchor_ofText_append
    (Path.head?_join_ne_slash (parts_escape_text_append hroot hne hslash))

include habsolute

/-- **What the pattern of a file finds with a suffix behind it**: names in the directory of the
file. -/
theorem files_escape_append (hsound : tree.Sound) {entry : Entry}
    (hfind : tree.find? root.parts = some entry) (here : Path) :
    files tree here (escape root.text ++ suffix) =
      ((Segment.step tree root.parts.dropLast (.ofText (escape root.name ++ suffix))).filter fun l ↦
        (Place.ofLocation l).isFile tree root.anchor).map (Path.mk root.anchor) := by
  have hdir := hsound.find?_dropLast hfind
  have hparts : ∀ part ∈ root.parts.dropLast, Path.IsName part := fun part hpart ↦
    hroot part (List.dropLast_subset _ hpart)
  have hname := hroot _ (Path.name_mem hne)
  have hsteady : ∀ segment ∈ root.parts.dropLast.map (fun part ↦ .ofText (escape part)) ++
      [.ofText (escape root.name ++ suffix)], Segment.IsSteady segment := by
    refine List.forall_mem_append.2 ⟨fun segment hsegment ↦ ?_, List.forall_mem_singleton.2 ?_⟩
    · obtain ⟨part, hpart, rfl⟩ := List.mem_map.1 hsegment
      exact Segment.isSteady_escape (hparts part hpart)
    · refine Segment.isSteady_ofText fun hmagic ↦ ?_
      have hplain := (List.forall_mem_append.1 hmagic).1
      rw [escape_eq_self hplain]
      exact hname.append hslash
  have hanchor := anchor_escape hroot hne hslash
  rw [files_of_steady (segments?_escape hroot hne hslash) hsteady
    (by rw [hanchor]; exact of_decide_eq_true habsolute), hanchor,
    reach_escape hsound [] hparts hdir, List.nil_append]
  simp [reach]

end File

/-- **The pattern of a file finds the file** and nothing else. -/
theorem files_escape (habsolute : root.isAbsolute = true) (hsound : tree.Sound)
    (hfile : tree.hasFile root = .ok true) (here : Path) :
    files tree here (escape root.text) = [root] := by
  obtain ⟨hshort, hisFile⟩ := (hsound.hasFile_iff hroot.up_not_mem).1 hfile
  obtain ⟨entry, hfind, -⟩ := (Option.any_eq_true _ _).1 hisFile
  have hne := Tree.ne_nil_of_isFile hisFile
  have hfiles := files_escape_append hroot habsolute hne List.not_mem_nil hsound hfind here
  have hconcat := Path.dropLast_concat_name hne
  have hstep := Segment.step_escape hsound (hroot _ (Path.name_mem hne))
    (hsound.find?_dropLast hfind) (by rw [hconcat, hfind]; rfl)
  have hplace : (Place.ofLocation root.parts).isFile tree root.anchor = true :=
    Place.isFile_ofLocation.2 ⟨hshort, hisFile⟩
  rw [List.append_nil, List.append_nil, hstep, hconcat] at hfiles
  rw [hfiles]
  simp [hplace]

end CssTypings.Glob
