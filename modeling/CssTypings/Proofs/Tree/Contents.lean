import CssTypings.Proofs.Tree.Changes

/-!
# Trees with the same contents

Two trees agree at a location if the same thing is there, whenever it was written (`AgreeAt`). A
path that is followed through locations at which they agree leads to the same location in both, and
goes wrong for the same reason (`follow_agreeAt`). So it has the same target (`target_agreeAt`).

Two trees have the same contents if they agree everywhere (`SameContents`). If they agree outside
some places and have the same directories (`SameOutside`), a path that leads to none of these places
leads to the same contents in both, although it may be followed through one of them: what is no
directory is no way in either of the trees (`SameOutside.look`).
-/

namespace CssTypings

/-- The contents of a file; a directory has none. -/
def Entry.contents : Entry → Option Bytes
  | .directory => none
  | .file bytes _ => some bytes

namespace Tree

variable {tree tree' tree'' : Tree} {here location : Location} {parts : List Text} {p : Path}
  {places : Set Location}

/-- The trees have the same thing at the location, whenever it was written. -/
def AgreeAt (tree tree' : Tree) (l : Location) : Prop :=
  (tree.find? l).map Entry.contents = (tree'.find? l).map Entry.contents

/-- The locations that components lead through, and the one that they lead to. -/
def way (here : Location) : List Text → List Location
  | [] => [here]
  | part :: rest => here :: way (enter here part) rest

theorem mem_way_of_follow {entry : Option Entry}
    (h : tree.follow here parts = .ok (location, entry)) : location ∈ way here parts := by
  induction parts generalizing here with
  | nil =>
    obtain ⟨rfl, -⟩ := Prod.mk.inj (Except.ok.inj h)
    exact List.mem_singleton_self _
  | cons part rest ih => exact List.mem_cons_of_mem _ (ih (follow_cons_eq_ok.1 h).2.2)

theorem mem_way_of_target (h : tree.target p = .ok location) : location ∈ way [] p.parts := by
  obtain ⟨entry, hwalk, -⟩ := target_eq_ok.1 h
  exact mem_way_of_follow (walk_eq_ok.1 hwalk).2.2

/-- Without `..` the way leads down. -/
theorem prefix_of_mem_way (hup : Path.up ∉ parts) (h : location ∈ way here parts) :
    location <+: here ++ parts := by
  induction parts generalizing here with
  | nil =>
    rw [List.mem_singleton.1 h]
    exact List.prefix_append _ _
  | cons part rest ih =>
    obtain ⟨hpart, hrest⟩ := not_or.1 (mt List.mem_cons.2 hup)
    have henter : enter here part = here ++ [part] := if_neg (Ne.symm hpart)
    rcases List.mem_cons.1 h with rfl | h
    · exact List.prefix_append _ _
    · rw [henter] at h
      simpa using ih hrest h

/-! ### Agreement on the way -/

theorem AgreeAt.find?_directory (h : AgreeAt tree tree' location)
    (hdir : tree.find? location = some .directory) : tree'.find? location = some .directory := by
  rw [AgreeAt, hdir] at h
  cases hfind : tree'.find? location with
  | none => simp [hfind] at h
  | some entry =>
    cases entry with
    | directory => rfl
    | file bytes modified => simp [hfind, Entry.contents] at h

/-- Where a walk ends and what is there, without the time of its write. -/
def ending (found : Location × Option Entry) : Location × Option (Option Bytes) :=
  (found.1, found.2.map Entry.contents)

/-- **Paths lead to the same location** if the trees agree on the way. -/
theorem follow_agreeAt (h : ∀ l ∈ way here parts, AgreeAt tree tree' l) :
    (tree'.follow here parts).map ending = (tree.follow here parts).map ending := by
  induction parts generalizing here with
  | nil =>
    have hhere : AgreeAt tree tree' here := h here (List.mem_singleton_self _)
    rw [AgreeAt] at hhere
    simp only [Tree.follow, Except.map, ending, hhere]
  | cons part rest ih =>
    obtain ⟨hhere, hrest⟩ := List.forall_mem_cons.1 h
    have hnext : AgreeAt tree tree' (enter here part) := by
      cases rest with
      | nil => exact hrest _ (List.mem_singleton_self _)
      | cons next rest => exact hrest _ List.mem_cons_self
    rw [AgreeAt] at hhere hnext
    cases hfind : tree.find? here with
    | none =>
      rw [hfind] at hhere
      have hfind' : tree'.find? here = none := by simpa using hhere.symm
      simp only [Tree.follow, hfind, hfind']
    | some entry =>
      rw [hfind] at hhere
      obtain ⟨entry', hfind', hcontents⟩ := Option.map_eq_some_iff.1 hhere.symm
      cases entry with
      | file bytes modified =>
        cases entry' with
        | directory => cases hcontents
        | file bytes' modified' => simp only [Tree.follow, hfind, hfind']
      | directory =>
        cases entry' with
        | file bytes' modified' => cases hcontents
        | directory =>
          have ih := ih hrest
          rw [enter] at hnext ih
          simp only [Tree.follow, hfind, hfind']
          generalize (if part = Path.up then here.dropLast else here ++ [part]) = next at hnext ih ⊢
          split
          · rfl
          · cases hn : tree.find? next with
            | none =>
              rw [hn] at hnext
              have hn' : tree'.find? next = none := by simpa using hnext.symm
              rw [hn']
              cases rest <;> rfl
            | some found =>
              rw [hn] at hnext
              obtain ⟨found', hn', -⟩ := Option.map_eq_some_iff.1 hnext.symm
              simp only [hn']
              exact ih

section AgreeAt

variable (h : ∀ l ∈ way [] p.parts, AgreeAt tree tree' l)
include h

/-- Walks go wrong for the same reason, or they end with the same contents at one location. -/
theorem walk_cases_agreeAt :
    (∃ fault, tree.walk p = .error fault ∧ tree'.walk p = .error fault) ∨
    ∃ l e e', tree.walk p = .ok (l, e) ∧ tree'.walk p = .ok (l, e') ∧
      e'.map Entry.contents = e.map Entry.contents := by
  have hfollow := follow_agreeAt h
  rw [walk, walk]
  by_cases hnull : p.hasNull = true
  · exact Or.inl ⟨_, if_pos hnull, if_pos hnull⟩
  · by_cases hlong : pathLimit < Utf8.size p.text
    · exact Or.inl ⟨_, (if_neg hnull).trans (if_pos hlong), (if_neg hnull).trans (if_pos hlong)⟩
    · simp only [if_neg hnull, if_neg hlong]
      cases hf : tree.follow [] p.parts with
      | error trouble =>
        cases hf' : tree'.follow [] p.parts with
        | error trouble' =>
          rw [hf, hf'] at hfollow
          cases hfollow
          exact Or.inl ⟨_, rfl, rfl⟩
        | ok found' =>
          rw [hf, hf'] at hfollow
          cases hfollow
      | ok found =>
        cases hf' : tree'.follow [] p.parts with
        | error trouble' =>
          rw [hf, hf'] at hfollow
          cases hfollow
        | ok found' =>
          obtain ⟨l, e⟩ := found
          obtain ⟨l', e'⟩ := found'
          rw [hf, hf'] at hfollow
          obtain ⟨rfl, hcontents⟩ := Prod.mk.inj (Except.ok.inj hfollow)
          exact Or.inr ⟨l', e, e', rfl, rfl, hcontents⟩

omit h in
theorem eq_directory {e e' : Option Entry} (h : e'.map Entry.contents = e.map Entry.contents) :
    e' = some .directory ↔ e = some .directory := by
  cases e with
  | none => simp_all
  | some entry =>
    obtain ⟨entry', rfl, hcontents⟩ := Option.map_eq_some_iff.1 h
    cases entry <;> cases entry' <;> simp_all [Entry.contents]

/-- **Writing to a path writes to the same location.** -/
theorem target_agreeAt : tree'.target p = tree.target p := by
  rw [target, target]
  rcases walk_cases_agreeAt h with ⟨fault, hwalk, hwalk'⟩ | ⟨l, e, e', hwalk, hwalk', hcontents⟩
  · rw [hwalk, hwalk']
  · rw [hwalk, hwalk']
    simp only [eq_directory hcontents]

theorem isFree_agreeAt (hfree : tree.IsFree p) : tree'.IsFree p := by
  intro l e' hwalk'
  rcases walk_cases_agreeAt h with ⟨fault, -, hwalk⟩ | ⟨_, e, _, hwalk, heq, hcontents⟩
  · cases hwalk.symm.trans hwalk'
  · obtain ⟨rfl, rfl⟩ := Prod.mk.inj (Except.ok.inj (heq.symm.trans hwalk'))
    rw [hfree _ _ hwalk] at hcontents
    simpa using hcontents

/-- What is at a path is the same but for the time of its write. -/
theorem look_agreeAt :
    (tree'.look p).map (Option.map Entry.contents) =
      (tree.look p).map (Option.map Entry.contents) := by
  rcases walk_cases_agreeAt h with ⟨fault, hwalk, hwalk'⟩ | ⟨l, e, e', hwalk, hwalk', hcontents⟩
  · rw [Tree.look, Tree.look, hwalk, hwalk']
  · rw [look_of_walk hwalk, look_of_walk hwalk']
    exact congrArg Except.ok hcontents

end AgreeAt

/-! ### Agreement everywhere -/

/-- The trees hold the same things, whenever their files were written. -/
def SameContents (tree tree' : Tree) : Prop :=
  ∀ l, (tree.find? l).map Entry.contents = (tree'.find? l).map Entry.contents

namespace SameContents

theorem refl (tree : Tree) : SameContents tree tree := fun _ ↦ rfl

theorem symm (h : SameContents tree tree') : SameContents tree' tree := fun l ↦ (h l).symm

theorem sameDirectories (h : SameContents tree tree') : SameDirectories tree tree' :=
  fun l ↦ ⟨AgreeAt.find?_directory (h l), AgreeAt.find?_directory (h.symm l)⟩

theorem target_eq (h : SameContents tree tree') (p : Path) : tree'.target p = tree.target p :=
  target_agreeAt fun l _ ↦ h l

theorem isFree (h : SameContents tree tree') (hfree : tree.IsFree p) : tree'.IsFree p :=
  isFree_agreeAt (fun l _ ↦ h l) hfree

theorem look (h : SameContents tree tree') (p : Path) :
    (tree'.look p).map (Option.map Entry.contents) =
      (tree.look p).map (Option.map Entry.contents) :=
  look_agreeAt fun l _ ↦ h l

end SameContents

/-! ### Agreement outside some places -/

/-- The trees have the same directories, and the same things outside the places. -/
structure SameOutside (places : Set Location) (tree tree' : Tree) : Prop where
  directories : SameDirectories tree tree'
  agreeAt : ∀ l ∉ places, AgreeAt tree tree' l

namespace SameOutside

theorem of_sameContents (h : SameContents tree tree') (places : Set Location) :
    SameOutside places tree tree' :=
  ⟨h.sameDirectories, fun l _ ↦ h l⟩

/-- Files may be written at the places in one of the trees. -/
theorem of_wroteAt (h : SameOutside places tree tree') (hwrote : WroteAt places tree tree'') :
    SameOutside places tree'' tree' := by
  refine ⟨fun l ↦ (hwrote.sameDirectories l).symm.trans (h.directories l), fun l hl ↦ ?_⟩
  rw [AgreeAt, hwrote.find?_eq hl]
  exact h.agreeAt l hl

/-- The same file may be written in both trees. -/
theorem stamped (h : SameOutside places tree tree') (hdir : tree.find? location ≠ some .directory)
    (hdir' : tree'.find? location ≠ some .directory) (bytes : Bytes) :
    SameOutside places (changeFile.stamped tree location bytes)
      (changeFile.stamped tree' location bytes) := by
  have hdirs := (wroteAt_stamped hdir bytes).sameDirectories
  have hdirs' := (wroteAt_stamped hdir' bytes).sameDirectories
  refine ⟨fun l ↦ (hdirs l).symm.trans ((h.directories l).trans (hdirs' l)), fun l hl ↦ ?_⟩
  rw [AgreeAt, find?_stamped (ne_nil_of_find? hdir), find?_stamped (ne_nil_of_find? hdir)]
  split
  · rfl
  · exact h.agreeAt l hl

/-- **What is at a path is the same** unless the path leads to one of the places. -/
theorem look (h : SameOutside places tree tree')
    (hp : ∀ l e, tree.walk p = .ok (l, e) → l ∉ places) :
    (tree'.look p).map (Option.map Entry.contents) =
      (tree.look p).map (Option.map Entry.contents) := by
  by_cases hok : ∃ l e, tree.walk p = .ok (l, e)
  · obtain ⟨l, e, hwalk⟩ := hok
    have hagree := h.agreeAt l (hp l e hwalk)
    rw [AgreeAt, ← find?_of_walk hwalk] at hagree
    rw [look_of_walk (walk_mono (fun l ↦ (h.directories l).1) hwalk), look_of_walk hwalk]
    exact congrArg Except.ok hagree.symm
  · rw [look_agree h.directories fun l e hwalk ↦ absurd ⟨l, e, hwalk⟩ hok]

theorem target_eq (h : SameOutside places tree tree') (hp : ∀ l ∈ way [] p.parts, l ∉ places) :
    tree'.target p = tree.target p :=
  target_agreeAt fun l hl ↦ h.agreeAt l (hp l hl)

theorem isFree (h : SameOutside places tree tree') (hp : ∀ l ∈ way [] p.parts, l ∉ places)
    (hfree : tree'.IsFree p) : tree.IsFree p :=
  isFree_agreeAt (fun l hl ↦ (h.agreeAt l (hp l hl)).symm) hfree

end SameOutside

end Tree

end CssTypings
