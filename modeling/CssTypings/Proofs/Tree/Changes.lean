import CssTypings.Proofs.Tree.Walking
import Mathlib.Data.Set.Basic

/-!
# Trees that differ in written files

Conversions write files and do nothing else to a tree. `WroteAt places before after` says that at
most this happened, and only at some of the places: elsewhere everything is as it was, and where
something was written there was no directory before. The relation composes (`WroteAt.trans`), and
under it both trees have the same directories and files stay files.

A path is written to at its target (`target`), which is where it leads if no directory is there. So
the targets of paths are the same before and after (`WroteAt.target_eq`).
-/

namespace CssTypings.Tree

variable {tree before middle after : Tree} {places : Set Location} {location : Location}
  {p : Path}

/-- Files were written at some of the places, and nothing else happened. -/
def WroteAt (places : Set Location) (before after : Tree) : Prop :=
  ∀ l, after.find? l = before.find? l ∨
    l ∈ places ∧ before.find? l ≠ some .directory ∧
      ∃ bytes modified, after.find? l = some (.file bytes modified)

namespace WroteAt

theorem of_find?_eq (h : ∀ l, after.find? l = before.find? l) (places : Set Location) :
    WroteAt places before after :=
  fun l ↦ Or.inl (h l)

theorem refl (places : Set Location) (tree : Tree) : WroteAt places tree tree :=
  of_find?_eq (fun _ ↦ rfl) places

theorem mono {more : Set Location} (h : WroteAt places before after) (hsub : places ⊆ more) :
    WroteAt more before after := by
  intro l
  rcases h l with heq | ⟨hl, hdir, hfile⟩
  · exact Or.inl heq
  · exact Or.inr ⟨hsub hl, hdir, hfile⟩

theorem trans (h : WroteAt places before middle) (h' : WroteAt places middle after) :
    WroteAt places before after := by
  intro l
  rcases h' l with heq' | ⟨hl, hdir', hfile'⟩
  · rw [heq']
    exact h l
  · refine Or.inr ⟨hl, ?_, hfile'⟩
    rcases h l with heq | ⟨-, hdir, -⟩
    · rwa [← heq]
    · exact hdir

theorem find?_eq (h : WroteAt places before after) (hl : location ∉ places) :
    after.find? location = before.find? location := by
  rcases h location with heq | ⟨hmem, -⟩
  · exact heq
  · exact absurd hmem hl

theorem sameDirectories (h : WroteAt places before after) : SameDirectories before after := by
  intro l
  rcases h l with heq | ⟨-, hdir, bytes, modified, hfile⟩
  · rw [heq]
  · simp [hdir, hfile]

/-- What was a file still is one. -/
theorem isFile (h : WroteAt places before after)
    (hfile : (before.find? location).any Entry.isFile = true) :
    (after.find? location).any Entry.isFile = true := by
  rcases h location with heq | ⟨-, -, bytes, modified, hafter⟩
  · rwa [heq]
  · simp [hafter, Entry.isFile]

theorem look_eq (h : WroteAt places before after)
    (hp : ∀ l e, before.walk p = .ok (l, e) → l ∉ places) : after.look p = before.look p :=
  look_agree h.sameDirectories fun l e hwalk ↦ h.find?_eq (hp l e hwalk)

end WroteAt

/-! ### Targets -/

/-- The location that writing to a path writes to. -/
def target (tree : Tree) (p : Path) : Except Fault Location :=
  match tree.walk p with
  | .ok (location, entry) =>
    if entry = some .directory then .error (.trouble .isDirectory p) else .ok location
  | .error fault => .error fault

theorem target_eq_ok :
    tree.target p = .ok location ↔
      ∃ entry, tree.walk p = .ok (location, entry) ∧ entry ≠ some .directory := by
  rw [target]
  cases tree.walk p with
  | error fault => simp
  | ok found =>
    obtain ⟨l, entry⟩ := found
    by_cases hdir : entry = some .directory <;> simp [hdir]

theorem target_congr {tree' : Tree} (h : ∀ l, tree'.find? l = tree.find? l) (p : Path) :
    tree'.target p = tree.target p := by
  rw [target, target, walk_congr h]

theorem write_eq_target (tree : Tree) (p : Path) (bytes : Bytes) :
    tree.write p bytes = (tree.target p).map fun l ↦ changeFile.stamped tree l bytes := by
  rw [write_eq, target]
  cases tree.walk p with
  | error fault => rfl
  | ok found =>
    obtain ⟨l, entry⟩ := found
    by_cases hdir : entry = some .directory <;> simp [hdir, Except.map]

/-- The target of a path whose last component is a name. -/
theorem target_concat {name : Text} {directory : List Text} (hname : name ≠ Path.up)
    (hparts : p.parts = directory ++ [name]) :
    tree.target p =
      if p.hasNull then .error .nullCharacter
      else if pathLimit < Utf8.size p.text then .error (.trouble .nameTooLong p)
      else match tree.follow [] directory with
        | .ok (l, some .directory) =>
          if nameLimit < Utf8.size name then .error (.trouble .nameTooLong p)
          else if tree.find? (l ++ [name]) = some .directory then .error (.trouble .isDirectory p)
          else .ok (l ++ [name])
        | .ok (_, some (.file ..)) => .error (.trouble .notDirectory p)
        | .ok (_, none) => .error (.trouble .missing p)
        | .error trouble => .error (.trouble trouble p) := by
  rw [target, walk, hparts, follow_concat hname]
  by_cases hnull : p.hasNull = true
  · simp only [if_pos hnull]
  · by_cases hlong : pathLimit < Utf8.size p.text
    · simp only [if_neg hnull, if_pos hlong]
    · simp only [if_neg hnull, if_neg hlong]
      cases tree.follow [] directory with
      | error trouble => rfl
      | ok found =>
        obtain ⟨l, entry⟩ := found
        cases entry with
        | none => rfl
        | some entry =>
          cases entry with
          | file bytes modified => rfl
          | directory =>
            by_cases hsize : nameLimit < Utf8.size name
            · simp only [if_pos hsize, Except.mapError]
            · simp only [if_neg hsize, Except.mapError]

/-- Whether and why a path cannot be written to depends on the directories alone if the directory it
is in can be reached. -/
theorem target_agree {name : Text} {directory : List Text} {l : Location}
    (hdirs : SameDirectories tree after) (hname : name ≠ Path.up)
    (hparts : p.parts = directory ++ [name])
    (hdirectory : tree.follow [] directory = .ok (l, some .directory)) :
    after.target p = tree.target p := by
  have hfind : tree.find? l = some .directory := (find?_of_follow hdirectory).symm
  have hafter : after.follow [] directory = .ok (l, some .directory) := by
    rw [follow_mono (fun l ↦ (hdirs l).1) hdirectory, (hdirs l).1 hfind]
  rw [target_concat hname hparts, target_concat hname hparts, hdirectory, hafter]
  simp only [hdirs (l ++ [name])]

theorem find?_ne_of_target (h : tree.target p = .ok location) :
    tree.find? location ≠ some .directory := by
  obtain ⟨entry, hwalk, hdir⟩ := target_eq_ok.1 h
  rwa [← find?_of_walk hwalk]

theorem eq_parts_of_target (hp : p.IsPlain) (h : tree.target p = .ok location) :
    location = p.parts := by
  obtain ⟨entry, hwalk, -⟩ := target_eq_ok.1 h
  exact eq_parts_of_walk hp hwalk

theorem Sound.stamped_target (hsound : tree.Sound) (hp : p.IsProper)
    (h : tree.target p = .ok location) (bytes : Bytes) :
    (changeFile.stamped tree location bytes).Sound := by
  obtain ⟨entry, hwalk, hdir⟩ := target_eq_ok.1 h
  exact hsound.stamped hp hwalk hdir bytes

theorem read_stamped (h : tree.target p = .ok location) (bytes : Bytes) :
    (changeFile.stamped tree location bytes).read p = .ok bytes := by
  obtain ⟨entry, hwalk, hdir⟩ := target_eq_ok.1 h
  exact read_of_walk (walk_stamped hwalk hdir bytes)

theorem wroteAt_stamped (h : tree.find? location ≠ some .directory) (bytes : Bytes) :
    WroteAt {location} tree (changeFile.stamped tree location bytes) := by
  intro l
  rw [find?_stamped (ne_nil_of_find? h)]
  split
  · next heq =>
    subst heq
    exact Or.inr ⟨rfl, h, bytes, tree.clock, rfl⟩
  · exact Or.inl rfl

/-- **Targets stay.** Files that are written do not change where a path can be written to. -/
theorem WroteAt.target_eq_ok_iff (h : WroteAt places before after) :
    after.target p = .ok location ↔ before.target p = .ok location := by
  have hdirs := h.sameDirectories
  constructor
  · intro hafter
    obtain ⟨entry, hwalk, hdir⟩ := target_eq_ok.1 hafter
    have hwalk' := walk_mono (fun l ↦ (hdirs l).2) hwalk
    refine target_eq_ok.2 ⟨_, hwalk', fun heq ↦ hdir ?_⟩
    rw [find?_of_walk hwalk]
    exact (hdirs location).1 heq
  · intro hbefore
    obtain ⟨entry, hwalk, hdir⟩ := target_eq_ok.1 hbefore
    have hwalk' := walk_mono (fun l ↦ (hdirs l).1) hwalk
    refine target_eq_ok.2 ⟨_, hwalk', fun heq ↦ hdir ?_⟩
    rw [find?_of_walk hwalk]
    exact (hdirs location).2 heq

/-! ### Free paths -/

/-- Nothing is at the path. -/
def IsFree (tree : Tree) (p : Path) : Prop :=
  ∀ location entry, tree.walk p = .ok (location, entry) → entry = none

theorem isFree_iff :
    tree.IsFree p ↔ (tree.walk p).toOption.bind Prod.snd = none := by
  rw [IsFree]
  cases tree.walk p with
  | error fault => simp [Except.toOption]
  | ok found =>
    obtain ⟨l, e⟩ := found
    simp [Except.toOption]

instance (tree : Tree) (p : Path) : Decidable (tree.IsFree p) := decidable_of_iff _ isFree_iff.symm

theorem IsFree.find?_eq_none (h : tree.IsFree p) (htarget : tree.target p = .ok location) :
    tree.find? location = none := by
  obtain ⟨entry, hwalk, -⟩ := target_eq_ok.1 htarget
  rw [← find?_of_walk hwalk, h location entry hwalk]

/-- A free path can be written to wherever it leads. -/
theorem IsFree.target_map (h : tree.IsFree p) :
    (tree.target p).map (fun _ ↦ ()) = (tree.walk p).map fun _ ↦ () := by
  rw [target]
  cases hwalk : tree.walk p with
  | error fault => rfl
  | ok found =>
    obtain ⟨l, e⟩ := found
    rw [h l e hwalk]
    rfl

/-- A file that is written to a free path and released leaves nothing but the time behind. -/
theorem release_stamped (hsound : tree.Sound) (h : tree.target p = .ok location)
    (hfree : tree.IsFree p) (bytes : Bytes) :
    (changeFile.stamped tree location bytes).release p =
      .ok { tree with clock := tree.clock + 1 } := by
  obtain ⟨entry, hwalk, hdir⟩ := target_eq_ok.1 h
  have hremove : (tree.put location (.file bytes tree.clock)).remove location = tree :=
    remove_put hsound (hfree.find?_eq_none h)
  rw [release, walk_stamped hwalk hdir]
  exact congrArg (fun t : Tree ↦ Except.ok { t with clock := tree.clock + 1 }) hremove

/-- Where nothing can be written, nothing is released. -/
theorem release_of_target_error {fault : Fault} (h : tree.target p = .error fault) :
    (tree.release p).toOption.getD tree = tree := by
  rw [target] at h
  rw [release]
  cases hwalk : tree.walk p with
  | error fault =>
    cases fault <;> rfl
  | ok found =>
    obtain ⟨l, entry⟩ := found
    rw [hwalk] at h
    cases entry with
    | none => simp at h
    | some entry =>
      cases entry with
      | directory => rfl
      | file bytes modified => simp at h

end CssTypings.Tree
