import CssTypings.Proofs.Tree.Soundness
import CssTypings.Watch.Delta

/-!
# Edits

While sources are watched, files come, change and go. An edit is one such change at one location
(`find?_apply`); it keeps the tree sound and its directories in place.
-/

namespace CssTypings

variable {tree : Tree} {l : Location}

/-- There is a directory to put something into under this location. -/
def Tree.HasRoom (tree : Tree) (location : Location) : Prop :=
  ∃ directory name, location = directory ++ [name] ∧ Path.IsName name ∧
    tree.find? directory = some .directory

namespace Watch

/-- What happens to a tree while it is watched. Writing to a file makes it or replaces its contents,
and to touch it is to write what it holds. -/
inductive Edit where
  | makeDirectory (location : Location)
  | write (location : Location) (bytes : Bytes) (modified : Int)
  | delete (location : Location)

namespace Edit

variable {edit : Edit}

/-- Where the edit takes place. -/
def location : Edit → Location
  | makeDirectory location => location
  | write location _ _ => location
  | delete location => location

/-- What is there afterwards. -/
def entry : Edit → Option Entry
  | makeDirectory _ => some .directory
  | write _ bytes modified => some (.file bytes modified)
  | delete _ => none

/-- The stamp that a write gives to the file. -/
def stamp? : Edit → Option Stamp
  | write _ bytes modified => some ⟨bytes.length, modified⟩
  | makeDirectory _ => none
  | delete _ => none

/-- The tree after the edit. -/
def apply (tree : Tree) : Edit → Tree
  | makeDirectory location => tree.put location .directory
  | write location bytes modified => tree.put location (.file bytes modified)
  | delete location => tree.remove location

/-- Things are put into directories under names, directories only where nothing is, and files not in
place of directories. Only files are deleted. -/
def Possible (tree : Tree) : Edit → Prop
  | makeDirectory location => tree.HasRoom location ∧ tree.find? location = none
  | write location _ _ => tree.HasRoom location ∧ tree.find? location ≠ some .directory
  | delete location => (tree.find? location).any Entry.isFile = true

theorem stamp?_eq_some {bytes : Bytes} {modified : Int}
    (h : edit.entry = some (.file bytes modified)) : edit.stamp? = some ⟨bytes.length, modified⟩ := by
  cases edit with
  | makeDirectory location => cases h
  | write location bytes modified =>
    cases h
    rfl
  | delete location => cases h

theorem Possible.not_directory (h : edit.Possible tree) :
    tree.find? edit.location ≠ some .directory := by
  intro hdir
  cases edit with
  | makeDirectory location => cases h.2.symm.trans hdir
  | write location bytes modified => exact h.2 hdir
  | delete location =>
    obtain ⟨entry, hentry, hfile⟩ := (Option.any_eq_true _ _).1 h
    cases hentry.symm.trans hdir
    cases hfile

section Apply

variable (h : edit.Possible tree) (hsound : tree.Sound)
include h hsound

/-- **An edit changes what is at its location** and nothing else. -/
theorem find?_apply (l : Location) :
    (edit.apply tree).find? l = if l = edit.location then edit.entry else tree.find? l := by
  have hdir := h.not_directory
  have hne := Tree.ne_nil_of_find? hdir
  cases edit with
  | makeDirectory location => exact Tree.find?_put hne
  | write location bytes modified => exact Tree.find?_put hne
  | delete location =>
    by_cases hl : l = []
    · rw [hl, if_neg (Ne.symm hne)]
      rfl
    · rw [apply, Tree.find?_remove hl]
      by_cases hbelow : location <+: l
      · -- nothing is below a file
        rw [if_pos hbelow]
        split
        · rfl
        · next hother =>
          symm
          by_contra hsome
          obtain ⟨entry, hentry⟩ := Option.ne_none_iff_exists'.1 hsome
          exact hother (hsound.eq_of_prefix hentry hdir hbelow).symm
      · have hother : l ≠ location := by
          rintro rfl
          exact hbelow (List.prefix_refl _)
        rw [if_neg hbelow]
        exact (if_neg hother).symm

theorem sound_apply : (edit.apply tree).Sound := by
  have hdir := h.not_directory
  cases edit with
  | makeDirectory location =>
    obtain ⟨⟨directory, name, rfl, hname, hdirectory⟩, -⟩ := h
    exact hsound.put hname hdirectory fun _ ↦ rfl
  | write location bytes modified =>
    obtain ⟨⟨directory, name, rfl, hname, hdirectory⟩, -⟩ := h
    exact hsound.put hname hdirectory fun heq ↦ absurd heq hdir
  | delete location => exact hsound.remove location

/-- An edit leaves every directory where it is. -/
theorem find?_directory_apply (hl : tree.find? l = some .directory) :
    (edit.apply tree).find? l = some .directory := by
  have hne : l ≠ edit.location := by
    rintro rfl
    exact h.not_directory hl
  rw [find?_apply h hsound, if_neg hne, hl]

end Apply

end Edit

end Watch

end CssTypings
