import CssTypings.Proofs.Tree.Soundness
import CssTypings.Tree.Access

/-!
# Following paths in changing trees

One component of a path either leads on from a directory or ends the walk (`follow_cons_eq_ok`,
`follow_cons_eq_long`), and everything about paths is read off these two. A path is followed through
directories only: more directories never lead it astray (`follow_mono`), and in two trees with the
same directories it leads to the same location or to none in both. What is found there is what the
tree has at that location.

So a file can be asked for before and after other files were written, with the same answer
(`look_agree`), and what was written is read back (`read_of_write`). Writing fails only where a path
leads nowhere or to a directory (`write_eq`).
-/

namespace CssTypings.Tree

variable {tree tree' : Tree} {here location : Location} {part : Text} {parts rest : List Text}
  {p : Path} {entry : Option Entry}

/-- Where a component leads from a directory. -/
def enter (here : Location) (part : Text) : Location :=
  if part = Path.up then here.dropLast else here ++ [part]

/-! ### One step -/

theorem follow_of_not_directory (h : tree.find? here ≠ some .directory) (part : Text)
    (rest : List Text) :
    ∃ trouble, tree.follow here (part :: rest) = .error trouble ∧ trouble ≠ .nameTooLong := by
  rw [follow]
  split
  · exact ⟨_, rfl, by simp⟩
  · exact ⟨_, rfl, by simp⟩
  · next hdir => exact absurd hdir h

theorem follow_of_long (h : tree.find? here = some .directory)
    (hlong : nameLimit < Utf8.size part) (rest : List Text) :
    tree.follow here (part :: rest) = .error .nameTooLong := by
  rw [follow, h]
  exact if_pos hlong

/-- From a directory a component leads on, unless something more is asked for and nothing is
there. -/
theorem follow_of_short (h : tree.find? here = some .directory)
    (hshort : ¬ nameLimit < Utf8.size part) (rest : List Text) :
    tree.follow here (part :: rest) = tree.follow (enter here part) rest ∨
      rest ≠ [] ∧ tree.find? (enter here part) = none ∧
        tree.follow here (part :: rest) = .error .missing := by
  cases hnext : tree.find? (enter here part) with
  | some found =>
    refine Or.inl ?_
    rw [enter] at hnext ⊢
    rw [follow, h]
    simp only [if_neg hshort, hnext]
  | none =>
    cases rest with
    | nil =>
      have hend : tree.follow (enter here part) [] = .ok (enter here part, none) := by
        rw [follow, hnext]
      refine Or.inl ?_
      rw [hend]
      rw [enter] at hnext ⊢
      rw [follow, h]
      simp only [if_neg hshort, hnext]
    | cons next rest =>
      refine Or.inr ⟨List.cons_ne_nil _ _, rfl, ?_⟩
      rw [enter] at hnext
      rw [follow, h]
      simp only [if_neg hshort, hnext]

/-- **A path leads somewhere** if its first component leads on from a directory and the others lead
there. -/
theorem follow_cons_eq_ok :
    tree.follow here (part :: rest) = .ok (location, entry) ↔
      tree.find? here = some .directory ∧ ¬ nameLimit < Utf8.size part ∧
        tree.follow (enter here part) rest = .ok (location, entry) := by
  by_cases hdir : tree.find? here = some .directory
  · by_cases hlong : nameLimit < Utf8.size part
    · simp [follow_of_long hdir hlong, hlong]
    · rcases follow_of_short hdir hlong rest with heq | ⟨hrest, hnone, heq⟩
      · simp [heq, hdir, hlong]
      · obtain ⟨next, more, rfl⟩ := List.exists_cons_of_ne_nil hrest
        have hdir' : tree.find? (enter here part) ≠ some .directory := by simp [hnone]
        obtain ⟨trouble, hstuck, -⟩ := follow_of_not_directory hdir' next more
        simp [heq, hstuck]
  · obtain ⟨trouble, hstuck, -⟩ := follow_of_not_directory hdir part rest
    simp [hstuck, hdir]

/-- A walk ends at a name that is too long. -/
theorem follow_cons_eq_long :
    tree.follow here (part :: rest) = .error .nameTooLong ↔
      tree.find? here = some .directory ∧ (nameLimit < Utf8.size part ∨
        tree.follow (enter here part) rest = .error .nameTooLong) := by
  by_cases hdir : tree.find? here = some .directory
  · by_cases hlong : nameLimit < Utf8.size part
    · simp [follow_of_long hdir hlong, hdir, hlong]
    · rcases follow_of_short hdir hlong rest with heq | ⟨hrest, hnone, heq⟩
      · simp [heq, hdir, hlong]
      · obtain ⟨next, more, rfl⟩ := List.exists_cons_of_ne_nil hrest
        have hdir' : tree.find? (enter here part) ≠ some .directory := by simp [hnone]
        obtain ⟨trouble, hstuck, hne⟩ := follow_of_not_directory hdir' next more
        simp [heq, hstuck, hlong, hne]
  · obtain ⟨trouble, hstuck, hne⟩ := follow_of_not_directory hdir part rest
    simp [hstuck, hdir, hne]

/-! ### Whole paths -/

theorem find?_of_follow (h : tree.follow here parts = .ok (location, entry)) :
    entry = tree.find? location := by
  induction parts generalizing here with
  | nil =>
    obtain ⟨rfl, rfl⟩ := Prod.mk.inj (Except.ok.inj h)
    rfl
  | cons part rest ih => exact ih (follow_cons_eq_ok.1 h).2.2

theorem follow_eq_append (hup : Path.up ∉ parts)
    (h : tree.follow here parts = .ok (location, entry)) : location = here ++ parts := by
  induction parts generalizing here with
  | nil =>
    obtain ⟨rfl, -⟩ := Prod.mk.inj (Except.ok.inj h)
    exact (List.append_nil _).symm
  | cons part rest ih =>
    obtain ⟨hpart, hrest⟩ := not_or.1 (mt List.mem_cons.2 hup)
    have henter : enter here part = here ++ [part] := if_neg (Ne.symm hpart)
    obtain ⟨-, -, h⟩ := follow_cons_eq_ok.1 h
    rw [henter] at h
    rw [ih hrest h, List.append_assoc, List.singleton_append]

/-- Only what is found counts. -/
theorem follow_congr (h : ∀ l, tree'.find? l = tree.find? l) (here : Location)
    (parts : List Text) : tree'.follow here parts = tree.follow here parts := by
  induction parts generalizing here with
  | nil => simp only [follow, h]
  | cons part rest ih => simp only [follow, h, ih]

/-- A path that leads somewhere leads there through directories, and so it does in a tree that has
these directories as well. -/
theorem follow_mono
    (hdirs : ∀ l, tree.find? l = some .directory → tree'.find? l = some .directory)
    (h : tree.follow here parts = .ok (location, entry)) :
    tree'.follow here parts = .ok (location, tree'.find? location) := by
  induction parts generalizing here with
  | nil =>
    obtain ⟨rfl, -⟩ := Prod.mk.inj (Except.ok.inj h)
    rfl
  | cons part rest ih =>
    obtain ⟨hdir, hshort, h⟩ := follow_cons_eq_ok.1 h
    exact follow_cons_eq_ok.2 ⟨hdirs _ hdir, hshort, ih h⟩

theorem follow_long_mono
    (hdirs : ∀ l, tree.find? l = some .directory → tree'.find? l = some .directory)
    (h : tree.follow here parts = .error .nameTooLong) :
    tree'.follow here parts = .error .nameTooLong := by
  induction parts generalizing here with
  | nil => cases h
  | cons part rest ih =>
    obtain ⟨hdir, hlong | h⟩ := follow_cons_eq_long.1 h
    · exact follow_cons_eq_long.2 ⟨hdirs _ hdir, Or.inl hlong⟩
    · exact follow_cons_eq_long.2 ⟨hdirs _ hdir, Or.inr (ih h)⟩

/-- Where a name leads from the place that the components in front of it lead to. -/
theorem follow_concat {name : Text} (hname : name ≠ Path.up) (here : Location)
    (parts : List Text) :
    tree.follow here (parts ++ [name]) =
      match tree.follow here parts with
      | .ok (l, some .directory) =>
        if nameLimit < Utf8.size name then .error .nameTooLong
        else .ok (l ++ [name], tree.find? (l ++ [name]))
      | .ok (_, some (.file ..)) => .error .notDirectory
      | .ok (_, none) => .error .missing
      | .error trouble => .error trouble := by
  induction parts generalizing here with
  | nil =>
    rw [List.nil_append, follow, follow]
    cases tree.find? here with
    | none => rfl
    | some entry =>
      cases entry with
      | file bytes modified => rfl
      | directory =>
        simp only [if_neg hname]
        cases hnext : tree.find? (here ++ [name]) with
        | none => rfl
        | some found => rw [follow, hnext]
  | cons part rest ih =>
    rw [List.cons_append, follow, follow]
    cases tree.find? here with
    | none => rfl
    | some entry =>
      cases entry with
      | file bytes modified => rfl
      | directory =>
        by_cases hlong : nameLimit < Utf8.size part
        · simp only [if_pos hlong]
        · simp only [if_neg hlong]
          generalize (if part = Path.up then here.dropLast else here ++ [part]) = next
          cases tree.find? next with
          | some found => exact ih next
          | none => cases rest <;> rfl

/-- What is found by a name is found in a directory. -/
theorem exists_directory_of_follow {name : Text} (hname : name ≠ Path.up)
    (h : tree.follow here (parts ++ [name]) = .ok (location, entry)) :
    ∃ l, tree.follow here parts = .ok (l, some .directory) := by
  rw [follow_concat hname] at h
  split at h
  · next l hparts => exact ⟨l, hparts⟩
  · cases h
  · cases h
  · cases h

/-! ### Walks from the root -/

/-- A walk succeeds if the path can be asked about and can be followed. -/
theorem walk_eq_ok :
    tree.walk p = .ok (location, entry) ↔
      p.hasNull = false ∧ ¬ pathLimit < Utf8.size p.text ∧
        tree.follow [] p.parts = .ok (location, entry) := by
  rw [walk]
  by_cases hnull : p.hasNull = true
  · simp [hnull]
  · by_cases hlong : pathLimit < Utf8.size p.text
    · simp [hnull, hlong]
    · simp only [hnull, hlong, if_false, Bool.false_eq_true, not_false_eq_true, true_and]
      cases tree.follow [] p.parts <;> simp [Except.mapError]

theorem walk_congr (h : ∀ l, tree'.find? l = tree.find? l) (p : Path) :
    tree'.walk p = tree.walk p := by
  rw [walk, walk, follow_congr h]

theorem find?_of_walk (h : tree.walk p = .ok (location, entry)) : entry = tree.find? location :=
  find?_of_follow (walk_eq_ok.1 h).2.2

/-- A plain path leads to the location that it names. -/
theorem eq_parts_of_walk (hp : p.IsPlain) (h : tree.walk p = .ok (location, entry)) :
    location = p.parts :=
  follow_eq_append hp.up_not_mem (walk_eq_ok.1 h).2.2

theorem walk_mono (hdirs : ∀ l, tree.find? l = some .directory → tree'.find? l = some .directory)
    (h : tree.walk p = .ok (location, entry)) :
    tree'.walk p = .ok (location, tree'.find? location) := by
  obtain ⟨hnull, hshort, h⟩ := walk_eq_ok.1 h
  exact walk_eq_ok.2 ⟨hnull, hshort, follow_mono hdirs h⟩

/-- The trees have the same directories. -/
def SameDirectories (tree tree' : Tree) : Prop :=
  ∀ location, tree.find? location = some .directory ↔ tree'.find? location = some .directory

theorem look_eq (tree : Tree) (p : Path) :
    tree.look p =
      if p.hasNull then .ok none
      else if pathLimit < Utf8.size p.text then .error (.trouble .nameTooLong p)
      else match tree.follow [] p.parts with
        | .ok (_, entry) => .ok entry
        | .error .nameTooLong => .error (.trouble .nameTooLong p)
        | .error _ => .ok none := by
  by_cases hnull : p.hasNull = true
  · simp only [look, walk, hnull, if_true]
  · by_cases hlong : pathLimit < Utf8.size p.text
    · simp only [look, walk, hnull, hlong, if_true, if_false, Bool.false_eq_true]
    · simp only [look, walk, hnull, hlong, if_false, Bool.false_eq_true]
      cases tree.follow [] p.parts with
      | ok found => rfl
      | error trouble => cases trouble <;> rfl

theorem look_of_walk (h : tree.walk p = .ok (location, entry)) : tree.look p = .ok entry := by
  rw [look, h]

theorem exists_walk_of_look {found : Entry} (h : tree.look p = .ok (some found)) :
    ∃ location, tree.walk p = .ok (location, some found) := by
  rw [look] at h
  split at h
  · next location entry hwalk =>
    cases h
    exact ⟨location, hwalk⟩
  · cases h
  · cases h

/-- **The answer about a path stays the same** as long as the directories are the same and so is
what is at the location that the path leads to. -/
theorem look_agree (hdirs : SameDirectories tree tree')
    (hsame : ∀ l e, tree.walk p = .ok (l, e) → tree'.find? l = tree.find? l) :
    tree'.look p = tree.look p := by
  have hmono := fun l ↦ (hdirs l).1
  have hmono' := fun l ↦ (hdirs l).2
  by_cases hok : ∃ l e, tree.walk p = .ok (l, e)
  · obtain ⟨l, e, hwalk⟩ := hok
    rw [look_of_walk (walk_mono hmono hwalk), look_of_walk hwalk, hsame l e hwalk,
      find?_of_walk hwalk]
  · have hok' : ¬ ∃ l e, tree'.walk p = .ok (l, e) := by
      rintro ⟨l, e, hwalk⟩
      exact hok ⟨l, _, walk_mono hmono' hwalk⟩
    rw [look_eq, look_eq]
    by_cases hnull : p.hasNull = true
    · rw [if_pos hnull, if_pos hnull]
    · by_cases hlong : pathLimit < Utf8.size p.text
      · rw [if_neg hnull, if_neg hnull, if_pos hlong, if_pos hlong]
      · have hnull' : p.hasNull = false := by simpa using hnull
        rw [if_neg hnull, if_neg hnull, if_neg hlong, if_neg hlong]
        cases h : tree.follow [] p.parts with
        | ok found => exact absurd ⟨_, _, walk_eq_ok.2 ⟨hnull', hlong, h⟩⟩ hok
        | error trouble =>
          cases h' : tree'.follow [] p.parts with
          | ok found => exact absurd ⟨_, _, walk_eq_ok.2 ⟨hnull', hlong, h'⟩⟩ hok'
          | error trouble' =>
            have hiff : trouble = .nameTooLong ↔ trouble' = .nameTooLong := by
              constructor
              · rintro rfl
                simpa [h'] using follow_long_mono hmono h
              · rintro rfl
                simpa [h] using follow_long_mono hmono' h'
            cases trouble <;> cases trouble' <;> simp_all

/-! ### Writing and reading -/

theorem find?_stamped (hne : location ≠ []) (bytes : Bytes) (other : Location) :
    (changeFile.stamped tree location bytes).find? other =
      if other = location then some (.file bytes tree.clock) else tree.find? other := by
  rw [changeFile.stamped, find?_clock, find?_put hne]

/-- Writing fails where the path leads nowhere or to a directory. -/
theorem write_eq (tree : Tree) (p : Path) (bytes : Bytes) :
    tree.write p bytes =
      match tree.walk p with
      | .ok (location, entry) =>
        if entry = some .directory then .error (.trouble .isDirectory p)
        else .ok (changeFile.stamped tree location bytes)
      | .error fault => .error fault := by
  rw [write, changeFile]
  cases tree.walk p with
  | error fault => rfl
  | ok found =>
    obtain ⟨location, entry⟩ := found
    cases entry with
    | none => rfl
    | some entry => cases entry <;> rfl

theorem read_of_walk {bytes : Bytes} {modified : Int}
    (h : tree.walk p = .ok (location, some (.file bytes modified))) : tree.read p = .ok bytes := by
  rw [read, h]

/-- **What was written is read back.** -/
theorem walk_stamped (h : tree.walk p = .ok (location, entry)) (hdir : entry ≠ some .directory)
    (bytes : Bytes) :
    (changeFile.stamped tree location bytes).walk p =
      .ok (location, some (.file bytes tree.clock)) := by
  have hfind : tree.find? location ≠ some .directory := find?_of_walk h ▸ hdir
  have hne := ne_nil_of_find? hfind
  have hdirs : ∀ l, tree.find? l = some .directory →
      (changeFile.stamped tree location bytes).find? l = some .directory := by
    intro l hl
    have hother : l ≠ location := by
      rintro rfl
      exact hfind hl
    rw [find?_stamped hne, if_neg hother, hl]
  have hwalk := walk_mono hdirs h
  rw [hwalk, find?_stamped hne, if_pos rfl]

/-! ### Soundness -/

/-- The last step of a walk. -/
theorem exists_enter_of_follow (hne : parts ≠ [])
    (h : tree.follow here parts = .ok (location, entry)) :
    ∃ directory, ∃ part ∈ parts, tree.find? directory = some .directory ∧
      location = enter directory part := by
  induction parts generalizing here with
  | nil => exact absurd rfl hne
  | cons part rest ih =>
    obtain ⟨hdir, -, hrest⟩ := follow_cons_eq_ok.1 h
    by_cases hnil : rest = []
    · subst hnil
      obtain ⟨rfl, -⟩ := Prod.mk.inj (Except.ok.inj hrest)
      exact ⟨here, part, List.mem_singleton_self part, hdir, rfl⟩
    · obtain ⟨directory, name, hname, hfind⟩ := ih hnil hrest
      exact ⟨directory, name, List.mem_cons_of_mem _ hname, hfind⟩

/-- Where no directory is found, there is one to put something into. -/
theorem Sound.exists_of_walk (hsound : tree.Sound) (hp : p.IsProper)
    (h : tree.walk p = .ok (location, entry)) (hdir : entry ≠ some .directory) :
    ∃ directory name, location = directory ++ [name] ∧ Path.IsName name ∧
      tree.find? directory = some .directory := by
  have hfollow := (walk_eq_ok.1 h).2.2
  have hentry := find?_of_walk h
  have hne : p.parts ≠ [] := by
    intro hnil
    rw [hnil] at hfollow
    obtain ⟨rfl, rfl⟩ := Prod.mk.inj (Except.ok.inj hfollow)
    exact hdir rfl
  obtain ⟨directory, part, hpart, hfind, rfl⟩ := exists_enter_of_follow hne hfollow
  by_cases hup : part = Path.up
  · -- the way up always leads to a directory
    rw [enter, if_pos hup, hsound.find?_dropLast hfind] at hentry
    exact absurd hentry hdir
  · exact ⟨directory, part, if_neg hup, ⟨hp part hpart, hup⟩, hfind⟩

theorem Sound.stamped (hsound : tree.Sound) (hp : p.IsProper)
    (h : tree.walk p = .ok (location, entry)) (hdir : entry ≠ some .directory) (bytes : Bytes) :
    (changeFile.stamped tree location bytes).Sound := by
  obtain ⟨directory, name, rfl, hname, hfind⟩ := hsound.exists_of_walk hp h hdir
  have hput : (tree.put (directory ++ [name]) (.file bytes tree.clock)).Sound :=
    hsound.put hname hfind fun heq ↦ absurd ((find?_of_walk h).trans heq) hdir
  exact hput.withClock _

end CssTypings.Tree
