import CssTypings.Proofs.Path.Reading
import CssTypings.Tree.Basic
import Mathlib.Data.List.Infix

/-!
# Sound trees

The list of a tree could hold anything. On a disk every location is listed once, every name names
something, and whatever there is stands in a directory (`Tree.Sound`). So all locations that lead to
something are directories (`find?_of_prefix`), and nothing can be below a location at which nothing
is.

Putting something into a directory keeps a tree sound (`Sound.put`), and so does taking something
away with all that is below it (`Sound.remove`). A file that is put where nothing was and then taken
away leaves no trace: `remove_put`.
-/

namespace CssTypings

/-- Pairs may be left out by their keys before or after one is looked up. -/
theorem lookup_filter_key {α β : Type} [BEq α] [LawfulBEq α] (keep : α → Bool)
    (entries : List (α × β)) (a : α) :
    (entries.filter fun e ↦ keep e.1).lookup a = if keep a then entries.lookup a else none := by
  induction entries with
  | nil => simp
  | cons e rest ih =>
    obtain ⟨first, b⟩ := e
    by_cases h : a = first
    · subst h
      by_cases hkeep : keep a = true
      · simp [hkeep]
      · simpa [hkeep] using ih
    · have hne : (a == first) = false := beq_false_of_ne h
      by_cases hkeep : keep first = true
      · simpa [hkeep, List.lookup_cons, hne] using ih
      · simpa [hkeep, List.lookup_cons, hne] using ih

namespace Tree

/-- A tree as it is found on a disk. -/
structure Sound (tree : Tree) : Prop where
  /-- Each location is listed once. -/
  nodup : (tree.entries.map Prod.fst).Nodup
  /-- The root is not listed. -/
  ne_nil : ∀ e ∈ tree.entries, e.1 ≠ []
  /-- Every name names something. -/
  isName : ∀ e ∈ tree.entries, ∀ part ∈ e.1, Path.IsName part
  /-- What is listed stands in a directory. -/
  parent : ∀ e ∈ tree.entries, tree.find? e.1.dropLast = some .directory

instance (tree : Tree) : Decidable tree.Sound :=
  decidable_of_iff ((tree.entries.map Prod.fst).Nodup ∧ (∀ e ∈ tree.entries, e.1 ≠ []) ∧
      (∀ e ∈ tree.entries, ∀ part ∈ e.1, Path.IsName part) ∧
      ∀ e ∈ tree.entries, tree.find? e.1.dropLast = some .directory)
    ⟨fun h ↦ ⟨h.1, h.2.1, h.2.2.1, h.2.2.2⟩, fun h ↦ ⟨h.nodup, h.ne_nil, h.isName, h.parent⟩⟩

variable {tree : Tree} {location other : Location} {entry : Entry}

/-! ### Looking things up -/

@[simp] theorem find?_nil (tree : Tree) : tree.find? [] = some .directory := rfl

@[simp] theorem find?_clock (tree : Tree) (clock : Int) (location : Location) :
    Tree.find? { tree with clock } location = tree.find? location := by
  cases location <;> rfl

theorem find?_of_ne_nil (h : location ≠ []) :
    tree.find? location = tree.entries.lookup location := by
  cases location with
  | nil => exact absurd rfl h
  | cons name rest => rfl

theorem mem_of_find? (hne : location ≠ []) (h : tree.find? location = some entry) :
    (location, entry) ∈ tree.entries := by
  rw [find?_of_ne_nil hne] at h
  obtain ⟨before, after, hentries, -⟩ := List.lookup_eq_some_iff.1 h
  simp [hentries]

/-- In a sound tree a location leads to what is listed under it. -/
theorem Sound.find?_of_mem (h : tree.Sound) (hmem : (location, entry) ∈ tree.entries) :
    tree.find? location = some entry := by
  rw [find?_of_ne_nil (h.ne_nil _ hmem)]
  have hnodup := h.nodup
  clear h
  generalize tree.entries = entries at hmem hnodup
  induction entries with
  | nil => exact absurd hmem List.not_mem_nil
  | cons e rest ih =>
    obtain ⟨first, x⟩ := e
    obtain ⟨hfirst, hrest⟩ := List.nodup_cons.1 hnodup
    rcases List.mem_cons.1 hmem with heq | hin
    · rw [← (Prod.mk.inj heq).1, ← (Prod.mk.inj heq).2, List.lookup_cons_self]
    · have hne : location ≠ first := fun heq ↦
        hfirst (List.mem_map.2 ⟨(location, entry), hin, heq⟩)
      rw [List.lookup_cons, beq_false_of_ne hne]
      exact ih hin hrest

theorem Sound.isName_of_find? (h : tree.Sound) (hfind : tree.find? location = some entry) :
    ∀ part ∈ location, Path.IsName part := by
  by_cases hne : location = []
  · simp [hne]
  · exact h.isName _ (mem_of_find? hne hfind)

/-- What is found in a sound tree has a plain path. -/
theorem isPlain_of_isFile (hsound : tree.Sound) {p : Path}
    (hfile : (tree.find? p.parts).any Entry.isFile = true) : p.IsPlain := by
  obtain ⟨entry, hentry, -⟩ := (Option.any_eq_true _ _).1 hfile
  exact hsound.isName_of_find? hentry

/-- The root is no file. -/
theorem ne_nil_of_isFile (hfile : (tree.find? location).any Entry.isFile = true) :
    location ≠ [] := by
  rintro rfl
  cases hfile

theorem Sound.find?_dropLast (h : tree.Sound) (hfind : tree.find? location = some entry) :
    tree.find? location.dropLast = some .directory := by
  by_cases hne : location = []
  · rw [hne]
    rfl
  · exact h.parent _ (mem_of_find? hne hfind)

/-- **What leads to something is a directory.** -/
theorem Sound.find?_of_prefix (h : tree.Sound) (hfind : tree.find? other = some entry)
    (hinitial : location <+: other) (hne : location ≠ other) :
    tree.find? location = some .directory := by
  obtain ⟨below, rfl⟩ := hinitial
  have hbelow : below ≠ [] := by
    rintro rfl
    exact hne (List.append_nil _).symm
  clear hne
  induction below using List.reverseRecOn generalizing entry with
  | nil => exact absurd rfl hbelow
  | append_singleton below name ih =>
    have hparent := h.find?_dropLast hfind
    rw [← List.append_assoc, List.dropLast_concat] at hparent
    by_cases hnil : below = []
    · simpa [hnil] using hparent
    · exact ih hparent hnil

/-- Nothing is below a location at which there is no directory. -/
theorem Sound.eq_of_prefix (h : tree.Sound) (hfind : tree.find? other = some entry)
    (hdir : tree.find? location ≠ some .directory) (hinitial : location <+: other) :
    location = other := by
  by_contra hne
  exact hdir (h.find?_of_prefix hfind hinitial hne)

theorem ne_nil_of_find? (h : tree.find? location ≠ some .directory) : location ≠ [] := by
  rintro rfl
  exact h rfl

/-! ### Putting and removing -/

theorem isPrefixOf_eq_false (h : ¬ location <+: other) : location.isPrefixOf other = false :=
  Bool.eq_false_iff.2 fun hp ↦ h (List.isPrefixOf_iff_prefix.1 hp)

theorem find?_remove (hne : other ≠ []) :
    (tree.remove location).find? other =
      if location <+: other then none else tree.find? other := by
  rw [find?_of_ne_nil hne, find?_of_ne_nil hne, remove]
  simp only
  rw [lookup_filter_key (fun l ↦ !location.isPrefixOf l)]
  by_cases h : location <+: other
  · simp [h, List.isPrefixOf_iff_prefix.2 h]
  · simp [h, isPrefixOf_eq_false h]

theorem find?_put (hne : location ≠ []) :
    (tree.put location entry).find? other =
      if other = location then some entry else tree.find? other := by
  split
  · next h => rw [h, find?_put_self tree hne]
  · next h => rw [find?_put_of_ne tree h]

/-- Something can be put into a directory, though no file in place of a directory. -/
theorem Sound.put (h : tree.Sound) {directory : Location} {name : Text}
    (hname : Path.IsName name) (hdir : tree.find? directory = some .directory)
    (hkeep : tree.find? (directory ++ [name]) = some .directory → entry = .directory) :
    (tree.put (directory ++ [name]) entry).Sound := by
  have hne : directory ++ [name] ≠ [] := by simp
  have hold {e : Location × Entry}
      (he : e ∈ tree.entries.filter (·.1 ≠ directory ++ [name])) : e ∈ tree.entries :=
    (List.mem_filter.1 he).1
  refine ⟨?_, ?_, ?_, ?_⟩
  · rw [Tree.put, List.map_cons, List.nodup_cons]
    refine ⟨?_, h.nodup.sublist (List.filter_sublist.map _)⟩
    intro hmem
    obtain ⟨e, he, heq⟩ := List.mem_map.1 hmem
    simpa [heq] using (List.mem_filter.1 he).2
  · intro e he
    rcases List.mem_cons.1 he with rfl | he
    · exact hne
    · exact h.ne_nil e (hold he)
  · intro e he part hpart
    rcases List.mem_cons.1 he with rfl | he
    · rcases List.mem_append.1 hpart with hpart | hpart
      · exact h.isName_of_find? hdir part hpart
      · rw [List.mem_singleton.1 hpart]
        exact hname
    · exact h.isName e (hold he) part hpart
  · intro e he
    rw [find?_put hne]
    rcases List.mem_cons.1 he with rfl | he
    · rw [List.dropLast_concat, if_neg (by simp), hdir]
    · have hparent := h.parent e (hold he)
      split
      · next heq => rw [hkeep (heq ▸ hparent)]
      · exact hparent

theorem Sound.remove (h : tree.Sound) (location : Location) : (tree.remove location).Sound := by
  have hold {e : Location × Entry} (he : e ∈ (tree.remove location).entries) :
      e ∈ tree.entries ∧ ¬ location <+: e.1 := by
    obtain ⟨hmem, hinitial⟩ := List.mem_filter.1 he
    exact ⟨hmem, fun hp ↦ by simp [List.isPrefixOf_iff_prefix.2 hp] at hinitial⟩
  refine ⟨h.nodup.sublist (List.filter_sublist.map _), fun e he ↦ h.ne_nil e (hold he).1,
    fun e he ↦ h.isName e (hold he).1, ?_⟩
  intro e he
  obtain ⟨hmem, hinitial⟩ := hold he
  have hparent := h.parent e hmem
  by_cases hroot : e.1.dropLast = []
  · rw [hroot]
    rfl
  · rw [find?_remove hroot, if_neg, hparent]
    exact fun hp ↦ hinitial (hp.trans (List.dropLast_prefix _))

/-- **A file that comes and goes leaves no trace.** -/
theorem remove_put (h : tree.Sound) (hnone : tree.find? location = none) :
    (tree.put location entry).remove location = tree := by
  have habsent : ∀ e ∈ tree.entries, ¬ location <+: e.1 := by
    intro e he hinitial
    have hfind := h.find?_of_mem he
    have heq := h.eq_of_prefix hfind (by simp [hnone]) hinitial
    rw [heq, hfind] at hnone
    exact absurd hnone (by simp)
  have hput : tree.entries.filter (·.1 ≠ location) = tree.entries := by
    refine List.filter_eq_self.2 fun e he ↦ decide_eq_true ?_
    rintro heq
    exact habsent e he (heq ▸ List.prefix_refl _)
  have hremove : tree.entries.filter (fun e ↦ !location.isPrefixOf e.1) = tree.entries := by
    refine List.filter_eq_self.2 fun e he ↦ ?_
    rw [isPrefixOf_eq_false (habsent e he), Bool.not_false]
  have hself : location.isPrefixOf location = true := by simp
  simp only [Tree.put, Tree.remove, hput, List.filter_cons, hself, Bool.not_true,
    Bool.false_eq_true, if_false, hremove]

/-! ### Soundness and the clock -/

theorem Sound.withClock (h : tree.Sound) (clock : Int) : Sound { tree with clock } :=
  ⟨h.nodup, h.ne_nil, h.isName, fun e he ↦ (find?_clock tree clock _).trans (h.parent e he)⟩

end Tree

end CssTypings
