import CssTypings.Proofs.Path.Inverse

/-!
# Shown paths

Reports show a path as the way that leads to it from the working directory: up to the last directory
that the two have in common, then down. Read from the working directory the way leads back to the
path (`absolute_ofText_display`), whichever of the two lies below the other.

What is shown tells where the path lies. The way goes up first if the path does not lie below the
working directory, and in no other case (`head?_route`), since the names of a path in normal form do
not go up. That is a matter of the whole first component: a name may well start with two dots.
-/

namespace CssTypings.Path

variable {base p : Path} {start target : List Text} {part : Text}

/-- An absolute path in normal form: it starts with one slash, and each of its components is a
name. -/
structure IsNormal (p : Path) : Prop where
  anchor_eq : p.anchor = .root
  isPlain : p.IsPlain

instance (p : Path) : Decidable p.IsNormal :=
  decidable_of_iff (p.anchor = .root ∧ p.IsPlain) ⟨fun h ↦ ⟨h.1, h.2⟩, fun h ↦ ⟨h.1, h.2⟩⟩

namespace IsNormal

theorem isAbsolute (h : p.IsNormal) : p.isAbsolute = true := by
  rw [Path.isAbsolute, h.anchor_eq]
  rfl

theorem up_not_mem (h : p.IsNormal) : up ∉ p.parts := h.isPlain.up_not_mem

theorem absolute_eq (h : p.IsNormal) (here : Path) : absolute here p = p :=
  absolute_of_isPlain here h.isAbsolute h.isPlain

end IsNormal

/-! ### Ways -/

/-- Two lists of components part where they first differ. The way leaves what the start has from
there on, and enters what the target has. -/
theorem exists_route_eq (start target : List Text) :
    ∃ common left entered, start = common ++ left ∧ target = common ++ entered ∧
      (∀ part ∈ left.head?, part ∉ entered.head?) ∧
      route start target = left.map (fun _ ↦ up) ++ entered := by
  fun_induction route start target with
  | case1 start part target ih =>
    obtain ⟨common, left, entered, hstart, htarget, hhead, hroute⟩ := ih
    exact ⟨part :: common, left, entered, congrArg _ hstart, congrArg _ htarget, hhead, hroute⟩
  | case2 s start t target hne =>
    refine ⟨[], s :: start, t :: target, rfl, rfl, ?_, rfl⟩
    simpa using Ne.symm hne
  | case3 start target hend =>
    refine ⟨[], start, target, rfl, rfl, ?_, rfl⟩
    intro part hleft hentered
    obtain ⟨start, rfl⟩ := List.head?_eq_some_iff.1 hleft
    obtain ⟨target, rfl⟩ := List.head?_eq_some_iff.1 hentered
    exact hend part start part target rfl rfl

theorem mem_route (h : part ∈ route start target) : part = up ∨ part ∈ target := by
  obtain ⟨common, left, entered, -, htarget, -, hroute⟩ := exists_route_eq start target
  rw [hroute] at h
  rw [htarget]
  rcases List.mem_append.1 h with hleft | hentered
  · obtain ⟨-, -, rfl⟩ := List.mem_map.1 hleft
    exact Or.inl rfl
  · exact Or.inr (List.mem_append_right common hentered)

/-- **The way goes up first** exactly if the target does not lie below the start. -/
theorem head?_route (htarget : up ∉ target) :
    (route start target).head? = some up ↔ ¬start <+: target := by
  obtain ⟨common, left, entered, rfl, rfl, hhead, hroute⟩ := exists_route_eq start target
  rw [hroute, List.prefix_append_right_inj]
  cases left with
  | nil =>
    have hentered : entered.head? ≠ some up := fun h ↦
      htarget (List.mem_append_right common (List.mem_of_mem_head? h))
    simpa using hentered
  | cons part left =>
    have hapart : ¬part :: left <+: entered := by
      rintro ⟨behind, rfl⟩
      exact hhead part rfl rfl
    simpa using hapart

/-- Every step up takes away one of the components kept so far. -/
theorem collapseFrom_ups (kept names rest : List Text) :
    collapseFrom kept (names.map (fun _ ↦ up) ++ rest) =
      collapseFrom (kept.drop names.length) rest := by
  induction names generalizing kept with
  | nil => rfl
  | cons name names ih =>
    rw [List.map_cons, List.cons_append, collapseFrom, if_pos rfl, ih, List.drop_drop,
      List.length_cons, Nat.add_comm]

/-- **The way leads from the start to the target.** -/
theorem collapse_append_route (hstart : up ∉ start) (htarget : up ∉ target) :
    collapse (start ++ route start target) = target := by
  obtain ⟨common, left, entered, rfl, rfl, -, hroute⟩ := exists_route_eq start target
  have hentered : up ∉ entered := fun h ↦ htarget (List.mem_append_right common h)
  calc collapse (common ++ left ++ route (common ++ left) (common ++ entered))
      = collapseFrom ((common ++ left).reverse ++ []) (left.map (fun _ ↦ up) ++ entered) := by
        rw [hroute, collapse, collapseFrom_append hstart]
    _ = collapseFrom common.reverse entered := by
        -- as many steps up as there are components left
        rw [collapseFrom_ups, List.append_nil, List.reverse_append, ← List.length_reverse,
          List.drop_left]
    _ = common ++ entered := by rw [collapseFrom_of_not_mem hentered, List.reverse_reverse]

/-! ### Texts of ways -/

theorem isProper_route (hp : p.IsProper) (start : List Text) :
    IsProper ⟨.relative, route start p.parts⟩ := by
  intro part hpart
  rcases mem_route hpart with rfl | hpart
  · decide
  · exact hp part hpart

/-- The text of the way, with `./` in front of it unless it leaves the directory. -/
theorem display_eq (hbase : base.IsNormal) (hp : p.IsNormal) (here : Path) :
    display here base p =
      (if base.parts <+: p.parts then dot ++ ['/'] else []) ++
        text ⟨.relative, route base.parts p.parts⟩ := by
  have hhead := @head?_route base.parts p.parts hp.up_not_mem
  rw [display, hbase.absolute_eq, hp.absolute_eq]
  cases hroute : route base.parts p.parts with
  | nil =>
    have hinside : base.parts <+: p.parts := by simpa [hroute] using hhead
    rw [if_pos hinside]
    rfl
  | cons first rest =>
    rw [hroute, List.head?_cons, Option.some.injEq] at hhead
    by_cases hfirst : first = up
    · simp only [if_pos hfirst, if_neg (hhead.1 hfirst)]
      rfl
    · simp only [if_neg hfirst, if_pos (not_not.1 (mt hhead.2 hfirst))]
      rfl

theorem ofText_dot_append (t : Text) : ofText (dot ++ '/' :: t) = ⟨.relative, (ofText t).parts⟩ :=
  congrArg (Path.mk .relative) (parts_ofText_append_cons dot t)

theorem ofText_display (hbase : base.IsNormal) (hp : p.IsNormal) (here : Path) :
    ofText (display here base p) = ⟨.relative, route base.parts p.parts⟩ := by
  have htext := ofText_text (isProper_route hp.isPlain.isProper base.parts)
  rw [display_eq hbase hp]
  split
  · rw [List.append_assoc, List.singleton_append, ofText_dot_append, htext]
  · exact htext

/-- **What is shown leads back to the path**, from the directory that it is shown for. -/
theorem absolute_ofText_display (hbase : base.IsNormal) (hp : p.IsNormal) (here : Path) :
    absolute base (ofText (display here base p)) = p := by
  rw [ofText_display hbase hp]
  refine congrArg₂ Path.mk ?_ ?_
  · exact hbase.anchor_eq.trans hp.anchor_eq.symm
  · exact collapse_append_route hbase.up_not_mem hp.up_not_mem

/-- What is shown of a path that does not lie below the directory. -/
theorem exists_display_eq (hbase : base.IsNormal) (hp : p.IsNormal) (here : Path)
    (houtside : ¬base.parts <+: p.parts) :
    ∃ rest : List Text, display here base p = up ++ rest.flatMap ('/' :: ·) := by
  obtain ⟨rest, hroute⟩ := List.head?_eq_some_iff.1 ((head?_route hp.up_not_mem).2 houtside)
  refine ⟨rest, ?_⟩
  rw [display_eq hbase hp, if_neg houtside, hroute, text_eq (List.cons_ne_nil up rest)]
  exact Text.join_cons ['/'] up rest

/-- **What is shown starts with `./`** exactly if the path lies below the directory or is the
directory. -/
theorem dot_prefix_display_iff (hbase : base.IsNormal) (hp : p.IsNormal) (here : Path) :
    ['.', '/'] <+: display here base p ↔ base.parts <+: p.parts := by
  constructor
  · intro hdot
    by_contra houtside
    obtain ⟨rest, hrest⟩ := exists_display_eq hbase hp here houtside
    rw [hrest] at hdot
    exact absurd hdot (by simp [up])
  · intro hinside
    rw [display_eq hbase hp, if_pos hinside]
    exact List.prefix_append _ _

theorem display_of_outside (hbase : base.IsNormal) (hp : p.IsNormal) (here : Path)
    (houtside : ¬base.parts <+: p.parts) :
    display here base p = ['.', '.'] ∨ ['.', '.', '/'] <+: display here base p := by
  obtain ⟨rest, hrest⟩ := exists_display_eq hbase hp here houtside
  rw [hrest]
  cases rest with
  | nil => exact Or.inl rfl
  | cons first rest => exact Or.inr ⟨first ++ rest.flatMap ('/' :: ·), rfl⟩

/-- **Shown paths identify files**, and tell whether they lie below the directory. -/
theorem display_faithful (hbase : base.IsNormal) (here : Path) :
    (∀ p, IsNormal p → absolute base (ofText (display here base p)) = p) ∧
    (∀ p q, IsNormal p → IsNormal q → display here base p = display here base q → p = q) ∧
    (∀ p, IsNormal p → (['.', '/'] <+: display here base p ↔ base.parts <+: p.parts)) ∧
    (∀ p, IsNormal p → ¬base.parts <+: p.parts →
      display here base p = ['.', '.'] ∨ ['.', '.', '/'] <+: display here base p) := by
  have hback (p : Path) (hp : p.IsNormal) : absolute base (ofText (display here base p)) = p :=
    absolute_ofText_display hbase hp here
  refine ⟨hback, fun p q hp hq h ↦ ?_, fun p hp ↦ ?_, fun p hp houtside ↦ ?_⟩
  · rw [← hback p hp, h, hback q hq]
  · exact dot_prefix_display_iff hbase hp here
  · exact display_of_outside hbase hp here houtside

/-- A name below the directory may start with two dots, and so may one beside the directory, which
is shown with a step up in front. -/
theorem display_faithful_at_dots :
    ['.', '/'] <+: display ⟨.root, []⟩ (ofText "/w".toList) (ofText "/w/..w".toList) ∧
      ['.', '.', '/'] <+: display ⟨.root, []⟩ (ofText "/w".toList) (ofText "/..w".toList) ∧
      absolute (ofText "/w".toList)
          (ofText (display ⟨.root, []⟩ (ofText "/w".toList) (ofText "/..w".toList))) =
        ofText "/..w".toList ∧
      display ⟨.root, []⟩ (ofText "/w".toList) (ofText "/w/..w".toList) ≠
        display ⟨.root, []⟩ (ofText "/w".toList) (ofText "/..w".toList) := by
  have hbase : IsNormal (ofText "/w".toList) := by decide
  have hbelow : IsNormal (ofText "/w/..w".toList) := by decide
  have hbeside : IsNormal (ofText "/..w".toList) := by decide
  obtain ⟨hback, hinjective, hinside, houtside⟩ := display_faithful hbase ⟨.root, []⟩
  refine ⟨(hinside _ hbelow).2 (by decide), ?_, hback _ hbeside, fun h ↦ ?_⟩
  · exact (houtside _ hbeside (by decide)).resolve_left (by decide)
  · exact absurd (hinjective _ _ hbelow hbeside h) (by decide)

end CssTypings.Path
