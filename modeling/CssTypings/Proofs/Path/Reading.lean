import CssTypings.Path.Absolute
import CssTypings.Path.Artifact
import CssTypings.Proofs.Text.Parts
import Mathlib.Data.List.Basic
import Mathlib.Logic.Basic

/-!
# Reading and writing paths

A path that was read from a text has components without slashes that are neither empty nor a dot
(`IsProper`), and every path of this kind is read back from its own text (`ofText_text`). An
absolute form has no `..` either (`isPlain_absolute`), so its components are the location that it
names.

The artifact of a path is defined on texts. On the components of a proper path it only lengthens the
last one (`artifact_eq`), so an artifact stands in the directory of its source, and two sources at
different places have artifacts at different places (`parts_eq_of_artifact`).
-/

namespace CssTypings

namespace Path

/-! ### Components -/

/-- A component as it can be read from a text. -/
structure IsPart (part : Text) : Prop where
  ne_nil : part ≠ []
  ne_dot : part ≠ dot
  not_mem_slash : '/' ∉ part

/-- A component that names something in a directory. -/
structure IsName (part : Text) : Prop extends IsPart part where
  ne_up : part ≠ up

/-- A path as it can be read from a text. -/
def IsProper (p : Path) : Prop := ∀ part ∈ p.parts, IsPart part

/-- A proper path that never goes up. -/
def IsPlain (p : Path) : Prop := ∀ part ∈ p.parts, IsName part

instance (part : Text) : Decidable (IsPart part) :=
  decidable_of_iff (part ≠ [] ∧ part ≠ dot ∧ '/' ∉ part)
    ⟨fun h ↦ ⟨h.1, h.2.1, h.2.2⟩, fun h ↦ ⟨h.ne_nil, h.ne_dot, h.not_mem_slash⟩⟩

instance (part : Text) : Decidable (IsName part) :=
  decidable_of_iff (IsPart part ∧ part ≠ up) ⟨fun h ↦ ⟨h.1, h.2⟩, fun h ↦ ⟨h.toIsPart, h.ne_up⟩⟩

instance (p : Path) : Decidable p.IsProper := inferInstanceAs (Decidable (∀ part ∈ p.parts, _))

instance (p : Path) : Decidable p.IsPlain := inferInstanceAs (Decidable (∀ part ∈ p.parts, _))

theorem IsPlain.isProper {p : Path} (h : p.IsPlain) : p.IsProper :=
  fun part hpart ↦ (h part hpart).toIsPart

theorem IsPlain.up_not_mem {p : Path} (h : p.IsPlain) : up ∉ p.parts := fun hup ↦ (h _ hup).ne_up rfl

/-- Names that are not hidden do not go up. -/
theorem IsPlain.up_not_mem_append {p : Path} (h : p.IsPlain) {way : List Text}
    (hvisible : ∀ part ∈ way, part.head? ≠ some '.') : up ∉ p.parts ++ way := by
  rw [List.mem_append]
  exact not_or.2 ⟨h.up_not_mem, fun hup ↦ hvisible _ hup rfl⟩

theorem isProper_ofText (t : Text) : (ofText t).IsProper := by
  intro part hpart
  obtain ⟨hmem, hne⟩ := List.mem_filter.1 hpart
  simp only [ne_eq, decide_eq_true_eq] at hne
  exact ⟨hne.1, hne.2, Text.not_mem_of_mem_splitOn hmem⟩

theorem IsProper.join {base p : Path} (hbase : base.IsProper) (hp : p.IsProper) :
    (base.join p).IsProper := by
  unfold Path.join
  split
  · exact hp
  · intro part hpart
    rcases List.mem_append.1 hpart with h | h
    · exact hbase part h
    · exact hp part h

/-! ### Absolute forms -/

theorem mem_collapseFrom {kept parts : List Text} {part : Text}
    (h : part ∈ collapseFrom kept parts) : part ∈ kept ∨ part ∈ parts ∧ part ≠ up := by
  induction parts generalizing kept with
  | nil => exact Or.inl (List.mem_reverse.1 h)
  | cons first rest ih =>
    rw [collapseFrom] at h
    split at h
    · rcases ih h with hkept | ⟨hrest, hne⟩
      · exact Or.inl (List.mem_of_mem_drop hkept)
      · exact Or.inr ⟨List.mem_cons_of_mem _ hrest, hne⟩
    · next hfirst =>
      rcases ih h with hkept | ⟨hrest, hne⟩
      · rcases List.mem_cons.1 hkept with rfl | hkept
        · exact Or.inr ⟨List.mem_cons_self, hfirst⟩
        · exact Or.inl hkept
      · exact Or.inr ⟨List.mem_cons_of_mem _ hrest, hne⟩

theorem collapseFrom_append {kept parts : List Text} (h : up ∉ parts) (rest : List Text) :
    collapseFrom kept (parts ++ rest) = collapseFrom (parts.reverse ++ kept) rest := by
  induction parts generalizing kept with
  | nil => rfl
  | cons first parts ih =>
    obtain ⟨hfirst, hparts⟩ := not_or.1 (mt List.mem_cons.2 h)
    rw [List.cons_append, collapseFrom, if_neg (Ne.symm hfirst), ih hparts, List.reverse_cons,
      List.append_assoc, List.singleton_append]

theorem collapseFrom_of_not_mem {kept parts : List Text} (h : up ∉ parts) :
    collapseFrom kept parts = kept.reverse ++ parts := by
  rw [← List.append_nil parts, collapseFrom_append h, collapseFrom]
  simp

theorem isPlain_absolute {cwd p : Path} (hcwd : cwd.IsProper) (hp : p.IsProper) :
    (absolute cwd p).IsPlain := by
  intro part hpart
  rcases mem_collapseFrom hpart with h | ⟨h, hne⟩
  · exact absurd h List.not_mem_nil
  · exact ⟨hcwd.join hp part h, hne⟩

/-- A path that holds a null character is not resolved. -/
theorem hasNull_of_resolve? {cwd p resolved : Path} (h : resolve? cwd p = some resolved) :
    resolved.hasNull = false := by
  unfold resolve? at h
  split at h
  · cases h
  · next hnull =>
    cases h
    rw [hasNull, List.any_eq_false]
    intro part hpart
    rcases mem_collapseFrom hpart with hkept | ⟨hjoin, -⟩
    · exact absurd hkept List.not_mem_nil
    · exact List.any_eq_false.1 (Bool.eq_false_iff.2 hnull) part hjoin

theorem absolute_of_isPlain (cwd : Path) {p : Path} (habs : p.isAbsolute = true)
    (hp : p.IsPlain) : absolute cwd p = p := by
  have hjoin : cwd.join p = p := if_pos habs
  simp only [absolute, hjoin, collapse, collapseFrom_of_not_mem hp.up_not_mem, List.reverse_nil,
    List.nil_append]

theorem isAbsolute_join {base p : Path} (h : base.isAbsolute = true) :
    (base.join p).isAbsolute = true := by
  unfold join
  split
  · assumption
  · exact h

theorem isAbsolute_absolute {cwd p : Path} (h : cwd.isAbsolute = true) :
    (absolute cwd p).isAbsolute = true :=
  isAbsolute_join h

/-! ### Texts of paths -/

theorem anchor_ofText_append {a : Anchor} {t : Text} (h : t.head? ≠ some '/') :
    Anchor.ofText (a.text ++ t) = a := by
  cases t with
  | nil => cases a <;> rfl
  | cons c t =>
    have hc : c ≠ '/' := fun hc ↦ h (congrArg some hc)
    cases a <;> simp [Anchor.text, Anchor.ofText, hc]

theorem parts_ofText_append (a : Anchor) (t : Text) :
    (ofText (a.text ++ t)).parts = (ofText t).parts := by
  cases a <;> rfl

theorem head?_join_ne_slash {parts : List Text} (h : ∀ part ∈ parts, part ≠ [] ∧ '/' ∉ part) :
    (Text.join ['/'] parts).head? ≠ some '/' := by
  cases parts with
  | nil => simp [Text.join]
  | cons first others =>
    obtain ⟨⟨hne, hslash⟩, -⟩ := List.forall_mem_cons.1 h
    obtain ⟨c, first, rfl⟩ := List.exists_cons_of_ne_nil hne
    have hc : c ≠ '/' := fun hc ↦ hslash (hc ▸ List.mem_cons_self)
    cases others <;> simpa [Text.join, List.intercalate_cons_cons] using hc

theorem parts_ofText_join {parts : List Text} (h : ∀ part ∈ parts, IsPart part) :
    (ofText (Text.join ['/'] parts)).parts = parts := by
  have hall : ∀ part ∈ parts, decide (part ≠ [] ∧ part ≠ dot) = true := fun part hpart ↦
    decide_eq_true ⟨(h part hpart).ne_nil, (h part hpart).ne_dot⟩
  cases parts with
  | nil => rfl
  | cons first others =>
    have hsplit := Text.splitOn_join (List.cons_ne_nil first others)
      fun part hpart ↦ (h part hpart).not_mem_slash
    simp only [ofText, hsplit]
    exact List.filter_eq_self.2 hall

/-- The text of a path, unless it is the one that is written as a dot. -/
theorem text_eq {p : Path} (h : p.parts ≠ []) :
    p.text = p.anchor.text ++ Text.join ['/'] p.parts := by
  obtain ⟨a, parts⟩ := p
  cases parts with
  | nil => exact absurd rfl h
  | cons first others => cases a <;> rfl

theorem ofText_anchor_join (a : Anchor) {parts : List Text} (h : ∀ part ∈ parts, IsPart part) :
    ofText (a.text ++ Text.join ['/'] parts) = ⟨a, parts⟩ := by
  have hanchor := anchor_ofText_append (a := a)
    (head?_join_ne_slash fun part hpart ↦ ⟨(h part hpart).ne_nil, (h part hpart).not_mem_slash⟩)
  have hparts : (ofText (a.text ++ Text.join ['/'] parts)).parts = parts := by
    rw [parts_ofText_append, parts_ofText_join h]
  exact congrArg₂ Path.mk hanchor hparts

/-- **A proper path is read back from its text.** -/
theorem ofText_text {p : Path} (h : p.IsProper) : ofText p.text = p := by
  obtain ⟨a, parts⟩ := p
  cases parts with
  | nil => cases a <;> rfl
  | cons first others =>
    rw [text_eq (List.cons_ne_nil first others)]
    exact ofText_anchor_join a h

/-! ### Artifacts -/

/-- What may be appended to a source: it starts with a dot and stays in the last component. -/
structure IsSuffix (suffix : Text) : Prop where
  head?_eq : suffix.head? = some '.'
  not_mem_slash : '/' ∉ suffix

instance (suffix : Text) : Decidable (IsSuffix suffix) :=
  decidable_of_iff (suffix.head? = some '.' ∧ '/' ∉ suffix)
    ⟨fun h ↦ ⟨h.1, h.2⟩, fun h ↦ ⟨h.head?_eq, h.not_mem_slash⟩⟩

theorem dropLast_concat_name {p : Path} (h : p.parts ≠ []) :
    p.parts.dropLast ++ [p.name] = p.parts := by
  have hname : p.name = p.parts.getLast h := by
    rw [name, List.getLastD_eq_getLast?, List.getLast?_eq_some_getLast h, Option.getD_some]
  rw [hname, List.dropLast_concat_getLast]

theorem name_mem {p : Path} (h : p.parts ≠ []) : p.name ∈ p.parts := by
  rw [← dropLast_concat_name h]
  exact List.mem_append_right _ (List.mem_singleton_self _)

theorem text_append {p : Path} (hne : p.parts ≠ []) (suffix : Text) :
    p.text ++ suffix =
      p.anchor.text ++ Text.join ['/'] (p.parts.dropLast ++ [p.name ++ suffix]) := by
  rw [text_eq hne, List.append_assoc, ← Text.join_concat_append, dropLast_concat_name hne]

/-- The text of a path ends with its name. -/
theorem exists_text_eq {p : Path} (hne : p.parts ≠ []) : ∃ front : Text, p.text = front ++ p.name := by
  rw [text_eq hne, ← dropLast_concat_name hne]
  by_cases hdir : p.parts.dropLast = []
  · exact ⟨p.anchor.text, by simp [hdir, Text.join]⟩
  · refine ⟨p.anchor.text ++ Text.join ['/'] p.parts.dropLast ++ ['/'], ?_⟩
    rw [Text.join_append_singleton _ hdir]
    simp only [List.append_assoc]

section Artifact

variable {suffix : Text} (hslash : '/' ∉ suffix)
include hslash

/-- What is longer than a name is a name. -/
theorem IsName.append {part : Text} (h : IsName part) : IsName (part ++ suffix) := by
  -- dots at the end of a name do not make it one that leads elsewhere
  have hdots : ∀ n, n < 3 → part ≠ List.replicate n '.' := by
    intro n hn
    rcases (by omega : n = 0 ∨ n = 1 ∨ n = 2) with rfl | rfl | rfl
    · exact h.ne_nil
    · exact h.ne_dot
    · exact h.ne_up
  have hne : ∀ n, n < 3 → part ++ suffix ≠ List.replicate n '.' := by
    intro n hn heq
    obtain ⟨hlength, hpart, -⟩ := List.append_eq_replicate_iff.1 heq
    exact hdots part.length (by omega) hpart
  refine ⟨⟨hne 0 (by omega), hne 1 (by omega), ?_⟩, hne 2 (by omega)⟩
  rw [List.mem_append]
  exact not_or.2 ⟨h.not_mem_slash, hslash⟩

variable {p q : Path}

theorem IsPlain.isName_append (h : p.IsPlain) (hne : p.parts ≠ []) : IsName (p.name ++ suffix) :=
  IsName.append hslash (h _ (name_mem hne))

/-- The components of the artifact of a path. -/
theorem IsPlain.isName_of_mem (h : p.IsPlain) (hne : p.parts ≠ []) {part : Text}
    (hpart : part ∈ p.parts.dropLast ++ [p.name ++ suffix]) : IsName part := by
  rcases List.mem_append.1 hpart with hpart | hpart
  · exact h part (List.dropLast_subset _ hpart)
  · rw [List.mem_singleton.1 hpart]
    exact h.isName_append hslash hne

/-- **The artifact of a plain path**: the last component is lengthened. -/
theorem artifact_eq (hne : p.parts ≠ []) (h : p.IsPlain) :
    p.artifact suffix = ⟨p.anchor, p.parts.dropLast ++ [p.name ++ suffix]⟩ := by
  rw [artifact, text_append hne]
  exact ofText_anchor_join _ fun part hpart ↦ (h.isName_of_mem hslash hne hpart).toIsPart

theorem isPlain_artifact (hne : p.parts ≠ []) (h : p.IsPlain) : (p.artifact suffix).IsPlain := by
  rw [artifact_eq hslash hne h]
  exact fun part hpart ↦ h.isName_of_mem hslash hne hpart

theorem text_artifact (hne : p.parts ≠ []) (h : p.IsPlain) :
    (p.artifact suffix).text = p.text ++ suffix := by
  rw [artifact_eq hslash hne h, text_append hne, text_eq (by simp)]

/-- Artifacts at one place belong to sources at one place. -/
theorem parts_eq_of_artifact (hp : p.parts ≠ []) (hplain : p.IsPlain) (hq : q.parts ≠ [])
    (hplain' : q.IsPlain) (h : (p.artifact suffix).parts = (q.artifact suffix).parts) :
    p.parts = q.parts := by
  rw [artifact_eq hslash hp hplain, artifact_eq hslash hq hplain'] at h
  obtain ⟨hdir, hname⟩ := List.append_inj' h rfl
  have hname : p.name = q.name := List.append_cancel_right (List.singleton_inj.1 hname)
  rw [← dropLast_concat_name hp, ← dropLast_concat_name hq, hdir, hname]

end Artifact

/-- **The source of an artifact** is found again. -/
theorem source?_artifact {suffix : Text} (hsuffix : IsSuffix suffix) {p : Path}
    (hne : p.parts ≠ []) (h : p.IsPlain) :
    (p.artifact suffix).source? suffix = some p := by
  have hbefore : Text.before? suffix (p.text ++ suffix) = some p.text := by
    simp [Text.before?]
  have htext : p.text ≠ [] := by
    obtain ⟨front, hfront⟩ := exists_text_eq hne
    rw [hfront]
    exact List.append_ne_nil_of_right_ne_nil _ (h _ (name_mem hne)).ne_nil
  have hsuffix' : suffix ≠ [] := by
    rintro rfl
    exact absurd hsuffix.head?_eq (by simp)
  obtain ⟨c, t, hcons⟩ := List.exists_cons_of_ne_nil htext
  rw [source?, text_artifact hsuffix.not_mem_slash hne h, hbefore, hcons]
  simp only [if_neg hsuffix', ← hcons, ofText_text h.isProper]

end Path

end CssTypings
