import CssTypings.Proofs.Config.Checks
import Mathlib.Data.List.Flatten

/-!
# From sources to artifacts and back

Where an artifact stands and which source it leads back to is settled for all absolute paths, also
the root and paths that go up, and for all suffixes that a configuration may set
(`artifact_source?_inverse`). The suffix is put on and taken off on texts, so what has to be
followed is how a text is read as a path.

* In front of the name of a path there is its folder, and whatever is written in place of the name
  is read in that folder (`ofText_folder_append`). So a suffix without a slash lengthens the name
  (`artifact_of_isAbsolute`), and taking it off shortens the name (`source?_of_isAbsolute`). If
  nothing or a lone dot is left, the folder itself is read, and the way back is lost.
* Reading a path drops what has no meaning, and never makes the text longer (`text_ofText_sublist`).
  So an artifact that leads back to its source has the text of the source in front of the suffix
  (`artifact_eq_iff_of_source?`). A slash in the suffix would then be one in the name, if both stood
  in one folder.
-/

namespace CssTypings.Path

variable {p a s : Path} {suffix t : Text}

/-! ### The text of an absolute path -/

/-- What stands in front of the last component of an absolute path. -/
def folder (p : Path) : Text := p.anchor.text ++ p.parts.dropLast.flatMap (· ++ ['/'])

theorem text_of_isAbsolute (h : p.isAbsolute = true) :
    p.text = p.anchor.text ++ Text.join ['/'] p.parts := by
  obtain ⟨anchor, parts⟩ := p
  cases anchor with
  | relative => exact absurd h (by simp [isAbsolute])
  | root | doubleRoot => rfl

theorem text_eq_folder_append (h : p.isAbsolute = true) : p.text = p.folder ++ p.name := by
  rw [text_of_isAbsolute h, folder, List.append_assoc, ← Text.join_concat]
  by_cases hparts : p.parts = []
  · simp [hparts, name, Text.join]
  · rw [dropLast_concat_name hparts]

theorem getLast?_folder (h : p.isAbsolute = true) : p.folder.getLast? = some '/' := by
  obtain ⟨anchor, parts⟩ := p
  rw [folder]
  cases hdir : parts.dropLast.reverse with
  | nil =>
    rw [List.reverse_eq_nil_iff] at hdir
    cases anchor with
    | relative => exact absurd h (by simp [isAbsolute])
    | root | doubleRoot => simp [hdir, Anchor.text]
  | cons last dir =>
    rw [List.reverse_eq_cons_iff] at hdir
    simp [hdir]

theorem not_mem_slash_name (h : p.IsProper) : '/' ∉ p.name := by
  by_cases hparts : p.parts = []
  · simp [name, hparts]
  · exact (h _ (name_mem hparts)).not_mem_slash

/-! ### Reading a name in a folder -/

theorem parts_ofText_append_cons (s t : Text) :
    (ofText (s ++ '/' :: t)).parts = (ofText s).parts ++ (ofText t).parts := by
  simp only [ofText, Text.splitOn_append_cons, List.filter_append]

theorem parts_ofText_of_isPart (h : IsPart t) : (ofText t).parts = [t] := by
  simp [ofText, Text.splitOn_of_not_mem h.not_mem_slash, h.ne_nil, h.ne_dot]

theorem dropLast_append_name (h : p.IsProper) :
    p.parts.dropLast ++ (ofText p.name).parts = p.parts := by
  by_cases hparts : p.parts = []
  · rw [name, hparts]
    rfl
  · rw [parts_ofText_of_isPart (h _ (name_mem hparts)), dropLast_concat_name hparts]

theorem ofText_folder_append (h : p.IsProper) (ht : '/' ∉ t) :
    ofText (p.folder ++ t) = ⟨p.anchor, p.parts.dropLast ++ (ofText t).parts⟩ := by
  have hdir : ∀ part ∈ p.parts.dropLast, IsPart part :=
    fun part hpart ↦ h part (List.dropLast_subset _ hpart)
  have hparts (dir : List Text) (hdir : ∀ part ∈ dir, IsPart part) :
      (ofText (dir.flatMap (· ++ ['/']) ++ t)).parts = dir ++ (ofText t).parts := by
    induction dir with
    | nil => rfl
    | cons first dir ih =>
      obtain ⟨hfirst, hdir⟩ := List.forall_mem_cons.1 hdir
      rw [List.flatMap_cons, List.append_assoc, List.append_assoc, List.singleton_append,
        parts_ofText_append_cons, ih hdir, parts_ofText_of_isPart hfirst]
      rfl
  have hhead : (p.parts.dropLast.flatMap (· ++ ['/']) ++ t).head? ≠ some '/' := by
    cases hcons : p.parts.dropLast with
    | nil => exact fun hmem ↦ ht (List.mem_of_mem_head? hmem)
    | cons first dir =>
      have hfirst := hdir first (by rw [hcons]; exact List.mem_cons_self)
      obtain ⟨c, first, rfl⟩ := List.exists_cons_of_ne_nil hfirst.ne_nil
      intro hmem
      obtain rfl : c = '/' := by simpa using hmem
      exact hfirst.not_mem_slash List.mem_cons_self
  refine congrArg₂ Path.mk ?_ ?_
  · rw [folder, List.append_assoc]
    exact anchor_ofText_append hhead
  · rw [folder, List.append_assoc, ← hparts _ hdir]
    exact parts_ofText_append _ _

/-! ### Reading shortens a text -/

theorem anchor_text_prefix (t : Text) : (Anchor.ofText t).text <+: t := by
  unfold Anchor.ofText
  split <;> simp [Anchor.text]

theorem isAbsolute_ofText (ht : '/' ∈ t.head?) : (ofText t).isAbsolute = true := by
  obtain ⟨r, rfl⟩ := List.head?_eq_some_iff.1 ht
  rw [isAbsolute, decide_eq_true_eq, ofText]
  unfold Anchor.ofText
  split <;> simp_all

/-- **The text of a path is at most as long as the text that the path was read from**, for it is
what is left of it when components without a meaning are dropped. -/
theorem text_ofText_sublist (ht : '/' ∈ t.head?) : List.Sublist (ofText t).text t := by
  obtain ⟨r, hr⟩ := anchor_text_prefix t
  have hparts : (ofText t).parts = (ofText r).parts := by
    conv_lhs => rw [← hr]
    exact parts_ofText_append _ _
  rw [text_of_isAbsolute (isAbsolute_ofText ht), hparts]
  conv_rhs => rw [← hr, ← Text.join_splitOn '/' r]
  exact List.Sublist.append_left (Text.join_sublist List.filter_sublist _) _

theorem mem_head?_text (h : p.isAbsolute = true) : '/' ∈ p.text.head? := by
  obtain ⟨anchor, parts⟩ := p
  cases anchor with
  | relative => exact absurd h (by simp [isAbsolute])
  | root | doubleRoot => rfl

/-! ### Artifacts and their sources -/

theorem source?_eq_some_iff (hsuffix : suffix ≠ []) :
    a.source? suffix = some s ↔ ∃ t, t ≠ [] ∧ a.text = t ++ suffix ∧ s = ofText t := by
  have hbefore {t : Text} : Text.before? suffix a.text = some t ↔ a.text = t ++ suffix := by
    rw [Text.before?, Option.ite_none_right_eq_some, Option.some.injEq, List.isSuffixOf_iff_suffix]
    constructor
    · rintro ⟨⟨r, hr⟩, rfl⟩
      simp [← hr]
    · intro h
      rw [h]
      simp
  simp only [source?, if_neg hsuffix]
  constructor
  · intro h
    split at h
    · cases h
    · cases h
    · next t hne ht => exact ⟨t, hne, hbefore.1 ht, (Option.some.inj h).symm⟩
  · rintro ⟨t, hne, ht, rfl⟩
    obtain ⟨c, t, rfl⟩ := List.exists_cons_of_ne_nil hne
    rw [hbefore.2 ht]

/-- **A source leads back to its artifact when the text that is left without the suffix is the
source's**: both readings shorten a text, and together they must not. -/
theorem artifact_eq_iff_of_source? (ha : a.IsProper) (habsolute : a.isAbsolute = true)
    (hsuffix : suffix.head? = some '.') (h : a.source? suffix = some s) :
    s.artifact suffix = a ↔ a.text = s.text ++ suffix := by
  have hne : suffix ≠ [] := by
    rintro rfl
    cases hsuffix
  obtain ⟨t, htne, ht, rfl⟩ := (source?_eq_some_iff hne).1 h
  constructor
  · intro hartifact
    have hslash : '/' ∈ t.head? := by
      have hhead := mem_head?_text habsolute
      rwa [ht, List.head?_append_of_ne_nil _ htne] at hhead
    have hsource := text_ofText_sublist hslash
    have hslash' : '/' ∈ ((ofText t).text ++ suffix).head? := by
      have hhead := mem_head?_text (isAbsolute_ofText hslash)
      obtain ⟨r, hr⟩ := List.head?_eq_some_iff.1 hhead
      rw [hr]
      rfl
    have hback := (text_ofText_sublist hslash').length_le
    rw [← artifact, hartifact, ht, List.length_append, List.length_append] at hback
    rw [ht, hsource.eq_of_length_le (by omega)]
  · intro htext
    rw [artifact, ← htext, ofText_text ha]

section Plain

variable (hslash : '/' ∉ suffix)
include hslash

/-- **The artifact of an absolute path**: the last component is lengthened, at the root the empty
one. -/
theorem artifact_of_isAbsolute (hs : s.IsProper) (habsolute : s.isAbsolute = true)
    (hsuffix : 2 ≤ suffix.length) :
    s.artifact suffix = ⟨s.anchor, s.parts.dropLast ++ [s.name ++ suffix]⟩ := by
  have hname : '/' ∉ s.name ++ suffix := by
    rw [List.mem_append]
    exact not_or.2 ⟨not_mem_slash_name hs, hslash⟩
  have hlength : 2 ≤ (s.name ++ suffix).length := by
    rw [List.length_append]
    omega
  have hpart : IsPart (s.name ++ suffix) := by
    refine ⟨fun h ↦ ?_, fun h ↦ ?_, hname⟩ <;> exact absurd (h ▸ hlength) (by decide)
  rw [artifact, text_eq_folder_append habsolute, List.append_assoc, ofText_folder_append hs hname,
    parts_ofText_of_isPart hpart]

/-- **The source of an absolute path** has the folder of the path and what is left of the name. If
that is no component, the source is the folder itself. -/
theorem source?_of_isAbsolute (ha : a.IsProper) (habsolute : a.isAbsolute = true)
    (hne : suffix ≠ []) :
    a.source? suffix = some s ↔ ∃ front, a.name = front ++ suffix ∧
      s = ⟨a.anchor, a.parts.dropLast ++ (ofText front).parts⟩ := by
  rw [source?_eq_some_iff hne]
  constructor
  · rintro ⟨t, -, ht, rfl⟩
    -- the suffix begins behind the last slash
    obtain ⟨front, hfront, rfl⟩ : ∃ front, a.name = front ++ suffix ∧ t = a.folder ++ front := by
      rw [text_eq_folder_append habsolute] at ht
      rcases List.append_eq_append_iff.1 ht with ⟨r, rfl, hr⟩ | ⟨r, hr, rfl⟩
      · exact ⟨r, hr, rfl⟩
      · have hlast := getLast?_folder habsolute
        rw [hr] at hlast
        by_cases hnil : r = []
        · exact ⟨[], by simp [hnil], by rw [hr, hnil, List.append_nil, List.append_nil]⟩
        · rw [List.getLast?_append_of_ne_nil _ hnil] at hlast
          exact absurd (List.mem_append_left _ (List.mem_of_getLast? hlast)) hslash
    have hslash' : '/' ∉ front := fun h ↦
      not_mem_slash_name ha (hfront ▸ List.mem_append_left suffix h)
    exact ⟨front, hfront, ofText_folder_append ha hslash'⟩
  · rintro ⟨front, hfront, rfl⟩
    have hslash' : '/' ∉ front := fun h ↦
      not_mem_slash_name ha (hfront ▸ List.mem_append_left suffix h)
    refine ⟨a.folder ++ front, ?_, ?_, (ofText_folder_append ha hslash').symm⟩
    · intro hnil
      have hlast := getLast?_folder habsolute
      rw [(List.append_eq_nil_iff.1 hnil).1] at hlast
      cases hlast
    · rw [text_eq_folder_append habsolute, hfront, List.append_assoc]

/-- The folder of a path is its source only at the root. -/
theorem artifact_parent_eq_iff (ha : a.IsProper) (habsolute : a.isAbsolute = true)
    (hparts : a.parts ≠ []) (hsuffix : 2 ≤ suffix.length) :
    a.parent.artifact suffix = a ↔ a.parts.length = 1 ∧ a.name = suffix := by
  have hproper : a.parent.IsProper := fun part hpart ↦ ha part (List.dropLast_subset _ hpart)
  have hlength : a.parts.dropLast.length + 1 = a.parts.length := by
    rw [← dropLast_concat_name hparts]
    simp
  rw [artifact_of_isAbsolute hslash hproper habsolute hsuffix]
  constructor
  · intro h
    have heq : a.parent.parts.dropLast ++ [a.parent.name ++ suffix] = a.parts :=
      congrArg Path.parts h
    have hdir : a.parts.dropLast = [] := by
      have hcount := congrArg List.length heq
      simp only [parent, List.length_append, List.length_dropLast, List.length_singleton] at hcount
      rw [← List.length_eq_zero_iff, List.length_dropLast]
      omega
    have hname : [suffix] = a.parts.dropLast ++ [a.name] := by
      rw [dropLast_concat_name hparts, ← heq]
      simp [parent, name, hdir]
    rw [hdir] at hname hlength
    exact ⟨hlength.symm, (List.singleton_inj.1 hname).symm⟩
  · rintro ⟨hone, rfl⟩
    have hdir : a.parts.dropLast = [] := List.length_eq_zero_iff.1 (by omega)
    have hself := dropLast_concat_name hparts
    rw [hdir] at hself
    refine congrArg₂ Path.mk rfl ?_
    rw [← hself]
    simp [parent, name, hdir]

/-- **When a source leads back to its artifact**: something is left of the name without the suffix,
and it is no lone dot. At the root nothing need be left. -/
theorem artifact_eq_iff_name (ha : a.IsProper) (habsolute : a.isAbsolute = true)
    (hsuffix : 2 ≤ suffix.length) (h : a.source? suffix = some s) :
    s.artifact suffix = a ↔
      a.name ≠ '.' :: suffix ∧ (a.name = suffix → a.parts.length = 1) := by
  have hne : suffix ≠ [] := by
    rintro rfl
    exact absurd hsuffix (by decide)
  obtain ⟨front, hfront, rfl⟩ := (source?_of_isAbsolute hslash ha habsolute hne).1 h
  have hparts : a.parts ≠ [] := by
    intro hnil
    rw [name, hnil] at hfront
    exact List.append_ne_nil_of_right_ne_nil front hne hfront.symm
  have hfolder (hnone : (ofText front).parts = []) :
      (⟨a.anchor, a.parts.dropLast ++ (ofText front).parts⟩ : Path) = a.parent := by
    rw [hnone, List.append_nil]
    rfl
  by_cases hempty : front = []
  · have hself : a.name = suffix := by rw [hfront, hempty, List.nil_append]
    rw [hfolder (by rw [hempty]; rfl), artifact_parent_eq_iff hslash ha habsolute hparts hsuffix]
    simp [hself]
  by_cases hdot : front = dot
  · have hself : a.name = '.' :: suffix := by rw [hfront, hdot]; rfl
    rw [hfolder (by rw [hdot]; rfl), artifact_parent_eq_iff hslash ha habsolute hparts hsuffix]
    simp [hself]
  -- otherwise the front of the name is the name of the source
  have hpart : IsPart front := by
    refine ⟨hempty, hdot, fun hmem ↦ not_mem_slash_name ha ?_⟩
    rw [hfront]
    exact List.mem_append_left suffix hmem
  have hproper : (⟨a.anchor, a.parts.dropLast ++ (ofText front).parts⟩ : Path).IsProper := by
    intro part hmem
    rcases List.mem_append.1 hmem with hmem | hmem
    · exact ha part (List.dropLast_subset _ hmem)
    · exact isProper_ofText front part hmem
  refine iff_of_true ?_ ⟨?_, ?_⟩
  · rw [artifact_of_isAbsolute hslash hproper habsolute hsuffix]
    refine congrArg₂ Path.mk rfl ?_
    rw [← dropLast_concat_name hparts, hfront, parts_ofText_of_isPart hpart]
    simp [name]
  · rw [hfront]
    intro h
    have hsame : front ++ suffix = dot ++ suffix := h
    exact hdot (List.append_cancel_right hsame)
  · rw [hfront]
    exact fun h ↦ absurd (List.append_left_eq_self.1 h) hempty

end Plain

/-! ### Accepted suffixes -/

/-- **When the artifact belongs to the source**, for any suffix that a configuration may set: the
artifact stands beside the source and leads back to it just if there is no slash in the suffix. -/
theorem artifact_beside_iff (hsuffix : suffix.head? = some '.') (hlength : 2 ≤ suffix.length)
    (hs : s.IsProper) (habsolute : s.isAbsolute = true) :
    (s.artifact suffix).parent = s.parent ∧ (s.artifact suffix).source? suffix = some s ↔
      '/' ∉ suffix := by
  have hne : suffix ≠ [] := by
    rintro rfl
    cases hsuffix
  have hproper : (s.artifact suffix).IsProper := isProper_ofText _
  have hartifact : (s.artifact suffix).isAbsolute = true := by
    refine isAbsolute_ofText ?_
    obtain ⟨r, hr⟩ := List.head?_eq_some_iff.1 (mem_head?_text habsolute)
    rw [hr]
    rfl
  constructor
  · rintro ⟨hparent, hsource⟩ hslash
    have htext := (artifact_eq_iff_of_source? hproper hartifact hsuffix hsource).1 rfl
    have hfolder : (s.artifact suffix).folder = s.folder := by
      obtain ⟨hanchor, hdir⟩ := Path.mk.inj hparent
      rw [folder, folder, hanchor, hdir]
    rw [text_eq_folder_append hartifact, text_eq_folder_append habsolute, hfolder,
      List.append_assoc] at htext
    refine not_mem_slash_name hproper ?_
    rw [List.append_cancel_left htext]
    exact List.mem_append_right s.name hslash
  · intro hslash
    have heq := artifact_of_isAbsolute hslash hs habsolute hlength
    refine ⟨by rw [heq]; simp [parent], ?_⟩
    refine (source?_of_isAbsolute hslash hproper hartifact hne).2 ⟨s.name, ?_, ?_⟩
    · rw [heq]
      simp [name]
    · rw [heq, List.dropLast_concat, dropLast_append_name hs]

/-- **Sources and their artifacts**, for any suffix that a configuration may set.

* An artifact stands beside its source and leads back to it just if there is no slash in the suffix.
* A source leads back to its artifact just if the text that was left without the suffix is its own.
* For a suffix without a slash that means that more than a lone dot is left of the name, or nothing
  at the root. -/
theorem artifact_source?_inverse (h : Config.checkSuffix (.text suffix) = .ok suffix) :
    (∀ s : Path, s.IsProper → s.isAbsolute = true →
      ((s.artifact suffix).parent = s.parent ∧ (s.artifact suffix).source? suffix = some s ↔
        '/' ∉ suffix)) ∧
    (∀ a s : Path, a.IsProper → a.isAbsolute = true → a.source? suffix = some s →
      (s.artifact suffix = a ↔ a.text = s.text ++ suffix)) ∧
    ('/' ∉ suffix → ∀ a s : Path, a.IsProper → a.isAbsolute = true → a.source? suffix = some s →
      (s.artifact suffix = a ↔
        a.name ≠ '.' :: suffix ∧ (a.name = suffix → a.parts.length = 1))) := by
  obtain ⟨-, hhead, hlength⟩ := Config.checkSuffix_eq_ok_iff.1 h
  exact ⟨fun s hs habsolute ↦ artifact_beside_iff hhead hlength hs habsolute,
    fun a s ha habsolute hsource ↦ artifact_eq_iff_of_source? ha habsolute hhead hsource,
    fun hslash a s ha habsolute hsource ↦
      artifact_eq_iff_name hslash ha habsolute hlength hsource⟩

/-- The artifact of `/x/..` is `/x/...flow`, and back. A file with the bare name `.flow` has its
folder for a source, whose artifact is another file. -/
theorem artifact_source?_inverse_flow :
    ((ofText "/x/..".toList).artifact ".flow".toList).source? ".flow".toList =
        some (ofText "/x/..".toList) ∧
      (ofText "/x/.flow".toList).source? ".flow".toList = some (ofText "/x".toList) ∧
      (ofText "/x".toList).artifact ".flow".toList ≠ ofText "/x/.flow".toList := by
  have haccepted : Config.checkSuffix (.text ".flow".toList) = .ok ".flow".toList := by decide
  have hslash : '/' ∉ ".flow".toList := by decide
  have hsource : (ofText "/x/.flow".toList).source? ".flow".toList = some (ofText "/x".toList) := by
    decide
  have hinverse := artifact_source?_inverse haccepted
  refine ⟨((hinverse.1 (ofText "/x/..".toList) (isProper_ofText _) (by decide)).2 hslash).2, hsource,
    fun hartifact ↦ ?_⟩
  have hname := (hinverse.2.2 hslash _ _ (isProper_ofText _) (by decide) hsource).1 hartifact
  exact absurd (hname.2 (by decide)) (by decide)

end CssTypings.Path
