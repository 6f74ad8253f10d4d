import CssTypings.Proofs.Stylesheet.Layout
import CssTypings.Proofs.Stylesheet.Masking
import CssTypings.Proofs.Stylesheet.Occurrences

/-!
# One stylesheet behind another

A stylesheet that ends where a block ends may be followed by any text: the names of both together
are those of the first, and then those that only the second has. The second may be anything, also a
text that goes on with `*` or `/`, opens a comment that it does not close, or has braces that do not
match.

The condition on the first sheet is read off its mask. That the mask ends in a `}` says that the
sheet does, and that this `}` is code, since in comments and literals everything is blanked. Then
each stage begins anew behind the seam:

* the masker is back in code (`maskFrom_append_of_getLast?`);
* the splitter stands behind a block, with nothing collected (`Block.split_append_of_getLast?`);
* a name that the first sheet has is not listed again (`eraseDups_append_eq`).
-/

namespace CssTypings.Stylesheet

variable {a : Text}

/-! ### The stages at a seam -/

/-- What ends in a `}` is one or goes on behind its first character. -/
theorem eq_or_getLast?_of_cons {c : Char} {t : Text} (h : (c :: t).getLast? = some '}') :
    c = '}' ∧ t = [] ∨ t.getLast? = some '}' := by
  cases t with
  | nil => exact Or.inl ⟨Option.some.inj h, rfl⟩
  | cons d t => exact Or.inr (by rwa [List.getLast?_cons_cons] at h)

/-- A blank is no `}`, so the text goes on behind it. -/
theorem getLast?_of_cons_blanked {c : Char} {t : Text} (h : (blanked c :: t).getLast? = some '}') :
    t.getLast? = some '}' :=
  (eq_or_getLast?_of_cons h).resolve_left fun hc ↦
    absurd hc.1 (Text.ne_of_pos_of_neg (isBlank_blanked c) (by decide))

/-- Where the mask goes on, the text does, so nothing that is appended to it is looked at yet. -/
theorem exists_cons_of_getLast?_maskFrom {region : Region} {r s b : Text} {c : Char}
    (h : (maskFrom region r).getLast? = some '}') (hs : r ++ b = c :: s) : ∃ s', r = c :: s' := by
  cases r with
  | nil => simp [maskFrom] at h
  | cons d r => exact ⟨r, by rw [(List.cons.inj hs).1]⟩

/-- **Behind a `}` that it keeps, the masker is in code.** -/
theorem maskFrom_append_of_getLast? {region : Region}
    (h : (maskFrom region a).getLast? = some '}') (b : Text) :
    maskFrom region (a ++ b) = maskFrom region a ++ mask b := by
  have hspace {t : Text} (h : (' ' :: t).getLast? = some '}') : t.getLast? = some '}' :=
    getLast?_of_cons_blanked (c := ' ') h
  fun_induction maskFrom region a with
  | case1 => simp at h
  | case2 r ih =>
    rw [List.cons_append, List.cons_append, maskFrom, ih (hspace (hspace h))]
    rfl
  | case3 c r hopen hquote ih =>
    rw [List.cons_append, maskFrom, if_pos hquote, ih (hspace h)]
    · rfl
    · rintro r' rfl hr'
      exact absurd hquote (by decide)
  | case4 c r hopen hcode ih =>
    rcases eq_or_getLast?_of_cons h with ⟨rfl, hr⟩ | hrest
    · have hplaces := forall₂_maskFrom .code trivial r
      rw [hr, List.forall₂_nil_right_iff] at hplaces
      subst hplaces
      rfl
    · rw [List.cons_append, maskFrom, if_neg hcode, ih hrest]
      · rfl
      · rintro r' rfl hr'
        obtain ⟨s, rfl⟩ := exists_cons_of_getLast?_maskFrom hrest hr'
        exact hopen s rfl rfl
  | case5 r ih =>
    rw [List.cons_append, List.cons_append, maskFrom, ih (hspace (hspace h))]
    rfl
  | case6 c r hclose ih =>
    have hrest := getLast?_of_cons_blanked h
    rw [List.cons_append, maskFrom, ih hrest]
    · rfl
    · rintro r' rfl hr'
      obtain ⟨s, rfl⟩ := exists_cons_of_getLast?_maskFrom hrest hr'
      exact hclose s rfl rfl
  | case7 q c r ih =>
    rw [List.cons_append, List.cons_append, maskFrom, ih (getLast?_of_cons_blanked (hspace h))]
    rfl
  | case8 q r hpair ih =>
    have hrest := hspace h
    rw [List.cons_append, maskFrom, if_pos rfl, ih hrest]
    · rfl
    · rintro c r' rfl hr'
      obtain ⟨s, rfl⟩ := exists_cons_of_getLast?_maskFrom hrest hr'
      exact hpair c s rfl rfl
  | case9 q c r hpair hne ih =>
    have hrest := getLast?_of_cons_blanked h
    rw [List.cons_append, maskFrom, if_neg hne, ih hrest]
    · rfl
    · rintro d r' rfl hr'
      obtain ⟨s, rfl⟩ := exists_cons_of_getLast?_maskFrom hrest hr'
      exact hpair d s rfl rfl

/-- A text after which nothing is open: it has balanced braces, and it is empty or ends in a `}`. -/
def Block.Ends (t : Text) : Prop :=
  Balanced '{' '}' t ∧ (t = [] ∨ t.getLast? = some '}')

/-- **Behind a block the splitter begins anew.** -/
theorem Block.exists_split_append (ha : Block.Ends a) :
    ∃ blocks, split a = .ok blocks ∧ ∀ b, split (a ++ b) = (split b).map (blocks ++ ·) := by
  obtain ⟨blocks, hsplit⟩ := exists_split_iff.2 ha.1
  obtain ⟨⟨segments, rest⟩, rfl, rfl⟩ := exists_layout_of_split hsplit
  -- the rest of the layout is empty, since what has a brace at its end is a segment
  have hrest : rest.text = [] := by
    by_contra hne
    have hlast : (Layout.text ⟨segments, rest⟩).getLast? = some (rest.text.getLast hne) := by
      rw [Layout.text, List.getLast?_append_of_ne_nil _ hne, List.getLast?_eq_some_getLast hne]
    have hnot := rest.isBreak_of_mem _ (List.getLast_mem hne)
    rcases ha.2 with hnil | hclose
    · simp [hnil] at hlast
    · rw [hclose, Option.some.injEq] at hlast
      rw [← hlast] at hnot
      exact absurd hnot (by decide)
  refine ⟨_, hsplit, fun b ↦ ?_⟩
  rw [Layout.text, hrest, List.append_nil]
  exact split_segments_append segments b

/-- The names of two texts, the first of which ends where a block ends. -/
theorem occurrences_append_eq_ok_iff (ha : Block.Ends a) {b : Text} {names : List Text} :
    occurrences (a ++ b) = .ok names ↔
      ∃ first others, occurrences a = .ok first ∧ occurrences b = .ok others ∧
        first ++ others = names := by
  obtain ⟨blocks, hsplit, happend⟩ := Block.exists_split_append ha
  rw [occurrences_eq, occurrences_eq, occurrences_eq, happend, hsplit]
  cases Block.split b with
  | error fault => simp [Except.map, bind, Except.bind]
  | ok blocks' =>
    show collect Block.names (blocks ++ blocks') = .ok names ↔ _
    rw [collect_append]
    constructor
    · intro h
      obtain ⟨first, hfirst, h⟩ := exists_of_bind_eq_ok h
      obtain ⟨others, hothers, h⟩ := exists_of_bind_eq_ok h
      exact ⟨first, others, hfirst, hothers, Except.ok.inj h⟩
    · rintro ⟨first, others, hfirst, hothers, rfl⟩
      exact bind_eq_of_ok hfirst (bind_eq_of_ok hothers rfl)

/-! ### The names of both -/

/-- What both sheets export together, if both can be read. -/
theorem exported_append_eq_ok_iff (hend : a = [] ∨ (mask a).getLast? = some '}')
    (hbalanced : Balanced '{' '}' (mask a)) {b : Text} {names : List Text} :
    exported (a ++ b) = .ok names ↔
      ∃ first others, exported a = .ok first ∧ exported b = .ok others ∧
        first ++ others.filter (fun name ↦ decide (name ∉ first)) = names := by
  have hmask : mask (a ++ b) = mask a ++ mask b := by
    rcases hend with rfl | hlast
    · rfl
    · exact maskFrom_append_of_getLast? hlast b
  have hends : Block.Ends (mask a) :=
    ⟨hbalanced, hend.imp_left fun hnil ↦ by rw [hnil]; rfl⟩
  simp only [exported_eq_ok_iff, hmask, occurrences_append_eq_ok_iff hends]
  constructor
  · rintro ⟨-, ⟨first, others, hfirst, hothers, rfl⟩, rfl⟩
    exact ⟨_, _, ⟨first, hfirst, rfl⟩, ⟨others, hothers, rfl⟩, (eraseDups_append_eq _ _).symm⟩
  · rintro ⟨-, -, ⟨first, hfirst, rfl⟩, ⟨others, hothers, rfl⟩, rfl⟩
    exact ⟨_, ⟨first, others, hfirst, hothers, rfl⟩, eraseDups_append_eq _ _⟩

/-- **Extraction from two sheets, one behind the other.** If the first one is empty or ends in a `}`
of its code, and its braces are balanced, then both together have a fault exactly if one of them
has, and otherwise the names of both are those of the first followed by those of the second that the
first does not have. So what is put behind a sheet removes none of its names and does not change
their order. -/
theorem exported_append (hend : a = [] ∨ (mask a).getLast? = some '}')
    (hbalanced : Balanced '{' '}' (mask a)) (b : Text) :
    ((∃ fault, exported (a ++ b) = .error fault) ↔
      (∃ fault, exported a = .error fault) ∨ ∃ fault, exported b = .error fault) ∧
    (∀ first others, exported a = .ok first → exported b = .ok others →
      exported (a ++ b) = .ok (first ++ others.filter fun name ↦ decide (name ∉ first))) ∧
    ∀ first all, exported a = .ok first → exported (a ++ b) = .ok all → first <+: all := by
  have hiff {names : List Text} : exported (a ++ b) = .ok names ↔
      ∃ first others, exported a = .ok first ∧ exported b = .ok others ∧
        first ++ others.filter (fun name ↦ decide (name ∉ first)) = names :=
    exported_append_eq_ok_iff hend hbalanced
  have hboth : (∃ names, exported (a ++ b) = .ok names) ↔
      (∃ first, exported a = .ok first) ∧ ∃ others, exported b = .ok others := by
    constructor
    · rintro ⟨names, h⟩
      obtain ⟨first, others, hfirst, hothers, -⟩ := hiff.1 h
      exact ⟨⟨first, hfirst⟩, others, hothers⟩
    · rintro ⟨⟨first, hfirst⟩, others, hothers⟩
      exact ⟨_, hiff.2 ⟨first, others, hfirst, hothers, rfl⟩⟩
  refine ⟨?_, fun first others hfirst hothers ↦ hiff.2 ⟨_, _, hfirst, hothers, rfl⟩,
    fun first all hfirst hall ↦ ?_⟩
  · rw [exists_error_iff, exists_error_iff, exists_error_iff, hboth, not_and_or]
  · obtain ⟨first', others, hfirst', -, rfl⟩ := hiff.1 hall
    cases hfirst.symm.trans hfirst'
    exact List.prefix_append _ _

/-- A comment with a brace in it and a group of rules. -/
def sampleSheet : Text := "/* \x7d */ @media all \x7b.a \x7b\x7d\x7d".toList

/-- Behind the sheet stands a rule that has its name as well, and a comment that is not closed. -/
theorem exported_append_sample :
    (mask sampleSheet).getLast? = some '}' ∧ Balanced '{' '}' (mask sampleSheet) ∧
      exported (sampleSheet ++ ".b, .a \x7b\x7d /* .c".toList) = .ok ["a".toList, "b".toList] := by
  have hlast : (mask sampleSheet).getLast? = some '}' := by decide
  have hbalanced : Balanced '{' '}' (mask sampleSheet) := Block.exists_split_iff.1 ⟨_, rfl⟩
  have hfirst : exported sampleSheet = .ok ["a".toList] := by decide +kernel
  have hothers : exported ".b, .a \x7b\x7d /* .c".toList = .ok ["b".toList, "a".toList] := by
    decide +kernel
  exact ⟨hlast, hbalanced, (exported_append (Or.inr hlast) hbalanced _).2.1 _ _ hfirst hothers⟩

end CssTypings.Stylesheet
