import CssTypings.Proofs.Declaration
import CssTypings.Proofs.Stylesheet.AtRules
import CssTypings.Proofs.Stylesheet.Identifiers
import CssTypings.Proofs.Stylesheet.Layout
import CssTypings.Proofs.Stylesheet.Masking
import CssTypings.Proofs.Stylesheet.Occurrences
import CssTypings.Proofs.Stylesheet.Pieces
import Mathlib.Data.List.Nodup

/-!
# Where exported names come from

A name is what an identifier of the text stands for, and the identifier is written there in one
piece. It has its place in front of a block: directly behind a `.` or `#`, or in the prelude of an
animation. The places are followed through the stages, each of which takes contiguous parts of what
it is given:

* scanning a selector (`Selector.exists_marked_of_mem_namesFrom`), also inside of `:local(…)`;
* splitting at commas and trimming (`Selector.exists_marked_of_mem_listNames`);
* reading the name of an animation (`AtRule.exists_raw_of_animation?`);
* splitting at braces, at any depth (`exists_source_of_mem_occurrences`).

What the earlier stages keep back can therefore not be part of a name: no exported name has a quote
in it, since quotes are masked, nor a brace or a semicolon, since these end what stands in front of
a block (`forall_mem_of_mem_exported`). Nor is the end of a line, which not even a backslash brings
into an identifier, so the declaration has one line for each name (`exported_origin`).
-/

namespace CssTypings.Stylesheet

open Identifier (IsRaw unescape)

/-- The text has the identifier in it, directly behind a `.` or `#`. -/
def IsMarked (t raw : Text) : Prop := ∃ mark, (mark = '.' ∨ mark = '#') ∧ mark :: raw <:+: t

variable {t u raw : Text}

theorem IsMarked.mono (h : IsMarked t raw) (ht : t <:+: u) : IsMarked u raw := by
  obtain ⟨mark, hmark, hinfix⟩ := h
  exact ⟨mark, hmark, hinfix.trans ht⟩

theorem IsMarked.isInfix (h : IsMarked t raw) : raw <:+: t := by
  obtain ⟨mark, -, hinfix⟩ := h
  exact (List.suffix_cons mark raw).isInfix.trans hinfix

/-! ### Selectors -/

theorem Scope.suffix_of_scan? {scope : Scope} {t rest : Text}
    (h : scan? t = some (scope, rest)) : rest <:+ t :=
  ⟨scope.keyword, (eq_append_of_scan? h).symm⟩

namespace Piece

variable {selector rest : Text} {c : Char} {piece : Piece}

theorem append_of_bracket {o c : Char} {inside : Text}
    (h : bracket selector o c t = .ok (inside, rest)) : inside ++ c :: rest = t := by
  unfold bracket at h
  split at h
  · next hsplit =>
    cases h
    exact append_of_splitAtClose hsplit
  · contradiction

/-- Where the first piece of `t` is taken from, if `rest` follows it. -/
def TakenFrom (t rest : Text) : Piece → Prop
  | group _ inside => inside ++ ')' :: rest <:+ t
  | name raw => IsRaw raw ∧ ∃ mark, (mark = '.' ∨ mark = '#') ∧ mark :: raw ++ rest = t
  | switch _ | other => rest <:+ t

/-- **A piece and the rest are parts of the text.** -/
theorem takenFrom_of_next (h : next selector c t = .ok (piece, rest)) :
    piece.TakenFrom (c :: t) rest := by
  have hskip : t <:+ c :: t := List.suffix_cons c t
  rcases next_cases selector c t with ⟨scope, r, hscan, hnext⟩ | ⟨scope, r, hscan, hnext⟩ | ⟨-, hnext⟩ |
    ⟨raw, r, hmark, hscan, hnext⟩ | ⟨r, hsuffix, hnext⟩ <;> rw [hnext] at h
  · obtain ⟨⟨inside, r'⟩, hbracket, heq⟩ := exists_of_map_eq_ok h
    cases heq
    rw [TakenFrom, append_of_bracket hbracket]
    exact (List.suffix_cons '(' r).trans (Scope.suffix_of_scan? hscan)
  · cases h
    exact Scope.suffix_of_scan? hscan
  · obtain ⟨⟨inside, r'⟩, hbracket, heq⟩ := exists_of_map_eq_ok h
    cases heq
    refine List.IsSuffix.trans ?_ hskip
    rw [← append_of_bracket hbracket]
    exact (List.suffix_cons ']' _).trans (List.suffix_append inside _)
  · cases h
    refine ⟨Identifier.isRaw_of_scan? hscan, c, hmark, ?_⟩
    rw [List.cons_append, Identifier.append_of_scan? hscan]
  · cases h
    exact hsuffix.trans hskip

theorem TakenFrom.rest_suffix (h : piece.TakenFrom t rest) : rest <:+ t := by
  cases piece with
  | group scope inside =>
    exact ((List.suffix_cons ')' rest).trans (List.suffix_append inside _)).trans h
  | name raw =>
    obtain ⟨-, mark, -, rfl⟩ := h
    exact List.suffix_append _ rest
  | switch _ | other => exact h

end Piece

namespace Selector

/-- **The names of a selector are marked in it.** -/
theorem exists_marked_of_mem_namesFrom {selector : Text} {scope : Scope} {names : List Text}
    (h : namesFrom selector scope t = .ok names) {name : Text} (hmem : name ∈ names) :
    ∃ raw, IsRaw raw ∧ unescape raw = name ∧ IsMarked t raw := by
  obtain ⟨n, hn⟩ : ∃ n, t.length = n := ⟨_, rfl⟩
  induction n using Nat.strong_induction_on generalizing t selector scope names with
  | _ n ih =>
    subst hn
    cases t with
    | nil =>
      rw [namesFrom_nil] at h
      cases h
      simp at hmem
    | cons c r =>
      rw [namesFrom_cons] at h
      obtain ⟨⟨piece, rest⟩, hnext, h⟩ := exists_of_bind_eq_ok h
      obtain ⟨first, hfirst, h⟩ := exists_of_bind_eq_ok h
      obtain ⟨others, hothers, h⟩ := exists_of_bind_eq_ok h
      cases h
      have hlength := Piece.length_le_of_next hnext
      have htaken := Piece.takenFrom_of_next hnext
      rcases List.mem_append.1 hmem with hmem | hmem
      · rcases piece.names_cases scope with ⟨inside, rfl, hnames⟩ | ⟨raw, rfl, hnames⟩ | hnames <;>
          rw [hnames] at hfirst
        · simp only [Piece.insideLength] at hlength
          obtain ⟨raw, hraw, hname, hmarked⟩ :=
            ih inside.length (by simp only [List.length_cons]; omega) hfirst hmem rfl
          refine ⟨raw, hraw, hname, hmarked.mono ?_⟩
          exact (List.prefix_append inside _).isInfix.trans htaken.isInfix
        · cases hfirst
          obtain ⟨hraw, mark, hmark, htext⟩ := htaken
          refine ⟨raw, hraw, (List.mem_singleton.1 hmem).symm, mark, hmark, ?_⟩
          exact htext ▸ (List.prefix_append _ rest).isInfix
        · cases hfirst
          simp at hmem
      · obtain ⟨raw, hraw, hname, hmarked⟩ :=
          ih rest.length (by simp only [List.length_cons]; omega) hothers hmem rfl
        exact ⟨raw, hraw, hname, hmarked.mono htaken.rest_suffix.isInfix⟩

theorem eq_or_mem_of_mem_modifyHead {f : Text → Text} {part : Text} {parts : List Text}
    (h : part ∈ parts.modifyHead f) : (∃ head ∈ parts, f head = part) ∨ part ∈ parts := by
  cases parts with
  | nil => exact Or.inr h
  | cons head parts =>
    rcases List.mem_cons.1 h with rfl | h
    · exact Or.inl ⟨head, List.mem_cons_self, rfl⟩
    · exact Or.inr (List.mem_cons_of_mem head h)

theorem sublist_of_mem_splitFrom {depth : Nat} {part : Text} (h : part ∈ splitFrom depth t) :
    List.Sublist part t :=
  ((prefix_and_infix_of_splitFrom depth t).2 part h).sublist

/-- **A name in a list of selectors is marked in one of its parts.** -/
theorem exists_marked_of_mem_listNames {names : List Text} (h : listNames t = .ok names)
    {name : Text} (hmem : name ∈ names) :
    ∃ part ∈ splitFrom 0 t, ∃ raw, IsRaw raw ∧ unescape raw = name ∧ IsMarked part raw := by
  rw [listNames_eq] at h
  obtain ⟨part, hpart, first, hfirst, hmem⟩ := exists_of_mem_collect h hmem
  obtain ⟨raw, hraw, hname, hmarked⟩ := exists_marked_of_mem_namesFrom hfirst hmem
  exact ⟨part, hpart, raw, hraw, hname, hmarked.mono (Text.trim_infix part)⟩

theorem exists_part_of_mem_listNames {names : List Text} (h : listNames t = .ok names)
    {name : Text} (hmem : name ∈ names) : ∃ part ∈ splitFrom 0 t, List.Sublist name part := by
  obtain ⟨part, hpart, raw, -, rfl, hmarked⟩ := exists_marked_of_mem_listNames h hmem
  exact ⟨part, hpart, (Identifier.unescape_sublist raw).trans hmarked.isInfix.sublist⟩

end Selector

/-! ### Animations -/

namespace AtRule

theorem isInfix_unwrapped (argument : Text) : unwrapped argument <:+: argument := by
  rw [unwrapped]
  split
  · next r hopen =>
    rw [Text.eq_append_of_after? hopen]
    exact (List.dropWhile_suffix _).isInfix.trans (List.suffix_append _ _).isInfix
  · exact List.infix_rfl

theorem exists_raw_of_animation? {argument name : Text} (h : animation? argument = some name) :
    ∃ raw, IsRaw raw ∧ unescape raw = name ∧ raw <:+: argument := by
  rw [animation?_eq, Option.bind_eq_some_iff] at h
  obtain ⟨⟨raw, rest⟩, hscan, h⟩ := h
  refine ⟨raw, Identifier.isRaw_of_scan? hscan, ?_, List.IsInfix.trans ?_ (isInfix_unwrapped argument)⟩
  · by_cases hclosed : rest.trimLeft = [] ∨ rest.trimLeft = [')']
    · rw [closed?_of_eq hclosed] at h
      exact Option.some.inj h
    · rw [not_or] at hclosed
      rw [closed?_of_ne hclosed.1 hclosed.2] at h
      contradiction
  · rw [← Identifier.append_of_scan? hscan]
    exact (List.prefix_append raw rest).isInfix

theorem isInfix_argument {prelude : Text} {rule : AtRule} (h : ofPrelude? prelude = some rule) :
    rule.argument <:+: prelude := by
  by_cases hat : prelude.head? = some '@'
  · obtain ⟨r, rfl⟩ := List.head?_eq_some_iff.1 hat
    rw [ofPrelude?_cons, Option.ite_none_left_eq_some] at h
    obtain ⟨-, hrule⟩ := h
    rw [← Option.some.inj hrule]
    exact (Text.trim_infix _).trans
      ((List.dropWhile_suffix _).trans (List.suffix_cons '@' r)).isInfix
  · rw [ofPrelude?_eq_none hat] at h
    contradiction

theorem keyframes_suffix_of_role {rule : AtRule} (h : rule.role = .keyframes) :
    "keyframes".toList <:+ rule.keyword := by
  unfold role at h
  split at h
  · next hsuffix => exact List.isSuffixOf_iff_suffix.1 hsuffix
  · split at h <;> cases h

end AtRule

/-! ### Blocks -/

/-- What stands in front of a block somewhere in the text: all of it up to the opening brace, from
the next brace or semicolon in front or else from the start of the text. -/
def IsHead (prelude t : Text) : Prop :=
  (∀ c ∈ prelude, Block.isBreak c = false) ∧
    ∃ front behind, t = front ++ (prelude ++ '{' :: behind) ∧
      ∀ c ∈ front.getLast?, Block.isBreak c = true

/-- The prelude of an animation. -/
def IsAnimationHead (prelude : Text) : Prop :=
  ∃ rule, AtRule.ofPrelude? (Text.trim prelude) = some rule ∧ "keyframes".toList <:+ rule.keyword

/-- The name is exported for an identifier in the given prelude: it stands behind a `.` or `#`, or
the prelude is that of an animation. -/
def IsSource (prelude name : Text) : Prop :=
  ∃ raw, IsRaw raw ∧ unescape raw = name ∧
    (IsMarked prelude raw ∨ raw <:+: prelude ∧ IsAnimationHead prelude)

theorem IsSource.ne_nil {prelude name : Text} (h : IsSource prelude name) : name ≠ [] := by
  obtain ⟨raw, hraw, rfl, -⟩ := h
  exact Identifier.unescape_ne_nil hraw.ne_nil

theorem IsSource.newline_not_mem {prelude name : Text} (h : IsSource prelude name) :
    '\n' ∉ name := by
  obtain ⟨raw, hraw, rfl, -⟩ := h
  exact fun hmem ↦ hraw.newline_not_mem ((Identifier.unescape_sublist raw).subset hmem)

theorem IsHead.isInfix {prelude : Text} (h : IsHead prelude t) : prelude <:+: t := by
  obtain ⟨-, front, behind, rfl, -⟩ := h
  exact ⟨front, '{' :: behind, by simp⟩

/-- What stands in front of a block in a body does so in the text around the body. -/
theorem IsHead.of_body {prelude outer front body behind : Text} (h : IsHead prelude body) :
    IsHead prelude (front ++ (outer ++ '{' :: (body ++ '}' :: behind))) := by
  obtain ⟨hprelude, front', behind', rfl, hfront'⟩ := h
  refine ⟨hprelude, front ++ (outer ++ '{' :: front'), behind' ++ '}' :: behind, by simp, ?_⟩
  intro c hc
  cases front' with
  | nil =>
    have hopen : c = '{' := by simpa [← List.append_assoc] using hc.symm
    rw [hopen]
    decide
  | cons d front' =>
    refine hfront' c ?_
    rw [List.getLast?_append_of_ne_nil _ (by simp), List.getLast?_append_of_ne_nil _ (by simp),
      List.getLast?_cons_cons] at hc
    exact hc

/-- **The names of a text have a source in front of one of its blocks**, at any depth. -/
theorem exists_source_of_mem_occurrences {names : List Text} (h : occurrences t = .ok names)
    {name : Text} (hmem : name ∈ names) : ∃ prelude, IsHead prelude t ∧ IsSource prelude name := by
  obtain ⟨n, hn⟩ : ∃ n, t.length = n := ⟨_, rfl⟩
  induction n using Nat.strong_induction_on generalizing t names with
  | _ n ih =>
    subst hn
    rw [occurrences_eq] at h
    obtain ⟨blocks, hsplit, h⟩ := exists_of_bind_eq_ok h
    obtain ⟨block, hblock, first, hfirst, hmem⟩ := exists_of_mem_collect h hmem
    obtain ⟨front, prelude, behind, htext, hfront, htrim, -⟩ :=
      Block.exists_append_of_mem_split hsplit hblock
    have hhead : IsHead prelude.text t := ⟨prelude.isBreak_of_mem, front, _, htext, hfront⟩
    have hinfix : block.prelude <:+: prelude.text := htrim ▸ Text.trim_infix _
    -- a name has its source in the prelude of the block or, if the block is a group, in its body
    rcases block.names_cases with hnames | ⟨rule, hrule, hrole, hnames⟩ | hnames | hnames <;>
      rw [hnames] at hfirst
    · obtain ⟨part, hpart, raw, hraw, hname, hmarked⟩ :=
        Selector.exists_marked_of_mem_listNames hfirst hmem
      have hpart := (Selector.prefix_and_infix_of_splitFrom 0 block.prelude).2 part hpart
      exact ⟨_, hhead, raw, hraw, hname, Or.inl (hmarked.mono (hpart.trans hinfix))⟩
    · cases hfirst
      obtain ⟨raw, hraw, hname, hargument⟩ :=
        AtRule.exists_raw_of_animation? (Option.mem_toList.1 hmem)
      refine ⟨_, hhead, raw, hraw, hname, Or.inr ⟨?_, rule, ?_, ?_⟩⟩
      · exact hargument.trans ((AtRule.isInfix_argument hrule).trans hinfix)
      · exact htrim ▸ hrule
      · exact AtRule.keyframes_suffix_of_role hrole
    · obtain ⟨inner, hinner, hsource⟩ :=
        ih _ (Block.length_body_lt_of_mem_split hsplit hblock) hfirst hmem rfl
      exact ⟨inner, htext ▸ hinner.of_body, hsource⟩
    · cases hfirst
      simp at hmem

/-! ### Exported names -/

variable {css : Text} {names : List Text}

/-- **An exported name has a source in the masked text.** -/
theorem exists_source_of_mem_exported (h : exported css = .ok names) {name : Text}
    (hmem : name ∈ names) : ∃ prelude, IsHead prelude (mask css) ∧ IsSource prelude name := by
  obtain ⟨all, hall, rfl⟩ := exported_eq_ok_iff.1 h
  exact exists_source_of_mem_occurrences hall (List.mem_eraseDups.1 hmem)

/-- **An exported name has no quote, brace or semicolon in it**, escaped or not. -/
theorem forall_mem_of_mem_exported (h : exported css = .ok names) :
    ∀ name ∈ names, ∀ c ∈ name, isQuote c = false ∧ Block.isBreak c = false := by
  intro name hmem c hc
  obtain ⟨prelude, hhead, raw, -, rfl, hraw⟩ := exists_source_of_mem_exported h hmem
  have hinfix : raw <:+: prelude := hraw.elim IsMarked.isInfix And.left
  have hc := hinfix.subset ((Identifier.unescape_sublist raw).subset hc)
  exact ⟨isQuote_of_mem_maskFrom .code css c (hhead.isInfix.subset hc), hhead.1 c hc⟩

/-- **Extraction invents nothing, and the declaration has a line for each name.** The exported names
are different from each other. Each of them is a text on one line that is not empty, and it is what
an identifier stands for that is written in the masked text in one piece, in front of a block:
behind a `.` or `#`, or in the prelude of an animation. So the declaration of the names has a line
for each of them, with three lines in front and one behind, and the keys on the lines of the names
are different from each other. -/
theorem exported_origin (h : exported css = .ok names) :
    names.Nodup ∧
    (∀ name ∈ names, name ≠ [] ∧ '\n' ∉ name ∧
      ∃ prelude, IsHead prelude (mask css) ∧ IsSource prelude name) ∧
    Text.splitOn '\n' (Declaration.document names) = Declaration.lines names ++ [[]] ∧
    (Declaration.lines names).length = names.length + 4 ∧
    (∃ front back : List Text, front.length = 3 ∧ back.length = 1 ∧
      Declaration.lines names = front ++ names.map Declaration.property ++ back) ∧
    (names.map fun name ↦ name.flatMap Declaration.escape).Nodup := by
  have hnodup : names.Nodup := by
    obtain ⟨all, -, rfl⟩ := exported_eq_ok_iff.1 h
    exact nodup_eraseDups all
  have hnames : ∀ name ∈ names, name ≠ [] ∧ '\n' ∉ name ∧
      ∃ prelude, IsHead prelude (mask css) ∧ IsSource prelude name := by
    intro name hmem
    obtain ⟨prelude, hhead, hsource⟩ := exists_source_of_mem_exported h hmem
    exact ⟨hsource.ne_nil, hsource.newline_not_mem, prelude, hhead, hsource⟩
  obtain ⟨front, back, hfront, hback, hlines⟩ := Declaration.exists_lines_eq
  exact ⟨hnodup, hnames, Declaration.splitOn_document fun name hmem ↦ (hnames name hmem).2.1,
    Declaration.length_lines names, ⟨front, back, hfront, hback, hlines names⟩,
    List.Nodup.map Declaration.flatMap_escape_injective hnodup⟩

/-- A sheet with an escape, a scope and an animation. -/
def animatedSheet : Text :=
  "@media all \x7b:local(.\\31 a), b \x7b\x7d\x7d @-webkit-keyframes spin \x7b\x7d".toList

/-- The escape is undone, so the name starts with a digit. The declaration has six lines, and those
in the middle are for the two names. -/
theorem exported_origin_animatedSheet :
    exported animatedSheet = .ok ["31".toList, "spin".toList] ∧
      (∃ prelude, IsHead prelude (mask animatedSheet) ∧ IsSource prelude "31".toList) ∧
      (∃ front back : List Text, front.length = 3 ∧ back.length = 1 ∧
        Text.splitOn '\n' (Declaration.document ["31".toList, "spin".toList]) =
          front ++ ["  +'31': string;".toList, "  +'spin': string;".toList] ++ back ++ [[]]) ∧
      (Declaration.lines ["31".toList, "spin".toList]).length = 6 ∧
      ["31".toList, "spin".toList].Nodup := by
  have h : exported animatedSheet = .ok ["31".toList, "spin".toList] := by decide +kernel
  obtain ⟨-, hnames, hsplit, hlength, ⟨front, back, hfront, hback, hlines⟩, hkeys⟩ :=
    exported_origin h
  have hproperties : ["31".toList, "spin".toList].map Declaration.property =
      ["  +'31': string;".toList, "  +'spin': string;".toList] := by decide
  have hwritten : ["31".toList, "spin".toList].map (fun name ↦ name.flatMap Declaration.escape) =
      ["31".toList, "spin".toList] := by decide
  rw [hwritten] at hkeys
  rw [hlines, hproperties] at hsplit
  exact ⟨h, (hnames _ List.mem_cons_self).2.2, ⟨front, back, hfront, hback, hsplit⟩, hlength, hkeys⟩

end CssTypings.Stylesheet
