import CssTypings.Glob.Exclude
import CssTypings.Proofs.Glob.Literals
import CssTypings.Proofs.Text.Parts

/-!
# Patterns of directories

A wildcard knows nothing of components: a star goes across slashes, and a text between two stars is
found wherever it stands (`wildcard_stars`). What makes `**/lib/**` a pattern of directories are the
slashes that the names have on both sides. Between two slashes there are whole components and
nothing else, so the names are found where they are components in a row (`enclosed_infix_iff`). The
slash behind the last name leaves the last component of the path out, and the slash that ignored
paths are also read with lets the first component in.
-/

namespace CssTypings.Glob

variable {t x : Text} {names parts : List Text}

namespace Token

/-! ### Texts between stars -/

theorem contains_advance_star {left : List Text} :
    (advance left star).contains [] = true ↔ left ≠ [] := by
  cases left with
  | nil => simp [advance]
  | cons longest others => simp [advance, Text.mem_suffixes]

/-- A second star leaves what the first one did. -/
theorem advance_star_star (left : List Text) :
    advance (advance left star) star = advance left star := by
  match left with
  | [] => rfl
  | [] :: _ => rfl
  | (_ :: _) :: _ => rfl

theorem read_stars (h : ∀ c ∈ t, isMagic c = false) :
    read (['*', '*'] ++ (t ++ ['*', '*'])) = star :: star :: (literal t ++ [star, star]) := by
  have hstars : ∀ r, readFrom none (['*', '*'] ++ r) = star :: star :: readFrom none r := by
    intro r
    simp [readFrom]
  have hlast : readFrom none ['*', '*'] = [star, star] := hstars []
  rw [read, hstars, readFrom_append h, hlast]

end Token

/-- **A text between stars** matches what the text occurs in. -/
theorem wildcard_stars (h : ∀ c ∈ t, isMagic c = false) :
    wildcard (['*', '*'] ++ (t ++ ['*', '*'])) x = true ↔ t <:+: x := by
  rw [wildcard, Token.read_stars h]
  simp only [List.foldl_cons, List.foldl_append, List.foldl_nil]
  rw [Token.advance_star_star, Token.advance_star_star, Token.contains_advance_star,
    Token.foldl_advance_literal]
  constructor
  · intro hne
    obtain ⟨behind, hbehind⟩ := List.exists_mem_of_ne_nil _ hne
    obtain ⟨s, hs, hafter⟩ := List.mem_filterMap.1 hbehind
    have hprefix : t <+: s := ⟨behind, (Text.after?_eq_some.1 hafter).symm⟩
    exact hprefix.isInfix.trans (Text.mem_suffixes.1 hs).isInfix
  · rintro ⟨before, behind, rfl⟩
    have hsuffix : t ++ behind <:+ before ++ t ++ behind := by
      rw [List.append_assoc]
      exact List.suffix_append before _
    exact List.ne_nil_of_mem (List.mem_filterMap.2
      ⟨t ++ behind, Text.mem_suffixes.2 hsuffix, Text.after?_eq_some.2 rfl⟩)

/-! ### Components between slashes -/

/-- The names as components that are followed by others, with the slashes on both sides. -/
def enclosed (names : List Text) : Text := names.flatMap ('/' :: ·) ++ ['/']

theorem not_isMagic_of_mem_enclosed (h : ∀ name ∈ names, ∀ c ∈ name, isMagic c = false) :
    ∀ c ∈ enclosed names, isMagic c = false := by
  intro c hc
  rcases List.mem_append.1 hc with hc | hc
  · obtain ⟨name, hname, hc⟩ := List.mem_flatMap.1 hc
    rcases List.mem_cons.1 hc with rfl | hc
    · rfl
    · exact h name hname c hc
  · rw [List.mem_singleton.1 hc]
    rfl

/-- **Names between slashes are components in a row**, none of which is the last one. -/
theorem enclosed_infix_iff (hnames : ∀ name ∈ names, '/' ∉ name) (x : Text) :
    enclosed names <:+: '/' :: x ↔ names <:+: (Text.splitOn '/' x).dropLast := by
  constructor
  · rintro ⟨before, behind, hx⟩
    have hsplit := Text.splitOn_flatMap_cons hnames before behind
    have hwhole : before ++ (names.flatMap ('/' :: ·) ++ '/' :: behind) = '/' :: x := by
      rw [← hx, enclosed]
      simp only [List.append_assoc, List.singleton_append]
    -- the part in front of the first slash is empty, it is no component
    rw [hwhole, Text.splitOn, if_pos rfl] at hsplit
    obtain ⟨first, others, hfirst⟩ := List.exists_cons_of_ne_nil (Text.splitOn_ne_nil '/' before)
    rw [hfirst, List.cons_append, List.cons.injEq] at hsplit
    rw [hsplit.2, List.dropLast_append_of_ne_nil (by simp [Text.splitOn_ne_nil]),
      List.dropLast_append_of_ne_nil (Text.splitOn_ne_nil '/' behind), ← List.append_assoc]
    exact List.infix_append others names _
  · rintro ⟨before, behind, hparts⟩
    have hne := Text.splitOn_ne_nil '/' x
    -- the slash behind the names is that of the next component, which may be the last one
    have hbehind : behind ++ [(Text.splitOn '/' x).getLast hne] ≠ [] := by simp
    obtain ⟨next, others, hnext⟩ := List.exists_cons_of_ne_nil hbehind
    rw [Text.cons_eq_flatMap_splitOn, ← List.dropLast_append_getLast hne, ← hparts,
      List.append_assoc, hnext]
    refine ⟨before.flatMap ('/' :: ·), next ++ others.flatMap ('/' :: ·), ?_⟩
    simp [enclosed]

/-! ### The pattern -/

/-- The pattern of what is below directories with the given names in a row, at any depth. -/
def directoryPattern (names : List Text) : Text :=
  Text.join ['/'] (['*', '*'] :: (names ++ [['*', '*']]))

example : directoryPattern ["node".toList, "lib".toList] = "**/node/lib/**".toList := by decide

theorem directoryPattern_eq (names : List Text) :
    directoryPattern names = ['*', '*'] ++ (enclosed names ++ ['*', '*']) := by
  rw [directoryPattern, Text.join_cons, List.flatMap_append, enclosed]
  simp

/-- **What the pattern of directories ignores**: the paths in which the names are components in a
row, and others come behind them. -/
theorem excludes_directoryPattern
    (hnames : ∀ name ∈ names, '/' ∉ name ∧ ∀ c ∈ name, isMagic c = false)
    (hparts : ∀ part ∈ parts, '/' ∉ part) :
    excludes [directoryPattern names] (Text.join ['/'] parts) = true ↔
      names <:+: parts.dropLast := by
  have hmagic := not_isMagic_of_mem_enclosed fun name hname ↦ (hnames name hname).2
  have hdirectories : (Text.splitOn '/' (Text.join ['/'] parts)).dropLast = parts.dropLast := by
    cases parts with
    | nil => rfl
    | cons part parts => rw [Text.splitOn_join (List.cons_ne_nil part parts) hparts]
  rw [← hdirectories, ← enclosed_infix_iff fun name hname ↦ (hnames name hname).1]
  simp only [excludes, List.any_cons, List.any_nil, Bool.or_false, Bool.or_eq_true,
    directoryPattern_eq, wildcard_stars hmagic]
  -- without the slash in front it occurs only where it does with the slash
  exact or_iff_right_of_imp fun h ↦ h.trans (List.suffix_cons '/' _).isInfix

/-- The components are found at the start, in front of a file whose name has a newline and a star.
They are not found as parts of components, nor where the second one is the file. -/
theorem excludes_lib_core :
    excludes [directoryPattern ["lib".toList, "core".toList]]
        (Text.join ['/'] ["lib".toList, "core".toList, "a\n*.css".toList]) = true ∧
      excludes [directoryPattern ["lib".toList, "core".toList]]
        (Text.join ['/'] ["lib".toList, "cores".toList, "lib".toList, "core".toList]) = false := by
  have hplain : ∀ name ∈ ["lib".toList, "core".toList],
      '/' ∉ name ∧ name.any isMagic = false := by decide
  have hnames : ∀ name ∈ ["lib".toList, "core".toList],
      '/' ∉ name ∧ ∀ c ∈ name, isMagic c = false := fun name hname ↦
    (hplain name hname).imp_right not_isMagic_of_any
  refine ⟨(excludes_directoryPattern hnames (by decide)).2 (by decide), ?_⟩
  rw [Bool.eq_false_iff, ne_eq, excludes_directoryPattern hnames (by decide)]
  decide

end CssTypings.Glob
