import CssTypings.Proofs.Glob.Literals
import CssTypings.Proofs.Glob.Reach
import CssTypings.Sources
import Mathlib.Data.List.TakeWhile

/-!
# What a search below a directory finds

The files with an ending below a directory are searched for by the pattern `searchPattern`: the
escaped path of the directory, any number of directories, and a star with the ending. Whatever the
name of the directory is, the escaped components lead to it and nowhere else (`reach_escape`). From
there the search goes to every directory that no hidden name leads to, and finds each file with the
ending once, as long as its path can be asked about: `mem_files_searchPattern` and
`nodup_files_searchPattern`.
-/

namespace CssTypings

variable {tree : Tree} {here l : Location} {name part tail : Text} {root p : Path}

namespace Glob

/-! ### Escaped components -/

namespace Segment

/-- An escaped name leads to what has that name. -/
theorem step_escape (h : tree.Sound) (hpart : Path.IsName part)
    (hdir : tree.find? here = some .directory)
    (hfind : (tree.find? (here ++ [part])).isSome = true) :
    step tree here (ofText (escape part)) = [here ++ [part]] := by
  rw [ofText, if_neg (escape_ne_deep part), any_isMagic_escape]
  split
  · -- the wildcard picks the one name that it stands for
    have hcount : (tree.names here).count part = 1 :=
      List.count_eq_one_of_mem (h.nodup_names here) (h.mem_names.2 hfind)
    have hpick : ∀ name, ((isHidden (escape part) || !isHidden name) &&
        wildcard (escape part) name) = (name == part) := by
      intro name
      by_cases hname : name = part
      · have hhead : isHidden (escape part) = isHidden part :=
          Bool.eq_iff_iff.2 (by rw [isHidden_iff, isHidden_iff, head?_escape])
        simp [hname, hhead, wildcard_escape.2 rfl]
      · have hwild : wildcard (escape part) name = false :=
          Bool.eq_false_iff.2 fun hw ↦ hname (wildcard_escape.1 hw)
        simp [hname, hwild]
    rw [step, hdir]
    simp only [hpick]
    rw [List.filter_beq, hcount]
    rfl
  · next hmagic =>
    have hplain : escape part = part :=
      escape_of_not_isMagic (not_isMagic_of_any (Bool.eq_false_iff.2 hmagic))
    rw [step, hdir, hplain]
    simp only [enter_of_isName hpart, hfind, if_true]

theorem isSteady_escape (hpart : Path.IsName part) : (ofText (escape part)).IsSteady := by
  refine isSteady_ofText fun hmagic ↦ ?_
  rwa [escape_eq_self hmagic]

end Segment

/-- **Escaped components lead where they say.** -/
theorem reach_escape (h : tree.Sound) (here : Location) {parts : List Text}
    (hparts : ∀ part ∈ parts, Path.IsName part)
    (hdir : tree.find? (here ++ parts) = some .directory) (segments : List Segment) :
    reach tree [here] (parts.map (fun part ↦ .ofText (escape part)) ++ segments) =
      reach tree [here ++ parts] segments := by
  induction parts generalizing here with
  | nil => rw [List.map_nil, List.nil_append, List.append_nil]
  | cons part rest ih =>
    obtain ⟨hpart, hrest⟩ := List.forall_mem_cons.1 hparts
    have hnext : tree.find? ((here ++ [part]) ++ rest) = some .directory := by
      simpa using hdir
    have hhere : tree.find? here = some .directory :=
      h.find?_of_prefix hdir (List.prefix_append _ _) (by simp)
    have hfind : (tree.find? (here ++ [part])).isSome = true := by
      by_cases hnil : rest = []
      · simpa [hnil] using congrArg Option.isSome hnext
      · rw [h.find?_of_prefix hnext (List.prefix_append _ _) (by simpa using hnil)]
        rfl
    have hstep : [here].flatMap (Segment.step tree · (.ofText (escape part))) = [here ++ [part]] := by
      rw [List.flatMap_singleton, Segment.step_escape h hpart hhere hfind]
    rw [List.map_cons, List.cons_append, reach, List.foldl_cons, hstep, ← reach, ih _ hrest hnext,
      List.append_assoc, List.singleton_append]

/-! ### The pattern of a search -/

/-- The pattern of the files below a root whose names end with a dot and the tail. -/
def searchPattern (root : Path) (tail : Text) : Text :=
  root.anchor.text ++
    Text.join ['/'] (root.parts.map escape ++ [['*', '*'], '*' :: '.' :: tail])

/-- The text of a search pattern behind the anchor. -/
theorem join_searchPattern (parts : List Text) (tail : Text) :
    Text.join ['/'] (parts.map escape ++ [['*', '*'], '*' :: '.' :: tail]) =
      Text.join ['/'] (parts.map escape ++ [['*', '*']]) ++ ['/'] ++ '*' :: '.' :: tail := by
  have hne : parts.map escape ++ [['*', '*']] ≠ [] := by simp
  rw [← Text.join_append_singleton _ hne, List.append_assoc]
  rfl

theorem searchPattern_append (root : Path) (tail suffix : Text) :
    searchPattern root tail ++ suffix = searchPattern root (tail ++ suffix) := by
  simp only [searchPattern, join_searchPattern, List.append_assoc, List.cons_append]

theorem escape_join (parts : List Text) :
    escape (Text.join ['/'] parts) = Text.join ['/'] (parts.map escape) := by
  have hslash : escape ['/'] = ['/'] := rfl
  induction parts with
  | nil => rfl
  | cons first rest ih =>
    cases rest with
    | nil => simp [Text.join]
    | cons second rest =>
      simp only [Text.join, List.map_cons, List.intercalate_cons_cons, escape_append, hslash] at ih ⊢
      rw [ih]

theorem escape_anchor (a : Anchor) : escape a.text = a.text := by
  cases a <;> rfl

theorem splitOn_anchor (a : Anchor) (t : Text) :
    Text.splitOn '/' (a.text ++ t) = (a.text.map fun _ ↦ []) ++ Text.splitOn '/' t := by
  cases a <;> rfl

theorem anchor_join (a : Anchor) {parts : List Text} (h : ∀ part ∈ parts, part ≠ [] ∧ '/' ∉ part) :
    Anchor.ofText (a.text ++ Text.join ['/'] parts) = a :=
  Path.anchor_ofText_append (Path.head?_join_ne_slash h)

/-- The components of a pattern that is joined of parts. -/
theorem segments?_join (a : Anchor) {parts : List Text} (hne : parts ≠ [])
    (h : ∀ part ∈ parts, part ≠ [] ∧ '/' ∉ part) :
    segments? (a.text ++ Text.join ['/'] parts) = some (parts.map Segment.ofText) := by
  let isPlain (part : Text) : Bool := !part.any isMagic
  have hsplit : Text.splitOn '/' (a.text ++ Text.join ['/'] parts) =
      (a.text.map fun _ ↦ []) ++ parts := by
    rw [splitOn_anchor, Text.splitOn_join hne fun part hpart ↦ (h part hpart).2]
  have hlast : ((a.text.map fun _ ↦ []) ++ parts).getLast? ≠ some [] := by
    rw [List.getLast?_append_of_ne_nil _ hne]
    exact fun hnil ↦ (h [] (List.mem_of_getLast? hnil)).1 rfl
  have hdrop : ((a.text.map fun _ ↦ ([] : Text)) ++ parts).drop a.text.length = parts := by
    have hlength : a.text.length = (a.text.map fun _ ↦ ([] : Text)).length := (List.length_map _).symm
    rw [hlength, List.drop_left]
  -- no part is empty, so nothing is dropped in front of the first wildcard or behind it
  have hfull : ∀ part ∈ parts, decide (part = []) = false := fun part hpart ↦
    decide_eq_false (h part hpart).1
  have hplain : ∀ plain : List Text, plain.Sublist parts →
      (if plain.all (· = []) then plain else (plain.reverse.dropWhile (· = [])).reverse) = plain := by
    intro plain hsub
    split
    · rfl
    · rw [List.dropWhile_eq_self_iff.2 ?_, List.reverse_reverse]
      intro hlength
      rw [hfull _ (hsub.subset (List.mem_reverse.1 (List.getElem_mem _)))]
      exact Bool.false_ne_true
  have hwild : (parts.dropWhile isPlain).filter (· ≠ []) = parts.dropWhile isPlain :=
    List.filter_eq_self.2 fun part hpart ↦
      decide_eq_true (h part ((List.dropWhile_suffix _).subset hpart)).1
  rw [segments?, hsplit, if_neg hlast, anchor_join a h, hdrop, List.span_eq_takeWhile_dropWhile]
  simp only [hplain _ (List.takeWhile_prefix _).sublist]
  rw [hwild, List.takeWhile_append_dropWhile]

section Pattern

variable (hroot : root.IsPlain)
include hroot

theorem parts_searchPattern (htail : '/' ∉ tail) :
    ∀ part ∈ root.parts.map escape ++ [['*', '*'], '*' :: '.' :: tail],
      part ≠ [] ∧ '/' ∉ part := by
  intro part hpart
  rcases List.mem_append.1 hpart with hpart | hpart
  · obtain ⟨name, hname, rfl⟩ := List.mem_map.1 hpart
    exact ⟨escape_ne_nil (hroot name hname).ne_nil,
      not_mem_escape (hroot name hname).not_mem_slash (by decide) (by decide)⟩
  · rcases List.mem_cons.1 hpart with rfl | hpart
    · decide
    · rw [List.mem_singleton.1 hpart]
      simp [htail]

/-- The parts of a search pattern: those of the root, any number of directories, and the rest. -/
theorem splitOn_searchPattern (tail : Text) :
    Text.splitOn '/' (searchPattern root tail) = (root.anchor.text.map fun _ ↦ []) ++
      root.parts.map escape ++ ['*', '*'] :: Text.splitOn '/' ('*' :: '.' :: tail) := by
  have hparts : ∀ part ∈ root.parts.map escape ++ [['*', '*']], '/' ∉ part := by
    intro part hpart
    have hpart : part ∈ root.parts.map escape ++ [['*', '*'], '*' :: '.' :: ([] : Text)] := by
      rw [List.mem_append] at hpart ⊢
      exact hpart.imp_right fun h ↦ by simp_all
    exact (parts_searchPattern hroot List.not_mem_nil part hpart).2
  have hjoin := join_searchPattern root.parts tail
  rw [List.append_assoc, List.singleton_append] at hjoin
  rw [searchPattern, splitOn_anchor, hjoin, Text.splitOn_append_cons,
    Text.splitOn_join (by simp) hparts]
  simp

theorem segments?_searchPattern (htail : '/' ∉ tail) :
    segments? (searchPattern root tail) =
      some (root.parts.map (fun part ↦ .ofText (escape part)) ++
        [.deep, .wild ('*' :: '.' :: tail)]) := by
  rw [searchPattern, segments?_join _ (by simp) (parts_searchPattern hroot htail)]
  simp [Segment.ofText, isMagic]

/-- No part of a search pattern is a detour. -/
theorem steady_searchPattern (tail : Text) :
    ∀ segment ∈ root.parts.map (fun part ↦ .ofText (escape part)) ++
      [.deep, .wild ('*' :: '.' :: tail)], Segment.IsSteady segment := by
  refine List.forall_mem_append.2 ⟨fun segment hsegment ↦ ?_, by simp [Segment.IsSteady]⟩
  obtain ⟨part, hpart, rfl⟩ := List.mem_map.1 hsegment
  exact Segment.isSteady_escape (hroot part hpart)

theorem anchor_searchPattern (tail : Text) : Anchor.ofText (searchPattern root tail) = root.anchor := by
  have hparts : ∀ part ∈ root.parts.map escape ++ [['*', '*']], part ≠ [] ∧ '/' ∉ part := by
    intro part hpart
    refine parts_searchPattern hroot (List.not_mem_nil : _ ∉ ([] : Text)) part ?_
    rw [List.append_cons, List.mem_append]
    exact Or.inl hpart
  have hhead : ∀ t : Text, (Text.join ['/'] (root.parts.map escape ++ [['*', '*']]) ++ t).head? ≠
      some '/' := by
    intro t
    obtain ⟨c, rest, hjoin⟩ : ∃ c rest, Text.join ['/'] (root.parts.map escape ++ [['*', '*']]) =
        c :: rest := by
      rw [Text.join_concat]
      exact List.exists_cons_of_ne_nil (by simp)
    have hfirst := Path.head?_join_ne_slash hparts
    rw [hjoin] at hfirst ⊢
    exact hfirst
  rw [searchPattern, join_searchPattern, List.append_assoc]
  exact Path.anchor_ofText_append (hhead _)

/-- A search opens what stands in front of the first component of the root that is a wildcard. -/
theorem opened?_searchPattern (tail : Text) :
    opened? (searchPattern root tail) = some ⟨Anchor.ofText (searchPattern root tail),
      root.parts.takeWhile fun part ↦ !part.any isMagic⟩ := by
  let isPlain (part : Text) : Bool := !part.any isMagic
  have hanchor : ∀ part ∈ root.anchor.text.map fun _ ↦ ([] : Text), isPlain part = true := by
    intro part hpart
    obtain ⟨-, -, rfl⟩ := List.mem_map.1 hpart
    rfl
  have hescape : (isPlain ∘ escape) = isPlain := by
    funext part
    simp [isPlain, any_isMagic_escape]
  have hsame : (root.parts.takeWhile isPlain).map escape = root.parts.takeWhile isPlain := by
    refine (List.map_congr_left fun part hpart ↦ ?_).trans (List.map_id _)
    have hmagic := List.mem_takeWhile_imp hpart
    simp only [isPlain, Bool.not_eq_true'] at hmagic
    exact escape_of_not_isMagic (not_isMagic_of_any hmagic)
  have hstop : ∀ rest, (root.parts.map escape ++ ['*', '*'] :: rest).takeWhile isPlain =
      root.parts.takeWhile isPlain := by
    intro rest
    have hdeep : (['*', '*'] :: rest).takeWhile isPlain = [] := rfl
    have hescaped : (root.parts.map escape).takeWhile isPlain = root.parts.takeWhile isPlain := by
      rw [List.takeWhile_map, hescape, hsame]
    rw [List.takeWhile_append, hdeep, List.append_nil]
    split
    · next hall => rw [← hescaped, (List.takeWhile_prefix isPlain).eq_of_length hall]
    · exact hescaped
  have htake : (Text.splitOn '/' (searchPattern root tail)).takeWhile isPlain =
      (root.anchor.text.map fun _ ↦ []) ++ root.parts.takeWhile isPlain := by
    rw [splitOn_searchPattern hroot, List.append_assoc, List.takeWhile_append_of_pos hanchor, hstop]
  have hdrop : (Text.splitOn '/' (searchPattern root tail)).dropWhile isPlain ≠ [] := by
    intro hnil
    have hdeep := List.dropWhile_eq_nil_iff.1 hnil ['*', '*'] (by simp [splitOn_searchPattern hroot])
    cases hdeep
  have hfilter : ((root.anchor.text.map fun _ ↦ []) ++ root.parts.takeWhile isPlain).filter
      (· ≠ []) = root.parts.takeWhile isPlain := by
    have hne : ∀ part ∈ root.parts.takeWhile isPlain, decide (part ≠ []) = true := fun part hpart ↦
      decide_eq_true (hroot part ((List.takeWhile_prefix isPlain).subset hpart)).ne_nil
    rw [List.filter_append, List.filter_eq_self.2 hne]
    simp
  rw [opened?, List.span_eq_takeWhile_dropWhile]
  simp only [isPlain] at htake hdrop hfilter
  simp only [htake, if_neg hdrop, hfilter]

/-- The directory that a search opens can be asked about. -/
theorem hasNull_opened (hnull : root.hasNull = false) (tail : Text) :
    (opened? (searchPattern root tail)).any Path.hasNull = false := by
  rw [opened?_searchPattern hroot, Option.any_some, Path.hasNull, List.any_eq_false]
  rw [Path.hasNull, List.any_eq_false] at hnull
  exact fun part hpart ↦ hnull part ((List.takeWhile_prefix _).subset hpart)

variable (habsolute : root.isAbsolute = true)
include habsolute

/-- **The pattern of the sources** below a directory. -/
theorem patternFor_eq (hfile : tree.hasFile root = .ok false) (extension : Text) :
    SourceSet.patternFor tree root extension =
      .ok (searchPattern root (extension.dropWhile (· = '.'))) := by
  have hpattern : SourceSet.patternFor tree root extension =
      .ok (escape root.text ++ (if (escape root.text).getLast? = some '/' then [] else ['/']) ++
        "**/*.".toList ++ extension.dropWhile (· = '.')) := by
    rw [SourceSet.patternFor, hfile]
    rfl
  rw [hpattern, searchPattern]
  congr 1
  by_cases hnil : root.parts = []
  · -- the root of the tree ends with a slash
    obtain ⟨a, parts⟩ := root
    obtain rfl : parts = [] := hnil
    cases a with
    | relative => cases habsolute
    | root => simp [Path.text, Anchor.text, Text.join, escape, isMagic]
    | doubleRoot => simp [Path.text, Anchor.text, Text.join, escape, isMagic]
  · have htext : escape root.text =
        root.anchor.text ++ Text.join ['/'] (root.parts.map escape) := by
      rw [Path.text_eq hnil, escape_append, escape_anchor, escape_join]
    have hlast : (escape root.text).getLast? ≠ some '/' := by
      have hname := hroot _ (Path.name_mem hnil)
      obtain ⟨front, hfront⟩ := Path.exists_text_eq hnil
      rw [hfront, escape_append, List.getLast?_append_of_ne_nil _ (escape_ne_nil hname.ne_nil)]
      intro hslash
      exact not_mem_escape hname.not_mem_slash (by decide) (by decide)
        (List.mem_of_getLast? hslash)
    rw [if_neg hlast, htext, join_searchPattern, Text.join_append_singleton _ (by simpa using hnil)]
    simp

/-- A search starts below its root, wherever it is made from. -/
theorem files_searchPattern (hsound : tree.Sound) (hdir : tree.find? root.parts = some .directory)
    (htail : '/' ∉ tail) (here : Path) :
    files tree here (searchPattern root tail) =
      ((reach tree [root.parts] [.deep, .wild ('*' :: '.' :: tail)]).filter fun l ↦
        (Place.ofLocation l).isFile tree root.anchor).map (Path.mk root.anchor) := by
  have hanchor := anchor_searchPattern hroot tail
  have hfiles := files_of_steady (segments?_searchPattern hroot htail) (steady_searchPattern hroot tail)
    (by rw [hanchor]; exact of_decide_eq_true habsolute) tree here
  rw [hanchor, reach_escape hsound [] hroot hdir] at hfiles
  exact hfiles

end Pattern

/-! ### What is found -/

theorem mem_step_wild (hsound : tree.Sound) (htail : ∀ c ∈ tail, isMagic c = false)
    {place : Location} :
    l ∈ Segment.step tree place (.wild ('*' :: '.' :: tail)) ↔
      tree.find? place = some .directory ∧ (tree.find? l).isSome = true ∧
        ∃ stem, l = place ++ [stem ++ '.' :: tail] ∧
          (stem ++ '.' :: tail).head? ≠ some '.' := by
  have hvisible : Segment.isHidden ('*' :: '.' :: tail) = false := rfl
  have hmatch : ∀ name, wildcard ('*' :: '.' :: tail) name = true ↔ '.' :: tail <:+ name :=
    fun name ↦ wildcard_star (List.forall_mem_cons.2 ⟨rfl, htail⟩)
  rw [Segment.step]
  split
  · next hdir =>
    simp only [List.mem_map, List.mem_filter, hvisible, Bool.false_or, Bool.and_eq_true, hmatch,
      hsound.mem_names, Bool.not_eq_true', hdir, true_and]
    constructor
    · rintro ⟨name, ⟨hfind, hname, stem, rfl⟩, rfl⟩
      refine ⟨hfind, stem, rfl, fun hhead ↦ ?_⟩
      rw [Segment.isHidden_iff.2 hhead] at hname
      cases hname
    · rintro ⟨hfind, stem, rfl, hhead⟩
      refine ⟨_, ⟨hfind, Bool.eq_false_iff.2 ?_, stem, rfl⟩, rfl⟩
      exact fun hhidden ↦ hhead (Segment.isHidden_iff.1 hhidden)
  · next hdir =>
    simp only [List.not_mem_nil, false_iff, not_and]
    exact fun h ↦ absurd h (by simpa using hdir)

section Found

variable {directory : Location} (hdir : tree.find? directory = some .directory)
include hdir

theorem step_deep : Segment.step tree directory .deep = directory :: Segment.below tree directory := by
  rw [Segment.step, hdir]

theorem reach_deep (pattern : Text) :
    reach tree [directory] [.deep, .wild pattern] =
      (directory :: Segment.below tree directory).flatMap
        fun place ↦ Segment.step tree place (.wild pattern) := by
  simp only [reach, List.foldl_cons, List.foldl_nil, List.flatMap_singleton, step_deep hdir]

/-- A search finds nothing twice. -/
theorem nodup_reach_deep (hsound : tree.Sound) (pattern : Text) :
    (reach tree [directory] [.deep, .wild pattern]).Nodup := by
  have hplaces := Segment.nodup_step hsound directory .deep
  rw [step_deep hdir] at hplaces
  rw [reach_deep hdir, List.nodup_flatMap]
  refine ⟨fun place _ ↦ Segment.nodup_step hsound place _, hplaces.imp fun {place place'} hne ↦ ?_⟩
  intro l hl hl'
  obtain ⟨name, heq⟩ := Segment.exists_of_mem_step_wild hl
  obtain ⟨name', heq'⟩ := Segment.exists_of_mem_step_wild hl'
  exact hne (List.append_inj_left' (heq.symm.trans heq') rfl)

variable (hsound : tree.Sound) (htail : ∀ c ∈ tail, isMagic c = false)
include hsound htail

/-- A search finds what no hidden name leads to and what has the ending. -/
theorem mem_reach_deep :
    l ∈ reach tree [directory] [.deep, .wild ('*' :: '.' :: tail)] ↔
      (tree.find? l).isSome = true ∧ ∃ way stem,
        l = directory ++ way ++ [stem ++ '.' :: tail] ∧
          ∀ part ∈ way ++ [stem ++ '.' :: tail], part.head? ≠ some '.' := by
  rw [reach_deep hdir, List.mem_flatMap]
  constructor
  · rintro ⟨place, hplace, hl⟩
    obtain ⟨-, hfind, stem, rfl, hhead⟩ := (mem_step_wild hsound htail).1 hl
    refine ⟨hfind, ?_⟩
    rcases List.mem_cons.1 hplace with rfl | hbelow
    · exact ⟨[], stem, by simp, by simpa using hhead⟩
    · obtain ⟨way, -, rfl, hway, -⟩ := Segment.mem_below.1 hbelow
      refine ⟨way, stem, rfl, fun part hpart ↦ ?_⟩
      rcases List.mem_append.1 hpart with hpart | hpart
      · exact hway part hpart
      · rwa [List.mem_singleton.1 hpart]
  · rintro ⟨hfind, way, stem, rfl, hvisible⟩
    obtain ⟨entry, hentry⟩ := Option.isSome_iff_exists.1 hfind
    have hplace : tree.find? (directory ++ way) = some .directory := by
      have hparent := hsound.find?_dropLast hentry
      rwa [List.dropLast_concat] at hparent
    refine ⟨directory ++ way, ?_, (mem_step_wild hsound htail).2 ⟨hplace, hfind, stem, rfl,
      hvisible _ (List.mem_append_right _ (List.mem_singleton_self _))⟩⟩
    by_cases hway : way = []
    · simp [hway]
    · refine List.mem_cons_of_mem _ (Segment.mem_below.2 ⟨way, hway, rfl, ?_, .directory, ?_⟩)
      · exact fun part hpart ↦ hvisible part (List.mem_append_left _ hpart)
      · exact Tree.mem_of_find? (by simp [hway]) hplace

end Found

/-! ### Files with an ending -/

section Files

variable (hroot : root.IsPlain) (habsolute : root.isAbsolute = true) (hsound : tree.Sound)
  (hdir : tree.find? root.parts = some .directory) (hslash : '/' ∉ tail)
include hroot habsolute hsound hdir hslash

/-- **A search finds the files with the ending** to which no hidden name leads. Like everywhere
else, a file whose path is too long to be asked about does not count as one. -/
theorem mem_files_searchPattern (htail : ∀ c ∈ tail, isMagic c = false) (here : Path) :
    p ∈ files tree here (searchPattern root tail) ↔
      tree.hasFile p = .ok true ∧ ∃ way stem,
        p = ⟨root.anchor, root.parts ++ way ++ [stem ++ '.' :: tail]⟩ ∧
          ∀ part ∈ way ++ [stem ++ '.' :: tail], part.head? ≠ some '.' := by
  have hfile : ∀ way stem, (∀ part ∈ way ++ [stem ++ '.' :: tail], part.head? ≠ some '.') →
      (tree.hasFile ⟨root.anchor, root.parts ++ way ++ [stem ++ '.' :: tail]⟩ = .ok true ↔
        (Place.ofLocation (root.parts ++ way ++ [stem ++ '.' :: tail])).isFile tree root.anchor =
          true) := by
    intro way stem hvisible
    rw [Place.isFile_ofLocation, hsound.hasFile_iff]
    show Path.up ∉ root.parts ++ way ++ [stem ++ '.' :: tail]
    rw [List.append_assoc]
    exact hroot.up_not_mem_append hvisible
  rw [files_searchPattern hroot habsolute hsound hdir hslash, List.mem_map]
  simp only [List.mem_filter, mem_reach_deep hdir hsound htail]
  constructor
  · rintro ⟨l, ⟨⟨-, way, stem, rfl, hvisible⟩, hisFile⟩, rfl⟩
    exact ⟨(hfile way stem hvisible).2 hisFile, way, stem, rfl, hvisible⟩
  · rintro ⟨hhas, way, stem, rfl, hvisible⟩
    have hisFile := (hfile way stem hvisible).1 hhas
    refine ⟨_, ⟨⟨?_, way, stem, rfl, hvisible⟩, hisFile⟩, rfl⟩
    obtain ⟨entry, hfind, -⟩ := (Option.any_eq_true _ _).1 (Place.isFile_ofLocation.1 hisFile).2
    rw [hfind]
    rfl

/-- **A search finds each file once.** -/
theorem nodup_files_searchPattern (here : Path) :
    (files tree here (searchPattern root tail)).Nodup := by
  rw [files_searchPattern hroot habsolute hsound hdir hslash]
  exact ((nodup_reach_deep hdir hsound _).filter _).map fun l l' heq ↦ (Path.mk.inj heq).2

end Files

end Glob

end CssTypings
