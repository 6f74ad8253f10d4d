import CssTypings.Proofs.Config.Checks
import CssTypings.Proofs.Glob.Roots
import CssTypings.Proofs.Path.Order
import CssTypings.Proofs.Tree.Places

/-!
# Sources are found exactly

What a single path is resolved to depends on what it leads to. Below a directory it is the files
with the extension to which no hidden name leads and that are not ignored (`IsSource`), each once
and in the order of their components. A file is its own and only source whatever its name is, unless
that is ignored, and where nothing is there are no sources. No character in the name of the root
matters to this. The main statement is `resolve_exact`.

There are two ways for a path that leads to nothing to have no answer. A name with too many bytes is
a fault as soon as the path is asked about, and a null character is one if it stands in front of the
first component with a wildcard character, since a search opens what stands there
(`opened?_searchPattern`).
-/

namespace CssTypings

variable {tree : Tree} {here cwd root p : Path} {extension t : Text} {exclude ignored : List Text}
  {pattern : Text} {way : List Text} {name stem : Text}

/-! ### Endings -/

/-- An extension as it is used: without a dot in front and without the characters of patterns. -/
structure IsExtension (extension : Text) : Prop where
  ne_nil : extension ≠ []
  head?_ne : extension.head? ≠ some '.'
  not_mem_slash : '/' ∉ extension
  not_isMagic : ∀ c ∈ extension, Glob.isMagic c = false

/-- An extension is used as it stands in a configuration. -/
theorem isExtension_of_forall_not_mem (hne : extension ≠ []) (hhead : extension.head? ≠ some '.')
    (hplain : ∀ c ∈ extension, c ∉ Config.reserved) : IsExtension extension := by
  refine ⟨hne, hhead, fun hslash ↦ hplain _ hslash (by decide), fun c hc ↦ ?_⟩
  refine Bool.eq_false_iff.2 fun hmagic ↦ hplain c hc ?_
  rcases Glob.Token.isMagic_iff.1 hmagic with rfl | rfl | rfl <;> decide

/-- Whatever passes the check is an extension. -/
theorem isExtension_of_checkExtension {name : String} {t : Text}
    (h : Config.checkExtension name t = .ok extension) : IsExtension extension := by
  obtain ⟨rfl, hne, hplain⟩ := Config.checkExtension_eq_ok_iff.1 h
  exact isExtension_of_forall_not_mem hne (Config.head?_plainExtension_ne t) hplain

theorem IsExtension.dropWhile_eq (h : IsExtension extension) :
    extension.dropWhile (· = '.') = extension := by
  obtain ⟨c, rest, rfl⟩ := List.exists_cons_of_ne_nil h.ne_nil
  have hc : c ≠ '.' := fun hc ↦ h.head?_ne (by rw [hc]; rfl)
  simp [hc]

/-! ### Paths below a root -/

/-- The path of a file below a root: the directories on the way to it, and its name. -/
def Path.beyond (root : Path) (way : List Text) (name : Text) : Path :=
  ⟨root.anchor, root.parts ++ way ++ [name]⟩

theorem Path.beyond_ne_nil : (root.beyond way name).parts ≠ [] := by simp [Path.beyond]

theorem artifact_beyond {suffix : Text} (hslash : '/' ∉ suffix)
    (hplain : (root.beyond way name).IsPlain) :
    (root.beyond way name).artifact suffix = root.beyond way (name ++ suffix) := by
  rw [Path.artifact_eq hslash Path.beyond_ne_nil hplain]
  simp [Path.beyond, Path.name]

/-- Below the root it is the way from the root that is ignored or not. -/
theorem Glob.ignores_beyond (exclude : List Text) (root : Path) (way : List Text) (name : Text) :
    ignores exclude root (root.beyond way name) =
      excludes exclude (Path.text ⟨.relative, way ++ [name]⟩) := by
  have hne : root.beyond way name ≠ root := by
    intro heq
    simpa [Path.beyond] using congrArg Path.parts heq
  have hbelow : root.below? (root.beyond way name) = some (way ++ [name]) := by
    simp [Path.below?, Path.beyond]
  rw [ignores, subject, if_neg hne, hbelow]

/-- Of the root it is the name. -/
theorem Glob.ignores_self (exclude : List Text) (root : Path) :
    ignores exclude root root = excludes exclude root.name := by
  rw [ignores, subject, if_pos rfl]

/-- A file with the extension below the root that is not ignored. No hidden name leads to it. Its
path has to be one that can be asked about: a file that is too deep for that is no source. -/
def IsSource (tree : Tree) (root : Path) (extension : Text) (ignored : List Text) (p : Path) :
    Prop :=
  tree.hasFile p = .ok true ∧ Glob.ignores ignored root p = false ∧
    ∃ way stem, p = root.beyond way (stem ++ '.' :: extension) ∧
      ∀ part ∈ way ++ [stem ++ '.' :: extension], part.head? ≠ some '.'

/-! ### What a path leads to -/

section Look

variable (hroot : root.IsPlain)
include hroot

theorem find?_of_look {entry : Entry} (h : tree.look root = .ok (some entry)) :
    tree.find? root.parts = some entry := by
  obtain ⟨location, hwalk⟩ := Tree.exists_walk_of_look h
  have hfind := Tree.find?_of_walk hwalk
  rw [Tree.eq_parts_of_walk hroot hwalk] at hfind
  exact hfind.symm

omit hroot in
theorem hasNull_of_look {entry : Entry} (h : tree.look root = .ok (some entry)) :
    root.hasNull = false := by
  obtain ⟨location, hwalk⟩ := Tree.exists_walk_of_look h
  exact (Tree.walk_eq_ok.1 hwalk).1

end Look

/-! ### What a search finds -/

namespace SourceSet

/-- The files that match a pattern and are not ignored, in order. -/
def found (tree : Tree) (here : Path) (pattern : Text) (root : Path) (exclude : List Text) :
    List Path :=
  Path.sort ((Glob.files tree here pattern).filter fun p ↦ !Glob.ignores exclude root p)

theorem mem_found : p ∈ found tree here pattern root exclude ↔
    p ∈ Glob.files tree here pattern ∧ Glob.ignores exclude root p = false := by
  rw [found, Path.mem_sort, List.mem_filter, Bool.not_eq_true']

/-- What is found in order stays in order. -/
theorem found_of_pairwise {paths : List Path}
    (h : ((Glob.files tree here pattern).filter fun p ↦ !Glob.ignores exclude root p) = paths)
    (hsorted : paths.Pairwise fun p q ↦ p.le q = true) :
    found tree here pattern root exclude = paths := by
  rw [found, h]
  exact List.mergeSort_of_pairwise hsorted

theorem nodup_found (h : (Glob.files tree here pattern).Nodup) (root : Path)
    (exclude : List Text) : (found tree here pattern root exclude).Nodup :=
  Path.nodup_sort (h.filter _)

/-- What is found is in the order of its components. -/
theorem pairwise_found (h : (Glob.files tree here pattern).Nodup) (root : Path)
    (exclude : List Text) :
    (found tree here pattern root exclude).Pairwise fun p q ↦ p.parts < q.parts := by
  exact Path.pairwise_parts_sort (Glob.start here pattern).anchor
    (fun p hp ↦ Glob.anchor_of_mem_files (List.mem_filter.1 hp).1) (h.filter _)

theorem expand_eq (tree : Tree) (here : Path) (pattern : Text) (root : Path) (exclude : List Text) :
    expand tree here pattern root exclude =
      if (Glob.opened? pattern).any Path.hasNull then .error .nullCharacter
      else .ok (found tree here pattern root exclude) := by
  rw [expand, Glob.search]
  split <;> rfl

/-- **How a single path is resolved**: its pattern is searched for, unless nothing can be asked
about the directory that the search opens. -/
theorem resolve_singleton (hroot : here.absolute (cwd.join (.ofText t)) = root)
    (hpattern : patternFor tree root extension = .ok pattern) (exclude : List Text) :
    resolve tree here cwd [t] extension exclude =
      if (Glob.opened? pattern).any Path.hasNull then .error (.access .nullCharacter)
      else .ok ⟨found tree here pattern root exclude, some pattern, some root⟩ := by
  simp only [resolve, hroot, hpattern, Except.mapError, bind, Except.bind, expand_eq]
  cases (Glob.opened? pattern).any Path.hasNull <;> rfl

/-- Whatever a single path is resolved to was found by its pattern. -/
theorem exists_of_resolve {sources : SourceSet}
    (h : resolve tree here cwd [t] extension exclude = .ok sources) :
    ∃ pattern, patternFor tree (here.absolute (cwd.join (.ofText t))) extension = .ok pattern ∧
      (Glob.opened? pattern).any Path.hasNull = false ∧
      sources = ⟨found tree here pattern (here.absolute (cwd.join (.ofText t))) exclude,
        some pattern, some (here.absolute (cwd.join (.ofText t)))⟩ := by
  cases hpattern : patternFor tree (here.absolute (cwd.join (.ofText t))) extension with
  | error fault =>
    rw [resolve, hpattern] at h
    cases h
  | ok pattern =>
    rw [resolve_singleton rfl hpattern] at h
    split at h
    · cases h
    · next hopened => exact ⟨pattern, rfl, Bool.eq_false_iff.2 hopened, (Except.ok.inj h).symm⟩

/-- Whatever paths are resolved to is absolute. -/
theorem isPlain_of_resolve {paths : List Text} {sources : SourceSet} (hhere : here.IsProper)
    (habsolute : here.isAbsolute = true) (hcwd : cwd.IsProper) (hsound : tree.Sound)
    (h : resolve tree here cwd paths extension exclude = .ok sources) (hp : p ∈ sources.files) :
    p.IsPlain ∧ p.isAbsolute = true := by
  match paths, h with
  | [], h => cases h
  | [t], h =>
    obtain ⟨pattern, -, -, rfl⟩ := exists_of_resolve h
    have hfound := (mem_found.1 hp).1
    exact ⟨Tree.isPlain_of_isFile hsound (Glob.isFile_of_mem_files hfound),
      Glob.isAbsolute_of_mem_files habsolute hfound⟩
  | t :: u :: rest, h =>
    obtain rfl := Except.ok.inj h
    obtain ⟨v, -, rfl⟩ := List.mem_map.1 hp
    exact ⟨Path.isPlain_absolute hhere (hcwd.join (Path.isProper_ofText v)),
      Path.isAbsolute_absolute habsolute⟩

/-! ### The pattern of a directory -/

section Directory

variable (hroot : root.IsPlain) (habsolute : root.isAbsolute = true)
  (hdir : tree.look root = .ok (some .directory))
include hroot habsolute hdir

/-- **How a directory is resolved**, whatever the extension is. -/
theorem resolve_of_look (hresolved : here.absolute (cwd.join (.ofText t)) = root)
    (extension : Text) (exclude : List Text) :
    resolve tree here cwd [t] extension exclude =
      .ok ⟨found tree here (Glob.searchPattern root (extension.dropWhile (· = '.'))) root exclude,
        some (Glob.searchPattern root (extension.dropWhile (· = '.'))), some root⟩ := by
  have hfile : tree.hasFile root = .ok false := by
    rw [Tree.hasFile, hdir]
    rfl
  have hopened := Glob.hasNull_opened hroot (hasNull_of_look hdir) (extension.dropWhile (· = '.'))
  rw [resolve_singleton hresolved (Glob.patternFor_eq hroot habsolute hfile extension), hopened]
  rfl

/-- The sources that are found are the files with the extension that are not ignored. -/
theorem mem_found_searchPattern (hsound : tree.Sound) (hextension : IsExtension extension)
    (here : Path) :
    p ∈ found tree here (Glob.searchPattern root extension) root exclude ↔
      IsSource tree root extension exclude p := by
  rw [mem_found, Glob.mem_files_searchPattern hroot habsolute hsound (find?_of_look hroot hdir)
    hextension.not_mem_slash hextension.not_isMagic, and_assoc,
    and_comm (b := Glob.ignores _ _ _ = false)]
  rfl

end Directory

/-! ### Single paths -/

/-- What a single path should be resolved to, by what it leads to. -/
def Answers (tree : Tree) (root : Path) (extension : Text) (exclude : List Text)
    (answer : Except Fault SourceSet) : Prop :=
  match tree.look root with
  | .ok (some .directory) =>
    ∃ pattern files, answer = .ok ⟨files, some pattern, some root⟩ ∧
      files.Pairwise (fun p q ↦ p.parts < q.parts) ∧
      ∀ p, p ∈ files ↔ IsSource tree root extension exclude p
  | .ok (some (.file ..)) =>
    ∃ pattern, answer =
      .ok ⟨if Glob.excludes exclude root.name then [] else [root], some pattern, some root⟩
  | .ok none =>
    if (root.parts.takeWhile fun part ↦ !part.any Glob.isMagic).any (·.contains (Char.ofNat 0)) then
      answer = .error (.access .nullCharacter)
    else ∃ pattern, answer = .ok ⟨[], some pattern, some root⟩
  | .error fault => answer = .error (.access fault)

section Single

variable (hroot : root.IsPlain) (habsolute : root.isAbsolute = true)
  (hresolved : here.absolute (cwd.join (.ofText t)) = root)
include hroot habsolute hresolved

/-- **Where nothing is there are no sources**, unless nothing can be asked about what the search
opens. -/
theorem resolve_nothing (hextension : IsExtension extension) (hlook : tree.look root = .ok none)
    (hnone : tree.find? root.parts = none) (exclude : List Text) :
    resolve tree here cwd [t] extension exclude =
      if (root.parts.takeWhile fun part ↦ !part.any Glob.isMagic).any (·.contains (Char.ofNat 0)) then
        .error (.access .nullCharacter)
      else .ok ⟨[], some (Glob.searchPattern root extension), some root⟩ := by
  have hfile : tree.hasFile root = .ok false := by
    rw [Tree.hasFile, hlook]
    rfl
  have hpattern : patternFor tree root extension = .ok (Glob.searchPattern root extension) := by
    rw [Glob.patternFor_eq hroot habsolute hfile, hextension.dropWhile_eq]
  have hdir : tree.find? root.parts ≠ some .directory := by
    rw [hnone]
    exact Option.some_ne_none _ |>.symm
  have hfound : found tree here (Glob.searchPattern root extension) root exclude = [] := by
    rw [found, Glob.files_of_not_directory hroot habsolute hextension.not_mem_slash hdir]
    exact List.mergeSort_nil
  rw [resolve_singleton hresolved hpattern, Glob.opened?_searchPattern hroot, hfound]
  rfl

variable (hsound : tree.Sound)
include hsound

/-- **A file is its own source.** -/
theorem resolve_file {bytes : Bytes} {modified : Int}
    (hfile : tree.look root = .ok (some (.file bytes modified))) (extension : Text)
    (exclude : List Text) :
    resolve tree here cwd [t] extension exclude = .ok
      ⟨if Glob.excludes exclude root.name then [] else [root], some (Glob.escape root.text),
        some root⟩ := by
  have hfind := find?_of_look hroot hfile
  have hisFile : (tree.find? root.parts).any Entry.isFile = true := by
    rw [hfind]
    rfl
  have hhas : tree.hasFile root = .ok true := by
    rw [Tree.hasFile, hfile]
    rfl
  have hpattern : patternFor tree root extension = .ok (Glob.escape root.text) := by
    rw [patternFor, hhas]
    rfl
  have hopened : (Glob.opened? (Glob.escape root.text)).any Path.hasNull = false := by
    have hempty := Glob.hasNull_opened_escape hroot (Tree.ne_nil_of_isFile hisFile) List.not_mem_nil
      (hasNull_of_look hfile)
    rwa [List.append_nil] at hempty
  have hfound : found tree here (Glob.escape root.text) root exclude =
      if Glob.excludes exclude root.name then [] else [root] := by
    rw [found, Glob.files_escape hroot habsolute hsound hhas, List.filter_singleton,
      Glob.ignores_self]
    cases Glob.excludes exclude root.name with
    | true => exact List.mergeSort_nil
    | false => exact List.mergeSort_singleton root
  rw [resolve_singleton hresolved hpattern, hopened, hfound]
  rfl

/-- **Below a directory** the sources are found. -/
theorem resolve_directory (hextension : IsExtension extension)
    (hdir : tree.look root = .ok (some .directory)) (exclude : List Text) :
    ∃ files, resolve tree here cwd [t] extension exclude =
        .ok ⟨files, some (Glob.searchPattern root extension), some root⟩ ∧
      files.Pairwise (fun p q ↦ p.parts < q.parts) ∧
      ∀ p, p ∈ files ↔ IsSource tree root extension exclude p := by
  have hfind := find?_of_look hroot hdir
  have hnodup := Glob.nodup_files_searchPattern hroot habsolute hsound hfind
    hextension.not_mem_slash here
  have hresolve := resolve_of_look hroot habsolute hdir hresolved extension exclude
  rw [hextension.dropWhile_eq] at hresolve
  exact ⟨_, hresolve, pairwise_found hnodup root exclude, fun p ↦
    mem_found_searchPattern hroot habsolute hdir hsound hextension here⟩

end Single

/-- **Sources are found exactly.** A single path is resolved to what its root says. -/
theorem resolve_exact (hsound : tree.Sound)
    (hnames : ∀ e ∈ tree.entries, ∀ part ∈ e.1, Char.ofNat 0 ∉ part) (hhere : here.IsProper)
    (habsolute : here.isAbsolute = true) (hcwd : cwd.IsProper) {name : String} {value : Text}
    (hcheck : Config.checkExtension name value = .ok extension) (t : Text) (exclude : List Text) :
    Answers tree (here.absolute (cwd.join (.ofText t))) extension exclude
      (resolve tree here cwd [t] extension exclude) := by
  have hroot : (here.absolute (cwd.join (.ofText t))).IsPlain :=
    Path.isPlain_absolute hhere (hcwd.join (Path.isProper_ofText t))
  have hroot' : (here.absolute (cwd.join (.ofText t))).isAbsolute = true :=
    Path.isAbsolute_absolute habsolute
  have hextension := isExtension_of_checkExtension hcheck
  generalize hresolved : here.absolute (cwd.join (.ofText t)) = root at hroot hroot' ⊢
  rw [Answers]
  split
  · next hlook =>
    obtain ⟨files, hresolve, hsorted, hmem⟩ :=
      resolve_directory hroot hroot' hresolved hsound hextension hlook exclude
    exact ⟨_, files, hresolve, hsorted, hmem⟩
  · next hlook => exact ⟨_, resolve_file hroot hroot' hresolved hsound hlook extension exclude⟩
  · next hlook =>
    have hnone : tree.find? root.parts = none := by
      by_cases hnull : root.hasNull = true
      · -- what holds a null character is not in the tree
        by_contra hsome
        obtain ⟨entry, hfind⟩ := Option.ne_none_iff_exists'.1 hsome
        obtain ⟨part, hpart, hzero⟩ := List.any_eq_true.1 hnull
        have hne : root.parts ≠ [] := List.ne_nil_of_mem hpart
        exact hnames _ (Tree.mem_of_find? hne hfind) part hpart (List.contains_iff_mem.1 hzero)
      · exact hsound.find?_eq_none hroot (Bool.eq_false_iff.2 hnull) hlook
    rw [resolve_nothing hroot hroot' hresolved hextension hlook hnone]
    split
    · rfl
    · exact ⟨_, rfl⟩
  · next fault hlook =>
    have hpattern : patternFor tree root extension = .error fault := by
      rw [patternFor, Tree.hasFile, hlook]
      rfl
    rw [resolve, hresolved, hpattern]
    rfl

/-- A directory whose name reads like a wildcard, with a stylesheet and a hidden one in it. -/
def sampleTree : Tree :=
  ⟨[(["w".toList], .directory), (["w".toList, "x[1]".toList], .directory),
    (["w".toList, "x[1]".toList, "a.css".toList], .file [] 0),
    (["w".toList, "x[1]".toList, ".b.css".toList], .file [] 1)], 2⟩

/-- In the directory the stylesheet is found and the hidden one is not. A name of 256 characters,
where nothing is, has no answer. -/
theorem resolve_exact_sample :
    (∃ pattern files,
      resolve sampleTree (.ofText "/w".toList) (.ofText "/w".toList) ["x[1]".toList] "css".toList [] =
        .ok ⟨files, some pattern, some (.ofText "/w/x[1]".toList)⟩ ∧
      .ofText "/w/x[1]/a.css".toList ∈ files ∧ .ofText "/w/x[1]/.b.css".toList ∉ files) ∧
    resolve sampleTree (.ofText "/w".toList) (.ofText "/w".toList) [List.replicate 256 'x']
        "css".toList [] =
      .error (.access (.trouble .nameTooLong ⟨.root, ["w".toList, List.replicate 256 'x']⟩)) := by
  have hcheck : Config.checkExtension "--extension" "css".toList = .ok "css".toList := by decide
  have hexact : ∀ t, Answers sampleTree
      (Path.absolute (.ofText "/w".toList) (Path.join (.ofText "/w".toList) (.ofText t)))
      "css".toList []
      (resolve sampleTree (.ofText "/w".toList) (.ofText "/w".toList) [t] "css".toList []) :=
    fun t ↦ resolve_exact (by decide) (by decide) (by decide) rfl (by decide) hcheck t []
  constructor
  · have hroot : Path.absolute (.ofText "/w".toList)
        (Path.join (.ofText "/w".toList) (.ofText "x[1]".toList)) = .ofText "/w/x[1]".toList := by
      decide
    have hlook : sampleTree.look (.ofText "/w/x[1]".toList) = .ok (some .directory) := by decide
    have hdirectory := hexact "x[1]".toList
    rw [hroot] at hdirectory
    simp only [Answers, hlook] at hdirectory
    obtain ⟨pattern, files, hresolve, -, hmem⟩ := hdirectory
    refine ⟨pattern, files, hresolve, ?_, ?_⟩
    · rw [hmem]
      exact ⟨by decide, by decide, [], ['a'], by decide, by decide⟩
    · rw [hmem]
      rintro ⟨-, -, way, stem, hpath, hvisible⟩
      have hparts : ["w".toList, "x[1]".toList] ++ [".b.css".toList] =
          ["w".toList, "x[1]".toList] ++ way ++ [stem ++ '.' :: "css".toList] :=
        congrArg Path.parts hpath
      rw [List.append_assoc] at hparts
      rw [← List.append_cancel_left hparts] at hvisible
      exact hvisible _ (List.mem_singleton_self _) rfl
  · have hroot : Path.absolute (.ofText "/w".toList)
        (Path.join (.ofText "/w".toList) (.ofText (List.replicate 256 'x'))) =
          ⟨.root, ["w".toList, List.replicate 256 'x']⟩ := by
      decide +kernel
    have hlook : sampleTree.look ⟨.root, ["w".toList, List.replicate 256 'x']⟩ =
        .error (.trouble .nameTooLong ⟨.root, ["w".toList, List.replicate 256 'x']⟩) := by
      decide +kernel
    generalize List.replicate 256 'x' = long at hroot hlook ⊢
    have hlong := hexact long
    rw [hroot] at hlong
    simp only [Answers, hlook] at hlong
    exact hlong

end SourceSet

end CssTypings
