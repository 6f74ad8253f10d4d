import CssTypings.Proofs.Pipeline.Batch
import CssTypings.Proofs.Sources

/-!
# Dangling artifacts are found exactly

Sources are looked for before a batch and artifacts after it, by patterns that differ in the suffix.
What the batch reports as dangling is nevertheless determined by the tree in the beginning: the
artifacts that the search would have found there, unless their sources are converted or ignored
(`Dangling.LeftOver`). A batch writes artifacts of sources only, so a file that it made is never
left over, and what was a file in the beginning still is one (`Dangling.leftOver_iff`,
`SourceSet.exists_dangling`).

Below a directory these are the files with the name of an artifact whose source is no file
(`Dangles`), since the source of such an artifact is found exactly if it is a file and not ignored.
Together this gives `convertAll_dangling`.
-/

namespace CssTypings

variable {tree : Tree} {here root p : Path} {extension suffix : Text} {exclude ignored : List Text}

/-! ### What is ignored -/

/-- More patterns ignore more. -/
theorem Glob.excludes_mono (h : ignored ⊆ exclude) {relative : Text}
    (hexclude : excludes exclude relative = false) : excludes ignored relative = false := by
  rw [excludes, List.any_eq_false] at hexclude ⊢
  exact fun pattern hpattern ↦ hexclude pattern (h hpattern)

/-! ### What dangles -/

/-- An artifact below the root whose source is no file. No hidden name leads to it, and its source
would not be ignored. Like any file it has to have a path that can be asked about. -/
def Dangles (tree : Tree) (root : Path) (extension suffix : Text) (exclude : List Text)
    (artifact : Path) : Prop :=
  ∃ (way : List Text) (stem : Text),
    artifact = root.beyond way (stem ++ '.' :: extension ++ suffix) ∧
    (∀ part ∈ way ++ [stem ++ '.' :: extension ++ suffix], part.head? ≠ some '.') ∧
    tree.hasFile artifact = .ok true ∧
    tree.hasFile (root.beyond way (stem ++ '.' :: extension)) ≠ .ok true ∧
    Glob.excludes exclude (Path.text ⟨.relative, way ++ [stem ++ '.' :: extension]⟩) = false

/-- **What the search for dangling artifacts finds**: what matches and has a source that is neither
live nor ignored. -/
theorem Dangling.exists_find {pattern : Text} {sources : List Path}
    (hopened : (Glob.opened? (pattern ++ suffix)).any Path.hasNull = false) (tree : Tree)
    (habsolute : ∀ s ∈ sources, here.absolute s = s) (root : Option Path) (exclude : List Text) :
    ∃ found, find tree here pattern sources suffix root exclude = .ok (Path.sort found) ∧
      found.Sublist (Glob.files tree here (pattern ++ suffix)) ∧
      ∀ a, a ∈ found ↔ a ∈ Glob.files tree here (pattern ++ suffix) ∧
        ∃ source, a.source? suffix = some source ∧ source ∉ sources ∧
          root.any (Glob.ignores exclude · source) = false := by
  have hlive : sources.map here.absolute = sources :=
    (List.map_congr_left habsolute).trans (List.map_id sources)
  rw [find, Glob.search, hopened, hlive]
  refine ⟨_, rfl, List.filter_sublist, fun a ↦ ?_⟩
  rw [List.mem_filter, and_congr_right_iff]
  intro _
  cases a.source? suffix with
  | none => simp
  | some source => simp

/-! ### Patterns with a suffix -/

section Patterns

variable {pattern : Text} {tree' : Tree} (hroot : root.IsPlain) (habsolute : root.isAbsolute = true)
  (hpattern : SourceSet.patternFor tree root extension = .ok pattern)
include hroot habsolute hpattern

/-- The pattern of a root is that of a file or that of a search. -/
theorem SourceSet.patternFor_cases :
    (pattern = Glob.escape root.text ∧ root.hasNull = false ∧
      (tree.find? root.parts).any Entry.isFile = true) ∨
    pattern = Glob.searchPattern root (extension.dropWhile (· = '.')) := by
  cases hfile : tree.hasFile root with
  | error fault =>
    rw [patternFor, hfile] at hpattern
    cases hpattern
  | ok isFile =>
    cases isFile with
    | false =>
      rw [Glob.patternFor_eq hroot habsolute hfile] at hpattern
      exact Or.inr (Except.ok.inj hpattern).symm
    | true =>
      obtain ⟨found, hlook, hisFile⟩ := exists_of_map_eq_ok hfile
      obtain ⟨entry, rfl, hentry⟩ := (Option.any_eq_true _ _).1 hisFile
      rw [patternFor, hfile] at hpattern
      refine Or.inl ⟨(Except.ok.inj hpattern).symm, hasNull_of_look hlook, ?_⟩
      rwa [find?_of_look hroot hlook]

/-- The search for artifacts opens nothing that the search for sources does not. -/
theorem Glob.hasNull_opened_append (hopened : (opened? pattern).any Path.hasNull = false)
    (hsuffix : '/' ∉ suffix) : (opened? (pattern ++ suffix)).any Path.hasNull = false := by
  rcases SourceSet.patternFor_cases hroot habsolute hpattern with ⟨rfl, hnull, hfile⟩ | rfl
  · exact hasNull_opened_escape hroot (Tree.ne_nil_of_isFile hfile) hsuffix hnull
  · rw [searchPattern_append]
    rw [opened?_searchPattern hroot] at hopened ⊢
    exact hopened

section Slashes

variable (hextension : '/' ∉ extension) (hsuffix : '/' ∉ suffix)
include hextension hsuffix

omit hroot habsolute hpattern in
theorem not_mem_slash_append : '/' ∉ extension.dropWhile (· = '.') ++ suffix := by
  rw [List.mem_append]
  exact not_or.2 ⟨fun h ↦ hextension ((List.dropWhile_suffix _).subset h), hsuffix⟩

omit hextension in
/-- The search for artifacts starts where the search for sources does. -/
theorem Glob.start_append (here : Path) : start here (pattern ++ suffix) = ⟨root.anchor, []⟩ := by
  have hne : root.anchor ≠ .relative := of_decide_eq_true habsolute
  rcases SourceSet.patternFor_cases hroot habsolute hpattern with ⟨rfl, -, hfile⟩ | rfl
  · have hanchor := anchor_escape hroot (Tree.ne_nil_of_isFile hfile) hsuffix
    rw [start_of_ne_relative (by rw [hanchor]; exact hne), hanchor]
  · have hanchor := anchor_searchPattern hroot (extension.dropWhile (· = '.') ++ suffix)
    rw [searchPattern_append, start_of_ne_relative (by rw [hanchor]; exact hne), hanchor]

/-- **A search for artifacts finds each once**, in any tree in which the files are still files. -/
theorem Glob.nodup_files_append (hsound' : tree'.Sound)
    (hfiles : ∀ l, (tree.find? l).any Entry.isFile = true → (tree'.find? l).any Entry.isFile = true)
    (here : Path) : (files tree' here (pattern ++ suffix)).Nodup := by
  rcases SourceSet.patternFor_cases hroot habsolute hpattern with ⟨rfl, -, hfile⟩ | rfl
  · obtain ⟨entry, hfind, -⟩ := (Option.any_eq_true _ _).1 (hfiles root.parts hfile)
    rw [files_escape_append hroot habsolute (Tree.ne_nil_of_isFile hfile) hsuffix hsound' hfind]
    exact ((Segment.nodup_step hsound' _ _).filter _).map fun l l' heq ↦ (Path.mk.inj heq).2
  · have htail := not_mem_slash_append hextension hsuffix
    rw [searchPattern_append]
    by_cases hdir : tree'.find? root.parts = some .directory
    · exact nodup_files_searchPattern hroot habsolute hsound' hdir htail here
    · rw [files_of_not_directory hroot habsolute htail hdir]
      exact List.nodup_nil

end Slashes

end Patterns

/-! ### Artifacts that are left over -/

/-- An artifact that is found next to a set of sources, and whose own source is neither in the set
nor ignored. -/
def Dangling.LeftOver (tree : Tree) (here : Path) (sources : SourceSet) (suffix : Text)
    (exclude : List Text) (artifact : Path) : Prop :=
  ∃ pattern ∈ sources.pattern, artifact ∈ Glob.files tree here (pattern ++ suffix) ∧
    ∃ source, artifact.source? suffix = some source ∧ source ∉ sources.files ∧
      sources.root.any (Glob.ignores exclude · source) = false

section LeftOver

variable {tree' : Tree} {cwd : Path} {paths : List Text} {sources : SourceSet}
  (hsuffix : Path.IsSuffix suffix) (hsound : tree.Sound) (hsound' : tree'.Sound)
  (hwrote : Tree.WroteAt {l | ∃ s ∈ sources.files, l = (s.artifact suffix).parts} tree tree')
include hsuffix hsound hsound' hwrote

/-- **Converting sources leaves nothing over**, and what was left over stays. -/
theorem Dangling.leftOver_iff {a : Path}
    (hfiles : ∀ s ∈ sources.files, s.IsPlain ∧ s.parts ≠ [])
    (hanchor : ∀ pattern ∈ sources.pattern, ∀ s ∈ sources.files,
      s.anchor = (Glob.start here (pattern ++ suffix)).anchor) :
    LeftOver tree' here sources suffix exclude a ↔ LeftOver tree here sources suffix exclude a := by
  have hdirs := hwrote.sameDirectories
  constructor
  · rintro ⟨pattern, hpattern, hmem, source, hsource, hlive, hignores⟩
    refine ⟨pattern, hpattern, ?_, source, hsource, hlive, hignores⟩
    by_cases hnew : a.parts ∈ {l | ∃ s ∈ sources.files, l = (s.artifact suffix).parts}
    · -- the batch may have made it, so it belongs to one of the sources
      obtain ⟨s, hs, hparts⟩ := hnew
      obtain ⟨hplain, hne⟩ := hfiles s hs
      have hstart := Glob.anchor_of_mem_files hmem
      have hsame : a = s.artifact suffix := by
        have hartifact := Path.artifact_eq hsuffix.not_mem_slash hne hplain
        have hanchor' : a.anchor = (s.artifact suffix).anchor := by
          rw [hartifact, hstart, hanchor pattern hpattern s hs]
        obtain ⟨anchor, parts⟩ := a
        exact congrArg₂ Path.mk hanchor' hparts
      rw [hsame, Path.source?_artifact hsuffix hne hplain] at hsource
      exact absurd (Option.some.inj hsource ▸ hs) hlive
    · have hfile := Glob.isFile_of_mem_files hmem
      rw [hwrote.find?_eq hnew] at hfile
      exact Glob.files_mono hsound (fun l ↦ (hdirs l).2) hmem hfile
  · rintro ⟨pattern, hpattern, hmem, hsource⟩
    refine ⟨pattern, hpattern, ?_, hsource⟩
    exact Glob.files_mono hsound' (fun l ↦ (hdirs l).1) hmem
      (hwrote.isFile (Glob.isFile_of_mem_files hmem))

/-- **What is reported as dangling** after the sources were converted is what was left over
before. -/
theorem SourceSet.exists_dangling (hhere : here.IsProper) (habsolute : here.isAbsolute = true)
    (hcwd : cwd.IsProper) (hextension : '/' ∉ extension)
    (hresolve : resolve tree here cwd paths extension ignored = .ok sources) (exclude : List Text) :
    ∃ dangling,
      (∀ pattern ∈ sources.pattern, Dangling.find tree' here pattern sources.files suffix
        sources.root exclude = .ok dangling) ∧
      (sources.pattern = none → dangling = []) ∧
      dangling.Pairwise (fun a b ↦ a.parts < b.parts) ∧
      ∀ a, a ∈ dangling ↔ Dangling.LeftOver tree here sources suffix exclude a := by
  match paths, hresolve with
  | [], hresolve => cases hresolve
  | t :: u :: rest, hresolve =>
    obtain rfl := Except.ok.inj hresolve
    refine ⟨[], by rintro _ ⟨⟩, fun _ ↦ rfl, .nil, fun a ↦ ⟨fun h ↦ absurd h List.not_mem_nil, ?_⟩⟩
    rintro ⟨_, ⟨⟩, -⟩
  | [t], hresolve =>
    have hroot : (here.absolute (cwd.join (.ofText t))).IsPlain :=
      Path.isPlain_absolute hhere (hcwd.join (Path.isProper_ofText t))
    have hroot' : (here.absolute (cwd.join (.ofText t))).isAbsolute = true :=
      Path.isAbsolute_absolute habsolute
    obtain ⟨pattern, hpattern, hopened, rfl⟩ := exists_of_resolve hresolve
    generalize here.absolute (cwd.join (.ofText t)) = root at hroot hroot' hpattern hwrote ⊢
    have hslash := hsuffix.not_mem_slash
    have hstart := Glob.start_append hroot hroot' hpattern hslash here
    have hstart' := Glob.start_append hroot hroot' hpattern List.not_mem_nil here
    rw [List.append_nil] at hstart'
    have hmem : ∀ s ∈ found tree here pattern root ignored, s ∈ Glob.files tree here pattern :=
      fun s hs ↦ (mem_found.1 hs).1
    have hanchor : ∀ s ∈ found tree here pattern root ignored, s.anchor = root.anchor := by
      intro s hs
      rw [Glob.anchor_of_mem_files (hmem s hs), hstart']
    have hfiles : ∀ s ∈ found tree here pattern root ignored, s.IsPlain ∧ s.parts ≠ [] := by
      intro s hs
      have hfile := Glob.isFile_of_mem_files (hmem s hs)
      exact ⟨Tree.isPlain_of_isFile hsound hfile, Tree.ne_nil_of_isFile hfile⟩
    have hlive : ∀ s ∈ found tree here pattern root ignored, here.absolute s = s := fun s hs ↦
      Path.absolute_of_isPlain here (Glob.isAbsolute_of_mem_files habsolute (hmem s hs)) (hfiles s hs).1
    obtain ⟨left, hfind, hsublist, hleft⟩ := Dangling.exists_find
      (Glob.hasNull_opened_append hroot hroot' hpattern hopened hslash) tree' hlive (some root) exclude
    refine ⟨Path.sort left, ?_, by rintro ⟨⟩, ?_, fun a ↦ ?_⟩
    · rintro _ ⟨⟩
      exact hfind
    · have hnodup := Glob.nodup_files_append hroot hroot' hpattern hextension hslash hsound'
        (fun l hfile ↦ hwrote.isFile hfile) here
      refine Path.pairwise_parts_sort root.anchor (fun a ha ↦ ?_) (hnodup.sublist hsublist)
      rw [Glob.anchor_of_mem_files ((hleft a).1 ha).1, hstart]
    · rw [Path.mem_sort, hleft, ← Dangling.leftOver_iff hsuffix hsound hsound' hwrote hfiles]
      · simp [Dangling.LeftOver]
      · rintro _ ⟨⟩ s hs
        rw [hanchor s hs, hstart]

end LeftOver

/-! ### Sources and artifacts below a root -/

section Beyond

variable {way : List Text} {name stem : Text}

/-- A file to which no hidden name leads has a plain path. -/
theorem isPlain_of_hasFile (hroot : root.IsPlain) (hsound : tree.Sound)
    (hvisible : ∀ part ∈ way ++ [name], part.head? ≠ some '.')
    (hfile : tree.hasFile (root.beyond way name) = .ok true) : (root.beyond way name).IsPlain := by
  have hup : Path.up ∉ (root.beyond way name).parts := by
    rw [Path.beyond, List.append_assoc]
    exact hroot.up_not_mem_append hvisible
  exact Tree.isPlain_of_isFile hsound ((hsound.hasFile_iff hup).1 hfile).2

/-- What is left of the name of an artifact names something. -/
theorem isPlain_beyond
    (hplain : (root.beyond way (stem ++ '.' :: extension ++ suffix)).IsPlain)
    (hvisible : (stem ++ '.' :: extension ++ suffix).head? ≠ some '.') :
    (root.beyond way (stem ++ '.' :: extension)).IsPlain ∧
      (stem ++ '.' :: extension).head? ≠ some '.' := by
  have hhead : (stem ++ '.' :: extension).head? ≠ some '.' := by
    cases stem with
    | nil => exact absurd rfl hvisible
    | cons c stem => simpa using hvisible
  have hname : Path.IsName (stem ++ '.' :: extension ++ suffix) := hplain _ (by simp [Path.beyond])
  refine ⟨fun part hpart ↦ ?_, hhead⟩
  rcases List.mem_append.1 hpart with hpart | hpart
  · exact hplain part (List.mem_append_left _ hpart)
  · rw [List.mem_singleton.1 hpart]
    refine ⟨⟨by simp, ?_, fun hslash ↦ ?_⟩, ?_⟩
    · exact fun heq ↦ hhead (by rw [heq]; rfl)
    · exact hname.not_mem_slash (List.mem_append_left _ hslash)
    · exact fun heq ↦ hhead (by rw [heq]; rfl)

theorem visible_beyond {name' : Text}
    (hvisible : ∀ part ∈ way ++ [name'], part.head? ≠ some '.') (hname : name.head? ≠ some '.') :
    ∀ part ∈ way ++ [name], part.head? ≠ some '.' := by
  intro part hpart
  rcases List.mem_append.1 hpart with hpart | hpart
  · exact hvisible part (List.mem_append_left _ hpart)
  · rwa [List.mem_singleton.1 hpart]

end Beyond

/-- **What is left over below a directory** is what dangles there. -/
theorem Dangling.leftOver_iff_dangles {a : Path} {sources : List Path}
    (hsources : ∀ p, p ∈ sources ↔ IsSource tree root extension ignored p)
    (hignored : ignored ⊆ exclude) (hsuffix : Path.IsSuffix suffix)
    (hmagic : ∀ c ∈ suffix, Glob.isMagic c = false) (hextension : IsExtension extension)
    (hroot : root.IsPlain) (habsolute : root.isAbsolute = true) (hsound : tree.Sound)
    (hdir : tree.find? root.parts = some .directory) (here : Path) :
    LeftOver tree here ⟨sources, some (Glob.searchPattern root extension), some root⟩ suffix exclude
        a ↔
      Dangles tree root extension suffix exclude a := by
  have hslash : '/' ∉ extension ++ suffix :=
    hextension.dropWhile_eq ▸ not_mem_slash_append hextension.not_mem_slash hsuffix.not_mem_slash
  have hplain : ∀ c ∈ extension ++ suffix, Glob.isMagic c = false :=
    List.forall_mem_append.2 ⟨hextension.not_isMagic, hmagic⟩
  have hassoc : ∀ stem : Text, stem ++ '.' :: (extension ++ suffix) =
      stem ++ '.' :: extension ++ suffix := fun stem ↦ by simp
  have hlast {way : List Text} {name : Text}
      (hvisible : ∀ part ∈ way ++ [name], part.head? ≠ some '.') : name.head? ≠ some '.' :=
    hvisible name (List.mem_append_right _ (List.mem_singleton_self _))
  have hartifact {way : List Text} {name : Text}
      (hvisible : ∀ part ∈ way ++ [name], part.head? ≠ some '.')
      (hfile : tree.hasFile (root.beyond way name) = .ok true) : (root.beyond way name).IsPlain :=
    isPlain_of_hasFile hroot hsound hvisible hfile
  simp only [LeftOver, Option.mem_def, Option.some.injEq, exists_eq_left', Option.any_some,
    Glob.searchPattern_append, Glob.mem_files_searchPattern hroot habsolute hsound hdir hslash hplain,
    hassoc]
  constructor
  · rintro ⟨⟨hfile, way, stem, rfl, hvisible⟩, source, hsource, hlive, hignores⟩
    rw [← Path.beyond] at hsource hfile
    obtain ⟨hs, hhead⟩ := isPlain_beyond (hartifact hvisible hfile) (hlast hvisible)
    have hwritten := artifact_beyond hsuffix.not_mem_slash hs
    rw [← hwritten, Path.source?_artifact hsuffix Path.beyond_ne_nil hs] at hsource
    cases hsource
    rw [Glob.ignores_beyond] at hignores
    refine ⟨way, stem, rfl, hvisible, hfile, ?_, hignores⟩
    refine fun hfile' ↦ hlive ((hsources _).2 ⟨hfile', ?_, way, stem, rfl, ?_⟩)
    · rw [Glob.ignores_beyond]
      exact Glob.excludes_mono hignored hignores
    · exact visible_beyond hvisible hhead
  · rintro ⟨way, stem, rfl, hvisible, hfile, hgone, hexclude⟩
    obtain ⟨hs, -⟩ := isPlain_beyond (hartifact hvisible hfile) (hlast hvisible)
    refine ⟨⟨hfile, way, stem, rfl, hvisible⟩, root.beyond way (stem ++ '.' :: extension), ?_, ?_, ?_⟩
    · rw [← artifact_beyond hsuffix.not_mem_slash hs]
      exact Path.source?_artifact hsuffix Path.beyond_ne_nil hs
    · exact fun hlive ↦ hgone ((hsources _).1 hlive).1
    · rw [Glob.ignores_beyond, hexclude]

/-! ### The search after the batch -/

namespace Pipeline

variable {pipeline : Pipeline} {space : Workspace}

/-- The places of the artifacts that the files of a tree may have. -/
def artifactPlaces (pipeline : Pipeline) (tree : Tree) : Set Location :=
  {l | ∃ source : Path, source.IsPlain ∧ (tree.find? source.parts).any Entry.isFile = true ∧
    l = (pipeline.artifactOf source).parts}

/-- Whatever the search finds after a batch is reported. -/
theorem convertAll_eq {sources : SourceSet} {dangling : List Path} {limit : Option Int}
    {outcomes : List Outcome} {after : Workspace} (hlimit : ∀ n ∈ limit, 0 < n)
    (hbatch : pipeline.processAll sources.files space = (.ok outcomes, after))
    (hfind : ∀ pattern ∈ sources.pattern, Dangling.find after.tree after.here pattern sources.files
      pipeline.suffix sources.root exclude = .ok dangling)
    (hnone : sources.pattern = none → dangling = []) :
    pipeline.convertAll sources limit exclude space =
      (.ok ⟨outcomes, dangling⟩, { after with
        reports := after.reports ++
          Dangling.reports after.here pipeline.cwd pipeline.suffix dangling }) := by
  rw [convertAll, runBatch_eq hlimit hbatch]
  cases hpattern : sources.pattern with
  | none =>
    rw [hnone hpattern, Dangling.reports, if_pos rfl, List.append_nil]
  | some pattern => simp only [hfind pattern hpattern]

/-- **Dangling artifacts are found exactly.** After the sources below a directory were converted,
the artifacts that are reported are those that dangled in the beginning, in order and each once. -/
theorem convertAll_dangling (ready : pipeline.Ready space) (hlog : pipeline.eventLog = none)
    (hmagic : ∀ c ∈ pipeline.suffix, Glob.isMagic c = false)
    (hhere : space.here.isAbsolute = true) {base : Path} (hbase : base.IsProper) {t : Text}
    (hroot : space.here.absolute (base.join (.ofText t)) = root)
    (hdir : space.tree.look root = .ok (some .directory)) {name : String} {value : Text}
    (hcheck : Config.checkExtension name value = .ok extension) (hignored : ignored ⊆ exclude)
    (hfresh : pipeline.Fresh space (pipeline.artifactPlaces space.tree)) {limit : Option Int}
    (hlimit : ∀ n ∈ limit, 0 < n) :
    ∃ sources result after,
      SourceSet.resolve space.tree space.here base [t] extension ignored = .ok sources ∧
      pipeline.convertAll sources limit exclude space = (.ok result, after) ∧
      result.dangling.Pairwise (fun a b ↦ a.parts < b.parts) ∧
      ∀ a, a ∈ result.dangling ↔
        Dangles space.tree root extension pipeline.suffix exclude a := by
  have hplain : root.IsPlain :=
    hroot ▸ Path.isPlain_absolute ready.here (hbase.join (Path.isProper_ofText t))
  have habsolute : root.isAbsolute = true := hroot ▸ Path.isAbsolute_absolute hhere
  have hextension := isExtension_of_checkExtension hcheck
  obtain ⟨files, hresolve, -, hmem⟩ :=
    SourceSet.resolve_directory hplain habsolute hroot ready.tree hextension hdir ignored
  have hfile : ∀ s ∈ files, s.IsPlain ∧ s.isAbsolute = true ∧
      (space.tree.find? s.parts).any Entry.isFile = true := by
    intro s hs
    obtain ⟨hfile, -, way, stem, rfl, hvisible⟩ := (hmem s).1 hs
    have hs := isPlain_of_hasFile hplain ready.tree hvisible hfile
    exact ⟨hs, habsolute, ((ready.tree.hasFile_iff hs.up_not_mem).1 hfile).2⟩
  have hsource : ∀ s ∈ files, pipeline.sourceOf space.here s = s := fun s hs ↦
    sourceOf_of_isPlain (hfile s hs).1 (hfile s hs).2.1 space.here
  -- the batch writes artifacts of the sources and nothing else
  have hfresh' : pipeline.Fresh space {l | ∃ s ∈ files, l = (s.artifact pipeline.suffix).parts} :=
    hfresh.mono fun l ⟨s, hs, hl⟩ ↦ ⟨s, (hfile s hs).1, (hfile s hs).2.2, hl⟩
  obtain ⟨outcomes, after, hbatch, hready, hhere', hwrote⟩ :=
    processAll_frame ready hlog (fun s hs ↦ (hfile s hs).1.isProper) hfresh'
      (fun s hs ↦ ⟨s, hs, by rw [hsource s hs]; rfl⟩)
  obtain ⟨dangling, hfind, hnone, hsorted, hleft⟩ := SourceSet.exists_dangling ready.suffix ready.tree
    hready.tree hwrote ready.here hhere hbase hextension.not_mem_slash hresolve exclude
  rw [← hhere'] at hfind
  refine ⟨_, _, _, hresolve, convertAll_eq hlimit hbatch hfind hnone, hsorted, fun a ↦ ?_⟩
  rw [hleft, Dangling.leftOver_iff_dangles hmem hignored ready.suffix hmagic hextension hplain habsolute
    ready.tree (find?_of_look hplain hdir)]

theorem fresh_sample : sample.Fresh sampleSpace (sample.artifactPlaces sampleTree) := by
  refine fresh_of_empty (by decide) (by decide) (by decide) ?_
  have hfiles : ∀ e ∈ sampleTree.entries, e.2.isFile = true →
      ¬ sample.store.directory.parts <+: e.1.dropLast ++ [e.1.getLastD [] ++ sample.suffix] := by
    decide
  rintro l ⟨source, hplain, hfile, rfl⟩
  obtain ⟨entry, hfind, hentry⟩ := (Option.any_eq_true _ _).1 hfile
  have hne := Tree.ne_nil_of_isFile hfile
  rw [artifactOf, Path.artifact_eq ready_sample.suffix.not_mem_slash hne hplain]
  exact hfiles _ (Tree.mem_of_find? hne hfind) hentry

/-- In the project the artifact without a source is reported, and the other one is not. -/
theorem convertAll_dangling_sample :
    ∃ sources result after,
      SourceSet.resolve sampleTree sampleSpace.here sample.cwd [['.']] "css".toList [] =
        .ok sources ∧
      sample.convertAll sources none ["*/vendor/*".toList] sampleSpace = (.ok result, after) ∧
      .ofText "/w/c.css.flow".toList ∈ result.dangling ∧
      .ofText "/w/a.css.flow".toList ∉ result.dangling := by
  have hcheck : Config.checkExtension "--extension" ".css".toList = .ok "css".toList := by decide
  have hdir : sampleTree.look (sampleSpace.here.absolute (sample.cwd.join (.ofText ['.']))) =
      .ok (some .directory) := by decide
  have hmagic : ∀ c ∈ sample.suffix, Glob.isMagic c = false :=
    Glob.not_isMagic_of_any (by decide)
  have hlimit : ∀ n ∈ (none : Option Int), 0 < n := by simp
  obtain ⟨sources, result, after, hresolve, hconvert, -, hdangling⟩ :=
    convertAll_dangling ready_sample rfl hmagic (by decide) ready_sample.cwd rfl hdir hcheck
      (List.nil_subset ["*/vendor/*".toList]) fresh_sample hlimit
  refine ⟨sources, result, after, hresolve, hconvert, ?_, ?_⟩
  · rw [hdangling]
    exact ⟨[], ['c'], by decide, by decide, by decide, by decide, by decide⟩
  · rw [hdangling]
    rintro ⟨way, stem, heq, -, -, hgone, -⟩
    have hparts : [['w'], "a.css.flow".toList] =
        [['w']] ++ way ++ [stem ++ ".css".toList ++ ".flow".toList] := congrArg Path.parts heq
    obtain rfl : way = [] := by
      have hlength := congrArg List.length hparts
      simp only [List.length_append, List.length_cons, List.length_nil] at hlength
      exact List.length_eq_zero_iff.1 (by omega)
    obtain rfl : stem = ['a'] := by
      have hname : ['a'] ++ ".css.flow".toList = stem ++ ".css.flow".toList := by
        simpa using hparts
      exact (List.append_cancel_right hname).symm
    exact absurd hgone (by decide)

end Pipeline

end CssTypings
