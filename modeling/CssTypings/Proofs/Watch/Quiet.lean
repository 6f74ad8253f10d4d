import CssTypings.CommandLine.Execute
import CssTypings.Proofs.Config.Accepted
import CssTypings.Proofs.Watch.Rounds

/-!
# A watch and its own output

Between two rounds without an edit nothing has changed but the artifacts that the first of them
wrote. So whatever the second one converts is such an artifact, which the pattern of the watch takes
for a source (`mem_writtenBy_of_event`).

For a watch over a directory that depends on the settings alone. Its sources end with the extension,
and the artifact of one of them can only do so if the extension with its dot is at the end of what
the suffix makes of it (`parts_ne_of_mem_sources`). If it is not, the second round has no events and
changes nothing (`poll_quiet`). If it is, as for the suffix `.css`, a watch goes on to convert its
own output (`poll_feeds`).
-/

namespace CssTypings.Watch

variable {pipeline : Pipeline} {watch : Coordinator} {space start after final : Workspace}
  {taken : Set Location} {here root p q : Path} {extension t : Text} {config : Config}

/-! ### Two rounds without an edit between them -/

section Twice

variable {seen : Option Snapshot} {current last : Snapshot} {first second : Look}
  (hsound : space.tree.Sound) (h : Converts pipeline taken watch seen space current first after)
  (h' : Converts pipeline taken watch (some current) after last second final)
include hsound h h'

/-- **What the second round converts was written by the first one.** -/
theorem mem_writtenBy_of_event (hp : p ∈ second.events.map Event.path) :
    watch.Sees after p ∧ p.parts ∈ Pipeline.writtenBy first.outcomes := by
  rw [h'.events] at hp
  obtain ⟨stamp, hstamp, hnew⟩ := Delta.mem_events.1 hp
  obtain ⟨hfinds, hlast⟩ := (h'.scan p stamp).1 hstamp
  have hplain := Tree.isPlain_of_isFile h.processed.sound (Glob.isFile_of_mem_files hfinds.1)
  refine ⟨Coordinator.sees_iff.2 ⟨hfinds, stamp, hlast⟩, ?_⟩
  by_contra hnot
  -- otherwise the file was there before, and the first round saw it
  have hfind := h.processed.wrote.find?_eq fun hmem ↦ hnot hmem.2
  have hdirs := h.processed.wrote.sameDirectories
  have hbefore : watch.Finds space p :=
    hfinds.mono h.processed.here.symm hsound (fun l ↦ (hdirs l).2) hfind.symm
  refine hnew ((h.scan p stamp).2 ⟨hbefore, ?_⟩)
  rw [← hlast]
  exact (hsound.stamp?_congr h.processed.sound hplain hfind).symm

/-- If no artifact is a source, the second round does nothing. -/
theorem quiet_of_apart (habsolute : space.here.isAbsolute = true)
    (hapart : ∀ p ∈ watch.sources space.here, ∀ q ∈ watch.sources space.here,
      (pipeline.artifactOf p).place ≠ q.parts) : second = ⟨[], []⟩ ∧ final = after := by
  have hlisting : Pipeline.Listing (watch.sources space.here) :=
    Coordinator.listing_sources habsolute
  have hsource : ∀ outcome ∈ first.outcomes, outcome.source ∈ watch.sources space.here := by
    intro outcome houtcome
    have hmem : outcome.source ∈ first.outcomes.map Outcome.source := List.mem_map_of_mem houtcome
    rw [h.processed.sources] at hmem
    obtain ⟨p, hp, heq⟩ := List.mem_map.1 hmem
    have hp' : p ∈ watch.sources space.here := (h.finds_of_event hp).mem_sources hsound
    rwa [← heq, Pipeline.sourceOf_of_isPlain (hlisting.isPlain p hp') (hlisting.isAbsolute p hp')]
  have hnil : second.events = [] := by
    refine List.eq_nil_iff_forall_not_mem.2 fun event hevent ↦ ?_
    obtain ⟨hsees, outcome, houtcome, artifact, hartifact, hplace⟩ :=
      mem_writtenBy_of_event hsound h h' (List.mem_map_of_mem hevent)
    have hevent' : event.path ∈ watch.sources space.here :=
      h.processed.here ▸ hsees.1.mem_sources h.processed.sound
    rw [h.processed.artifacts outcome houtcome artifact hartifact] at hplace
    exact hapart _ (hsource outcome houtcome) _ hevent' hplace.symm
  have hrun := h'.run
  obtain ⟨events, outcomes⟩ := second
  obtain rfl : events = [] := hnil
  obtain ⟨houtcomes, rfl⟩ := Prod.mk.inj hrun
  obtain rfl := Except.ok.inj houtcomes
  exact ⟨rfl, rfl⟩

end Twice

/-! ### Watches over directories -/

/-- **No artifact is a source** if the suffix does not make the extension end with itself. -/
theorem parts_ne_of_mem_sources (hpattern : watch.pattern = Glob.searchPattern root extension)
    (hroot : root.IsPlain) (habsolute : root.isAbsolute = true) (hextension : IsExtension extension)
    (hslash : '/' ∉ pipeline.suffix)
    (hends : ¬ '.' :: extension <:+ '.' :: extension ++ pipeline.suffix)
    (hp : p ∈ watch.sources here) (hq : q ∈ watch.sources here) :
    (pipeline.artifactOf p).parts ≠ q.parts := by
  obtain ⟨hplain, way, stem, rfl⟩ :=
    exists_beyond_of_mem_sources hpattern hroot habsolute hextension hp
  obtain ⟨-, way', stem', rfl⟩ :=
    exists_beyond_of_mem_sources hpattern hroot habsolute hextension hq
  rw [Pipeline.artifactOf, artifact_beyond hslash hplain]
  intro hparts
  obtain ⟨-, hlast⟩ := List.append_inj' hparts rfl
  have hname : stem ++ '.' :: extension ++ pipeline.suffix = stem' ++ '.' :: extension :=
    List.singleton_inj.1 hlast
  have hshort : '.' :: extension <:+ stem' ++ '.' :: extension := List.suffix_append _ _
  have hlong : '.' :: extension ++ pipeline.suffix <:+ stem' ++ '.' :: extension := by
    rw [← hname, List.append_assoc]
    exact List.suffix_append _ _
  exact hends (List.suffix_of_suffix_length_le hshort hlong (by simp))

/-- The pattern of a directory and the watch that is made of it. -/
theorem exists_watch {cwd : Path} {ignored : List Text} (hextension : IsExtension extension)
    (hroot : root.IsPlain) (habsolute : root.isAbsolute = true)
    (hresolved : start.here.absolute (cwd.join (.ofText t)) = root) (hsound : start.tree.Sound)
    (hdir : start.tree.look root = .ok (some .directory)) :
    ∃ sources watch,
      SourceSet.resolve start.tree start.here cwd [t] extension ignored = .ok sources ∧
      Coordinator.make sources ignored = .ok watch ∧
      watch.pattern = Glob.searchPattern root extension := by
  obtain ⟨files, hresolve, -⟩ :=
    SourceSet.resolve_directory hroot habsolute hresolved hsound hextension hdir ignored
  exact ⟨_, _, hresolve, rfl, rfl⟩

/-- **A watch over a directory is quiet unless it finds its own artifacts.** Whatever it saw last
and whatever the tree is by now, two rounds without an edit between them give results. The second
one converts nothing but artifacts that the first one wrote and that the pattern finds. If the
suffix has no slash and does not make the extension end with itself, it has no events and changes
nothing. -/
theorem poll_quiet (build : Config → Compiler) (mode : String) {cwd : Path}
    (haccepted : Config.Accepted cwd config) (hlog : config.eventLog = none) (hcwd : cwd.IsProper)
    (hhere : start.here.IsProper) (habsolute : start.here.isAbsolute = true)
    (hstart : start.tree.Sound) (hresolved : start.here.absolute (cwd.join (.ofText t)) = root)
    (hdir : start.tree.look root = .ok (some .directory)) :
    ∃ sources watch,
      SourceSet.resolve start.tree start.here config.cwd [t] config.extension config.excludeGlobs =
        .ok sources ∧
      Coordinator.make sources config.excludeGlobs = .ok watch ∧
      ∀ (seen : Option Snapshot) (space : Workspace), space.here = start.here → space.tree.Sound →
        (CommandLine.pipelineFor build config mode start).Fresh space
          {l | ∃ p ∈ watch.sources start.here,
            l = ((CommandLine.pipelineFor build config mode start).artifactOf p).place} →
        ∃ first next after second last final,
          Coordinator.poll { watch with snapshot := seen }
            (CommandLine.pipelineFor build config mode start) space = (.ok first, next, after) ∧
          next.poll (CommandLine.pipelineFor build config mode start) after =
            (.ok second, last, final) ∧
          (∀ event ∈ second.events, watch.Sees after event.path ∧
            ∃ outcome ∈ first.outcomes, ∃ artifact, outcome.artifact = some artifact ∧
              event.path.parts = artifact.place) ∧
          ('/' ∉ config.declarationSuffix →
            ¬ '.' :: config.extension <:+ '.' :: config.extension ++ config.declarationSuffix →
            second = ⟨[], []⟩ ∧ final = after) := by
  obtain ⟨hconfig, hcwd'⟩ := haccepted.wellFormed
  have hroot : root.IsPlain :=
    hresolved ▸ Path.isPlain_absolute hhere (hcwd.join (Path.isProper_ofText t))
  have habsolute' : root.isAbsolute = true := hresolved ▸ Path.isAbsolute_absolute habsolute
  obtain ⟨sources, watch, hresolve, hmake, hpattern⟩ :=
    exists_watch hconfig.extension hroot habsolute' hresolved hstart hdir
  have hopened : (Glob.opened? watch.pattern).any Path.hasNull = false := by
    rw [hpattern]
    exact Glob.hasNull_opened hroot (hasNull_of_look hdir) config.extension
  refine ⟨sources, watch, hcwd' ▸ hresolve, hmake, fun seen space hsame hsound hfresh ↦ ?_⟩
  -- all that matters of the pipeline is its suffix and that it has no log
  have hsuffix : (CommandLine.pipelineFor build config mode start).suffix =
      config.declarationSuffix := rfl
  have hlog' : (CommandLine.pipelineFor build config mode start).eventLog = none := hlog
  generalize CommandLine.pipelineFor build config mode start = pipeline at *
  rw [← hsame] at habsolute hfresh
  have hwrites : ∀ p ∈ watch.sources space.here, pipeline.WritesIn
      {l | ∃ p ∈ watch.sources space.here, l = (pipeline.artifactOf p).place} p :=
    fun p hp ↦ Pipeline.writesIn_place ⟨p, hp, rfl⟩
  obtain ⟨current, first, after, hpoll, hfirst⟩ :=
    exists_poll hlog' habsolute hsound hfresh (fun p hp ↦ hwrites p (hp.mem_sources hsound))
      hopened seen
  have hafter := hfirst.processed.here
  obtain ⟨last, second, final, hpoll', hsecond⟩ :=
    exists_poll hlog' (hafter ▸ habsolute) hfirst.processed.sound (hfirst.processed.fresh hfresh)
      (fun p hp ↦ hwrites p (hafter ▸ hp.mem_sources hfirst.processed.sound)) hopened (some current)
  refine ⟨first, _, after, second, _, final, hpoll, hpoll', fun event hevent ↦ ?_, ?_⟩
  · exact mem_writtenBy_of_event hsound hfirst hsecond (List.mem_map_of_mem hevent)
  · intro hslash hends
    rw [← hsuffix] at hslash hends
    refine quiet_of_apart hsound hfirst hsecond habsolute fun p hp q hq ↦ ?_
    obtain ⟨hplain, -⟩ :=
      exists_beyond_of_mem_sources hpattern hroot habsolute' hconfig.extension hp
    have hne := (Coordinator.listing_sources habsolute).ne_nil p hp
    rw [Pipeline.artifactOf, Path.place_of_isPlain (Path.isPlain_artifact hslash hne hplain)]
    exact parts_ne_of_mem_sources hpattern hroot habsolute' hconfig.extension hslash hends hp hq

/-! ### In a project -/

section Sample

open Pipeline (sampleTree sampleSpace ready_sample)

/-- The watch that the command begins in the project when nothing is set. -/
def defaultPipeline : Pipeline :=
  CommandLine.pipelineFor CommandLine.plainCompiler (.default (.ofText "/w".toList)) "watch" sampleSpace

/-- Scratch files of the project are none of its artifacts. -/
theorem fresh_default
    (hpattern : watch.pattern = Glob.searchPattern (.ofText "/w".toList) "css".toList) :
    defaultPipeline.Fresh sampleSpace
      {l | ∃ p ∈ watch.sources sampleSpace.here, l = (defaultPipeline.artifactOf p).place} := by
  refine Pipeline.fresh_of_empty (by decide) (by decide) (by decide) ?_
  rintro l ⟨p, hp, rfl⟩
  obtain ⟨hplain, way, stem, rfl⟩ :=
    exists_beyond_of_mem_sources hpattern (by decide) rfl Config.isExtension_default hp
  have hslash : '/' ∉ defaultPipeline.suffix := by decide
  have hartifact := Path.isPlain_artifact hslash Path.beyond_ne_nil hplain
  rw [Pipeline.artifactOf, Path.place_of_isPlain hartifact, artifact_beyond hslash hplain]
  have hhead : ∀ name : Text, (Path.beyond (.ofText "/w".toList) way name).parts.head? =
      some "w".toList := fun _ ↦ rfl
  rintro ⟨rest, heq⟩
  have htemp : (defaultPipeline.store.directory.parts ++ rest).head? = some "tmp".toList := rfl
  rw [heq, hhead] at htemp
  exact absurd htemp (by decide)

/-- In the project the second of two rounds does nothing. -/
theorem poll_quiet_sample :
    ∃ sources watch,
      SourceSet.resolve sampleTree sampleSpace.here (.ofText "/w".toList) [['.']] "css".toList [] =
        .ok sources ∧
      Coordinator.make sources [] = .ok watch ∧
      ∃ first next after last,
        Coordinator.poll { watch with snapshot := some [] } defaultPipeline sampleSpace =
          (.ok first, next, after) ∧
        next.poll defaultPipeline after = (.ok ⟨[], []⟩, last, after) := by
  have hdir : sampleTree.look (.ofText "/w".toList) = .ok (some .directory) := by decide
  have hresolved : sampleSpace.here.absolute
      (Path.join (.ofText "/w".toList) (.ofText ['.'])) = .ofText "/w".toList := by decide
  obtain ⟨sources, watch, hresolve, hmake, hquiet⟩ :=
    poll_quiet CommandLine.plainCompiler "watch" .default rfl (by decide) (by decide) rfl
      ready_sample.tree hresolved hdir
  obtain ⟨sources', watch', hresolve', hmake', hpattern⟩ :=
    exists_watch Config.isExtension_default (by decide) rfl hresolved ready_sample.tree hdir
  obtain rfl := Except.ok.inj (hresolve.symm.trans hresolve')
  obtain rfl := Except.ok.inj (hmake.symm.trans hmake')
  obtain ⟨first, next, after, second, last, final, hpoll, hpoll', -, hnothing⟩ :=
    hquiet (some []) sampleSpace rfl ready_sample.tree (fresh_default hpattern)
  obtain ⟨rfl, rfl⟩ := hnothing (by decide) (by decide)
  exact ⟨sources, watch, hresolve, hmake, first, next, _, last, hpoll, hpoll'⟩

/-- The project before it has any stylesheet. -/
def emptySpace : Workspace :=
  { sampleSpace with tree := ⟨[(["w".toList], .directory), (["tmp".toList], .directory)], 0⟩ }

/-- The project with its first stylesheet. -/
def firstSpace : Workspace :=
  { emptySpace with tree := (Edit.write ["w".toList, "a.css".toList]
      (Utf8.encode ".a \x7b\x7d".toList) 0).apply emptySpace.tree }

/-- A file that sets the suffix. -/
def suffixFile : Config.Table :=
  [("convert".toList, .table [("declaration_suffix".toList, .text ".css".toList)])]

/-- The configuration with that suffix. -/
def suffixConfig : Config :=
  { Config.default (.ofText "/w".toList) with declarationSuffix := ".css".toList }

/-- The watch that the command begins with it. -/
def suffixPipeline : Pipeline :=
  CommandLine.pipelineFor CommandLine.plainCompiler suffixConfig "watch" emptySpace

/-- **A watch can convert its own output.** With the suffix `.css`, which is accepted, a stylesheet
is converted in one round and its declaration in the next one, though nothing was edited. -/
theorem poll_feeds :
    (Config.default (.ofText "/w".toList)).merge (.ofText "/w".toList) suffixFile .none
        (.ofText "/w".toList) = .ok suffixConfig ∧
    suffixConfig.eventLog = none ∧
    ∃ sources watch subscribed first next after second last final,
      SourceSet.resolve emptySpace.tree emptySpace.here suffixConfig.cwd [['.']]
        suffixConfig.extension suffixConfig.excludeGlobs = .ok sources ∧
      Coordinator.make sources suffixConfig.excludeGlobs = .ok watch ∧
      watch.subscribe emptySpace = .ok subscribed ∧
      subscribed.poll suffixPipeline firstSpace = (.ok first, next, after) ∧
      next.poll suffixPipeline after = (.ok second, last, final) ∧
      .ofText "/w/a.css.css".toList ∈ second.events.map Event.path := by
  refine ⟨by decide +kernel, rfl, ?_⟩
  have hdir : emptySpace.tree.look (.ofText "/w".toList) = .ok (some .directory) := by decide
  have hresolved : emptySpace.here.absolute
      (Path.join suffixConfig.cwd (.ofText ['.'])) = .ofText "/w".toList := by decide
  obtain ⟨files, hresolve, -⟩ :=
    SourceSet.resolve_directory (by decide) rfl hresolved (by decide) Config.isExtension_default hdir []
  let watch : Coordinator := ⟨Glob.searchPattern (.ofText "/w".toList) "css".toList,
    .ofText "/w".toList, [], none⟩
  have hopened : (Glob.opened? watch.pattern).any Path.hasNull = false := by decide +kernel
  -- nothing is there at the first look
  have hscan₀ : watch.scan emptySpace = .ok ([] : Snapshot) :=
    Coordinator.scan_of_found hopened emptySpace (by decide +kernel) .nil rfl
  have hsubscribe : watch.subscribe emptySpace = .ok { watch with snapshot := some [] } := by
    rw [Coordinator.subscribe, hscan₀]
    rfl
  -- the first round sees the stylesheet and converts it
  let source : Path := .ofText "/w/a.css".toList
  let snapshot : Snapshot := [(source, ⟨5, 0⟩)]
  have hscan₁ : Coordinator.scan { watch with snapshot := some [] } firstSpace = .ok snapshot :=
    Coordinator.scan_of_found hopened firstSpace (by decide +kernel) (by decide) (by decide +kernel)
  have hevents : (Delta.between [] snapshot).events = [⟨.added, source⟩] :=
    Delta.events_of_pairwise [source] [] (by decide) (by decide) (by decide) .nil
  obtain ⟨outcomes₁, after, hrun₁, -⟩ :=
    suffixPipeline.exists_processAll rfl [source] firstSpace
  have hpoll₁ := Coordinator.poll_of_run rfl hscan₁ hevents hrun₁
  -- the second round sees the declaration as well
  obtain ⟨current, hscan₂, -, hcurrent⟩ := Coordinator.exists_scan hopened after
  have hscan₂' : Coordinator.scan { watch with snapshot := some snapshot } after = .ok current :=
    hscan₂
  obtain ⟨outcomes₂, final, hrun₂, -⟩ := suffixPipeline.exists_processAll rfl
    ((Delta.between snapshot current).events.map Event.path) after
  have hpoll₂ := Coordinator.poll_of_run rfl hscan₂' rfl hrun₂
  let artifact : Path := .ofText "/w/a.css.css".toList
  have hafter : (suffixPipeline.processAll [source] firstSpace).2 = after := by rw [hrun₁]
  have hfinds : watch.Finds (suffixPipeline.processAll [source] firstSpace).2 artifact :=
    ⟨by decide +kernel, by decide +kernel⟩
  obtain ⟨stamp, hstamp⟩ : ∃ stamp,
      (suffixPipeline.processAll [source] firstSpace).2.tree.stamp? artifact = some stamp :=
    Option.isSome_iff_exists.1 (by decide +kernel)
  rw [hafter] at hfinds hstamp
  have hnew : snapshot.stamp? artifact = none := by decide
  refine ⟨_, watch, _, _, _, _, _, _, _, hresolve, rfl, hsubscribe, hpoll₁, hpoll₂, ?_⟩
  exact Delta.mem_events.2 ⟨stamp, (hcurrent _ _).2 ⟨hfinds, hstamp⟩, by rw [hnew]; simp⟩

end Sample

end CssTypings.Watch
