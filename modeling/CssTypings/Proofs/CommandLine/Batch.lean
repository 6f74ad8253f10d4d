import CssTypings.CommandLine.Execute
import CssTypings.Proofs.Config.Accepted
import CssTypings.Proofs.Pipeline.Reports

/-!
# What the command reports is what it did

If the command gets as far as converting its sources once (`BatchRun`), its exit code, what it
writes to the two streams, and the tree that it leaves all come from one result of the batch
(`runUsing_batch`), and that result is faithful to what was done. The settings that this rests on
were checked when the configuration was loaded.
-/

namespace CssTypings.CommandLine

variable {build : Config → Compiler} {arguments : List Text} {space : Workspace} {options : Options}
  {config : Config} {sources : SourceSet}

/-- The command comes to convert these sources once, without a log and not in silence. -/
structure BatchRun (arguments : List Text) (space : Workspace) (options : Options) (config : Config)
    (sources : SourceSet) : Prop where
  parsed : parse arguments = .ok options
  given : options.paths ≠ []
  once : options.watch = false
  /-- Options that ask for a value have one. -/
  configFile : options.config ≠ some .nothing
  extension : options.extension ≠ some .nothing
  loaded : Config.load space.tree space.here options.configFile options.overrides = .ok config
  resolved : SourceSet.resolve space.tree space.here config.cwd options.paths config.extension
    config.excludeGlobs = .ok sources
  noLog : config.eventLog = none
  loud : config.silent = false

namespace BatchRun

variable (run : BatchRun arguments space options config sources)
include run

theorem wellFormed : config.WellFormed ∧ config.cwd = space.here :=
  (Config.accepted_of_load run.loaded).wellFormed

/-- Only a single path leaves something to search for again. -/
theorem exists_of_pattern {pattern : Text} (h : sources.pattern = some pattern) :
    ∃ t, options.paths = [t] := by
  have hresolved := run.resolved
  match hpaths : options.paths with
  | [] => exact absurd hpaths run.given
  | [t] => exact ⟨t, rfl⟩
  | t :: u :: rest =>
    rw [hpaths] at hresolved
    obtain rfl := Except.ok.inj hresolved
    cases h

/-- What the command does from there on. -/
theorem runUsing_eq (around : Surroundings) (steps : List (Tree → Tree))
    {result : Pipeline.BatchResult} {after : Workspace}
    (hconvert : (pipelineFor build config "batch" space).convertAll sources
      (config.maxConcurrency.map Int.ofNat) config.excludeGlobs space = (.ok result, after)) :
    runUsing build arguments around steps space =
      ⟨.ok (if result.failed.isEmpty then 0 else 1),
        (Console.make config.silent config.color around).renderAll
          (after.reports.drop space.reports.length), after, none⟩ := by
  have hprepare : prepareLog config space = (.ok (), space) := by rw [prepareLog, run.noLog]
  have hwith : runWith build config (Console.make config.silent config.color around) options steps
      space = (.ok (if result.failed.isEmpty then 0 else 1, none), after) := by
    rw [runWith, run.resolved]
    simp only [run.once, Bool.false_eq_true, if_false]
    rw [runOnce, hprepare]
    simp only [hconvert]
  rw [runUsing, run.parsed]
  simp only [if_neg run.given]
  rw [runOptions, if_neg run.configFile, run.loaded]
  simp only [if_neg run.extension, hwith]

section Tree

variable (hsound : space.tree.Sound) (hhere : space.here.IsProper)
  (habsolute : space.here.isAbsolute = true)
include hsound hhere habsolute

theorem isPlain_of_mem {s : Path} (hs : s ∈ sources.files) : s.IsPlain ∧ s.isAbsolute = true := by
  obtain ⟨-, hcwd⟩ := run.wellFormed
  exact SourceSet.isPlain_of_resolve hhere habsolute (hcwd ▸ hhere) hsound run.resolved hs

/-- The conversions cannot meet if no artifact is a source. -/
theorem independent (hslash : '/' ∉ config.declarationSuffix) (hreads : (build config).ReadsPlaces)
    (hapart : ∀ s ∈ sources.files, ∀ s' ∈ sources.files,
      (s.artifact config.declarationSuffix).parts ≠ s'.parts)
    (hfresh : (pipelineFor build config "batch" space).Fresh space
      {l | ∃ s ∈ sources.files, l = (s.artifact config.declarationSuffix).parts}) :
    (pipelineFor build config "batch" space).Independent space sources.files := by
  obtain ⟨hconfig, hcwd⟩ := run.wellFormed
  have hplain := fun s hs ↦ run.isPlain_of_mem hsound hhere habsolute (s := s) hs
  have hsource : ∀ s ∈ sources.files,
      (pipelineFor build config "batch" space).sourceOf space.here s = s := fun s hs ↦
    Pipeline.sourceOf_of_isPlain (hplain s hs).1 (hplain s hs).2 space.here
  have hcwd' : config.cwd.IsProper := hcwd ▸ hhere
  refine ⟨⟨⟨hconfig.suffix, hslash⟩, hcwd', hhere, hsound⟩, run.noLog,
    fun s hs ↦ (hplain s hs).1.isProper, fun s hs s' hs' ↦ ?_, hfresh.mono ?_, hreads⟩
  · rw [hsource s hs, hsource s' hs']
    exact hapart s hs s' hs'
  · rintro l ⟨s, hs, rfl⟩
    rw [hsource s hs]
    exact ⟨s, hs, rfl⟩

end Tree

end BatchRun

/-- What the command returns and writes belongs to a result of the batch, and so does what it
did. -/
structure Reported (pipeline : Pipeline) (console : Console) (space : Workspace) (sources : SourceSet)
    (exclude : List Text) (result : Pipeline.BatchResult) (ran : Result) : Prop where
  /-- The exit code is 1 if a source was not converted. -/
  exit : ran.exit = .ok (if ∃ outcome ∈ result.outcomes, outcome.ok = false then 1 else 0)
  /-- There is a line for each source that was converted. -/
  out : ran.output.out =
    String.join (result.outcomes.filterMap (pipeline.wroteLine? console space.here))
  /-- There is a report for each source that was not, and then one about dangling artifacts. -/
  err : ran.output.err = String.join (result.outcomes.filterMap (Pipeline.errorLine? console) ++
    pipeline.danglingLines console space.here result.dangling)
  faithful : pipeline.Faithful space sources exclude result ran.space

/-- **What the command reports is what it did**, if no artifact of a source is itself a source.
Dangling artifacts are only reported for a single path.

The tree is any without links and permissions whose names are Unicode texts, and the streams take
any text. -/
theorem runUsing_batch (run : BatchRun arguments space options config sources)
    (hslash : '/' ∉ config.declarationSuffix) (hreads : (build config).ReadsPlaces)
    (hapart : ∀ s ∈ sources.files, ∀ s' ∈ sources.files,
      (s.artifact config.declarationSuffix).parts ≠ s'.parts)
    (hsound : space.tree.Sound) (hhere : space.here.IsProper)
    (habsolute : space.here.isAbsolute = true)
    (hfresh : (pipelineFor build config "batch" space).Fresh space
      {l | ∃ s ∈ sources.files, l = (s.artifact config.declarationSuffix).parts})
    (around : Surroundings) (steps : List (Tree → Tree)) :
    ∃ result, Reported (pipelineFor build config "batch" space)
        (Console.make config.silent config.color around) space sources config.excludeGlobs result
        (runUsing build arguments around steps space) ∧
      (result.dangling ≠ [] ↔ (∃ t, options.paths = [t]) ∧ ∃ a, Dangling.LeftOver space.tree
        space.here sources config.declarationSuffix config.excludeGlobs a) := by
  obtain ⟨hconfig, hcwd⟩ := run.wellFormed
  have hlimit : ∀ n ∈ config.maxConcurrency.map Int.ofNat, 0 < n := by
    intro n hn
    obtain ⟨k, hk, rfl⟩ := Option.map_eq_some_iff.1 hn
    exact Int.natCast_pos.2 (hconfig.limit k hk)
  have hindependent := run.independent hsound hhere habsolute hslash hreads hapart hfresh
  have hresolved : SourceSet.resolve space.tree space.here
      (pipelineFor build config "batch" space).cwd options.paths config.extension
      config.excludeGlobs = .ok sources := run.resolved
  obtain ⟨result, after, hconvert, hfaithful⟩ := Pipeline.convertAll_faithful hindependent habsolute
    hconfig.extension.not_mem_slash hresolved config.excludeGlobs hlimit
  have hloud : (Console.make config.silent config.color around).silent = false := run.loud
  have hnew : after.reports.drop space.reports.length =
      result.outcomes.map ((pipelineFor build config "batch" space).reportOf space.here) ++
        Dangling.reports space.here config.cwd config.declarationSuffix result.dangling := by
    rw [hfaithful.reports, List.drop_left]
    rfl
  have hlines := Pipeline.renderAll_reports (pipelineFor build config "batch" space) space.here hloud
    result.outcomes result.dangling
  refine ⟨result, ?_, ?_⟩
  · rw [run.runUsing_eq around steps hconvert, hnew]
    refine ⟨?_, congrArg Output.out hlines, congrArg Output.err hlines, hfaithful⟩
    have hfailed : result.failed.isEmpty = true ↔
        ¬ ∃ outcome ∈ result.outcomes, outcome.ok = false := by
      simp [Pipeline.BatchResult.failed, List.isEmpty_iff]
    simp only [hfailed, ite_not]
  · constructor
    · intro hne
      obtain ⟨a, ha⟩ := List.exists_mem_of_ne_nil _ hne
      obtain ⟨pattern, hpattern, hleft⟩ := (hfaithful.leftOver a).1 ha
      exact ⟨run.exists_of_pattern hpattern, a, pattern, hpattern, hleft⟩
    · rintro ⟨-, a, ha⟩
      exact List.ne_nil_of_mem ((hfaithful.leftOver a).2 ha)

/-! ### In a project -/

section Sample

open Pipeline (sampleTree sampleSpace ready_sample)

/-- Output that goes to no terminal. -/
def plainSurroundings : Surroundings := ⟨.plain, .plain, none⟩

/-- The sources of the project: one that can be converted and one that cannot. -/
def sampleSet : SourceSet where
  files := ["/w/a.css", "/w/b.css"].map fun t ↦ .ofText t.toList
  pattern := some (Glob.searchPattern (.ofText "/w".toList) "css".toList)
  root := some (.ofText "/w".toList)

theorem batchRun_sample : BatchRun [['.']] sampleSpace ⟨[['.']], false, none, false, none⟩
    (.default (.ofText "/w".toList)) sampleSet where
  parsed := by decide +kernel
  given := by decide
  once := rfl
  configFile := by decide
  extension := by decide
  loaded := by decide +kernel
  resolved := by
    have hdir : sampleTree.look (.ofText "/w".toList) = .ok (some .directory) := by decide
    have hfound : SourceSet.found sampleTree sampleSpace.here
        (Glob.searchPattern (.ofText "/w".toList) "css".toList) (.ofText "/w".toList) [] =
          sampleSet.files :=
      SourceSet.found_of_pairwise (by decide +kernel) (by decide)
    refine (SourceSet.resolve_of_look (by decide) rfl hdir (by decide) _ _).trans ?_
    exact congrArg (fun files ↦ Except.ok (SourceSet.mk files _ _)) hfound
  noLog := rfl
  loud := rfl

/-- In the project a source fails and an artifact dangles, and the command says so. -/
theorem runUsing_batch_sample :
    ∃ result, Reported (pipelineFor plainCompiler (.default (.ofText "/w".toList)) "batch" sampleSpace)
        (Console.make false .auto plainSurroundings) sampleSpace sampleSet [] result
        (runUsing plainCompiler [['.']] plainSurroundings [] sampleSpace) ∧
      .ofText "/w/c.css.flow".toList ∈ result.dangling := by
  have hapart : ∀ s ∈ sampleSet.files, ∀ s' ∈ sampleSet.files,
      (s.artifact ".flow".toList).parts ≠ s'.parts := by
    decide
  have hfresh : (pipelineFor plainCompiler (.default (.ofText "/w".toList)) "batch" sampleSpace).Fresh
      sampleSpace {l | ∃ s ∈ sampleSet.files, l = (s.artifact ".flow".toList).parts} := by
    refine Pipeline.fresh_of_empty (by decide) (by decide) (by decide) ?_
    have hartifacts : ∀ s ∈ sampleSet.files,
        ¬ ["tmp".toList] <+: (s.artifact ".flow".toList).parts := by
      decide
    rintro l ⟨s, hs, rfl⟩
    exact hartifacts s hs
  obtain ⟨result, hreported, -⟩ := runUsing_batch batchRun_sample (by decide)
    (Pipeline.readsPlaces_plain _ _) hapart ready_sample.tree ready_sample.here rfl hfresh
    plainSurroundings []
  refine ⟨result, hreported, (hreported.faithful.leftOver _).2 ?_⟩
  exact ⟨_, rfl, by decide +kernel, .ofText "/w/c.css".toList, by decide, by decide +kernel, rfl⟩

end Sample

end CssTypings.CommandLine
