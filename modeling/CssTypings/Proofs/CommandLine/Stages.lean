import CssTypings.CommandLine.Execute
import CssTypings.Proofs.Config.Accepted
import CssTypings.Proofs.Watch.Unwritten

/-!
# How far the command gets

A run of the command comes to load a configuration, to look for sources, and to convert or to watch
them, unless it ends before (`Asked`, `Loading`, `Loaded`, `Resolving`, `Started`). How far it gets
and what keeps it from getting further is one case distinction (`reaches`), and at each stage the
run is what the next part of it comes to. A run that has started ends by what became of the
directories of its log: if they are there, watching never breaks (`Started.exists_watched_told`),
converting once only does when it comes to dangling artifacts (`Started.exists_once_told`), and what
could not be written to the log on the way (`Logs`) is told.
-/

namespace CssTypings

/-! ### Watchable sources -/

/-- A pattern that sources were searched by can be searched for again. -/
theorem SourceSet.hasNull_opened_of_resolve {tree : Tree} {here cwd : Path} {paths : List Text}
    {extension pattern : Text} {exclude : List Text} {sources : SourceSet}
    (h : resolve tree here cwd paths extension exclude = .ok sources)
    (hpattern : sources.pattern = some pattern) :
    (Glob.opened? pattern).any Path.hasNull = false := by
  match paths, h with
  | [], h => cases h
  | [t], h =>
    obtain ⟨pattern', -, hopened, rfl⟩ := exists_of_resolve h
    cases hpattern
    exact hopened
  | t :: u :: rest, h =>
    obtain rfl := Except.ok.inj h
    cases hpattern

namespace Watch.Coordinator

variable {sources : SourceSet} {exclude : List Text} {watch : Coordinator}

/-- A watch has the pattern of its sources. -/
theorem pattern_of_make (h : make sources exclude = .ok watch) :
    sources.pattern = some watch.pattern := by
  obtain ⟨⟨pattern, root⟩, hwatchable, h⟩ := exists_of_bind_eq_ok h
  obtain rfl := Except.ok.inj h
  unfold SourceSet.watchable at hwatchable
  split at hwatchable
  · next hpattern _ =>
    cases hwatchable
    exact hpattern
  · cases hwatchable

theorem exists_of_make_eq_error {fault : SourceSet.Fault} (h : make sources exclude = .error fault) :
    fault = .notWatchable sources.files := by
  rcases bind_eq_error.1 h with hwatchable | ⟨found, -, h⟩
  · unfold SourceSet.watchable at hwatchable
    split at hwatchable
    · cases hwatchable
    · exact (Except.error.inj hwatchable).symm
  · cases h

end Watch.Coordinator

namespace CommandLine

open Watch (Coordinator)

variable {build : Config → Compiler} {arguments : List Text} {around : Surroundings}
  {steps : List (Tree → Tree)} {space prepared : Workspace} {options : Options} {config : Config}
  {sources : SourceSet} {fault : Config.LoadFault}

/-! ### Stages -/

/-- The command is asked to run. -/
structure Asked (arguments : List Text) (options : Options) : Prop where
  parsed : parse arguments = .ok options
  given : options.paths ≠ []

/-- The command comes to load a configuration. -/
structure Loading (arguments : List Text) (options : Options) : Prop
    extends Asked arguments options where
  configFile : options.config ≠ some .nothing

/-- The command comes to have a configuration. -/
structure Loaded (arguments : List Text) (space : Workspace) (options : Options) (config : Config) :
    Prop extends Loading arguments options where
  loaded : Config.load space.tree space.here options.configFile options.overrides = .ok config

/-- The command comes to look for sources. -/
structure Resolving (arguments : List Text) (space : Workspace) (options : Options)
    (config : Config) : Prop extends Loaded arguments space options config where
  extension : options.extension ≠ some .nothing

/-- The command comes to convert or to watch its sources. -/
structure Started (arguments : List Text) (space : Workspace) (options : Options) (config : Config)
    (sources : SourceSet) : Prop extends Resolving arguments space options config where
  resolved : SourceSet.resolve space.tree space.here config.cwd options.paths config.extension
    config.excludeGlobs = .ok sources
  watchable : options.watch = true → ∃ watch, Coordinator.make sources config.excludeGlobs = .ok watch

/-- Where the command gets to, and what keeps it from getting further. -/
inductive Reaches (arguments : List Text) (space : Workspace) : Prop
  | stopped {stop : Stop} (stopped : parse arguments = .error stop)
  | noPaths {options : Options} (parsed : parse arguments = .ok options) (none : options.paths = [])
  | noConfigPath {options : Options} (asked : Asked arguments options)
      (nothing : options.config = some .nothing)
  | loading {options : Options} {fault : Config.LoadFault} (loading : Loading arguments options)
      (refused : Config.load space.tree space.here options.configFile options.overrides =
        .error fault)
  | noExtension {options : Options} {config : Config}
      (loaded : Loaded arguments space options config)
      (nothing : options.extension = some .nothing)
  | resolving {options : Options} {config : Config} {fault : SourceSet.Fault}
      (resolving : Resolving arguments space options config)
      (refused : SourceSet.resolve space.tree space.here config.cwd options.paths config.extension
        config.excludeGlobs = .error fault)
  | unwatchable {options : Options} {config : Config} {sources : SourceSet} {fault : SourceSet.Fault}
      (resolving : Resolving arguments space options config)
      (resolved : SourceSet.resolve space.tree space.here config.cwd options.paths config.extension
        config.excludeGlobs = .ok sources)
      (watch : options.watch = true)
      (refused : Coordinator.make sources config.excludeGlobs = .error fault)
  | started {options : Options} {config : Config} {sources : SourceSet}
      (started : Started arguments space options config sources)

/-- **The command gets as far as nothing keeps it back.** -/
theorem reaches (arguments : List Text) (space : Workspace) : Reaches arguments space := by
  cases hparse : parse arguments with
  | error stop => exact .stopped hparse
  | ok options =>
  by_cases hpaths : options.paths = []
  · exact .noPaths hparse hpaths
  have asked : Asked arguments options := ⟨hparse, hpaths⟩
  by_cases hconfig : options.config = some .nothing
  · exact .noConfigPath asked hconfig
  have loading : Loading arguments options := ⟨asked, hconfig⟩
  cases hload : Config.load space.tree space.here options.configFile options.overrides with
  | error fault => exact .loading loading hload
  | ok config =>
  have loaded : Loaded arguments space options config := ⟨loading, hload⟩
  by_cases hextension : options.extension = some .nothing
  · exact .noExtension loaded hextension
  have resolving : Resolving arguments space options config := ⟨loaded, hextension⟩
  cases hresolve : SourceSet.resolve space.tree space.here config.cwd options.paths
    config.extension config.excludeGlobs with
  | error fault => exact .resolving resolving hresolve
  | ok sources =>
  cases hmake : Coordinator.make sources config.excludeGlobs with
  | ok watch => exact .started ⟨resolving, hresolve, fun _ ↦ ⟨watch, hmake⟩⟩
  | error fault =>
    by_cases hwatch : options.watch = true
    · exact .unwatchable resolving hresolve hwatch hmake
    · exact .started ⟨resolving, hresolve, fun htrue ↦ absurd htrue hwatch⟩

/-- What breaks the command when a configuration is refused, unless the refusal is reported. -/
def breakageOf : Config.LoadFault → Option Breakage
  | .access fault => some (.access fault)
  | .malformed _ .tooDeep => some .tooDeep
  | .setting .tooLarge => some .intervalTooLarge
  | _ => none

theorem Asked.runUsing_eq (h : Asked arguments options) :
    runUsing build arguments around steps space = runOptions build options around steps space := by
  rw [runUsing, h.parsed]
  exact if_neg h.given

theorem Asked.runUsing_of_nothing (h : Asked arguments options)
    (hnothing : options.config = some .nothing) :
    runUsing build arguments around steps space = ⟨.error .noConfigPath, .empty, space, none⟩ := by
  rw [h.runUsing_eq, runOptions, if_pos hnothing]

theorem Loaded.runUsing_of_nothing (h : Loaded arguments space options config)
    (hnothing : options.extension = some .nothing) :
    runUsing build arguments around steps space = ⟨.error .noExtension, .empty, space, none⟩ := by
  rw [h.toAsked.runUsing_eq, runOptions, if_neg h.configFile, h.loaded]
  exact if_pos hnothing

/-- **What becomes of a configuration that is refused.** -/
theorem Loading.runUsing_eq (h : Loading arguments options)
    (hload : Config.load space.tree space.here options.configFile options.overrides =
      .error fault) :
    runUsing build arguments around steps space =
      match breakageOf fault with
      | some breakage => ⟨.error breakage, .empty, space, none⟩
      | none =>
        ⟨.ok 2, (Console.make false .auto around).render (.failed fault.message), space, none⟩ := by
  rw [h.toAsked.runUsing_eq, runOptions, if_neg h.configFile, hload]
  match fault with
  | .access fault => rfl
  | .undecodable fault => rfl
  | .malformed document fault => cases fault <;> rfl
  | .setting fault => cases fault <;> rfl

/-- What a run comes to, with its new reports on a console. -/
def shown (console : Console) (space : Workspace) (ending : Ending) : Result where
  exit := ending.1.map Prod.fst
  output := console.renderAll (ending.2.reports.drop space.reports.length)
  space := ending.2
  watching := ending.1.toOption.bind Prod.snd

/-- What a run comes to is shown on the console that the configuration asks for. -/
theorem Resolving.runUsing_eq (h : Resolving arguments space options config) :
    runUsing build arguments around steps space =
      shown (Console.make config.silent config.color around) space
        (runWith build config (Console.make config.silent config.color around) options steps
          space) := by
  rw [h.toAsked.runUsing_eq, runOptions, if_neg h.configFile, h.loaded]
  simp only [if_neg h.extension]
  rcases runWith build config (Console.make config.silent config.color around) options steps space with
    ⟨breakage | ⟨code, watching⟩, after⟩
  · rfl
  · rfl

/-! ### Runs -/

variable {console : Console}

theorem Loaded.limit (h : Loaded arguments space options config) :
    ∀ n ∈ config.maxConcurrency.map Int.ofNat, 0 < n := by
  intro n hn
  obtain ⟨k, hk, rfl⟩ := Option.map_eq_some_iff.1 hn
  exact Int.natCast_pos.2 ((Config.accepted_of_load h.loaded).wellFormed.1.limit k hk)

theorem Loaded.hasNull_eventLog (h : Loaded arguments space options config) :
    ∀ path ∈ config.eventLog, path.hasNull = false :=
  (Config.accepted_of_load h.loaded).hasNull_eventLog

theorem reports_prepareLog {made : Except Tree.Fault Unit}
    (h : prepareLog config space = (made, prepared)) : prepared.reports = space.reports := by
  unfold prepareLog at h
  split at h <;> cases h <;> rfl

/-- How a run ends if its sources are refused. -/
def refusalOf : SourceSet.Fault → Except Breakage (Nat × Option Watching)
  | .access fault => .error (.access fault)
  | _ => .ok (2, none)

theorem runWith_of_error {fault : SourceSet.Fault}
    (h : SourceSet.resolve space.tree space.here config.cwd options.paths config.extension
      config.excludeGlobs = .error fault) :
    (runWith build config console options steps space).1 = refusalOf fault := by
  rw [runWith, h]
  cases fault <;> rfl

/-- What becomes of sources that are refused. -/
theorem Resolving.exit_of_error (h : Resolving arguments space options config)
    {fault : SourceSet.Fault}
    (hresolve : SourceSet.resolve space.tree space.here config.cwd options.paths config.extension
      config.excludeGlobs = .error fault) :
    (runUsing build arguments around steps space).exit = (refusalOf fault).map Prod.fst := by
  rw [h.runUsing_eq, shown, runWith_of_error hresolve]

/-- Sources that cannot be watched are refused. -/
theorem runWith_of_notWatchable
    (hresolve : SourceSet.resolve space.tree space.here config.cwd options.paths config.extension
      config.excludeGlobs = .ok sources) (hwatch : options.watch = true) {fault : SourceSet.Fault}
    (hmake : Coordinator.make sources config.excludeGlobs = .error fault) :
    runWith build config console options steps space =
      (.ok (2, none),
        space.report (.failed (SourceSet.Fault.message (.notWatchable sources.files)))) := by
  rw [runWith, hresolve]
  simp only [hwatch, if_true, hmake]
  rw [Coordinator.exists_of_make_eq_error hmake]

/-- The workspace in which a watch begins. -/
def announced (config : Config) (watch : Coordinator) (space : Workspace) : Workspace :=
  space.report (.remark ("Watching " ++
    String.ofList (space.here.display config.cwd (.ofText watch.pattern))))

/-- The entries for the log, and the trees in which they are to be written. -/
inductive Logs (build : Config → Compiler) (options : Options) (config : Config)
    (sources : SourceSet) (steps : List (Tree → Tree)) (space : Workspace) : Tree → LogEvent → Prop
  | once {prepared : Workspace} {tree : Tree} {event : LogEvent} (once : options.watch = false)
      (made : prepareLog config space = (.ok (), prepared))
      (h : (pipelineFor build config "batch" prepared).Logs sources.files prepared tree event) :
      Logs build options config sources steps space tree event
  | watched {prepared : Workspace} {tree : Tree} {event : LogEvent} {watch watch' : Coordinator}
      (watched : options.watch = true) (made : prepareLog config space = (.ok (), prepared))
      (watchable : Coordinator.make sources config.excludeGlobs = .ok watch)
      (subscribed : watch.subscribe (announced config watch prepared) = .ok watch')
      (h : watch'.Logs (pipelineFor build config "watch" prepared) steps
        (announced config watch prepared) tree event) :
      Logs build options config sources steps space tree event

section Started

variable (h : Started arguments space options config sources)
include h

theorem Started.runWith_of_once (honce : options.watch = false) :
    runWith build config console options steps space = runOnce build config sources space := by
  rw [runWith, h.resolved]
  exact if_neg (Bool.eq_false_iff.1 honce)

theorem Started.runWith_of_watch {watch : Coordinator} (hwatch : options.watch = true)
    (hmake : Coordinator.make sources config.excludeGlobs = .ok watch) :
    runWith build config console options steps space =
      runWatch build config console watch steps space := by
  rw [runWith, h.resolved]
  simp only [hwatch, if_true, hmake]

/-- Without a place for the log nothing is run. -/
theorem Started.runWith_of_error {fault : Tree.Fault}
    (hmade : prepareLog config space = (.error fault, prepared)) :
    runWith build config console options steps space = (.error (.access fault), prepared) := by
  cases hwatch : options.watch with
  | true =>
    obtain ⟨watch, hmake⟩ := h.watchable hwatch
    rw [h.runWith_of_watch hwatch hmake, runWatch, hmade]
  | false => rw [h.runWith_of_once hwatch, runOnce, hmade]

end Started

section Made

variable (hmade : prepareLog config space = (.ok (), prepared))
include hmade

theorem runOnce_of_ok {result : Pipeline.BatchResult} {after : Workspace}
    (hconvert : (pipelineFor build config "batch" prepared).convertAll sources
      (config.maxConcurrency.map Int.ofNat) config.excludeGlobs prepared = (.ok result, after)) :
    runOnce build config sources space =
      (.ok (if result.failed.isEmpty then 0 else 1, none), after) := by
  rw [runOnce, hmade]
  simp only [hconvert]

theorem runOnce_of_error {fault : Pipeline.Fault} {after : Workspace}
    (hconvert : (pipelineFor build config "batch" prepared).convertAll sources
      (config.maxConcurrency.map Int.ofNat) config.excludeGlobs prepared = (.error fault, after)) :
    runOnce build config sources space = (.error (.ofPipeline fault), after) := by
  rw [runOnce, hmade]
  simp only [hconvert]

theorem runWatch_of_ok {watch watch' : Coordinator} {looks : List Watch.Look} {after : Workspace}
    (hrun : watch.run (pipelineFor build config "watch" prepared) steps
      (announced config watch prepared) = (.ok looks, watch', after)) :
    runWatch build config console watch steps space =
      (.ok (0, some ⟨config.pollInterval, pipelineFor build config "watch" prepared, watch', looks,
        console⟩), after) := by
  rw [announced] at hrun
  rw [runWatch, hmade]
  simp only [hrun]

variable (h : Started arguments space options config sources)
include h

/-- **Converting once** only breaks if the search for dangling artifacts cannot begin. -/
theorem Started.exists_once_told (honce : options.watch = false) :
    ∃ ending after, runWith build config console options steps space = (ending, after) ∧
      Told config.eventLog (Logs build options config sources steps space) space after ∧
      (Dangling.CanFind sources.pattern config.declarationSuffix →
        ∃ code, code ≤ 1 ∧ ending = .ok (code, none)) ∧
      (¬ Dangling.CanFind sources.pattern config.declarationSuffix →
        ending = .error (.access .nullCharacter)) := by
  let pipeline := pipelineFor build config "batch" prepared
  have hnull : ∀ path ∈ pipeline.eventLog, path.hasNull = false := h.hasNull_eventLog
  obtain ⟨result, after, hconvert, hentries, hok, herror⟩ :=
    Pipeline.exists_convertAll_told hnull sources h.limit config.excludeGlobs prepared
  have htold : Told config.eventLog (Logs build options config sources steps space) space after := by
    refine Told.trans (.of_reports_eq (reports_prepareLog hmade) fun _ _ ↦ id) hentries ?_
    rintro tree event (⟨-, made, hlogs⟩ | ⟨watched, -⟩)
    · cases hmade.symm.trans made
      exact Or.inr hlogs
    · cases honce.symm.trans watched
  by_cases hcanFind : Dangling.CanFind sources.pattern config.declarationSuffix
  · obtain ⟨converted, rfl⟩ := hok hcanFind
    refine ⟨_, after, (h.runWith_of_once honce).trans (runOnce_of_ok hmade hconvert), htold,
      fun _ ↦ ⟨_, ?_, rfl⟩, fun hcannot ↦ absurd hcanFind hcannot⟩
    split <;> decide
  · rw [herror hcanFind] at hconvert
    exact ⟨_, after, (h.runWith_of_once honce).trans (runOnce_of_error hmade hconvert), htold,
      fun hcan ↦ absurd hcan hcanFind, fun _ ↦ rfl⟩

/-- **Watching** never breaks. -/
theorem Started.exists_watched_told (hwatch : options.watch = true) :
    ∃ watching after, runWith build config console options steps space = (.ok (0, watching), after) ∧
      Told config.eventLog (Logs build options config sources steps space) space after := by
  obtain ⟨watch, hmake⟩ := h.watchable hwatch
  let pipeline := pipelineFor build config "watch" prepared
  have hnull : ∀ path ∈ pipeline.eventLog, path.hasNull = false := h.hasNull_eventLog
  have hopened := SourceSet.hasNull_opened_of_resolve h.resolved (Coordinator.pattern_of_make hmake)
  obtain ⟨watch', looks, watch'', after, hsubscribe, hrun, hentries⟩ :=
    Coordinator.exists_run_told hopened hnull steps (announced config watch prepared)
  refine ⟨_, after, (h.runWith_of_watch hwatch hmake).trans (runWatch_of_ok hmade hrun), ?_⟩
  have hannounced : Told config.eventLog (fun _ _ ↦ False) space (announced config watch prepared) :=
    .of_reports (congrArg (· ++ _) (reports_prepareLog hmade)) fun _ _ ↦ id
  refine hannounced.trans hentries ?_
  rintro tree event (⟨once, -⟩ | ⟨-, made, watchable, subscribed, hlogs⟩)
  · cases hwatch.symm.trans once
  · cases hmade.symm.trans made
    cases hmake.symm.trans watchable
    cases hsubscribe.symm.trans subscribed
    exact Or.inr hlogs

end Made

end CommandLine

end CssTypings
