import CssTypings.Proofs.CommandLine.Batch
import CssTypings.Proofs.CommandLine.Stages
import CssTypings.Proofs.Config.Refusals

/-!
# Silence hides successes and nothing else

A run with `--silent` in front of the arguments is compared with the run without it. The option
changes nothing that is read behind it (`consume_silenced`), so the two runs have the same
configuration but for the silence, and this is only asked for when a report is rendered. The runs
end in the same way, in the same workspace and with the same text on the error stream; the silent
one leaves the output stream empty (`runUsing_silenced`). The compiler is any that is built from the
settings for it. Both runs take the names of scratch files from the same supply, so what they leave
can be compared as it is.
-/

namespace CssTypings

/-! ### The configuration -/

/-- The configuration with successes going unreported. -/
def Config.silenced (config : Config) : Config := { config with silent := true }

namespace Config

variable {config : Config} {here anchor cwd : Path} {file : Table} {asked : Option Path}

/-- The settings from the command line, and silence. -/
def Overrides.silenced (overrides : Overrides) : Overrides := { overrides with silent := some true }

theorem merge_silenced (overrides : Overrides) :
    config.merge here file overrides.silenced anchor =
      (config.merge here file overrides anchor).map silenced := by
  rw [merge, merge]
  cases config.applyFile here file anchor with
  | error fault => rfl
  | ok config =>
    show config.override overrides.silenced = (config.override overrides).map silenced
    have hextension : Field.extension.override overrides.silenced config.extension =
      Field.extension.override overrides config.extension := rfl
    rw [override_eq, override_eq, hextension]
    cases Field.extension.override overrides config.extension with
    | error fault => rfl
    | ok extension => rfl

theorem finish_silenced (overrides : Overrides) (table : Table) :
    finish cwd asked overrides.silenced table = (finish cwd asked overrides table).map silenced := by
  rw [finish, finish, merge_silenced]
  cases (default cwd).merge cwd table overrides (filePath cwd asked).parent with
  | error fault => rfl
  | ok config => rfl

/-- **Silence does not matter** to what else is loaded, nor to whether anything is. -/
theorem load_silenced (tree : Tree) (cwd : Path) (asked : Option Path) (overrides : Overrides) :
    load tree cwd asked overrides.silenced = (load tree cwd asked overrides).map silenced := by
  rw [load_eq, load_eq]
  match tree.look (filePath cwd asked) with
  | .error fault => rfl
  | .ok (some .directory) => rfl
  | .ok (some (.file bytes modified)) =>
    show (tableOf bytes >>= _) = (tableOf bytes >>= _).map silenced
    cases tableOf bytes with
    | error fault => rfl
    | ok table => exact finish_silenced overrides table
  | .ok none =>
    cases asked with
    | some path => rfl
    | none => exact finish_silenced overrides []

end Config

/-! ### The console -/

/-- The console that hides successes. -/
def Console.silenced (console : Console) : Console := { console with silent := true }

/-- **A silent console** writes to the error stream only, and there what any console does. -/
theorem Console.renderAll_silenced (console : Console) (reports : List Report) :
    console.silenced.renderAll reports = ⟨"", (console.renderAll reports).err⟩ := by
  have hout : ∀ report, (console.silenced.render report).out = (none : Option String).getD "" := by
    rintro (path | reason | text | text) <;> rfl
  have herr : ∀ report, (console.silenced.render report).err = (console.render report).err := by
    rintro (path | reason | text | text)
    · rw [render, render]
      cases console.silent <;> rfl
    · rfl
    · rfl
    · rw [render, render]
      cases console.silent <;> rfl
  rw [renderAll_eq, renderAll_eq, join_filterMap hout]
  simp [herr]

namespace CommandLine

open Watch (Coordinator)

/-! ### The command line -/

/-- The options with silence. -/
def Options.silenced (options : Options) : Options := { options with silent := true }

namespace Progress

/-- What was read so far, and silence. -/
def silenced (progress : Progress) : Progress := { progress with options := progress.options.silenced }

@[simp]
theorem addPlain_silenced (progress : Progress) (t : Text) :
    progress.silenced.addPlain t = (progress.addPlain t).silenced := by
  simp only [addPlain, silenced]
  cases progress.run <;> rfl

@[simp]
theorem addUnknown_silenced (progress : Progress) (t : Text) :
    progress.silenced.addUnknown t = (progress.addUnknown t).silenced := rfl

@[simp]
theorem endRun_silenced (progress : Progress) :
    progress.silenced.endRun = progress.endRun.silenced := by
  by_cases hrun : progress.run = .within
  · rw [endRun, endRun, if_pos hrun, if_pos (show progress.silenced.run = .within from hrun)]
    rfl
  · rw [endRun, endRun, if_neg hrun, if_neg (show ¬progress.silenced.run = .within from hrun)]

theorem switch_silenced (progress : Progress) (flag : Flag) :
    progress.silenced.switch flag = (progress.switch flag).map silenced := by
  cases flag <;> rfl

@[simp]
theorem assign_silenced (progress : Progress) (flag : Flag) (t : Text) :
    progress.silenced.assign flag t = (progress.assign flag t).silenced := by
  cases flag <;> rfl

theorem foldlM_switch_silenced (progress : Progress) (flags : List Flag) :
    flags.foldlM switch progress.silenced = (flags.foldlM switch progress).map silenced := by
  induction flags generalizing progress with
  | nil => rfl
  | cons flag flags ih =>
    rw [List.foldlM_cons, List.foldlM_cons, switch_silenced]
    cases progress.switch flag with
    | error stop => rfl
    | ok next => exact ih next

/-- What is read behind options without a value. -/
theorem foldlM_switch_bind_silenced (progress : Progress) (flags : List Flag)
    {next : Progress → Except Stop Progress}
    (h : ∀ progress : Progress, next progress.silenced = (next progress).map silenced) :
    flags.foldlM switch progress.silenced >>= next =
      (flags.foldlM switch progress >>= next).map silenced := by
  rw [foldlM_switch_silenced]
  cases flags.foldlM switch progress with
  | error stop => rfl
  | ok progress => exact h progress

end Progress

/-- **Silence changes nothing** that is read behind it. -/
theorem consume_silenced : ∀ (words : List (Text × Word)) (progress : Progress),
    consume progress.silenced words = (consume progress words).map Progress.silenced
  | [], progress => rfl
  | (t, .plain) :: rest, progress => by
    rw [consume, consume, Progress.addPlain_silenced, consume_silenced rest]
  | (t, .mark) :: rest, progress => by
    rw [consume, consume, Progress.addPlain_silenced, consume_silenced rest]
  | (t, .unknown) :: rest, progress => by
    rw [consume, consume, Progress.endRun_silenced, Progress.addUnknown_silenced,
      consume_silenced rest]
  | (_, .option flag short attached) :: rest, progress => by
    rw [consume, consume]
    cases spelledBy flag short attached with
    | error stop => rfl
    | ok spelled =>
    obtain ⟨flags, last, value⟩ := spelled
    show (if last.takesValue = true then _ else _) =
      Except.map _ (if last.takesValue = true then _ else _)
    rw [Progress.endRun_silenced]
    cases last.takesValue with
    | false =>
      exact Progress.foldlM_switch_bind_silenced _ _ (consume_silenced rest)
    | true =>
      -- without a value attached the next word is one, and the recursion goes on behind it
      match value, rest with
      | some t, rest =>
        refine Progress.foldlM_switch_bind_silenced _ _ fun progress ↦ ?_
        rw [Progress.assign_silenced, consume_silenced rest]
      | none, (t, .plain) :: rest =>
        refine Progress.foldlM_switch_bind_silenced _ _ fun progress ↦ ?_
        rw [Progress.assign_silenced, consume_silenced rest]
      | none, [] | none, (_, .mark) :: _ | none, (_, .unknown) :: _ | none, (_, .option _ _ _) :: _ =>
        rfl

theorem parse_silenced (arguments : List Text) :
    parse ("--silent".toList :: arguments) = (parse arguments).map Options.silenced := by
  rw [parse, parse, classifyAll, if_neg (by decide)]
  have hclassify : classify "--silent".toList = .ok (.option .silent false none) := by decide
  rw [hclassify]
  cases classifyAll arguments with
  | error stop => rfl
  | ok words =>
    have hfirst : consume .start (("--silent".toList, .option .silent false none) :: words) =
        (consume .start words).map Progress.silenced := by
      rw [consume]
      exact consume_silenced words .start
    show (consume .start _ >>= _) = (consume .start words >>= _).map Options.silenced
    rw [hfirst]
    cases consume .start words with
    | error stop => rfl
    | ok progress =>
      obtain ⟨options, run, extras⟩ := progress
      cases extras with
      | nil => rfl
      | cons t extras => rfl

/-! ### The run -/

/-- The watch of a silent run. -/
def Watching.silenced (watching : Watching) : Watching :=
  { watching with console := watching.console.silenced }

variable (compiler : OutputStyle → List Path → Compiler) {options : Options} {config : Config}
  {around : Surroundings} {steps : List (Tree → Tree)} {space : Workspace}

/-- The compiler for a configuration. It is built from the settings for it and from no others. -/
def compilerFor (config : Config) : Compiler := compiler config.outputStyle config.includePaths

/-- The ending of a silent run: a watch is handed over with a silent console. -/
def hushed (ending : Ending) : Ending :=
  (ending.1.map fun (code, watching) ↦ (code, watching.map Watching.silenced), ending.2)

theorem runOnce_silenced (sources : SourceSet) :
    runOnce (compilerFor compiler) config.silenced sources space =
      hushed (runOnce (compilerFor compiler) config sources space) := by
  show runOnce (compilerFor compiler) config sources space = _
  unfold runOnce
  rcases prepareLog config space with ⟨fault | -, prepared⟩
  · rfl
  · dsimp only
    rcases (pipelineFor (compilerFor compiler) config "batch" prepared).convertAll sources
      (config.maxConcurrency.map Int.ofNat) config.excludeGlobs prepared with ⟨fault | result, after⟩
    · rfl
    · rfl

theorem runWatch_silenced (console : Console) (watch : Coordinator) :
    runWatch (compilerFor compiler) config.silenced console.silenced watch steps space =
      hushed (runWatch (compilerFor compiler) config console watch steps space) := by
  have hprepare : prepareLog config.silenced space = prepareLog config space := rfl
  rw [runWatch, runWatch, hprepare]
  rcases prepareLog config space with ⟨fault | -, prepared⟩
  · rfl
  · have hrun : watch.run (pipelineFor (compilerFor compiler) config.silenced "watch" prepared) steps
        (announced config.silenced watch prepared) =
      watch.run (pipelineFor (compilerFor compiler) config "watch" prepared) steps
        (announced config watch prepared) := rfl
    simp only [announced] at hrun
    simp only [hrun]
    rcases watch.run (pipelineFor (compilerFor compiler) config "watch" prepared) steps _ with
      ⟨fault | looks, watch', after⟩
    · rfl
    · rfl

/-- **Silence is asked for** when a watch is handed over, and nowhere else in a run. -/
theorem runWith_silenced (console : Console) :
    runWith (compilerFor compiler) config.silenced console.silenced options.silenced steps space =
      hushed (runWith (compilerFor compiler) config console options steps space) := by
  have hresolve : SourceSet.resolve space.tree space.here config.silenced.cwd options.silenced.paths
      config.silenced.extension config.silenced.excludeGlobs =
    SourceSet.resolve space.tree space.here config.cwd options.paths config.extension
      config.excludeGlobs := rfl
  have hwatch : options.silenced.watch = options.watch := rfl
  have hexclude : config.silenced.excludeGlobs = config.excludeGlobs := rfl
  rw [runWith, runWith, hresolve, hwatch]
  cases SourceSet.resolve space.tree space.here config.cwd options.paths config.extension
    config.excludeGlobs with
  | error fault => cases fault <;> rfl
  | ok sources =>
    cases options.watch with
    | false => exact runOnce_silenced compiler sources
    | true =>
      simp only [if_true, hexclude]
      cases Coordinator.make sources config.excludeGlobs with
      | error fault => cases fault <;> rfl
      | ok watch => exact runWatch_silenced compiler console watch

/-- The second run is the first one with successes hidden. -/
structure Hushed (loud silent : Result) : Prop where
  exit : silent.exit = loud.exit
  out : silent.output.out = ""
  err : silent.output.err = loud.output.err
  space : silent.space = loud.space
  watching : silent.watching = loud.watching.map Watching.silenced

/-- A run that hands over no watch and has no text on the output stream has nothing to hide. -/
theorem hushed_self {result : Result} (hout : result.output.out = "")
    (hwatching : result.watching = none) : Hushed result result :=
  ⟨rfl, hout, rfl, rfl, by rw [hwatching]; rfl⟩

theorem hushed_shown (console : Console) (space : Workspace) (ending : Ending) :
    Hushed (shown console space ending) (shown console.silenced space (hushed ending)) := by
  have hrender := console.renderAll_silenced (ending.2.reports.drop space.reports.length)
  have herr : (console.silenced.renderAll (ending.2.reports.drop space.reports.length)).err =
      (console.renderAll (ending.2.reports.drop space.reports.length)).err := by rw [hrender]
  refine ⟨?_, congrArg Output.out hrender, herr, rfl, ?_⟩
  · rcases ending with ⟨breakage | ⟨code, watching⟩, after⟩ <;> rfl
  · rcases ending with ⟨breakage | ⟨code, watching⟩, after⟩ <;> rfl

/-- **Silence hides successes and nothing else.** -/
theorem runUsing_silenced {arguments : List Text} (h : Asked arguments options)
    (around : Surroundings) (steps : List (Tree → Tree)) (space : Workspace) :
    Hushed (runUsing (compilerFor compiler) arguments around steps space)
      (runUsing (compilerFor compiler) ("--silent".toList :: arguments) around steps space) := by
  have hsilent : Asked ("--silent".toList :: arguments) options.silenced :=
    ⟨by rw [parse_silenced, h.parsed]; rfl, h.given⟩
  by_cases hconfig : options.config = some .nothing
  · have hconfig' : options.silenced.config = some .nothing := hconfig
    rw [h.runUsing_of_nothing hconfig, hsilent.runUsing_of_nothing hconfig']
    exact hushed_self rfl rfl
  have loading : Loading arguments options := ⟨h, hconfig⟩
  have loading' : Loading ("--silent".toList :: arguments) options.silenced := ⟨hsilent, hconfig⟩
  have hload' : Config.load space.tree space.here options.silenced.configFile
      options.silenced.overrides =
        (Config.load space.tree space.here options.configFile options.overrides).map
          Config.silenced :=
    Config.load_silenced space.tree space.here options.configFile options.overrides
  cases hload : Config.load space.tree space.here options.configFile options.overrides with
  | error fault =>
    -- the console that tells of it does not know of silence, but it only writes to the error stream
    rw [hload] at hload'
    rw [loading.runUsing_eq hload, loading'.runUsing_eq hload']
    cases breakageOf fault with
    | some breakage => exact hushed_self rfl rfl
    | none => exact hushed_self rfl rfl
  | ok config =>
    rw [hload] at hload'
    have loaded : Loaded arguments space options config := ⟨loading, hload⟩
    have loaded' : Loaded ("--silent".toList :: arguments) space options.silenced config.silenced :=
      ⟨loading', hload'⟩
    by_cases hextension : options.extension = some .nothing
    · rw [loaded.runUsing_of_nothing hextension, loaded'.runUsing_of_nothing hextension]
      exact hushed_self rfl rfl
    · have resolving : Resolving arguments space options config := ⟨loaded, hextension⟩
      have resolving' : Resolving ("--silent".toList :: arguments) space options.silenced
        config.silenced := ⟨loaded', hextension⟩
      rw [resolving.runUsing_eq, resolving'.runUsing_eq]
      have hconsole : Console.make config.silenced.silent config.silenced.color around =
        (Console.make config.silent config.color around).silenced := rfl
      rw [hconsole, runWith_silenced]
      exact hushed_shown _ _ _

/-- In the project one source is converted and one fails. A silent run only tells the latter. -/
theorem runUsing_silenced_sample :
    (runUsing plainCompiler ["a.css".toList, "b.css".toList] plainSurroundings []
      Pipeline.sampleSpace).output.out = "[Wrote] ./a.css.flow\n" ∧
    Hushed
      (runUsing plainCompiler ["a.css".toList, "b.css".toList] plainSurroundings []
        Pipeline.sampleSpace)
      (runUsing plainCompiler ["--silent".toList, "a.css".toList, "b.css".toList] plainSurroundings []
        Pipeline.sampleSpace) := by
  refine ⟨by decide +kernel, ?_⟩
  have hasked : Asked ["a.css".toList, "b.css".toList]
      ⟨["a.css".toList, "b.css".toList], false, none, false, none⟩ :=
    ⟨by decide +kernel, by decide⟩
  exact runUsing_silenced (fun style paths ↦ .plain style.name.toList paths) hasked plainSurroundings []
    Pipeline.sampleSpace

end CommandLine

end CssTypings
