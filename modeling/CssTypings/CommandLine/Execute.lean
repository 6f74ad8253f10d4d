import CssTypings.CommandLine.Help
import CssTypings.CommandLine.Parse
import CssTypings.Config.Load
import CssTypings.Watch.Coordinator

/-!
# Running the command

The command loads the configuration, finds the sources, and converts them once or whenever they
change. The exit code is 0 if all went well, 1 if a source could not be converted, and 2 if the
arguments or the configuration leave nothing to run. A few faults are not answered with an exit code
but break the command.

The command can be run with any compiler that can be built from a configuration (`runUsing`).
-/

namespace CssTypings.CommandLine

/-- What breaks the command. -/
inductive Breakage where
  /-- The configuration file cannot be opened, sources or artifacts cannot be looked for, or there
  is no place for the log. -/
  | access (fault : Tree.Fault)
  /-- The values in the configuration file are too deep inside one another. -/
  | tooDeep
  /-- An interval that is too large. -/
  | intervalTooLarge
  /-- A limit for conversions that is negative. -/
  | negativeLimit
  /-- An extension was asked for and not given. -/
  | noExtension
  /-- A configuration file was asked for and not given. -/
  | noConfigPath
deriving DecidableEq, Repr

/-- The wording of a breakage. -/
def Breakage.message : Breakage → String
  | .access fault => fault.message
  | .tooDeep => Toml.Fault.tooDeep.message []
  | .intervalTooLarge => Config.Fault.tooLarge.message
  | .negativeLimit => Pipeline.Fault.negativeLimit.message
  | .noExtension => "'list' object has no attribute 'strip'"
  | .noConfigPath => "expected str, bytes or os.PathLike object, not list"

/-- A fault of a batch breaks the command. -/
def Breakage.ofPipeline : Pipeline.Fault → Breakage
  | .negativeLimit => .negativeLimit
  | .access fault => .access fault

/-- A watch that was begun, so that it can go on. -/
structure Watching where
  /-- Seconds between two looks. -/
  interval : Double
  pipeline : Pipeline
  /-- The watch after the looks so far. -/
  watch : Watch.Coordinator
  /-- The looks so far, in order. -/
  looks : List Watch.Look
  console : Console

/-- What came of running the command. -/
structure Result where
  /-- The exit code, unless the command broke. -/
  exit : Except Breakage Nat
  output : Output
  space : Workspace
  /-- The watch, if one was begun. -/
  watching : Option Watching

section Build

variable (build : Config → Compiler)

/-- The pipeline for a configuration. -/
def pipelineFor (config : Config) (mode : String) (space : Workspace) : Pipeline where
  compiler := build config
  suffix := config.declarationSuffix
  cwd := config.cwd
  eventLog := config.eventLog
  mode := mode.toList
  store := ⟨space.temp, Store.defaultLabel⟩

/-- Makes the directories that lead to the log, if there is one. -/
def prepareLog (config : Config) (space : Workspace) : Except Tree.Fault Unit × Workspace :=
  match config.eventLog with
  | none => (.ok (), space)
  | some path =>
    let (made, tree) := EventLog.prepare space.tree path
    (made, { space with tree })

/-- How a run ends: its exit code and the watch if one was begun, unless it broke, and the
workspace. -/
abbrev Ending := Except Breakage (Nat × Option Watching) × Workspace

/-- Converts the sources once. -/
def runOnce (config : Config) (sources : SourceSet) (space : Workspace) : Ending :=
  match prepareLog config space with
  | (.error fault, space) => (.error (.access fault), space)
  | (.ok _, space) =>
    let limit := config.maxConcurrency.map Int.ofNat
    match (pipelineFor build config "batch" space).convertAll sources limit config.excludeGlobs space
    with
    | (.error fault, space) => (.error (.ofPipeline fault), space)
    | (.ok result, space) => (.ok (if result.failed.isEmpty then 0 else 1, none), space)

/-- Converts the sources whenever they change; each step changes the tree before the next look. -/
def runWatch (config : Config) (console : Console) (watch : Watch.Coordinator)
    (steps : List (Tree → Tree)) (space : Workspace) : Ending :=
  match prepareLog config space with
  | (.error fault, space) => (.error (.access fault), space)
  | (.ok _, space) =>
    let pipeline := pipelineFor build config "watch" space
    let shown := space.here.display config.cwd (.ofText watch.pattern)
    match watch.run pipeline steps
      (space.report (.remark ("Watching " ++ String.ofList shown))) with
    | (.error fault, _, space) => (.error (.access fault), space)
    | (.ok looks, watch, space) =>
      (.ok (0, some ⟨config.pollInterval, pipeline, watch, looks, console⟩), space)

/-- Finds the sources and runs what the options ask for. -/
def runWith (config : Config) (console : Console) (options : Options)
    (steps : List (Tree → Tree)) (space : Workspace) : Ending :=
  let refuse : SourceSet.Fault → Ending
    | .access fault => (.error (.access fault), space)
    | fault => (.ok (2, none), space.report (.failed fault.message))
  match SourceSet.resolve space.tree space.here config.cwd options.paths config.extension
      config.excludeGlobs with
  | .error fault => refuse fault
  | .ok sources =>
    if options.watch then
      match Watch.Coordinator.make sources config.excludeGlobs with
      | .error fault => refuse fault
      | .ok watch => runWatch build config console watch steps space
    else runOnce build config sources space

/-- The text of a value, if it has one. -/
def Value.text? : Value → Option Text
  | .text t => some t
  | .nothing => none

/-- The settings that the options change. -/
def Options.overrides (options : Options) : Config.Overrides :=
  ⟨options.extension.bind Value.text?, if options.silent then some true else none⟩

/-- The configuration file that the options ask for. -/
def Options.configFile (options : Options) : Option Path :=
  (options.config.bind Value.text?).map Path.ofText

/-- Loads the configuration and runs what the options ask for. Reports about the configuration
itself go to a console with the usual settings. -/
def runOptions (options : Options) (around : Surroundings) (steps : List (Tree → Tree))
    (space : Workspace) : Result :=
  let broken (breakage : Breakage) : Result := ⟨.error breakage, .empty, space, none⟩
  if options.config = some .nothing then broken .noConfigPath
  else
    match Config.load space.tree space.here options.configFile options.overrides with
    | .error (.access fault) => broken (.access fault)
    | .error (.malformed _ .tooDeep) => broken .tooDeep
    | .error (.setting .tooLarge) => broken .intervalTooLarge
    | .error fault =>
      let console := Console.make false .auto around
      ⟨.ok 2, console.render (.failed fault.message), space, none⟩
    | .ok config =>
      if options.extension = some .nothing then broken .noExtension
      else
        let console := Console.make config.silent config.color around
        let (ending, space') := runWith build config console options steps space
        let output := console.renderAll (space'.reports.drop space.reports.length)
        match ending with
        | .error breakage => ⟨.error breakage, output, space', none⟩
        | .ok (code, watching) => ⟨.ok code, output, space', watching⟩

/-- Runs the command with a compiler built from the configuration. The steps are what happens to the
tree while sources are watched. -/
def runUsing (arguments : List Text) (around : Surroundings) (steps : List (Tree → Tree))
    (space : Workspace) : Result :=
  match parse arguments with
  | .error .help => ⟨.ok 0, ⟨help, ""⟩, space, none⟩
  | .error (.misuse message) =>
    ⟨.ok 2, ⟨"", usage ++ programName ++ ": error: " ++ message ++ "\n"⟩, space, none⟩
  | .ok options =>
    if options.paths = [] then ⟨.ok 0, ⟨help, ""⟩, space, none⟩
    else runOptions build options around steps space

end Build

/-- The compiler at hand with the settings of a configuration. -/
def plainCompiler (config : Config) : Compiler :=
  .plain config.outputStyle.name.toList config.includePaths

/-- Runs the command with the compiler at hand. -/
def run : List Text → Surroundings → List (Tree → Tree) → Workspace → Result :=
  runUsing plainCompiler

end CssTypings.CommandLine
