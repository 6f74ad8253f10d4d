import CssTypings.Proofs.CommandLine.Batch
import CssTypings.Proofs.CommandLine.Stages

/-!
# What is refused leaves no trace

The command exits with 2 for three causes (`Refused`): arguments that are wrong, a configuration
that is refused, and more than one path to watch. All of them are found out before anything is done,
so the tree is as it was, scratch files included, nothing is on the output stream, and no watch was
begun (`Untouched`). A command line without paths is answered with the description of the command
before the configuration is even looked at. The main statement is `runUsing_refused`.
-/

namespace CssTypings

namespace SourceSet

open Watch (Coordinator)

variable {tree : Tree} {here cwd : Path} {paths : List Text} {extension : Text}
  {exclude ignored : List Text} {sources : SourceSet}

/-- Only what was searched for can be refused. -/
theorem exists_access_of_resolve (hpaths : paths ≠ []) {fault : Fault}
    (h : resolve tree here cwd paths extension exclude = .error fault) :
    ∃ fault', fault = .access fault' := by
  match paths, hpaths with
  | [t], _ =>
    rcases bind_eq_error.1 h with hpattern | ⟨pattern, -, h⟩
    · obtain ⟨fault', -, rfl⟩ := mapError_eq_error.1 hpattern
      exact ⟨fault', rfl⟩
    · rcases bind_eq_error.1 h with hfiles | ⟨files, -, h⟩
      · obtain ⟨fault', -, rfl⟩ := mapError_eq_error.1 hfiles
        exact ⟨fault', rfl⟩
      · cases h
  | t :: u :: rest, _ => cases h

variable (tree here cwd extension exclude) in
/-- Several paths are taken as they are. -/
theorem exists_resolve_of_two_le (h : 2 ≤ paths.length) :
    ∃ sources, resolve tree here cwd paths extension exclude = .ok sources := by
  match paths, h with
  | t :: u :: rest, _ => exact ⟨_, rfl⟩

/-- **One path can be watched**, several cannot. -/
theorem make_eq_error_iff (h : resolve tree here cwd paths extension exclude = .ok sources) :
    (∃ fault, Coordinator.make sources ignored = .error fault) ↔ 2 ≤ paths.length := by
  match paths, h with
  | [], h => cases h
  | [t], h =>
    obtain ⟨pattern, -, -, rfl⟩ := exists_of_resolve h
    simp [Coordinator.make, watchable, bind, Except.bind, pure, Except.pure]
  | t :: u :: rest, h =>
    obtain rfl := Except.ok.inj h
    simp [Coordinator.make, watchable, bind, Except.bind]

end SourceSet

namespace CommandLine

open Watch (Coordinator)

variable {build : Config → Compiler} {arguments : List Text} {around : Surroundings}
  {steps : List (Tree → Tree)} {space : Workspace} {options : Options} {config : Config}
  {sources : SourceSet}

/-- What makes the command exit with 2. -/
inductive Refused (arguments : List Text) (space : Workspace) : Prop
  /-- The arguments are wrong. -/
  | misuse {message : String} (misused : parse arguments = .error (.misuse message))
  /-- The configuration is refused, and not for something that breaks the command. -/
  | configuration {options : Options} {fault : Config.LoadFault} (loading : Loading arguments options)
      (refused : Config.load space.tree space.here options.configFile options.overrides =
        .error fault)
      (told : breakageOf fault = none)
  /-- Several paths are to be watched. -/
  | several {options : Options} {config : Config}
      (resolving : Resolving arguments space options config) (watch : options.watch = true)
      (several : 2 ≤ options.paths.length)

/-- A run has done nothing but to fill the error stream. -/
structure Untouched (space : Workspace) (result : Result) : Prop where
  tree : result.space.tree = space.tree
  /-- Not even a name for a scratch file was taken. -/
  scratch : result.space.scratch = space.scratch
  out : result.output.out = ""
  watching : result.watching = none

theorem Started.code_le_one (h : Started arguments space options config sources) {code : Nat}
    (hexit : (runUsing build arguments around steps space).exit = .ok code) : code ≤ 1 := by
  rw [h.toResolving.runUsing_eq, shown] at hexit
  cases hmade : prepareLog config space with
  | mk made prepared =>
  cases made with
  | error fault =>
    rw [h.runWith_of_error hmade] at hexit
    cases hexit
  | ok =>
    cases hwatch : options.watch with
    | true =>
      obtain ⟨watching, after, hwith, -⟩ := h.exists_watched_told hmade hwatch
      rw [hwith] at hexit
      cases hexit
      exact Nat.zero_le _
    | false =>
      obtain ⟨ending, after, hwith, -, hok, herror⟩ := h.exists_once_told hmade hwatch
      rw [hwith] at hexit
      by_cases hcanFind : Dangling.CanFind sources.pattern config.declarationSuffix
      · obtain ⟨code', hcode, rfl⟩ := hok hcanFind
        cases hexit
        exact hcode
      · rw [herror hcanFind] at hexit
        cases hexit

/-- **Only the causes listed** make the command exit with 2. -/
theorem refused_of_exit (h : (runUsing build arguments around steps space).exit = .ok 2) :
    Refused arguments space := by
  cases reaches arguments space with
  | @stopped stop hparse =>
    cases stop with
    | help =>
      rw [runUsing, hparse] at h
      cases h
    | misuse message => exact .misuse hparse
  | noPaths hparse hpaths =>
    rw [runUsing, hparse] at h
    simp only [if_pos hpaths] at h
    cases h
  | noConfigPath asked hconfig =>
    rw [asked.runUsing_of_nothing hconfig] at h
    cases h
  | @loading options fault loading hload =>
    cases htold : breakageOf fault with
    | none => exact .configuration loading hload htold
    | some breakage =>
      rw [loading.runUsing_eq hload, htold] at h
      cases h
  | noExtension loaded hextension =>
    rw [loaded.runUsing_of_nothing hextension] at h
    cases h
  | resolving resolving hresolve =>
    obtain ⟨fault, rfl⟩ := SourceSet.exists_access_of_resolve resolving.given hresolve
    rw [resolving.exit_of_error hresolve] at h
    cases h
  | unwatchable resolving hresolve hwatch hmake =>
    exact .several resolving hwatch ((SourceSet.make_eq_error_iff hresolve).1 ⟨_, hmake⟩)
  | started started => exact absurd (started.code_le_one h) (by decide)

/-- **All of them do**, and nothing has happened then. -/
theorem Refused.untouched (h : Refused arguments space) :
    (runUsing build arguments around steps space).exit = .ok 2 ∧
      Untouched space (runUsing build arguments around steps space) := by
  cases h with
  | misuse misused =>
    rw [runUsing, misused]
    exact ⟨rfl, rfl, rfl, rfl, rfl⟩
  | configuration loading refused told =>
    rw [loading.runUsing_eq refused, told]
    exact ⟨rfl, rfl, rfl, rfl, rfl⟩
  | @several options config resolving watch several =>
    obtain ⟨sources, hresolve⟩ := SourceSet.exists_resolve_of_two_le space.tree space.here config.cwd
      config.extension config.excludeGlobs several
    obtain ⟨fault, hmake⟩ := (SourceSet.make_eq_error_iff hresolve).2 several
    rw [resolving.runUsing_eq, runWith_of_notWatchable hresolve watch hmake]
    refine ⟨rfl, rfl, rfl, ?_, rfl⟩
    rw [shown, Workspace.report, List.drop_left]
    rfl

/-- **What is refused leaves no trace.** The command exits with 2 for the causes listed and for no
others, and it has done nothing then. Without paths it tells its description, whatever the
configuration says, and has done nothing either. -/
theorem runUsing_refused (build : Config → Compiler) (arguments : List Text) (around : Surroundings)
    (steps : List (Tree → Tree)) (space : Workspace) :
    ((runUsing build arguments around steps space).exit = .ok 2 ↔ Refused arguments space) ∧
    ((runUsing build arguments around steps space).exit = .ok 2 →
      Untouched space (runUsing build arguments around steps space)) ∧
    ∀ options, parse arguments = .ok options → options.paths = [] →
      runUsing build arguments around steps space = ⟨.ok 0, ⟨help, ""⟩, space, none⟩ := by
  refine ⟨⟨refused_of_exit, fun h ↦ h.untouched.1⟩, fun h ↦ (refused_of_exit h).untouched.2, ?_⟩
  intro options hparse hpaths
  rw [runUsing, hparse]
  exact if_pos hpaths

/-- In the project two paths cannot be watched, and no path at all is no reason to look for any. -/
theorem runUsing_refused_sample :
    (runUsing plainCompiler ["-w".toList, "a.css".toList, "b.css".toList] plainSurroundings []
        Pipeline.sampleSpace).exit = .ok 2 ∧
    Untouched Pipeline.sampleSpace
      (runUsing plainCompiler ["-w".toList, "a.css".toList, "b.css".toList] plainSurroundings []
        Pipeline.sampleSpace) ∧
    runUsing plainCompiler ["-w".toList] plainSurroundings [] Pipeline.sampleSpace =
      ⟨.ok 0, ⟨help, ""⟩, Pipeline.sampleSpace, none⟩ := by
  obtain ⟨hexit, huntouched, -⟩ := runUsing_refused plainCompiler
    ["-w".toList, "a.css".toList, "b.css".toList] plainSurroundings [] Pipeline.sampleSpace
  have hresolving : Resolving ["-w".toList, "a.css".toList, "b.css".toList] Pipeline.sampleSpace
      ⟨["a.css".toList, "b.css".toList], true, none, false, none⟩ (.default (.ofText "/w".toList)) :=
    { parsed := by decide +kernel
      given := by decide
      configFile := by decide
      loaded := by decide +kernel
      extension := by decide }
  have hrefused : Refused ["-w".toList, "a.css".toList, "b.css".toList] Pipeline.sampleSpace :=
    .several hresolving rfl (by decide)
  have hcode := hexit.2 hrefused
  exact ⟨hcode, huntouched hcode,
    (runUsing_refused plainCompiler ["-w".toList] plainSurroundings [] Pipeline.sampleSpace).2.2
      ⟨[], true, none, false, none⟩ (by decide +kernel) rfl⟩

end CommandLine

end CssTypings
