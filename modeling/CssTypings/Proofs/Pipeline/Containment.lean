import CssTypings.Proofs.Pipeline.Verdict

/-!
# Conversions are contained

Converting one source always gives an outcome, whatever is in the tree and whatever the compiler
does with the source. If the source was converted, its declaration is at the artifact and nothing
else has changed (`Converted`); if it was not, nothing has changed at all (`Refused`). Either way
exactly one report is made. The main statement is `process_contained`: which of the two it is is
decided by the verdict, and the scratch file is gone.

A run needs a scratch path at which nothing is, and a tree, a working directory and a suffix as they
occur (`Ready`).
-/

namespace CssTypings

/-! ### What a report shows -/

namespace Console

theorem renderAll_concat (console : Console) (reports : List Report) (report : Report) :
    console.renderAll (reports ++ [report]) =
      console.renderAll reports ++ console.render report := by
  rw [renderAll, renderAll, List.map_append, List.foldl_append]
  rfl

theorem render_wrote (console : Console) (path : String) :
    console.render (.wrote path) =
      ⟨if console.silent then "" else line console.outColor green ("[Wrote] " ++ path), ""⟩ := by
  rw [render]
  split <;> rfl

end Console

namespace Pipeline

variable (pipeline : Pipeline)

/-- What holds wherever conversions are run. -/
structure Ready (space : Workspace) : Prop where
  suffix : Path.IsSuffix pipeline.suffix
  cwd : pipeline.cwd.IsProper
  here : space.here.IsProper
  tree : space.tree.Sound

/-- The absolute path of a source. -/
def sourceOf (here source : Path) : Path := here.absolute (pipeline.cwd.join source)

/-- The path of the artifact of an absolute source. -/
def artifactOf (source : Path) : Path := source.artifact pipeline.suffix

/-- The source was converted, and that is all that happened. -/
structure Converted (before : Workspace) (outcome : Outcome) (after : Workspace) : Prop where
  artifact : outcome.artifact = some (pipeline.artifactOf outcome.source)
  /-- The artifact is named by the source and the suffix. -/
  text : (pipeline.artifactOf outcome.source).text = outcome.source.text ++ pipeline.suffix
  error : outcome.error = none
  /-- The artifact holds the declaration for the names that the CSS exports. -/
  content : ∃ css names, pipeline.compiler.render before.tree outcome.source = .ok css ∧
    Stylesheet.exported (Text.unifyNewlines css) = .ok names ∧
    after.tree.read (pipeline.artifactOf outcome.source) =
      .ok (Utf8.encode (Declaration.document names))
  elsewhere : ∀ location, location ≠ (pipeline.artifactOf outcome.source).parts →
    after.tree.find? location = before.tree.find? location
  reports : after.reports = before.reports ++
    [.wrote (String.ofList (before.here.display pipeline.cwd
      (pipeline.artifactOf outcome.source)))]
  /-- On the console this is a line of output, unless the console is silent. -/
  shown : ∀ console : Console, console.renderAll after.reports =
    console.renderAll before.reports ++
      ⟨if console.silent then "" else Console.line console.outColor Console.green ("[Wrote] " ++
        String.ofList (before.here.display pipeline.cwd (pipeline.artifactOf outcome.source))), ""⟩

/-- The source was not converted, and nothing else happened. -/
structure Refused (before : Workspace) (outcome : Outcome) (after : Workspace) (reason : String) :
    Prop where
  artifact : outcome.artifact = none
  error : outcome.error = some reason
  everywhere : ∀ location, after.tree.find? location = before.tree.find? location
  reports : after.reports = before.reports ++
    [.failed (if reason.isEmpty then "Unknown error" else reason)]
  /-- On the console this is a line on the error stream. -/
  shown : ∀ console : Console, console.renderAll after.reports =
    console.renderAll before.reports ++ ⟨"", Console.line console.errColor Console.red
      ("[Error] " ++ if reason.isEmpty then "Unknown error" else reason)⟩

variable {pipeline} {space : Workspace} {source : Path}

theorem Ready.isPlain (ready : pipeline.Ready space) (hsource : source.IsProper) :
    (pipeline.sourceOf space.here source).IsPlain :=
  Path.isPlain_absolute ready.here (ready.cwd.join hsource)

/-- An absolute path without `..` is its own source. -/
theorem sourceOf_of_isPlain (hplain : source.IsPlain)
    (habsolute : source.isAbsolute = true) (here : Path) :
    pipeline.sourceOf here source = source := by
  have hjoin : pipeline.cwd.join source = source := if_pos habsolute
  rw [sourceOf, hjoin, Path.absolute_of_isPlain here habsolute hplain]

/-- Without a log, a conversion is followed by its report. -/
theorem process_eq (hlog : pipeline.eventLog = none) (source : Path) (space : Workspace) :
    pipeline.process source space =
      let source := pipeline.sourceOf space.here source
      let (result, after) := pipeline.convert source space
      let outcome : Outcome := ⟨source, result.mapError Failure.reason⟩
      (.ok outcome, after.report (pipeline.reportOf after.here outcome)) := by
  simp only [process, log, hlog]
  rfl

/-- A verdict in favour of the source is carried out. -/
theorem converted_of_verdict (ready : pipeline.Ready space) (hplain : source.IsPlain)
    (hfree : space.tree.IsFree (pipeline.store.scratchPath space.scratch))
    {location : Location} {declaration : Text}
    (hverdict : pipeline.verdict space.tree (pipeline.store.scratchPath space.scratch) source =
      .ok (location, declaration)) :
    ∃ after, pipeline.convert source space = (.ok (pipeline.artifactOf source), after) ∧
      after.here = space.here ∧
      pipeline.Converted space ⟨source, .ok (pipeline.artifactOf source)⟩
        (after.report (pipeline.reportOf after.here ⟨source, .ok (pipeline.artifactOf source)⟩)) := by
  obtain ⟨clock, hconvert⟩ := convert_of_ok ready.tree hfree hverdict
  obtain ⟨css, hrender, hdrafted, htarget⟩ := verdict_eq_ok.1 hverdict
  obtain ⟨names, hnames, hdeclaration⟩ := Declaration.ofCss_eq_ok.1 (drafted_eq_ok.1 hdrafted).2
  have hne := Compiler.parts_ne_nil_of_render hplain hrender
  have hlocation : location = (source.artifact pipeline.suffix).parts :=
    Tree.eq_parts_of_target (Path.isPlain_artifact ready.suffix.not_mem_slash hne hplain) htarget
  have htarget' : Tree.target { space.tree with clock } (source.artifact pipeline.suffix) =
      .ok location := by
    rw [Tree.target_congr (Tree.find?_clock space.tree clock), htarget]
  refine ⟨_, hconvert, rfl, rfl, Path.text_artifact ready.suffix.not_mem_slash hne hplain, rfl,
    ?_, ?_, rfl, ?_⟩
  · refine ⟨css, names, hrender, hnames, ?_⟩
    rw [← hdeclaration]
    exact Tree.read_stamped htarget' _
  · intro other hother
    have hfile := Tree.ne_nil_of_find? (Tree.find?_ne_of_target htarget')
    have hne' : other ≠ location := hlocation ▸ hother
    show (Tree.changeFile.stamped { space.tree with clock } location _).find? other = _
    rw [Tree.find?_stamped hfile, if_neg hne', Tree.find?_clock]
  · intro console
    rw [← Console.render_wrote]
    exact console.renderAll_concat _ _

/-- A verdict against the source leaves everything as it is. -/
theorem refused_of_verdict (ready : pipeline.Ready space)
    (hfree : space.tree.IsFree (pipeline.store.scratchPath space.scratch)) {failure : Failure}
    (hverdict : pipeline.verdict space.tree (pipeline.store.scratchPath space.scratch) source =
      .error failure) :
    ∃ after, pipeline.convert source space = (.error failure, after) ∧
      Refused space ⟨source, .error failure.reason⟩
        (after.report (pipeline.reportOf after.here ⟨source, .error failure.reason⟩))
        failure.reason := by
  obtain ⟨clock, scratch, -, hconvert⟩ := convert_of_error ready.tree hfree hverdict
  refine ⟨_, hconvert, rfl, rfl, Tree.find?_clock space.tree clock, rfl, ?_⟩
  intro console
  exact console.renderAll_concat _ _

/-- **Conversions are contained.** A conversion with a free scratch path gives an outcome. The
source is converted exactly if the verdict says so; then its declaration is written and nothing else
changes, and otherwise nothing changes at all. The scratch file is gone in both cases.

The tree is any without links and permissions whose names are Unicode texts, that is, without bytes
that belong to no character. -/
theorem process_contained (ready : pipeline.Ready space) (hlog : pipeline.eventLog = none)
    (hsource : source.IsProper)
    (hfree : space.tree.IsFree (pipeline.store.scratchPath space.scratch)) :
    ∃ outcome after, pipeline.process source space = (.ok outcome, after) ∧
      outcome.source = pipeline.sourceOf space.here source ∧
      (outcome.ok = true ↔ ∃ location declaration, pipeline.verdict space.tree
        (pipeline.store.scratchPath space.scratch) outcome.source = .ok (location, declaration)) ∧
      (outcome.ok = true → pipeline.Converted space outcome after) ∧
      (outcome.ok = false → ∃ reason, Refused space outcome after reason) ∧
      ∀ location, space.tree.target (pipeline.store.scratchPath space.scratch) = .ok location →
        location ≠ (pipeline.artifactOf outcome.source).parts →
        after.tree.find? location = none := by
  have hplain := ready.isPlain hsource
  rw [process_eq hlog]
  generalize pipeline.sourceOf space.here source = source at hplain ⊢
  cases hverdict :
    pipeline.verdict space.tree (pipeline.store.scratchPath space.scratch) source with
  | error failure =>
    obtain ⟨after, hconvert, hrefused⟩ := refused_of_verdict ready hfree hverdict
    simp only [hconvert]
    refine ⟨_, _, rfl, rfl, ?_, fun hok ↦ (by cases hok), fun _ ↦ ⟨_, hrefused⟩, ?_⟩
    · simp [Outcome.ok, Except.mapError, Except.isOk, Except.toBool, hverdict]
    · intro location htarget _
      exact (hrefused.everywhere location).trans (hfree.find?_eq_none htarget)
  | ok found =>
    obtain ⟨location, declaration⟩ := found
    obtain ⟨after, hconvert, -, hconverted⟩ := converted_of_verdict ready hplain hfree hverdict
    simp only [hconvert]
    refine ⟨_, _, rfl, rfl, ?_, fun _ ↦ hconverted, fun hok ↦ (by cases hok), ?_⟩
    · simp [Outcome.ok, Except.mapError, Except.isOk, Except.toBool, hverdict]
    · intro location htarget hother
      exact (hconverted.elsewhere location hother).trans (hfree.find?_eq_none htarget)

/-! ### A project -/

/-- A project directory with a stylesheet, its old artifact, a stylesheet that does not compile, and
an artifact without a source, and next to it a directory for scratch files. -/
def sampleTree : Tree :=
  let file (t : String) (modified : Int) : Entry := .file (Utf8.encode t.toList) modified
  ⟨[(["w".toList], .directory), (["tmp".toList], .directory),
    (["w".toList, "a.css".toList], file ".a \x7b\x7d" 0),
    (["w".toList, "a.css.flow".toList], file "" 1),
    (["w".toList, "b.css".toList], file "@error no" 2),
    (["w".toList, "c.css.flow".toList], file "" 3)], 4⟩

/-- The workspace of the project. -/
def sampleSpace : Workspace where
  tree := sampleTree
  here := .ofText "/w".toList
  temp := .ofText "/tmp".toList
  now := []
  scratch := 0
  reports := []

/-- Conversions in the project. -/
def sample : Pipeline where
  compiler := .plain "expanded".toList []
  suffix := ".flow".toList
  cwd := .ofText "/w".toList
  eventLog := none
  mode := "batch".toList
  store := ⟨.ofText "/tmp".toList, Store.defaultLabel⟩

theorem ready_sample : sample.Ready sampleSpace :=
  ⟨by decide, by decide, by decide, by decide⟩

/-- In the project the stylesheet is converted, which replaces its old artifact, and the one that
does not compile is left. -/
theorem process_contained_sample :
    (∃ outcome after,
      sample.process (.ofText "a.css".toList) sampleSpace = (.ok outcome, after) ∧
        sample.Converted sampleSpace outcome after) ∧
    ∃ outcome after reason,
      sample.process (.ofText "b.css".toList) sampleSpace = (.ok outcome, after) ∧
        Refused sampleSpace outcome after reason := by
  constructor
  · obtain ⟨outcome, after, hprocess, hsource, hok, hconverted, -⟩ :=
      process_contained ready_sample rfl (Path.isProper_ofText "a.css".toList) (by decide)
    refine ⟨outcome, after, hprocess, hconverted (hok.2 ?_)⟩
    rw [hsource]
    exact ⟨["w".toList, "a.css.flow".toList], Declaration.document ["a".toList], by decide +kernel⟩
  · obtain ⟨outcome, after, hprocess, hsource, hok, -, hrefused, -⟩ :=
      process_contained ready_sample rfl (Path.isProper_ofText "b.css".toList) (by decide)
    have hnot : outcome.ok = false := by
      rw [Bool.eq_false_iff]
      intro htrue
      obtain ⟨location, declaration, hverdict⟩ := hok.1 htrue
      rw [hsource] at hverdict
      have hbad : (sample.verdict sampleSpace.tree (sample.store.scratchPath sampleSpace.scratch)
        (sample.sourceOf sampleSpace.here (.ofText "b.css".toList))).isOk = false := by decide +kernel
      rw [hverdict] at hbad
      cases hbad
    obtain ⟨reason, hrefused⟩ := hrefused hnot
    exact ⟨outcome, after, reason, hprocess, hrefused⟩

end Pipeline

end CssTypings
