import CssTypings.Proofs.Dangling
import CssTypings.Proofs.Pipeline.Independence
import CssTypings.Proofs.Pipeline.Logging

/-!
# What a batch tells is what it did

A batch says what it did in four ways: by its outcomes, by its reports, by the tree that it leaves,
and by the dangling artifacts that it finds. If its conversions cannot meet, all four tell the same
(`Faithful`): there is a report for each source in order, nothing but the artifacts of successful
outcomes is written, and each of these holds the declaration for what its source says.

On a console that is not silent the reports come apart into lines on the two streams
(`renderAll_reports`): the output stream has those about what was written, and the error stream has
those about failures and then those about dangling artifacts.
-/

namespace CssTypings

/-! ### Lines -/

theorem Console.join_filterMap {α : Type} {f : α → String} {g : α → Option String}
    (h : ∀ a, f a = (g a).getD "") (l : List α) :
    String.join (l.map f) = String.join (l.filterMap g) := by
  induction l with
  | nil => rfl
  | cons a l ih =>
    rw [List.map_cons, String.join_cons, ih, h]
    cases hline : g a with
    | none => rw [List.filterMap_cons_none hline, Option.getD_none, String.empty_append]
    | some line => rw [List.filterMap_cons_some hline, String.join_cons, Option.getD_some]

/-- What is written to the two streams, report after report. -/
theorem Console.renderAll_eq (console : Console) (reports : List Report) :
    console.renderAll reports =
      ⟨String.join (reports.map fun report ↦ (console.render report).out),
        String.join (reports.map fun report ↦ (console.render report).err)⟩ := by
  induction reports using List.reverseRecOn with
  | nil => rfl
  | append_singleton reports report ih =>
    rw [renderAll_concat, ih, List.map_append, List.map_append, String.join_append,
      String.join_append]
    simp only [List.map_cons, List.map_nil, String.join_cons, String.join_nil, String.append_empty]
    rfl

theorem Console.renderAll_append (console : Console) (reports reports' : List Report) :
    console.renderAll (reports ++ reports') =
      console.renderAll reports ++ console.renderAll reports' := by
  simp only [renderAll_eq, List.map_append, String.join_append]
  rfl

/-- Warnings are lines on the error stream. -/
theorem Console.renderAll_warnings (console : Console) (lines : List String) :
    console.renderAll (lines.map Report.warning) =
      ⟨"", String.join (lines.map (line console.errColor red))⟩ := by
  have hout : ∀ text, ((fun report ↦ (console.render report).out) ∘ Report.warning) text =
      (none : Option String).getD "" := fun _ ↦ rfl
  have hnone : lines.filterMap (fun _ ↦ (none : Option String)) = [] := by simp
  rw [renderAll_eq, List.map_map, List.map_map, join_filterMap hout, hnone]
  rfl

namespace Pipeline

variable (pipeline : Pipeline) (console : Console)

/-- The line about a source that was converted. -/
def wroteLine? (here : Path) (outcome : Outcome) : Option String :=
  outcome.artifact.map fun artifact ↦ Console.line console.outColor Console.green
    ("[Wrote] " ++ String.ofList (here.display pipeline.cwd artifact))

/-- The report about a source that was not. -/
def errorLine? (outcome : Outcome) : Option String :=
  outcome.error.map fun reason ↦ Console.line console.errColor Console.red
    ("[Error] " ++ if reason.isEmpty then "Unknown error" else reason)

/-- The report about dangling artifacts, if there are any: a headline with their number and a line
for each. -/
def danglingLines (here : Path) (dangling : List Path) : List String :=
  if dangling = [] then []
  else
    Console.line console.errColor Console.red ("Detected " ++
      String.ofList (Text.decimal dangling.length) ++ " dangling " ++
      String.ofList pipeline.suffix ++ " file(s), that can be removed:") ::
    dangling.map fun artifact ↦ Console.line console.errColor Console.red
      ("- " ++ String.ofList (here.display pipeline.cwd artifact))

variable {pipeline console} (here : Path)

theorem render_reportOf (hloud : console.silent = false) (outcome : Outcome) :
    console.render (pipeline.reportOf here outcome) =
      ⟨(pipeline.wroteLine? console here outcome).getD "",
        (errorLine? console outcome).getD ""⟩ := by
  rw [reportOf, wroteLine?, errorLine?, Outcome.artifact, Outcome.error]
  cases outcome.result with
  | ok artifact =>
    rw [Console.render_wrote, hloud]
    rfl
  | error reason => rfl

/-- What the reports of outcomes write. -/
theorem renderAll_outcomes (hloud : console.silent = false) (outcomes : List Outcome) :
    console.renderAll (outcomes.map (pipeline.reportOf here)) =
      ⟨String.join (outcomes.filterMap (pipeline.wroteLine? console here)),
        String.join (outcomes.filterMap (errorLine? console))⟩ := by
  have hout : ∀ outcome, ((fun report ↦ (console.render report).out) ∘ pipeline.reportOf here) outcome =
      (pipeline.wroteLine? console here outcome).getD "" :=
    fun outcome ↦ congrArg Output.out (render_reportOf here hloud outcome)
  have herr : ∀ outcome, ((fun report ↦ (console.render report).err) ∘ pipeline.reportOf here) outcome =
      (errorLine? console outcome).getD "" :=
    fun outcome ↦ congrArg Output.err (render_reportOf here hloud outcome)
  rw [Console.renderAll_eq, List.map_map, List.map_map, Console.join_filterMap hout,
    Console.join_filterMap herr]

/-- What the reports of dangling artifacts write. -/
theorem renderAll_dangling (dangling : List Path) :
    console.renderAll (Dangling.reports here pipeline.cwd pipeline.suffix dangling) =
      ⟨"", String.join (pipeline.danglingLines console here dangling)⟩ := by
  rw [Dangling.reports, danglingLines]
  split
  · rfl
  · next hne =>
    let item (artifact : Path) : String := "- " ++ String.ofList (here.display pipeline.cwd artifact)
    have hitems : dangling.map (fun artifact ↦ Report.warning (item artifact)) =
        (dangling.map item).map Report.warning := (List.map_map ..).symm
    rw [hitems, ← List.map_cons, Console.renderAll_warnings, List.map_cons, List.map_map]
    rfl

variable (pipeline) in
/-- **The lines of a batch.** -/
theorem renderAll_reports (hloud : console.silent = false) (outcomes : List Outcome)
    (dangling : List Path) :
    console.renderAll (outcomes.map (pipeline.reportOf here) ++
        Dangling.reports here pipeline.cwd pipeline.suffix dangling) =
      ⟨String.join (outcomes.filterMap (pipeline.wroteLine? console here)),
        String.join (outcomes.filterMap (errorLine? console) ++
          pipeline.danglingLines console here dangling)⟩ := by
  rw [Console.renderAll_append, renderAll_outcomes here hloud, renderAll_dangling, String.join_append]
  exact congrArg (Output.mk · _) String.append_empty

/-! ### What a batch did -/

variable {space now after : Workspace} {outcomes : List Outcome} {sources : List Path}
  {done : List Path}

/-- **A source that was converted is declared** in the end. -/
theorem Settled.declared (h : pipeline.Independent space sources)
    (hnow : pipeline.Settled space done now) (hdone : done ⊆ sources) {source artifact : Path}
    (hsource : source ∈ done) {outcome : Outcome} (htells : pipeline.Tells space source outcome)
    (hartifact : outcome.artifact = some artifact) : pipeline.Declared now.tree outcome.source := by
  obtain ⟨n, hfree, rfl⟩ := htells
  obtain ⟨-, location, declaration, hverdict⟩ := told_artifact_eq_some.1 hartifact
  have hplain := h.isPlain (hdone hsource)
  have hfate : pipeline.fate space source = .ok (location, declaration) :=
    verdict_congr hfree (h.fresh.free _ (Nat.le_refl _)) hverdict
  have hfile : ∃ modified,
      now.tree.find? location = some (.file (Utf8.encode declaration) modified) := by
    rcases hnow.written location with
      ⟨other, hother, declaration', modified, hfate', hfind⟩ | ⟨hnone, -⟩
    · rw [h.declaration_unique (hdone hsource) (hdone hother) hfate hfate']
      exact ⟨modified, hfind⟩
    · exact absurd hfate (hnone source hsource declaration)
  obtain ⟨modified, hfile⟩ := hfile
  have hunwritten : now.tree.find? (pipeline.sourceOf space.here source).parts =
      space.tree.find? (pipeline.sourceOf space.here source).parts := by
    refine (hnow.wroteAt h hdone).find?_eq ?_
    rintro ⟨other, hother, hplace⟩
    exact h.apart other hother source (hdone hsource) hplace.symm
  exact declared_of_verdict h.ready.suffix.not_mem_slash hplain hverdict h.ready.tree hnow.ready.tree
    hunwritten hfile

/-- Every outcome tells one of the sources. -/
theorem exists_tells (h : List.Forall₂ (pipeline.Tells space) sources outcomes) {outcome : Outcome}
    (houtcome : outcome ∈ outcomes) : ∃ source ∈ sources, pipeline.Tells space source outcome := by
  induction h with
  | nil => cases houtcome
  | cons hfirst _ ih =>
    rcases List.mem_cons.1 houtcome with rfl | houtcome
    · exact ⟨_, List.mem_cons_self, hfirst⟩
    · obtain ⟨source, hsource, htells⟩ := ih houtcome
      exact ⟨source, List.mem_cons_of_mem _ hsource, htells⟩

variable (pipeline) in
/-- What a batch tells of a set of sources is what it did. -/
structure Faithful (before : Workspace) (sources : SourceSet) (exclude : List Text)
    (result : BatchResult) (after : Workspace) : Prop where
  /-- Each source has its outcome, in order. -/
  order : result.outcomes.map Outcome.source = sources.files
  /-- An outcome is what its source is told in the beginning. -/
  tells : List.Forall₂ (pipeline.Tells before) sources.files result.outcomes
  /-- A source that is told to be converted has its declaration. -/
  declared : ∀ outcome ∈ result.outcomes, ∀ artifact, outcome.artifact = some artifact →
    artifact = pipeline.artifactOf outcome.source ∧ pipeline.Declared after.tree outcome.source
  /-- Nothing else was written. -/
  elsewhere : ∀ l, l ∉ writtenBy result.outcomes → after.tree.find? l = before.tree.find? l
  sorted : result.dangling.Pairwise fun a b ↦ a.parts < b.parts
  /-- What is told to dangle was left over in the beginning. -/
  leftOver : ∀ a, a ∈ result.dangling ↔
    Dangling.LeftOver before.tree before.here sources pipeline.suffix exclude a
  reports : after.reports = before.reports ++ (result.outcomes.map (pipeline.reportOf before.here) ++
    Dangling.reports before.here pipeline.cwd pipeline.suffix result.dangling)

/-- **A batch tells what it did** if its conversions cannot meet. -/
theorem convertAll_faithful {sources : SourceSet} {paths ignored : List Text} {extension : Text}
    (h : pipeline.Independent space sources.files) (habsolute : space.here.isAbsolute = true)
    (hextension : '/' ∉ extension)
    (hresolve : SourceSet.resolve space.tree space.here pipeline.cwd paths extension ignored =
      .ok sources) (exclude : List Text) {limit : Option Int} (hlimit : ∀ n ∈ limit, 0 < n) :
    ∃ result after, pipeline.convertAll sources limit exclude space = (.ok result, after) ∧
      pipeline.Faithful space sources exclude result after := by
  have hslash := h.ready.suffix.not_mem_slash
  have hsource : ∀ s ∈ sources.files, pipeline.sourceOf space.here s = s := by
    intro s hs
    obtain ⟨hplain, habs⟩ := SourceSet.isPlain_of_resolve h.ready.here habsolute h.ready.cwd
      h.ready.tree hresolve hs
    exact sourceOf_of_isPlain hplain habs space.here
  -- the outcomes and the tree, once by the sources and once by what was written
  obtain ⟨outcomes, after, hrun, hprocessed⟩ := processAll_processed h.noLog h.ready.tree h.fresh
    fun s hs ↦ writesIn_parts hslash (h.isPlain hs) ⟨s, hs, rfl⟩
  obtain ⟨outcomes', after', hbatch, htells, hsettled⟩ :=
    (Settled.start h).runBatch h (List.nil_subset _) (List.Subset.refl sources.files) hlimit
  obtain ⟨houtcomes, rfl⟩ := Prod.mk.inj ((runBatch_eq hlimit hrun).symm.trans hbatch)
  obtain rfl := Except.ok.inj houtcomes
  rw [List.nil_append] at hsettled
  have hwrote : Tree.WroteAt {l | ∃ s ∈ sources.files, l = (s.artifact pipeline.suffix).parts}
      space.tree after.tree := by
    refine hprocessed.wrote.mono ?_
    rintro l ⟨⟨s, hs, hplace⟩, -⟩
    rw [hsource s hs] at hplace
    exact ⟨s, hs, hplace⟩
  obtain ⟨dangling, hfind, hnone, hsorted, hleft⟩ := SourceSet.exists_dangling h.ready.suffix
    h.ready.tree hprocessed.sound hwrote h.ready.here habsolute h.ready.cwd hextension hresolve exclude
  rw [← hprocessed.here] at hfind
  refine ⟨_, _, convertAll_eq hlimit hrun hfind hnone, ?_, htells, ?_, ?_, hsorted, hleft, ?_⟩
  · rw [hprocessed.sources]
    exact (List.map_congr_left hsource).trans (List.map_id _)
  · intro outcome houtcome artifact hartifact
    refine ⟨hprocessed.artifacts outcome houtcome artifact hartifact, ?_⟩
    obtain ⟨source, hs, htold⟩ := exists_tells htells houtcome
    exact hsettled.declared h (List.Subset.refl _) hs htold hartifact
  · exact fun l hl ↦ hprocessed.wrote.find?_eq fun hmem ↦ hl hmem.2
  · rw [hprocessed.reports, hprocessed.here, List.append_assoc]

end Pipeline

end CssTypings
