import CssTypings.Proofs.Pipeline.Scratch
import CssTypings.Proofs.Tree.Places

/-!
# Conversions one after the other

A conversion does to the tree what its verdict says (`Followed`): it writes one declaration or
nothing. So a run of conversions writes at the artifacts that its outcomes name and nowhere else,
and scratch paths at which nothing was before stay free throughout (`Fresh`), as long as none of
them is one of these artifacts.

What one conversion does without a log (`process_followed`) is part of what a run of them comes to
(`Processed`): every source has its outcome and its report, in order. `processAll_of_step` is the
induction from one to the other, for any statement about the sources that are done, what was told of
them, and the workspace.
-/

namespace CssTypings

/-- The tree after a verdict was carried out. -/
def Tree.Followed (before : Tree) : Except Failure (Location × Text) → Tree → Prop
  | .error _, after => ∀ l, after.find? l = before.find? l
  | .ok (location, declaration), after =>
    before.find? location ≠ some .directory ∧ ∃ modified, ∀ l, after.find? l =
      if l = location then some (.file (Utf8.encode declaration) modified) else before.find? l

namespace Pipeline

variable {pipeline : Pipeline} {space after : Workspace} {source : Path} {sources : List Path}
  {taken : Set Location}

/-- Where a verdict writes, if it does. -/
theorem wroteAt_of_followed {tree tree' : Tree} {verdict : Except Failure (Location × Text)}
    (h : tree.Followed verdict tree')
    (htaken : ∀ location declaration, verdict = .ok (location, declaration) → location ∈ taken) :
    Tree.WroteAt taken tree tree' := by
  cases verdict with
  | error failure => exact Tree.WroteAt.of_find?_eq h taken
  | ok found =>
    obtain ⟨location, declaration⟩ := found
    obtain ⟨hdir, modified, hfind⟩ := h
    intro l
    by_cases hl : l = location
    · refine Or.inr ⟨hl ▸ htaken location declaration rfl, hl ▸ hdir, Utf8.encode declaration,
        modified, ?_⟩
      rw [hfind, if_pos hl]
    · exact Or.inl (by rw [hfind, if_neg hl])

/-! ### Fresh scratch paths -/

variable (pipeline) in
/-- The scratch paths to come are free, and they are none of the given places. -/
structure Fresh (space : Workspace) (taken : Set Location) : Prop where
  free : ∀ n, space.scratch ≤ n → space.tree.IsFree (pipeline.store.scratchPath n)
  unused : ∀ n, space.scratch ≤ n → ∀ l,
    space.tree.target (pipeline.store.scratchPath n) = .ok l → l ∉ taken

theorem Fresh.mono {fewer : Set Location} (h : pipeline.Fresh space taken) (hsub : fewer ⊆ taken) :
    pipeline.Fresh space fewer :=
  ⟨h.free, fun n hn l hl hmem ↦ h.unused n hn l hl (hsub hmem)⟩

/-- Scratch paths stay free while files are written elsewhere. -/
theorem Fresh.of_wroteAt (h : pipeline.Fresh space taken)
    (hwrote : Tree.WroteAt taken space.tree after.tree) (hscratch : space.scratch ≤ after.scratch) :
    pipeline.Fresh after taken := by
  have hdirs := hwrote.sameDirectories
  constructor
  · intro n hn l e hwalk
    have hfree := h.free n (hscratch.trans hn)
    have hbefore := Tree.walk_mono (fun l ↦ (hdirs l).2) hwalk
    have hnone := hfree l _ hbefore
    have htarget : space.tree.target (pipeline.store.scratchPath n) = .ok l := by
      rw [hnone] at hbefore
      exact Tree.target_eq_ok.2 ⟨none, hbefore, by simp⟩
    have hunused := h.unused n (hscratch.trans hn) l htarget
    rw [Tree.find?_of_walk hwalk, hwrote.find?_eq hunused, hnone]
  · intro n hn l htarget
    exact h.unused n (hscratch.trans hn) l (hwrote.target_eq_ok_iff.1 htarget)

/-- Scratch paths in an empty directory are fresh. -/
theorem fresh_of_empty (hdirectory : pipeline.store.directory.IsPlain)
    (hlabel : '/' ∉ pipeline.store.label)
    (hempty : ∀ e ∈ space.tree.entries, pipeline.store.directory.parts <+: e.1 →
      e.1 = pipeline.store.directory.parts)
    (htaken : ∀ l ∈ taken, ¬ pipeline.store.directory.parts <+: l) :
    pipeline.Fresh space taken := by
  have hparts := Store.parts_scratchPath hlabel
  have hplain := Store.isPlain_scratchPath hdirectory hlabel
  constructor
  · intro n _ l e hwalk
    rw [Tree.find?_of_walk hwalk, Tree.eq_parts_of_walk (hplain n) hwalk, hparts]
    by_contra hsome
    obtain ⟨entry, hentry⟩ := Option.ne_none_iff_exists'.1 hsome
    have hmem := hempty _ (Tree.mem_of_find? (by simp) hentry) (List.prefix_append _ _)
    simp at hmem
  · intro n _ l htarget hl
    refine htaken l hl ?_
    rw [Tree.eq_parts_of_target (hplain n) htarget, hparts]
    exact List.prefix_append _ _

/-! ### One conversion -/

/-- The verdict for a source puts its declaration at its artifact. -/
theorem location_of_verdict {tree : Tree} {scratch : Path} {location : Location}
    {declaration : Text} (hslash : '/' ∉ pipeline.suffix) (hplain : source.IsPlain)
    (h : pipeline.verdict tree scratch source = .ok (location, declaration)) :
    location = (pipeline.artifactOf source).parts := by
  obtain ⟨css, hrender, -, htarget⟩ := verdict_eq_ok.1 h
  have hne := Compiler.parts_ne_nil_of_render hplain hrender
  exact Tree.eq_parts_of_target (Path.isPlain_artifact hslash hne hplain) htarget

/-- What a conversion does, before anything is told of it. -/
theorem convert_step (hsound : space.tree.Sound)
    (hfree : space.tree.IsFree (pipeline.store.scratchPath space.scratch)) (source : Path) :
    ∃ after, pipeline.convert source space =
        ((pipeline.verdict space.tree (pipeline.store.scratchPath space.scratch) source).map
          fun _ ↦ pipeline.artifactOf source, after) ∧
      space.tree.Followed
        (pipeline.verdict space.tree (pipeline.store.scratchPath space.scratch) source)
        after.tree ∧
      after.tree.Sound ∧ after.here = space.here ∧ after.reports = space.reports ∧
      space.scratch ≤ after.scratch := by
  cases hverdict :
    pipeline.verdict space.tree (pipeline.store.scratchPath space.scratch) source with
  | error failure =>
    obtain ⟨clock, scratch, hscratch, hconvert⟩ := convert_of_error hsound hfree hverdict
    exact ⟨_, hconvert, Tree.find?_clock space.tree clock, hsound.withClock clock, rfl, rfl,
      hscratch⟩
  | ok found =>
    obtain ⟨location, declaration⟩ := found
    obtain ⟨clock, hconvert⟩ := convert_of_ok hsound hfree hverdict
    obtain ⟨css, -, -, htarget⟩ := verdict_eq_ok.1 hverdict
    have htarget' : Tree.target { space.tree with clock } (source.artifact pipeline.suffix) =
        .ok location := by
      rw [Tree.target_congr (Tree.find?_clock space.tree clock), htarget]
    have hdir := Tree.find?_ne_of_target htarget'
    refine ⟨_, hconvert, ⟨?_, clock, ?_⟩, ?_, rfl, rfl, Nat.le_succ _⟩
    · exact Tree.find?_ne_of_target htarget
    · intro l
      show (Tree.changeFile.stamped { space.tree with clock } location _).find? l = _
      rw [Tree.find?_stamped (Tree.ne_nil_of_find? hdir), Tree.find?_clock]
    · exact (hsound.withClock clock).stamped_target (Path.isProper_ofText _) htarget' _

/-- **One conversion without a log.** The outcome is what the verdict says, and so is the tree. -/
theorem process_followed (hlog : pipeline.eventLog = none) (hsound : space.tree.Sound)
    (hfree : space.tree.IsFree (pipeline.store.scratchPath space.scratch)) (source : Path) :
    ∃ outcome after, pipeline.process source space = (.ok outcome, after) ∧
      outcome = pipeline.told space.tree (pipeline.store.scratchPath space.scratch)
        (pipeline.sourceOf space.here source) ∧
      space.tree.Followed (pipeline.verdict space.tree
        (pipeline.store.scratchPath space.scratch) (pipeline.sourceOf space.here source))
        after.tree ∧
      after.tree.Sound ∧ after.here = space.here ∧
      after.reports = space.reports ++ [pipeline.reportOf space.here outcome] ∧
      space.scratch ≤ after.scratch := by
  obtain ⟨after, hconvert, hfollowed, hsound', hhere, hreports, hscratch⟩ :=
    convert_step hsound hfree (pipeline.sourceOf space.here source)
  rw [process_eq hlog]
  simp only [hconvert]
  refine ⟨_, _, rfl, rfl, hfollowed, hsound', hhere, ?_, hscratch⟩
  rw [Workspace.report, hreports, hhere]

/-- **One step of a batch.** -/
theorem process_step (ready : pipeline.Ready space) (hlog : pipeline.eventLog = none)
    (hfree : space.tree.IsFree (pipeline.store.scratchPath space.scratch)) (source : Path) :
    ∃ after, pipeline.process source space =
        (.ok (pipeline.told space.tree (pipeline.store.scratchPath space.scratch)
          (pipeline.sourceOf space.here source)), after) ∧
      space.tree.Followed (pipeline.verdict space.tree
        (pipeline.store.scratchPath space.scratch) (pipeline.sourceOf space.here source))
        after.tree ∧
      pipeline.Ready after ∧ after.here = space.here ∧ space.scratch ≤ after.scratch := by
  obtain ⟨outcome, after, hprocess, rfl, hfollowed, hsound, hhere, -, hscratch⟩ :=
    process_followed hlog ready.tree hfree source
  refine ⟨after, hprocess, hfollowed, ⟨ready.suffix, ready.cwd, ?_, hsound⟩, hhere, hscratch⟩
  rw [hhere]
  exact ready.here

/-! ### Batches -/

theorem processAll_cons {rest : List Path} {outcome : Outcome} {outcomes : List Outcome}
    {middle : Workspace} (h : pipeline.process source space = (.ok outcome, middle))
    (h' : pipeline.processAll rest middle = (.ok outcomes, after)) :
    pipeline.processAll (source :: rest) space = (.ok (outcome :: outcomes), after) := by
  rw [processAll, h]
  simp only [h']
  rfl

theorem processAll_cons_eq_ok {rest : List Path} {outcomes : List Outcome} :
    pipeline.processAll (source :: rest) space = (.ok outcomes, after) ↔
      ∃ outcome others middle, outcomes = outcome :: others ∧
        pipeline.process source space = (.ok outcome, middle) ∧
        pipeline.processAll rest middle = (.ok others, after) := by
  constructor
  · intro h
    rw [processAll] at h
    cases hprocess : pipeline.process source space with
    | mk result middle =>
      cases hrest : pipeline.processAll rest middle with
      | mk results last =>
        simp only [hprocess, hrest] at h
        obtain ⟨hresult, rfl⟩ := Prod.mk.inj h
        obtain ⟨outcome, rfl, hothers⟩ := exists_of_bind_eq_ok hresult
        obtain ⟨others, rfl, rfl⟩ := exists_of_map_eq_ok hothers
        exact ⟨outcome, others, middle, rfl, rfl, hrest⟩
  · rintro ⟨outcome, others, middle, rfl, hprocess, hrest⟩
    exact processAll_cons hprocess hrest

/-- **What every step preserves, a batch preserves.** -/
theorem processAll_of_step {P : List Path → List Outcome → Workspace → Prop}
    (hstep : ∀ source ∈ sources, ∀ done outcomes space, P done outcomes space →
      ∃ outcome after, pipeline.process source space = (.ok outcome, after) ∧
        P (done ++ [source]) (outcomes ++ [outcome]) after)
    (done : List Path) (outcomes : List Outcome) (h : P done outcomes space) :
    ∃ more after, pipeline.processAll sources space = (.ok more, after) ∧
      P (done ++ sources) (outcomes ++ more) after := by
  induction sources generalizing done outcomes space with
  | nil => exact ⟨[], space, rfl, by simpa using h⟩
  | cons source rest ih =>
    obtain ⟨hfirst, hrest⟩ := List.forall_mem_cons.1 hstep
    obtain ⟨outcome, middle, hprocess, hmiddle⟩ := hfirst done outcomes space h
    obtain ⟨more, after, hprocessAll, hafter⟩ := ih hrest _ _ hmiddle
    exact ⟨outcome :: more, after, processAll_cons hprocess hprocessAll, by simpa using hafter⟩

variable (pipeline) in
/-- Without a log a batch never breaks off, and every source has an outcome. -/
theorem exists_processAll (hlog : pipeline.eventLog = none) (sources : List Path)
    (space : Workspace) :
    ∃ outcomes after, pipeline.processAll sources space = (.ok outcomes, after) ∧
      outcomes.length = sources.length := by
  have hstep : ∀ source ∈ sources, ∀ (done : List Path) (outcomes : List Outcome) (space : Workspace),
      outcomes.length = done.length →
      ∃ outcome after, pipeline.process source space = (.ok outcome, after) ∧
        (outcomes ++ [outcome]).length = (done ++ [source]).length := by
    intro source _ done outcomes space h
    rw [process_eq hlog]
    exact ⟨_, _, rfl, by simp [h]⟩
  exact processAll_of_step (P := fun done outcomes _ ↦ outcomes.length = done.length) hstep [] []
    (by rfl)

/-- The places of the artifacts that the outcomes name. -/
def writtenBy (outcomes : List Outcome) : Set Location :=
  {l | ∃ outcome ∈ outcomes, ∃ artifact, outcome.artifact = some artifact ∧ l = artifact.place}

variable (pipeline) in
/-- What a run of conversions comes to if nothing is logged. -/
structure Processed (taken : Set Location) (before : Workspace) (done : List Path)
    (outcomes : List Outcome) (after : Workspace) : Prop where
  sound : after.tree.Sound
  here : after.here = before.here
  scratch : before.scratch ≤ after.scratch
  /-- Every source has its outcome. -/
  sources : outcomes.map Outcome.source = done.map (pipeline.sourceOf before.here)
  /-- An artifact that is named is that of the source. -/
  artifacts : ∀ outcome ∈ outcomes, ∀ artifact, outcome.artifact = some artifact →
    artifact = pipeline.artifactOf outcome.source
  /-- Every outcome has its report. -/
  reports : after.reports = before.reports ++ outcomes.map (pipeline.reportOf before.here)
  /-- Nothing was written but the artifacts that are named. -/
  wrote : Tree.WroteAt (taken ∩ writtenBy outcomes) before.tree after.tree

namespace Processed

variable {done more : List Path} {outcomes outcomes' : List Outcome} {middle : Workspace}

theorem refl (hsound : space.tree.Sound) : pipeline.Processed taken space [] [] space where
  sound := hsound
  here := rfl
  scratch := Nat.le_refl _
  sources := rfl
  artifacts := by simp
  reports := (List.append_nil _).symm
  wrote := Tree.WroteAt.refl _ _

theorem fresh (h : pipeline.Processed taken space done outcomes after)
    (hfresh : pipeline.Fresh space taken) : pipeline.Fresh after taken :=
  hfresh.of_wroteAt (h.wrote.mono Set.inter_subset_left) h.scratch

/-- One run after the other is a run. -/
theorem trans (h : pipeline.Processed taken space done outcomes middle)
    (h' : pipeline.Processed taken middle more outcomes' after) :
    pipeline.Processed taken space (done ++ more) (outcomes ++ outcomes') after where
  sound := h'.sound
  here := h'.here.trans h.here
  scratch := h.scratch.trans h'.scratch
  sources := by rw [List.map_append, List.map_append, h.sources, h'.sources, h.here]
  artifacts := List.forall_mem_append.2 ⟨h.artifacts, h'.artifacts⟩
  reports := by rw [h'.reports, h.reports, h.here, List.append_assoc, List.map_append]
  wrote := by
    refine (h.wrote.mono ?_).trans (h'.wrote.mono ?_)
    · rintro l ⟨hl, outcome, houtcome, hartifact⟩
      exact ⟨hl, outcome, List.mem_append_left _ houtcome, hartifact⟩
    · rintro l ⟨hl, outcome, houtcome, hartifact⟩
      exact ⟨hl, outcome, List.mem_append_right _ houtcome, hartifact⟩

end Processed

variable (pipeline) in
/-- Whatever a verdict says of the source in any tree, it writes nowhere else. -/
def WritesIn (taken : Set Location) (source : Path) : Prop :=
  ∀ (tree : Tree) (scratch : Path) (location : Location) (declaration : Text),
    pipeline.verdict tree scratch source = .ok (location, declaration) → location ∈ taken

/-- A source is written to the place of its artifact. -/
theorem writesIn_place (h : (pipeline.artifactOf source).place ∈ taken) :
    pipeline.WritesIn taken source := by
  intro tree scratch location declaration hverdict
  obtain ⟨css, -, -, htarget⟩ := verdict_eq_ok.1 hverdict
  rwa [Tree.eq_place_of_target htarget]

/-- A plain source is written to its artifact. -/
theorem writesIn_parts (hslash : '/' ∉ pipeline.suffix) (hplain : source.IsPlain)
    (h : (pipeline.artifactOf source).parts ∈ taken) : pipeline.WritesIn taken source := by
  intro tree scratch location declaration hverdict
  rwa [location_of_verdict hslash hplain hverdict]

section Processed

variable (hlog : pipeline.eventLog = none) (hsound : space.tree.Sound)
  (hfresh : pipeline.Fresh space taken)
include hlog hsound hfresh

theorem process_processed (hsource : pipeline.WritesIn taken (pipeline.sourceOf space.here source)) :
    ∃ outcome after, pipeline.process source space = (.ok outcome, after) ∧
      pipeline.Processed taken space [source] [outcome] after := by
  obtain ⟨outcome, after, hprocess, houtcome, hfollowed, hsound', hhere, hreports, hscratch⟩ :=
    process_followed hlog hsound (hfresh.free _ (Nat.le_refl _)) source
  have hartifact : ∀ artifact, outcome.artifact = some artifact →
      artifact = pipeline.artifactOf outcome.source := by
    intro artifact hartifact
    rw [houtcome] at hartifact ⊢
    exact (told_artifact_eq_some.1 hartifact).1
  refine ⟨outcome, after, hprocess, hsound', hhere, hscratch, ?_, ?_, hreports, ?_⟩
  · rw [houtcome]
    rfl
  · exact List.forall_mem_singleton.2 hartifact
  · refine wroteAt_of_followed hfollowed fun location declaration hverdict ↦ ?_
    refine ⟨hsource _ _ _ _ hverdict, outcome, List.mem_singleton_self _,
      pipeline.artifactOf (pipeline.sourceOf space.here source), ?_, ?_⟩
    · rw [houtcome]
      exact told_artifact_eq_some.2 ⟨rfl, location, declaration, hverdict⟩
    · obtain ⟨css, -, -, htarget⟩ := verdict_eq_ok.1 hverdict
      exact Tree.eq_place_of_target htarget

/-- **A run of conversions** gives every source its outcome and writes nothing but artifacts. -/
theorem processAll_processed
    (hsources : ∀ source ∈ sources, pipeline.WritesIn taken (pipeline.sourceOf space.here source)) :
    ∃ outcomes after, pipeline.processAll sources space = (.ok outcomes, after) ∧
      pipeline.Processed taken space sources outcomes after := by
  have hstep : ∀ source ∈ sources, ∀ done outcomes now,
      pipeline.Processed taken space done outcomes now →
      ∃ outcome after, pipeline.process source now = (.ok outcome, after) ∧
        pipeline.Processed taken space (done ++ [source]) (outcomes ++ [outcome]) after := by
    intro source hsource done outcomes now hnow
    have hwrites := hsources source hsource
    rw [← hnow.here] at hwrites
    obtain ⟨outcome, after, hprocess, hafter⟩ :=
      process_processed hlog hnow.sound (hnow.fresh hfresh) hwrites
    exact ⟨outcome, after, hprocess, hnow.trans hafter⟩
  exact processAll_of_step hstep [] [] (Processed.refl hsound)

end Processed

/-- **A batch only writes artifacts.** -/
theorem processAll_frame (ready : pipeline.Ready space) (hlog : pipeline.eventLog = none)
    (hproper : ∀ source ∈ sources, source.IsProper) (hfresh : pipeline.Fresh space taken)
    (htaken : ∀ source ∈ sources,
      (pipeline.artifactOf (pipeline.sourceOf space.here source)).parts ∈ taken) :
    ∃ outcomes after, pipeline.processAll sources space = (.ok outcomes, after) ∧
      pipeline.Ready after ∧ after.here = space.here ∧
      Tree.WroteAt taken space.tree after.tree := by
  have hwrites : ∀ source ∈ sources,
      pipeline.WritesIn taken (pipeline.sourceOf space.here source) := fun source hsource ↦
    writesIn_parts ready.suffix.not_mem_slash (ready.isPlain (hproper source hsource))
      (htaken source hsource)
  obtain ⟨outcomes, after, hprocessAll, h⟩ := processAll_processed hlog ready.tree hfresh hwrites
  refine ⟨outcomes, after, hprocessAll, ⟨ready.suffix, ready.cwd, ?_, h.sound⟩, h.here,
    h.wrote.mono Set.inter_subset_left⟩
  rw [h.here]
  exact ready.here

/-- A limit that is not negative does not matter. -/
theorem runBatch_of_limit {limit : Option Int} (hlimit : ∀ n ∈ limit, 0 < n) (sources : List Path)
    (space : Workspace) :
    pipeline.runBatch sources limit space =
      ((pipeline.processAll sources space).1.mapError .access,
        (pipeline.processAll sources space).2) := by
  have hany : limit.any (· < 0) = false := by
    cases limit with
    | none => rfl
    | some n => exact decide_eq_false (Int.not_lt.2 (Int.le_of_lt (hlimit n rfl)))
  rw [runBatch, hany]
  rfl

/-- A batch without a negative limit is its conversions one after the other. -/
theorem runBatch_eq {limit : Option Int} (hlimit : ∀ n ∈ limit, 0 < n) {outcomes : List Outcome}
    (h : pipeline.processAll sources space = (.ok outcomes, after)) :
    pipeline.runBatch sources limit space = (.ok outcomes, after) := by
  rw [runBatch_of_limit hlimit, h]
  rfl

end Pipeline

end CssTypings
