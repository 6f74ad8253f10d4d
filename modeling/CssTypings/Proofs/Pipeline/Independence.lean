import CssTypings.Proofs.Pipeline.Batch
import CssTypings.Proofs.Tree.Contents
import Mathlib.Data.List.Forall2

/-!
# Conversions do not meet

In a batch whose artifacts are none of its sources, no conversion can tell which others were run
before it: each is told what it would be told alone, and in the end the tree is the same in whatever
order the sources are given. Running the batch once more changes nothing (`runBatch_independent`).

The reason is that a verdict depends on the source, which is never written to, on directories, which
stay as they are, and on whether scratch files can be made at all (`verdict_agree`). So throughout a
batch the tree is determined by the sources that are done (`Settled`): where one of them put its
declaration it is found, and everything else is as in the beginning.

Sources and artifacts are compared as places in the tree, since two leading slashes lead to the same
root as one.
-/

namespace CssTypings

/-- What a stylesheet is compiled to depends on the place and the contents of its file, and not on
how its path is written. -/
def Compiler.ReadsPlaces (compiler : Compiler) : Prop :=
  ∀ (p q : Path) (bytes : Bytes) (css : Text), p.parts = q.parts →
    compiler.compile p bytes = .ok css → compiler.compile q bytes = .ok css

namespace Tree

variable {tree tree' : Tree} {p : Path}

/-- The directory of a path is there. -/
def HasDirectoryOf (tree : Tree) (p : Path) : Prop :=
  p.parts ≠ [] ∧ ∃ l, tree.follow [] p.parts.dropLast = .ok (l, some .directory)

theorem HasDirectoryOf.of_sameDirectories (h : tree.HasDirectoryOf p)
    (hdirs : SameDirectories tree tree') : tree'.HasDirectoryOf p := by
  obtain ⟨hne, l, hfollow⟩ := h
  refine ⟨hne, l, ?_⟩
  rw [follow_mono (fun l ↦ (hdirs l).1) hfollow, (hdirs l).1 (find?_of_follow hfollow).symm]

/-- **The target of an artifact stays** while the directory of the source does, since that is where
the artifact is. -/
theorem HasDirectoryOf.target_artifact (h : tree.HasDirectoryOf p)
    (hdirs : SameDirectories tree tree') {suffix : Text} (hslash : '/' ∉ suffix)
    (hplain : p.IsPlain) : tree'.target (p.artifact suffix) = tree.target (p.artifact suffix) := by
  obtain ⟨hne, l, hfollow⟩ := h
  have hparts : (p.artifact suffix).parts = p.parts.dropLast ++ [p.name ++ suffix] := by
    rw [Path.artifact_eq hslash hne hplain]
  exact target_agree hdirs (hplain.isName_append hslash hne).ne_up hparts hfollow

end Tree

/-- What is compiled is in a directory. -/
theorem Compiler.hasDirectoryOf_of_render {compiler : Compiler} {tree : Tree} {source : Path}
    {css : Text} (hplain : source.IsPlain) (h : compiler.render tree source = .ok css) :
    tree.HasDirectoryOf source := by
  have hne := parts_ne_nil_of_render hplain h
  obtain ⟨bytes, modified, hfile, -⟩ := render_eq_ok.1 h
  obtain ⟨location, hwalk⟩ := Tree.exists_walk_of_look hfile
  have hfollow := (Tree.walk_eq_ok.1 hwalk).2.2
  rw [← Path.dropLast_concat_name hne] at hfollow
  exact ⟨hne, Tree.exists_directory_of_follow (hplain _ (Path.name_mem hne)).ne_up hfollow⟩

namespace Pipeline

variable {pipeline : Pipeline} {space : Workspace} {sources : List Path}

variable (pipeline) in
/-- A batch whose conversions cannot meet. -/
structure Independent (space : Workspace) (sources : List Path) : Prop where
  ready : pipeline.Ready space
  noLog : pipeline.eventLog = none
  proper : ∀ source ∈ sources, source.IsProper
  /-- No artifact is a source. -/
  apart : ∀ source ∈ sources, ∀ other ∈ sources,
    (pipeline.artifactOf (pipeline.sourceOf space.here source)).parts ≠
      (pipeline.sourceOf space.here other).parts
  /-- Scratch names are not in use. -/
  fresh : pipeline.Fresh space
    {l | ∃ source ∈ sources, l = (pipeline.artifactOf (pipeline.sourceOf space.here source)).parts}
  readsPlaces : pipeline.compiler.ReadsPlaces

/-! ### What a verdict depends on -/

/-- **A verdict stays the same** while directories and the source do, as long as scratch files can
be made or not as before. -/
theorem verdict_agree {tree tree' : Tree} {scratch source : Path}
    (hdirs : Tree.SameDirectories tree tree')
    (hrender : pipeline.compiler.render tree' source = pipeline.compiler.render tree source)
    (hscratch : tree'.target scratch = tree.target scratch)
    (hslash : '/' ∉ pipeline.suffix) (hplain : source.IsPlain) :
    pipeline.verdict tree' scratch source = pipeline.verdict tree scratch source := by
  have hdrafted : ∀ css, drafted tree' scratch css = drafted tree scratch css := by
    intro css
    rw [drafted, drafted, hscratch]
  rw [verdict_eq, verdict_eq, hrender]
  cases hcss : pipeline.compiler.render tree source with
  | error failure => rfl
  | ok css =>
    have hartifact :=
      (Compiler.hasDirectoryOf_of_render hplain hcss).target_artifact hdirs hslash hplain
    simp only [hdrafted, hartifact]

section Settled

variable (pipeline space)

/-- What comes of a source in the beginning. -/
def fate (source : Path) : Except Failure (Location × Text) :=
  pipeline.verdict space.tree (pipeline.store.scratchPath space.scratch)
    (pipeline.sourceOf space.here source)

/-- What is told of a source in the beginning. -/
def alone (source : Path) : Outcome :=
  pipeline.told space.tree (pipeline.store.scratchPath space.scratch)
    (pipeline.sourceOf space.here source)

/-- The outcome is what is told of the source in the beginning, for some scratch number. -/
def Tells (source : Path) (outcome : Outcome) : Prop :=
  ∃ n, space.tree.IsFree (pipeline.store.scratchPath n) ∧
    outcome = pipeline.told space.tree (pipeline.store.scratchPath n)
      (pipeline.sourceOf space.here source)

/-- A declaration is where a source that is done put it, and everything else is as it was. -/
def Written (done : List Path) (tree : Tree) : Prop :=
  ∀ l,
    (∃ source ∈ done, ∃ declaration modified,
      pipeline.fate space source = .ok (l, declaration) ∧
        tree.find? l = some (.file (Utf8.encode declaration) modified)) ∨
    (∀ source ∈ done, ∀ declaration, pipeline.fate space source ≠ .ok (l, declaration)) ∧
      tree.find? l = space.tree.find? l

/-- The workspace when some of the sources are done. -/
structure Settled (done : List Path) (now : Workspace) : Prop where
  ready : pipeline.Ready now
  here : now.here = space.here
  scratch : space.scratch ≤ now.scratch
  written : pipeline.Written space done now.tree

end Settled

variable {done done' : List Path} {now now' : Workspace}

theorem Tells.alike {source : Path} {outcome outcome' : Outcome}
    (h : pipeline.Tells space source outcome) (h' : pipeline.Tells space source outcome') :
    outcome.Alike outcome' := by
  obtain ⟨m, hm, rfl⟩ := h
  obtain ⟨n, hn, rfl⟩ := h'
  exact told_alike hm hn _

/-- Outcomes that tell the same list are alike, one by one. -/
theorem forall₂_alike {order : List Path} {outcomes outcomes' : List Outcome}
    (h : List.Forall₂ (pipeline.Tells space) order outcomes)
    (h' : List.Forall₂ (pipeline.Tells space) order outcomes') :
    List.Forall₂ Outcome.Alike outcomes outcomes' := by
  obtain ⟨hlength, hall⟩ := List.forall₂_iff_get.1 h
  obtain ⟨hlength', hall'⟩ := List.forall₂_iff_get.1 h'
  refine List.forall₂_iff_get.2 ⟨hlength.symm.trans hlength', fun i hi hi' ↦ ?_⟩
  exact (hall i (hlength ▸ hi) hi).alike (hall' i (hlength ▸ hi) hi')

theorem Independent.isPlain (h : pipeline.Independent space sources) {source : Path}
    (hsource : source ∈ sources) : (pipeline.sourceOf space.here source).IsPlain :=
  h.ready.isPlain (h.proper source hsource)

theorem Independent.location_eq (h : pipeline.Independent space sources) {source : Path}
    (hsource : source ∈ sources) {l : Location} {declaration : Text}
    (hfate : pipeline.fate space source = .ok (l, declaration)) :
    l = (pipeline.artifactOf (pipeline.sourceOf space.here source)).parts :=
  location_of_verdict h.ready.suffix.not_mem_slash (h.isPlain hsource) hfate

/-- Sources that put a declaration at one place put the same one there. -/
theorem Independent.declaration_unique (h : pipeline.Independent space sources)
    {source other : Path} (hsource : source ∈ sources) (hother : other ∈ sources) {l : Location}
    {declaration declaration' : Text} (hfate : pipeline.fate space source = .ok (l, declaration))
    (hfate' : pipeline.fate space other = .ok (l, declaration')) : declaration = declaration' := by
  have hl := h.location_eq hsource hfate
  have hl' := h.location_eq hother hfate'
  have hplain := h.isPlain hsource
  have hplain' := h.isPlain hother
  obtain ⟨css, hrender, hdrafted, -⟩ := verdict_eq_ok.1 hfate
  obtain ⟨css', hrender', hdrafted', -⟩ := verdict_eq_ok.1 hfate'
  have hne := Compiler.parts_ne_nil_of_render hplain hrender
  have hne' := Compiler.parts_ne_nil_of_render hplain' hrender'
  have hparts := Path.parts_eq_of_artifact h.ready.suffix.not_mem_slash hne hplain hne' hplain'
    (hl ▸ hl')
  obtain ⟨bytes, modified, hfind, hcompile⟩ := Compiler.find?_of_render hplain hrender
  obtain ⟨bytes', modified', hfind', hcompile'⟩ := Compiler.find?_of_render hplain' hrender'
  rw [hparts, hfind'] at hfind
  cases hfind
  have hcss := h.readsPlaces _ _ _ _ hparts hcompile
  rw [hcompile'] at hcss
  cases hcss
  rw [hdrafted] at hdrafted'
  exact Except.ok.inj hdrafted'

/-- The tree after one more source. -/
theorem Written.step {tree tree' : Tree} {source : Path}
    {verdict : Except Failure (Location × Text)} (hwritten : pipeline.Written space done tree)
    (hfollowed : tree.Followed verdict tree')
    (hverdict : ∀ {found}, pipeline.fate space source = .ok found ↔ verdict = .ok found) :
    pipeline.Written space (done ++ [source]) tree' := by
  intro l
  have hmem {s : Path} (hs : s ∈ done ++ [source]) : s ∈ done ∨ s = source := by simpa using hs
  -- what the last source did not touch is as before
  have hother (hfind : tree'.find? l = tree.find? l)
      (hlast : ∀ declaration, pipeline.fate space source ≠ .ok (l, declaration)) :
      (∃ s ∈ done ++ [source], ∃ declaration modified,
        pipeline.fate space s = .ok (l, declaration) ∧
          tree'.find? l = some (.file (Utf8.encode declaration) modified)) ∨
      (∀ s ∈ done ++ [source], ∀ declaration, pipeline.fate space s ≠ .ok (l, declaration)) ∧
        tree'.find? l = space.tree.find? l := by
    rw [hfind]
    rcases hwritten l with ⟨s, hs, declaration, modified, hfate, hfile⟩ | ⟨hnone, hsame⟩
    · exact Or.inl ⟨s, List.mem_append_left _ hs, declaration, modified, hfate, hfile⟩
    · refine Or.inr ⟨fun s hs ↦ ?_, hsame⟩
      rcases hmem hs with hs | rfl
      · exact hnone s hs
      · exact hlast
  cases verdict with
  | error failure =>
    exact hother (hfollowed l) fun declaration hfate ↦ by cases hverdict.1 hfate
  | ok found =>
    obtain ⟨location, declaration⟩ := found
    obtain ⟨-, modified, hfind⟩ := hfollowed
    have hfate : pipeline.fate space source = .ok (location, declaration) := hverdict.2 rfl
    by_cases hl : l = location
    · subst hl
      refine Or.inl ⟨source, by simp, declaration, modified, hfate, ?_⟩
      rw [hfind, if_pos rfl]
    · refine hother (by rw [hfind, if_neg hl]) fun declaration' hfate' ↦ hl ?_
      rw [hfate] at hfate'
      exact (Prod.mk.inj (Except.ok.inj hfate')).1.symm

/-- Nothing was written but the declarations. -/
theorem Written.wroteAt {tree : Tree} (h : pipeline.Written space done tree) :
    Tree.WroteAt {l | ∃ source ∈ done, ∃ declaration,
      pipeline.fate space source = .ok (l, declaration)} space.tree tree := by
  intro l
  rcases h l with ⟨source, hsource, declaration, modified, hfate, hfind⟩ | ⟨-, hfind⟩
  · obtain ⟨css, -, -, htarget⟩ := verdict_eq_ok.1 hfate
    exact Or.inr ⟨⟨source, hsource, declaration, hfate⟩, Tree.find?_ne_of_target htarget, _,
      modified, hfind⟩
  · exact Or.inl hfind

/-- Scratch files can be made or not as in the beginning. -/
theorem Written.target_scratch {tree : Tree} (h : pipeline.Written space done tree)
    (hfree : space.tree.IsFree (pipeline.store.scratchPath space.scratch)) {n : Nat}
    (hfree' : space.tree.IsFree (pipeline.store.scratchPath n)) :
    tree.target (pipeline.store.scratchPath n) =
      space.tree.target (pipeline.store.scratchPath n) := by
  obtain ⟨result, htarget⟩ := pipeline.store.exists_target_scratchPath space.tree
  by_cases hany : ∃ source ∈ done, ∃ l declaration,
      pipeline.fate space source = .ok (l, declaration)
  · -- a declaration was written, so scratch files can be made
    obtain ⟨source, -, l, declaration, hfate⟩ := hany
    obtain ⟨css, -, hdrafted, -⟩ := verdict_eq_ok.1 hfate
    obtain ⟨⟨l₀, hl₀⟩, -⟩ := drafted_eq_ok.1 hdrafted
    have hresult := htarget _ hfree
    have hresult' := htarget _ hfree'
    rw [hl₀] at hresult
    cases result with
    | error what => cases hresult
    | ok _ =>
      cases hnumber : space.tree.target (pipeline.store.scratchPath n) with
      | error fault =>
        rw [hnumber] at hresult'
        cases hresult'
      | ok l' => exact h.wroteAt.target_eq_ok_iff.2 hnumber
  · -- nothing was written at all
    refine Tree.target_congr ?_ _
    intro l
    rcases h l with ⟨source, hsource, declaration, modified, hfate, -⟩ | ⟨-, hfind⟩
    · exact absurd ⟨source, hsource, l, declaration, hfate⟩ hany
    · exact hfind

/-! ### One conversion among others -/

namespace Settled

theorem start (h : pipeline.Independent space sources) : pipeline.Settled space [] space :=
  ⟨h.ready, rfl, Nat.le_refl _, fun _ ↦ Or.inr ⟨by simp, rfl⟩⟩

theorem wroteAt (h : pipeline.Independent space sources) (hnow : pipeline.Settled space done now)
    (hdone : done ⊆ sources) :
    Tree.WroteAt {l | ∃ source ∈ sources,
      l = (pipeline.artifactOf (pipeline.sourceOf space.here source)).parts}
      space.tree now.tree := by
  refine hnow.written.wroteAt.mono ?_
  rintro l ⟨source, hsource, declaration, hfate⟩
  exact ⟨source, hdone hsource, h.location_eq (hdone hsource) hfate⟩

/-- **No conversion can tell what is done already.** -/
theorem verdict_eq (h : pipeline.Independent space sources)
    (hnow : pipeline.Settled space done now) (hdone : done ⊆ sources) {source : Path}
    (hsource : source ∈ sources) :
    pipeline.verdict now.tree (pipeline.store.scratchPath now.scratch)
        (pipeline.sourceOf space.here source) =
      pipeline.verdict space.tree (pipeline.store.scratchPath now.scratch)
        (pipeline.sourceOf space.here source) := by
  have hwrote := hnow.wroteAt h hdone
  have hlook : now.tree.look (pipeline.sourceOf space.here source) =
      space.tree.look (pipeline.sourceOf space.here source) := by
    refine hwrote.look_eq fun l e hwalk ↦ ?_
    rintro ⟨other, hother, hl⟩
    exact h.apart other hother source hsource
      (hl.symm.trans (Tree.eq_parts_of_walk (h.isPlain hsource) hwalk))
  have hscratch := hnow.written.target_scratch (h.fresh.free _ (Nat.le_refl _))
    (h.fresh.free _ hnow.scratch)
  refine verdict_agree hwrote.sameDirectories ?_ hscratch
    h.ready.suffix.not_mem_slash (h.isPlain hsource)
  rw [Compiler.render, Compiler.render, hlook]

theorem step (h : pipeline.Independent space sources) (hnow : pipeline.Settled space done now)
    (hdone : done ⊆ sources) {source : Path} (hsource : source ∈ sources) :
    ∃ outcome after, pipeline.process source now = (.ok outcome, after) ∧
      pipeline.Tells space source outcome ∧
      pipeline.Settled space (done ++ [source]) after := by
  have hfree := h.fresh.free _ (Nat.le_refl _)
  have hfree' := h.fresh.free _ hnow.scratch
  have hfresh := h.fresh.of_wroteAt (hnow.wroteAt h hdone) hnow.scratch
  obtain ⟨after, hprocess, hfollowed, hready, hhere, hscratch⟩ :=
    process_step hnow.ready h.noLog (hfresh.free _ (Nat.le_refl _)) source
  rw [hnow.here] at hprocess hfollowed
  have hverdict := hnow.verdict_eq h hdone hsource
  refine ⟨_, after, hprocess, ?_, hready, hhere.trans hnow.here, hnow.scratch.trans hscratch, ?_⟩
  · rw [told, hverdict]
    exact ⟨now.scratch, hfree', rfl⟩
  · rw [hverdict] at hfollowed
    exact hnow.written.step hfollowed ⟨verdict_congr hfree hfree', verdict_congr hfree' hfree⟩

/-- The places of the declarations determine the contents of the tree. -/
theorem sameContents (h : pipeline.Independent space sources)
    (hnow : pipeline.Settled space done now) (hnow' : pipeline.Settled space done' now')
    (hdone : done ⊆ sources) (hsame : ∀ source, source ∈ done ↔ source ∈ done') :
    now.tree.SameContents now'.tree := by
  have hdone' : done' ⊆ sources := fun source hsource ↦ hdone ((hsame source).2 hsource)
  intro l
  rcases hnow.written l with ⟨source, hsource, declaration, modified, hfate, hfind⟩ | ⟨hnone, hfind⟩ <;>
    rcases hnow'.written l with
      ⟨other, hother, declaration', modified', hfate', hfind'⟩ | ⟨hnone', hfind'⟩
  · have heq := h.declaration_unique (hdone hsource) (hdone' hother) hfate hfate'
    rw [hfind, hfind', heq]
    rfl
  · exact absurd hfate (hnone' source ((hsame source).1 hsource) declaration)
  · exact absurd hfate' (hnone other ((hsame other).2 hother) declaration')
  · rw [hfind, hfind']

end Settled

/-! ### Batches -/

/-- A batch that goes on from where some sources are done. -/
theorem Settled.runBatch (h : pipeline.Independent space sources)
    (hnow : pipeline.Settled space done now) (hdone : done ⊆ sources) {order : List Path}
    (horder : order ⊆ sources) {limit : Option Int} (hlimit : ∀ n ∈ limit, 0 < n) :
    ∃ outcomes after, pipeline.runBatch order limit now = (.ok outcomes, after) ∧
      List.Forall₂ (pipeline.Tells space) order outcomes ∧
      pipeline.Settled space (done ++ order) after := by
  have hstep : ∀ source ∈ order, ∀ finished outcomes middle,
      (finished ⊆ sources ∧
        List.Forall₂ (pipeline.Tells space) finished outcomes ∧
        pipeline.Settled space (done ++ finished) middle) →
      ∃ outcome after, pipeline.process source middle = (.ok outcome, after) ∧
        (finished ++ [source] ⊆ sources ∧
          List.Forall₂ (pipeline.Tells space) (finished ++ [source])
            (outcomes ++ [outcome]) ∧
          pipeline.Settled space (done ++ (finished ++ [source])) after) := by
    rintro source hsource finished outcomes middle ⟨hfinished, houtcomes, hmiddle⟩
    obtain ⟨outcome, after, hprocess, halike, hafter⟩ :=
      hmiddle.step h (List.append_subset.2 ⟨hdone, hfinished⟩) (horder hsource)
    refine ⟨outcome, after, hprocess, ?_, ?_, by rwa [← List.append_assoc]⟩
    · exact List.append_subset.2 ⟨hfinished, by simpa using horder hsource⟩
    · exact List.rel_append houtcomes (List.Forall₂.cons halike .nil)
  obtain ⟨outcomes, after, hprocessAll, -, houtcomes, hafter⟩ :=
    processAll_of_step hstep [] [] ⟨List.nil_subset _, .nil, by simpa using hnow⟩
  exact ⟨outcomes, after, runBatch_eq hlimit hprocessAll, houtcomes, hafter⟩

/-- **Batches are independent of order, repetition and neighbours.** Each outcome is what the source
is told alone in the beginning, up to scratch numbers. The contents of the tree afterwards do not
depend on the order, and the same batch once more gives the same outcomes and changes no contents.

The tree is any without links and permissions whose names are Unicode texts. -/
theorem runBatch_independent (h : pipeline.Independent space sources) {limit : Option Int}
    (hlimit : ∀ n ∈ limit, 0 < n) :
    ∃ (alone : Path → Outcome) (final : Tree),
      (∀ source ∈ sources, ∃ after, pipeline.process source space = (.ok (alone source), after)) ∧
      ∀ order : List Path, order.Perm sources →
        ∃ outcomes after, pipeline.runBatch order limit space = (.ok outcomes, after) ∧
          List.Forall₂ Outcome.Alike (order.map alone) outcomes ∧
          after.tree.SameContents final ∧
          ∃ again after', pipeline.runBatch order limit after = (.ok again, after') ∧
            List.Forall₂ Outcome.Alike outcomes again ∧ after'.tree.SameContents after.tree := by
  have hfree := h.fresh.free _ (Nat.le_refl _)
  have hstart := Settled.start h
  obtain ⟨-, final, -, -, hfinal⟩ :=
    hstart.runBatch h (List.nil_subset _) (List.Subset.refl sources) hlimit
  refine ⟨pipeline.alone space, final.tree, ?_, ?_⟩
  · intro source hsource
    obtain ⟨after, hprocess, -⟩ := process_step h.ready h.noLog hfree source
    exact ⟨after, hprocess⟩
  · intro order horder
    have hsub : order ⊆ sources := horder.subset
    obtain ⟨outcomes, after, hrun, houtcomes, hafter⟩ :=
      hstart.runBatch h (List.nil_subset _) hsub hlimit
    obtain ⟨again, after', hrun', hagain, hafter'⟩ := hafter.runBatch h hsub hsub hlimit
    refine ⟨outcomes, after, hrun, ?_, ?_, again, after', hrun', forall₂_alike houtcomes hagain, ?_⟩
    · rw [List.forall₂_map_left_iff]
      refine houtcomes.imp fun source outcome htells ↦ ?_
      exact Tells.alike ⟨space.scratch, hfree, rfl⟩ htells
    · exact hafter.sameContents h hfinal hsub fun source ↦ horder.mem_iff
    · exact hafter'.sameContents h hafter (List.append_subset.2 ⟨hsub, hsub⟩) (by simp)

theorem readsPlaces_plain (style : Text) (includePaths : List Path) :
    (Compiler.plain style includePaths).ReadsPlaces := by
  intro p q bytes css _ h
  -- the path only shows up in a diagnostic
  simp only [Compiler.plain] at h ⊢
  split at h
  · cases h
  · split at h
    · cases h
    · exact h

/-- A batch in the project: a stylesheet twice, and one that does not compile. -/
def sampleSources : List Path := ["a.css", "b.css", "a.css"].map fun t ↦ .ofText t.toList

theorem independent_sample : sample.Independent sampleSpace sampleSources := by
  refine ⟨ready_sample, rfl, by decide, by decide, ?_, readsPlaces_plain _ _⟩
  refine fresh_of_empty (by decide) (by decide) (by decide) ?_
  have hartifacts : ∀ source ∈ sampleSources, ¬ sample.store.directory.parts <+:
      (sample.artifactOf (sample.sourceOf sampleSpace.here source)).parts := by decide
  rintro l ⟨source, hsource, rfl⟩
  exact hartifacts source hsource

/-- In the project the stylesheet that does not compile may stand anywhere in the batch. -/
theorem runBatch_independent_sample :
    ∃ (alone : Path → Outcome) (final : Tree),
      (∀ source ∈ sampleSources, ∃ after,
        sample.process source sampleSpace = (.ok (alone source), after)) ∧
      ∀ order : List Path, order.Perm sampleSources →
        ∃ outcomes after, sample.runBatch order (some 2) sampleSpace = (.ok outcomes, after) ∧
          List.Forall₂ Outcome.Alike (order.map alone) outcomes ∧
          after.tree.SameContents final ∧
          ∃ again after', sample.runBatch order (some 2) after = (.ok again, after') ∧
            List.Forall₂ Outcome.Alike outcomes again ∧ after'.tree.SameContents after.tree := by
  have hlimit : ∀ n ∈ some (2 : Int), 0 < n := by
    rintro n ⟨⟩
    decide
  exact runBatch_independent independent_sample hlimit

end Pipeline

end CssTypings
