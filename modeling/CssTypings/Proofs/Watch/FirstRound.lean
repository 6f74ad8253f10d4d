import CssTypings.Proofs.Dangling
import CssTypings.Proofs.Pipeline.Copies
import CssTypings.Proofs.Pipeline.Interleaving
import CssTypings.Proofs.Watch.Rounds

/-!
# The first round is a batch

A watch that has seen nothing yet has an addition for every file that is found, in the order in
which a search lists them (`events_of_nothing`). So its next round does what a batch of the sources
does: the outcomes are alike one by one, and a copy of the tree in which the batch is run ends up
with the same contents (`poll_agrees`).

The conversions of a round are all begun at once, and those of a batch may be limited. So this needs
that their turns do not matter, for which no artifact may be a source. Otherwise a round may read a
source that a batch would have overwritten before. Besides, a search may list a file twice if the
extension has a slash in it, and a watch converts it once (`poll_disagrees`).
-/

namespace CssTypings.Watch

variable {pipeline : Pipeline} {watch : Coordinator} {space start after copy : Workspace}
  {taken : Set Location} {cwd root p : Path} {extension t : Text} {exclude : List Text}

/-- Where nothing was seen, everything is new. -/
theorem Delta.events_between_nil (current : Snapshot) :
    (between [] current).events = (Path.sort current.paths).map (⟨.added, ·⟩) := by
  have hnone : ∀ p, Snapshot.stamp? [] p = none := fun _ ↦ rfl
  simp [events, between, hnone, Path.sort]

/-- **A round after an empty look** has an addition for every file that is found, in order. -/
theorem events_of_nothing {current : Snapshot} {look : Look}
    (h : Converts pipeline taken watch (some []) space current look after)
    (hsound : space.tree.Sound)
    (hanchor : Anchor.ofText watch.pattern ≠ .relative) :
    look.events = (SourceSet.found space.tree space.here watch.pattern watch.root
      watch.exclude).dedup.map (⟨.added, ·⟩) := by
  have hmem : ∀ p, p ∈ current.paths ↔ p ∈ (Glob.files space.tree space.here watch.pattern).filter
      fun p ↦ !Glob.ignores watch.exclude watch.root p := by
    intro p
    rw [← Snapshot.isSome_stamp?, Option.isSome_iff_exists, List.mem_filter, Bool.not_eq_true']
    constructor
    · rintro ⟨stamp, hstamp⟩
      exact ((h.scan p stamp).1 hstamp).1
    · intro hfinds
      obtain ⟨stamp, hstamp⟩ := hsound.exists_stamp? (Glob.isShort_of_mem_files hanchor hfinds.1)
        (Glob.isFile_of_mem_files hfinds.1)
      exact ⟨stamp, (h.scan p stamp).2 ⟨hfinds, hstamp⟩⟩
  have hanchor : ∀ p ∈ (Glob.files space.tree space.here watch.pattern).filter
      (fun p ↦ !Glob.ignores watch.exclude watch.root p),
      p.anchor = (Glob.start space.here watch.pattern).anchor := fun p hp ↦
    Glob.anchor_of_mem_files (List.mem_filter.1 hp).1
  have hevents : look.events = (Delta.between [] current).events := h.events
  rw [hevents, Delta.events_between_nil, Path.sort_eq_dedup _ hanchor h.nodup hmem]
  rfl

/-! ### A round and a batch -/

/-- A batch of the sources comes to the same in a copy of the workspace as a round, whatever turns
the conversions of either have. -/
structure Agrees (pipeline : Pipeline) (sources : SourceSet) (exclude : List Text)
    (space : Workspace) (look : Look) (after : Workspace) : Prop where
  /-- What the round came to is one of the ends of conversions that are all begun at once. -/
  round : pipeline.MayEnd none sources.files space look.outcomes after
  round_ends : pipeline.CanEnd none sources.files space
  batch : ∀ (copy : Workspace) (limit : Option Int), copy.here = space.here →
    space.tree.SameContents copy.tree → copy.tree.Sound →
    pipeline.Fresh copy (pipeline.placesOf copy sources.files) → (∀ n ∈ limit, 0 < n) →
    ∃ outcomes ran result converted,
      pipeline.runBatch sources.files limit copy = (.ok outcomes, ran) ∧
      pipeline.convertAll sources limit exclude copy = (.ok result, converted) ∧
      result.outcomes = outcomes ∧ converted.tree = ran.tree ∧
      pipeline.MayEnd limit sources.files copy outcomes ran ∧
      pipeline.CanEnd limit sources.files copy ∧
      ∀ outcomes₁ after₁ outcomes₂ after₂,
        pipeline.MayEnd none sources.files space outcomes₁ after₁ →
        pipeline.MayEnd limit sources.files copy outcomes₂ after₂ →
        List.Forall₂ Outcome.Alike outcomes₁ outcomes₂ ∧ after₁.tree.SameContents after₂.tree

/-- A batch of plain sources leaves the tree as its conversions do. -/
theorem exists_convertAll (sources : SourceSet) {outcomes : List Outcome} {limit : Option Int}
    (hlimit : ∀ n ∈ limit, 0 < n) (hsources : ∀ s ∈ sources.files, s.IsPlain ∧ s.isAbsolute = true)
    (hopened : ∀ pattern ∈ sources.pattern,
      (Glob.opened? (pattern ++ pipeline.suffix)).any Path.hasNull = false)
    (hrun : pipeline.processAll sources.files space = (.ok outcomes, after)) (exclude : List Text) :
    ∃ result converted, pipeline.convertAll sources limit exclude space = (.ok result, converted) ∧
      result.outcomes = outcomes ∧ converted.tree = after.tree := by
  have hlive : ∀ s ∈ sources.files, after.here.absolute s = s := fun s hs ↦
    Path.absolute_of_isPlain after.here (hsources s hs).2 (hsources s hs).1
  obtain ⟨dangling, hfind, hnone⟩ : ∃ dangling,
      (∀ pattern ∈ sources.pattern, Dangling.find after.tree after.here pattern sources.files
        pipeline.suffix sources.root exclude = .ok dangling) ∧
      (sources.pattern = none → dangling = []) := by
    cases hpattern : sources.pattern with
    | none => exact ⟨[], by rintro _ ⟨⟩, fun _ ↦ rfl⟩
    | some pattern =>
      obtain ⟨found, hfind, -⟩ :=
        Dangling.exists_find (hopened pattern hpattern) after.tree hlive sources.root exclude
      exact ⟨_, by rintro _ ⟨⟩; exact hfind, by rintro ⟨⟩⟩
  exact ⟨_, _, Pipeline.convertAll_eq hlimit hrun hfind hnone, rfl, rfl⟩

/-- **A batch agrees with a round** that converted its sources, if the conversions are untangled. -/
theorem agrees_of_run {sources : SourceSet} {look : Look} (hlog : pipeline.eventLog = none)
    (hsound : space.tree.Sound)
    (hfresh : pipeline.Fresh space (pipeline.placesOf space sources.files))
    (huntangled : pipeline.Untangled space sources.files)
    (hsources : ∀ s ∈ sources.files, s.IsPlain ∧ s.isAbsolute = true)
    (hopened : ∀ pattern ∈ sources.pattern,
      (Glob.opened? (pattern ++ pipeline.suffix)).any Path.hasNull = false)
    (hrun : pipeline.processAll sources.files space = (.ok look.outcomes, after)) :
    Agrees pipeline sources exclude space look after := by
  have hunlimited : ∀ n ∈ (none : Option Int), 0 < n := by rintro n ⟨⟩
  have hnull : ∀ path ∈ pipeline.eventLog, path.hasNull = false := by simp [hlog]
  refine ⟨⟨_, _, Pipeline.ends_inOrder hunlimited hrun⟩, Pipeline.canEnd hunlimited hnull _ _, ?_⟩
  intro copy limit hhere hcontents hsound' hfresh' hlimit
  have hcopies : pipeline.Copies (pipeline.placesOf space sources.files) space copy := by
    refine ⟨hhere, hcontents, hsound, hsound', hfresh, ?_⟩
    rwa [Pipeline.placesOf, hhere] at hfresh'
  obtain ⟨outcomes, ran, hbatch, -⟩ := pipeline.exists_processAll hlog sources.files copy
  obtain ⟨result, converted, hconvert, hresult, htree⟩ :=
    exists_convertAll sources hlimit hsources hopened hbatch exclude
  exact ⟨outcomes, ran, result, converted, Pipeline.runBatch_eq hlimit hbatch, hconvert, hresult,
    htree, ⟨_, _, Pipeline.ends_inOrder hlimit hbatch⟩, Pipeline.canEnd hlimit hnull _ _,
    fun _ _ _ _ hround hbatched ↦ hround.agree hcopies hlog huntangled hbatched⟩

/-- **The first round is a batch.** If there are no sources when a watch over a directory begins,
the next round has one addition for each different source that is found then, in order. If a search
finds no source twice, which it never does if the extension has no slash, and no artifact is a
source, a batch of the sources in a copy of the workspace comes to the same, in whatever turns the
conversions of the round and of the batch are done. For a suffix with a slash, no artifact may be on
the way to another one either. -/
theorem poll_agrees (hlog : pipeline.eventLog = none) (hhere : start.here.IsProper)
    (habsolute : start.here.isAbsolute = true) {base : Path} (hbase : base.IsProper)
    (hroot : start.here.absolute (base.join (.ofText t)) = root)
    (hdir : start.tree.look root = .ok (some .directory)) {sources : SourceSet}
    (hresolve : SourceSet.resolve start.tree start.here base [t] extension exclude = .ok sources)
    (hempty : sources.files = []) (hsame : space.here = start.here) (hsound : space.tree.Sound)
    (hdir' : space.tree.look root = .ok (some .directory)) :
    ∃ watch seen now, Coordinator.make sources exclude = .ok watch ∧
      watch.subscribe start = .ok seen ∧
      SourceSet.resolve space.tree space.here base [t] extension exclude = .ok now ∧
      ('/' ∉ extension → now.files.Nodup) ∧
      ('/' ∉ pipeline.suffix → (∀ s ∈ now.files, pipeline.artifactOf s ∉ now.files) →
        pipeline.Untangled space now.files) ∧
      (pipeline.Fresh space (pipeline.placesOf space now.files) →
        ∃ look next after, seen.poll pipeline space = (.ok look, next, after) ∧
          look.events = now.files.dedup.map (⟨.added, ·⟩) ∧
          (now.files.Nodup → pipeline.Untangled space now.files →
            Agrees pipeline now exclude space look after)) := by
  have hplain : root.IsPlain :=
    hroot ▸ Path.isPlain_absolute hhere (hbase.join (Path.isProper_ofText t))
  have hroot' : root.isAbsolute = true := hroot ▸ Path.isAbsolute_absolute habsolute
  rw [SourceSet.resolve_of_look hplain hroot' hdir hroot] at hresolve
  obtain rfl := (Except.ok.inj hresolve).symm
  have hnow := SourceSet.resolve_of_look hplain hroot' hdir' (hsame ▸ hroot) extension exclude
  rw [← hsame] at habsolute
  let tail := extension.dropWhile (· = '.')
  let pattern := Glob.searchPattern root tail
  let watch : Coordinator := ⟨pattern, root, exclude, none⟩
  have hopened : (Glob.opened? watch.pattern).any Path.hasNull = false :=
    Glob.hasNull_opened hplain (hasNull_of_look hdir) tail
  have hanchor : Anchor.ofText watch.pattern ≠ .relative := by
    rw [Glob.anchor_searchPattern hplain tail]
    exact of_decide_eq_true hroot'
  -- nothing is seen in the beginning
  have hsubscribe : watch.subscribe start = .ok { watch with snapshot := some [] } := by
    have hfound : SourceSet.found start.tree start.here pattern root exclude = [] := hempty
    have hfindings : watch.findings start = [] := by rw [Coordinator.findings, hfound, List.filterMap]
    rw [Coordinator.subscribe, Coordinator.scan_eq hopened, hfindings]
    rfl
  have hfiles : ∀ s ∈ SourceSet.found space.tree space.here pattern root exclude,
      s ∈ Glob.files space.tree space.here pattern := fun s hs ↦ (SourceSet.mem_found.1 hs).1
  have hsources : ∀ s ∈ SourceSet.found space.tree space.here pattern root exclude,
      s.IsPlain ∧ s.isAbsolute = true := fun s hs ↦
    ⟨Tree.isPlain_of_isFile hsound (Glob.isFile_of_mem_files (hfiles s hs)),
      Glob.isAbsolute_of_mem_files habsolute (hfiles s hs)⟩
  have hplaces : ∀ s ∈ SourceSet.found space.tree space.here pattern root exclude,
      (pipeline.artifactOf s).place ∈ pipeline.placesOf space
        (SourceSet.found space.tree space.here pattern root exclude) := by
    intro s hs
    refine ⟨s, hs, ?_⟩
    rw [Pipeline.sourceOf_of_isPlain (hsources s hs).1 (hsources s hs).2]
  refine ⟨watch, _, _, rfl, hsubscribe, hnow, fun hslash ↦ ?_, fun hslash hnone ↦ ?_, fun hfresh ↦ ?_⟩
  · have hslash' : '/' ∉ tail := fun h ↦ hslash ((List.dropWhile_suffix _).subset h)
    exact SourceSet.nodup_found (Glob.nodup_files_searchPattern hplain hroot' hsound
      (find?_of_look hplain hdir') hslash' space.here) root exclude
  · refine Pipeline.untangled_of_not_mem_slash hslash hsound hanchor (fun s hs ↦ ?_) hnone
    rw [Glob.anchor_of_mem_files (hfiles s hs), Glob.start_of_ne_relative hanchor]
    exact ⟨rfl, Glob.isFile_of_mem_files (hfiles s hs)⟩
  · have hwrites : ∀ p, watch.Finds space p → pipeline.WritesIn _ p := fun p hp ↦
      Pipeline.writesIn_place (hplaces p (SourceSet.mem_found.2 hp))
    obtain ⟨current, look, after, hpoll, hround⟩ :=
      exists_poll hlog habsolute hsound hfresh hwrites hopened (some [])
    have hevents := events_of_nothing hround hsound hanchor
    refine ⟨look, _, after, hpoll, hevents, fun hnodup huntangled ↦ ?_⟩
    refine agrees_of_run hlog hsound hfresh huntangled hsources ?_ ?_
    · rintro _ ⟨⟩
      rw [Glob.searchPattern_append]
      exact Glob.hasNull_opened hplain (hasNull_of_look hdir) _
    · have hpaths : look.events.map Event.path = SourceSet.found space.tree space.here watch.pattern
          watch.root watch.exclude := by
        rw [hevents, hnodup.dedup, List.map_map]
        exact List.map_id _
      rw [← hpaths]
      exact hround.run

/-! ### In a project -/

section Sample

open Pipeline (sample sampleSpace)

/-- A project in which directories have the names of stylesheets. -/
def nestedSpace : Workspace :=
  { sampleSpace with tree := ⟨[(["w".toList], .directory), (["tmp".toList], .directory),
    (["w".toList, "d.css".toList], .directory),
    (["w".toList, "d.css".toList, "e.css".toList], .directory)], 0⟩ }

/-- The one stylesheet that is put into it. -/
def nestedSource : Path := .ofText "/w/d.css/e.css/f.css".toList

/-- The project with the stylesheet. -/
def filledSpace : Workspace :=
  { nestedSpace with tree :=
    (Edit.write nestedSource.parts (Utf8.encode ".f \x7b\x7d".toList) 0).apply nestedSpace.tree }

/-- Scratch files are not the artifact of the stylesheet. -/
theorem fresh_filled {files : List Path} (h : ∀ s ∈ files, s = nestedSource) :
    sample.Fresh filledSpace (sample.placesOf filledSpace files) := by
  refine Pipeline.fresh_of_empty (by decide) (by decide) (by decide) ?_
  rintro l ⟨s, hs, rfl⟩
  rw [h s hs]
  decide

/-- In the project a round after the stylesheet was made agrees with a batch. -/
theorem poll_agrees_sample :
    ∃ sources watch seen now look next after,
      SourceSet.resolve nestedSpace.tree nestedSpace.here sample.cwd [['.']] "css".toList [] =
        .ok sources ∧
      Coordinator.make sources [] = .ok watch ∧ watch.subscribe nestedSpace = .ok seen ∧
      SourceSet.resolve filledSpace.tree filledSpace.here sample.cwd [['.']] "css".toList [] =
        .ok now ∧
      now.files = [nestedSource] ∧ seen.poll sample filledSpace = (.ok look, next, after) ∧
      look.events = [⟨.added, nestedSource⟩] ∧ Agrees sample now [] filledSpace look after := by
  have hroot : nestedSpace.here.absolute (sample.cwd.join (.ofText ['.'])) = .ofText "/w".toList := by
    decide
  have hdir : nestedSpace.tree.look (.ofText "/w".toList) = .ok (some .directory) := by decide
  have hdir' : filledSpace.tree.look (.ofText "/w".toList) = .ok (some .directory) := by decide
  have hsame : filledSpace.here = nestedSpace.here := rfl
  have hresolve := SourceSet.resolve_of_look (by decide) rfl hdir hroot "css".toList []
  have hempty : SourceSet.found nestedSpace.tree nestedSpace.here
      (Glob.searchPattern (.ofText "/w".toList) "css".toList) (.ofText "/w".toList) [] = [] := by
    decide +kernel
  have hfound : SourceSet.found filledSpace.tree filledSpace.here
      (Glob.searchPattern (.ofText "/w".toList) "css".toList) (.ofText "/w".toList) [] =
        [nestedSource] := by
    decide +kernel
  obtain ⟨watch, seen, now, hmake, hsubscribe, hnow, -, huntangled, hpoll⟩ :=
    poll_agrees (rfl : sample.eventLog = none) (by decide) rfl (by decide) hroot hdir hresolve hempty
      hsame (by decide) hdir'
  have hnow' := SourceSet.resolve_of_look (by decide) rfl hdir' hroot "css".toList []
  have hfiles : now.files = [nestedSource] := by
    rw [Except.ok.inj (hnow.symm.trans hnow')]
    exact hfound
  obtain ⟨look, next, after, hround, hevents, hagrees⟩ :=
    hpoll (fresh_filled fun s hs ↦ List.mem_singleton.1 (hfiles ▸ hs))
  refine ⟨_, watch, seen, now, look, next, after, hresolve, hmake, hsubscribe, hnow, hfiles, hround,
    ?_, hagrees ?_ (huntangled (by decide) ?_)⟩
  · rw [hevents, hfiles]
    rfl
  · rw [hfiles]
    exact List.nodup_singleton nestedSource
  · rw [hfiles]
    decide

/-- The first round of a watch over the working directory, which had no sources in the beginning. -/
def IsFirstRound (pipeline : Pipeline) (start space : Workspace) (extension : Text) (now : SourceSet)
    (look : Look) (after : Workspace) : Prop :=
  ∃ sources watch seen next,
    SourceSet.resolve start.tree start.here pipeline.cwd [['.']] extension [] = .ok sources ∧
    sources.files = [] ∧ Coordinator.make sources [] = .ok watch ∧
    watch.subscribe start = .ok seen ∧
    SourceSet.resolve space.tree space.here pipeline.cwd [['.']] extension [] = .ok now ∧
    seen.poll pipeline space = (.ok look, next, after)

/-- The watch over the project for an extension. -/
def watchFor (extension : Text) : Coordinator :=
  ⟨Glob.searchPattern (.ofText "/w".toList) extension, .ofText "/w".toList, [], none⟩

/-- The files that it finds, as sources. -/
def listed (extension : Text) (files : List Path) : SourceSet :=
  ⟨files, some (watchFor extension).pattern, some (.ofText "/w".toList)⟩

variable (pipeline space) in
/-- A watch over the project that finds nothing in the beginning has a first round. -/
theorem exists_isFirstRound (hlog : pipeline.eventLog = none) (hcwd : pipeline.cwd = sample.cwd)
    (hhere : space.here = nestedSpace.here)
    (hdir : space.tree.look (.ofText "/w".toList) = .ok (some .directory))
    (hextension : extension.dropWhile (· = '.') = extension)
    (hopened : (Glob.opened? (watchFor extension).pattern).any Path.hasNull = false)
    (hempty : SourceSet.found nestedSpace.tree nestedSpace.here (watchFor extension).pattern
      (.ofText "/w".toList) [] = [])
    {files : List Path} (hfound : SourceSet.found space.tree space.here
      (watchFor extension).pattern (.ofText "/w".toList) [] = files)
    {snapshot : Snapshot} (hscan : (watchFor extension).scan space = .ok snapshot)
    {events : List Event} (hevents : (Delta.between [] snapshot).events = events) :
    ∃ look after, IsFirstRound pipeline nestedSpace space extension (listed extension files) look
      after ∧ look.events = events ∧ look.outcomes.length = events.length := by
  have hroot : nestedSpace.here.absolute (pipeline.cwd.join (.ofText ['.'])) = .ofText "/w".toList := by
    rw [hcwd]
    decide
  have hdir' : nestedSpace.tree.look (.ofText "/w".toList) = .ok (some .directory) := by decide
  have hstart := SourceSet.resolve_of_look (by decide) rfl hdir' hroot extension []
  have hnow := SourceSet.resolve_of_look (by decide) rfl hdir (hhere ▸ hroot) extension []
  rw [hextension] at hstart hnow
  have hfindings : (watchFor extension).findings nestedSpace = [] := by
    have hempty' : SourceSet.found nestedSpace.tree nestedSpace.here (watchFor extension).pattern
      (watchFor extension).root (watchFor extension).exclude = [] := hempty
    rw [Coordinator.findings, hempty', List.filterMap]
  have hsubscribe : (watchFor extension).subscribe nestedSpace =
      .ok { watchFor extension with snapshot := some [] } := by
    rw [Coordinator.subscribe, Coordinator.scan_eq hopened, hfindings]
    rfl
  have hscan' : Coordinator.scan { watchFor extension with snapshot := some [] } space =
      .ok snapshot := hscan
  obtain ⟨outcomes, after, hrun, hlength⟩ :=
    pipeline.exists_processAll hlog (events.map Event.path) space
  rw [List.length_map] at hlength
  refine ⟨⟨events, outcomes⟩, after, ⟨_, _, _, _, hstart, hempty, rfl, hsubscribe, ?_,
    Coordinator.poll_of_run rfl hscan' hevents hrun⟩, rfl, hlength⟩
  exact hfound ▸ hnow

/-- Conversions with a suffix by which an artifact can be a source. -/
def feeding : Pipeline := { sample with suffix := ".css".toList }

/-- A stylesheet, and one at the place of its artifact. -/
def feedingSources : List Path := ["/w/a.css", "/w/a.css.css"].map fun t ↦ .ofText t.toList

/-- The project with these stylesheets. -/
def feedingSpace : Workspace :=
  { nestedSpace with tree := (Edit.write ["w".toList, "a.css".toList]
      (Utf8.encode ".a \x7b\x7d".toList) 1).apply ((Edit.write ["w".toList, "a.css.css".toList]
        (Utf8.encode ".b \x7b\x7d".toList) 0).apply nestedSpace.tree) }

/-- What the conversions come to if both stylesheets are compiled before a declaration is
written. -/
def feedingEnd : Pipeline.Progress :=
  .turns feeding none (.start feedingSources feedingSpace) [0, 1, 0, 0, 0, 1, 1, 1]

theorem mayEnd_feeding :
    ∃ outcomes, feeding.MayEnd none feedingSources feedingSpace outcomes feedingEnd.space := by
  have hover : ∀ task ∈ feedingEnd.tasks, task.stage.outcome?.isSome = true := by decide +kernel
  obtain ⟨outcomes, houtcomes⟩ := Pipeline.Progress.exists_areOver fun task htask ↦
    Option.isSome_iff_ne_none.1 (hover task htask)
  exact ⟨outcomes, _, _, _, rfl, houtcomes⟩

/-- A batch that has one conversion at once compiles the second stylesheet after it was written. -/
theorem not_sameContents_feeding :
    ¬ feedingEnd.space.tree.SameContents (feeding.processAll feedingSources feedingSpace).2.tree := by
  intro h
  have hartifact : (feedingEnd.space.tree.find? ["w".toList, "a.css.css.css".toList]).map
      Entry.contents ≠ ((feeding.processAll feedingSources feedingSpace).2.tree.find?
        ["w".toList, "a.css.css.css".toList]).map Entry.contents := by
    decide +kernel
  exact hartifact (h _)

/-- **A round and a batch may disagree.** With an extension like `css/**/*.css`, for which no
directory has a source in the beginning, a batch converts a stylesheet that is found twice two
times, and a round one time. With the suffix `.css`, a round may compile a stylesheet before a
declaration is written there, which a batch that has one conversion at once would not do. -/
theorem poll_disagrees :
    (∃ now look after outcomes ran,
      IsFirstRound sample nestedSpace filledSpace "css/**/*.css".toList now look after ∧
      sample.runBatch now.files none filledSpace = (.ok outcomes, ran) ∧
      now.files = [nestedSource, nestedSource] ∧ outcomes.length = 2 ∧
      look.events = [⟨.added, nestedSource⟩] ∧ look.outcomes.length = 1) ∧
    ∃ now look after outcomes ended result converted,
      IsFirstRound feeding nestedSpace feedingSpace "css".toList now look after ∧
      now.files = feedingSources ∧ look.events = now.files.map (⟨.added, ·⟩) ∧
      feeding.MayEnd none now.files feedingSpace outcomes ended ∧
      feeding.convertAll now (some 1) [] feedingSpace = (.ok result, converted) ∧
      ¬ ended.tree.SameContents converted.tree := by
  constructor
  · have hopened : (Glob.opened? (watchFor "css/**/*.css".toList).pattern).any Path.hasNull =
        false := by
      decide +kernel
    have htwice : SourceSet.found filledSpace.tree filledSpace.here
        (watchFor "css/**/*.css".toList).pattern (.ofText "/w".toList) [] =
          [nestedSource, nestedSource] :=
      SourceSet.found_of_pairwise (by decide +kernel) (by decide)
    -- the stamp of the stylesheet is set twice and there once
    have hscan : (watchFor "css/**/*.css".toList).scan filledSpace =
        .ok [(nestedSource, ⟨5, 0⟩)] := by
      have hfindings : (watchFor "css/**/*.css".toList).findings filledSpace =
          [(nestedSource, ⟨5, 0⟩), (nestedSource, ⟨5, 0⟩)] :=
        (congrArg (List.filterMap _) htwice).trans (by decide +kernel)
      rw [Coordinator.scan_eq hopened, hfindings]
      decide
    have hevents : (Delta.between [] [(nestedSource, ⟨5, 0⟩)]).events = [⟨.added, nestedSource⟩] :=
      Delta.events_of_pairwise [nestedSource] [] (by decide) (by decide) (by decide) .nil
    obtain ⟨look, after, hround, hadded, hlength⟩ :=
      exists_isFirstRound sample filledSpace rfl rfl rfl (by decide) (by decide) hopened
        (by decide +kernel) htwice hscan hevents
    obtain ⟨outcomes, ran, hrun, hlength'⟩ :=
      sample.exists_processAll rfl [nestedSource, nestedSource] filledSpace
    exact ⟨_, look, after, outcomes, ran, hround, Pipeline.runBatch_eq (by simp) hrun, rfl, hlength',
      hadded, hlength⟩
  · have hopened : (Glob.opened? (watchFor "css".toList).pattern).any Path.hasNull = false := by
      decide +kernel
    have hfound : SourceSet.found feedingSpace.tree feedingSpace.here
        (watchFor "css".toList).pattern (.ofText "/w".toList) [] = feedingSources :=
      SourceSet.found_of_pairwise (by decide +kernel) (by decide)
    have hscan : (watchFor "css".toList).scan feedingSpace =
        .ok (feedingSources.zip [⟨5, 1⟩, ⟨5, 0⟩]) :=
      Coordinator.scan_of_found hopened feedingSpace (by decide +kernel) (by decide)
        (by decide +kernel)
    have hevents : (Delta.between [] (feedingSources.zip [⟨5, 1⟩, ⟨5, 0⟩])).events =
        feedingSources.map (⟨.added, ·⟩) :=
      Delta.events_of_pairwise feedingSources [] (by decide) (by decide) (by decide) .nil
    obtain ⟨look, after, hround, hadded, -⟩ :=
      exists_isFirstRound feeding feedingSpace rfl rfl rfl (by decide) (by decide) hopened
        (by decide +kernel) hfound hscan hevents
    obtain ⟨outcomes, hend⟩ := mayEnd_feeding
    obtain ⟨batched, ran, hrun, -⟩ := feeding.exists_processAll rfl feedingSources feedingSpace
    have hlimit : ∀ n ∈ some (1 : Int), 0 < n := by simp
    obtain ⟨result, converted, hconvert, -, htree⟩ :=
      exists_convertAll (listed "css".toList feedingSources) hlimit (by decide) (by decide +kernel)
        hrun []
    refine ⟨_, look, after, outcomes, _, result, converted, hround, rfl, hadded, hend, hconvert, ?_⟩
    have hran : (feeding.processAll feedingSources feedingSpace).2 = ran := by rw [hrun]
    rw [htree, ← hran]
    exact not_sameContents_feeding

end Sample

end CssTypings.Watch
