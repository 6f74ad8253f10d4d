import CssTypings.Proofs.Watch.Session

/-!
# Rounds without a log

Without a log a round needs nothing of the tree but free scratch files: it never breaks off, it sees
the current stamps, and it writes the artifacts that its outcomes name (`Converts`, `exists_poll`).

Over a directory a watch has its sources below the directory, and their names end with the extension
(`exists_beyond_of_mem_sources`).
-/

namespace CssTypings.Watch

variable {pipeline : Pipeline} {watch : Coordinator} {space after : Workspace} {taken : Set Location}
  {here root p : Path} {extension : Text} {seen : Option Snapshot}

/-- What a round without a log comes to, where `seen` is what the last look saw. -/
structure Converts (pipeline : Pipeline) (taken : Set Location) (watch : Coordinator)
    (seen : Option Snapshot) (before : Workspace) (current : Snapshot) (look : Look)
    (after : Workspace) : Prop where
  /-- The round sees the current stamps, each path once. -/
  scan : ∀ p stamp, current.stamp? p = some stamp ↔
    watch.Finds before p ∧ before.tree.stamp? p = some stamp
  nodup : current.paths.Nodup
  /-- The first round has no events. -/
  events : look.events = (seen.map fun previous ↦ (Delta.between previous current).events).getD []
  processed : pipeline.Processed taken before (look.events.map Event.path) look.outcomes after
  run : pipeline.processAll (look.events.map Event.path) before = (.ok look.outcomes, after)

/-- What a round converts is found. -/
theorem Converts.finds_of_event {current : Snapshot} {look : Look}
    (h : Converts pipeline taken watch seen space current look after)
    (hp : p ∈ look.events.map Event.path) : watch.Finds space p := by
  rw [h.events] at hp
  cases seen with
  | none => exact absurd hp List.not_mem_nil
  | some previous =>
    obtain ⟨stamp, hstamp, -⟩ := Delta.mem_events.1 hp
    exact ((h.scan p stamp).1 hstamp).1

/-- **A round never breaks off.** -/
theorem exists_poll (hlog : pipeline.eventLog = none) (habsolute : space.here.isAbsolute = true)
    (hsound : space.tree.Sound) (hfresh : pipeline.Fresh space taken)
    (hsources : ∀ p, watch.Finds space p → pipeline.WritesIn taken p)
    (hopened : (Glob.opened? watch.pattern).any Path.hasNull = false) (seen : Option Snapshot) :
    ∃ current look after, Coordinator.poll { watch with snapshot := seen } pipeline space =
        (.ok look, { watch with snapshot := some current }, after) ∧
      Converts pipeline taken watch seen space current look after := by
  obtain ⟨current, hscan, hnodup, hcurrent⟩ := Coordinator.exists_scan hopened space
  have hscan' : Coordinator.scan { watch with snapshot := seen } space = .ok current := hscan
  rw [Coordinator.poll, hscan']
  cases seen with
  | none => exact ⟨current, ⟨[], []⟩, space, rfl, hcurrent, hnodup, rfl, .refl hsound, rfl⟩
  | some previous =>
    let events := (Delta.between previous current).events
    have hwrites : ∀ p ∈ events.map Event.path,
        pipeline.WritesIn taken (pipeline.sourceOf space.here p) := by
      intro p hp
      obtain ⟨stamp, hstamp, -⟩ := Delta.mem_events.1 hp
      have hfinds := ((hcurrent p stamp).1 hstamp).1
      rw [Pipeline.sourceOf_of_isPlain
        (Tree.isPlain_of_isFile hsound (Glob.isFile_of_mem_files hfinds.1))
        (Glob.isAbsolute_of_mem_files habsolute hfinds.1)]
      exact hsources p hfinds
    obtain ⟨outcomes, after, hprocessAll, hprocessed⟩ :=
      Pipeline.processAll_processed hlog hsound hfresh hwrites
    refine ⟨current, ⟨events, outcomes⟩, after, ?_, hcurrent, hnodup, rfl, hprocessed, hprocessAll⟩
    simp only [events] at hprocessAll ⊢
    rw [hprocessAll]
    rfl

/-- The sources of a watch over a directory are below it and end with the extension. -/
theorem exists_beyond_of_mem_sources
    (hpattern : watch.pattern = Glob.searchPattern root extension) (hroot : root.IsPlain)
    (habsolute : root.isAbsolute = true) (hextension : IsExtension extension)
    (hp : p ∈ watch.sources here) :
    p.IsPlain ∧ ∃ way stem, p = root.beyond way (stem ++ '.' :: extension) := by
  obtain ⟨⟨tree, hsound, hfiles⟩, -⟩ := hp
  refine ⟨Tree.isPlain_of_isFile hsound (Glob.isFile_of_mem_files hfiles), ?_⟩
  rw [hpattern] at hfiles
  by_cases hdir : tree.find? root.parts = some .directory
  · obtain ⟨-, way, stem, rfl, -⟩ := (Glob.mem_files_searchPattern hroot habsolute hsound hdir
      hextension.not_mem_slash hextension.not_isMagic here).1 hfiles
    exact ⟨way, stem, rfl⟩
  · rw [Glob.files_of_not_directory hroot habsolute hextension.not_mem_slash hdir] at hfiles
    exact absurd hfiles List.not_mem_nil

end CssTypings.Watch
