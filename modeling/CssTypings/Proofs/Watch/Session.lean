import CssTypings.Proofs.Glob.Growth
import CssTypings.Proofs.Pipeline.Logging
import CssTypings.Proofs.Watch.Edits
import CssTypings.Proofs.Watch.Snapshots
import Mathlib.Data.Set.Insert

/-!
# Watch sessions

After its first look a watch goes on in steps: the tree is edited, or there is a round, which is a
look with the conversions that it asks for (`Session.Step`). A session keeps the history that the
promises of a watch are about: what was edited, which stamps the files had, and what came of the
rounds.

What every step preserves is `Tracked`. Its core is about the files whose stamp is the one that the
last look saw: if such a file was ever edited, its declaration is up to date, or the last conversion
of it failed. Edits preserve this because no file gets a stamp that it had before
(`Tracked.afterEdit`), and rounds because they convert every file whose stamp is new
(`Tracked.afterRound`).
-/

namespace CssTypings.Watch

variable {watch : Coordinator} {space start : Workspace} {p : Path}

/-! ### Sources of a watch -/

namespace Coordinator

variable (watch) in
/-- The paths that the pattern finds in some tree or other and that are not ignored. -/
def sources (here : Path) : Set Path :=
  {p | (∃ tree : Tree, tree.Sound ∧ p ∈ Glob.files tree here watch.pattern) ∧
    Glob.ignores watch.exclude watch.root p = false}

variable (watch) in
/-- The path is found, it is not ignored, and there is a file. -/
def Sees (space : Workspace) (p : Path) : Prop :=
  watch.Finds space p ∧ ∃ bytes modified, space.tree.look p = .ok (some (.file bytes modified))

theorem sees_iff :
    watch.Sees space p ↔ watch.Finds space p ∧ ∃ stamp, space.tree.stamp? p = some stamp := by
  simp only [Sees, Tree.stamp?_eq_some]
  constructor
  · rintro ⟨hfinds, bytes, modified, hlook⟩
    exact ⟨hfinds, _, bytes, modified, hlook, rfl⟩
  · rintro ⟨hfinds, stamp, bytes, modified, hlook, -⟩
    exact ⟨hfinds, bytes, modified, hlook⟩

theorem Finds.mem_sources (h : watch.Finds space p) (hsound : space.tree.Sound) :
    p ∈ watch.sources space.here :=
  ⟨⟨space.tree, hsound, h.1⟩, h.2⟩

/-- What is found stays found while directories stay and the file is there. -/
theorem Finds.mono {after : Workspace} (h : watch.Finds space p) (hhere : after.here = space.here)
    (hsound : after.tree.Sound)
    (hdirs : ∀ l, space.tree.find? l = some .directory → after.tree.find? l = some .directory)
    (hfile : after.tree.find? p.parts = space.tree.find? p.parts) : watch.Finds after p := by
  refine ⟨?_, h.2⟩
  rw [hhere]
  refine Glob.files_mono hsound hdirs h.1 ?_
  rw [hfile]
  exact Glob.isFile_of_mem_files h.1

theorem listing_sources {here : Path} (habsolute : here.isAbsolute = true) :
    Pipeline.Listing (watch.sources here) where
  isPlain := by
    rintro p ⟨⟨tree, hsound, hp⟩, -⟩
    exact Tree.isPlain_of_isFile hsound (Glob.isFile_of_mem_files hp)
  isAbsolute := by
    rintro p ⟨⟨tree, -, hp⟩, -⟩
    exact Glob.isAbsolute_of_mem_files habsolute hp
  ne_nil := by
    rintro p ⟨⟨tree, -, hp⟩, -⟩
    exact Tree.ne_nil_of_isFile (Glob.isFile_of_mem_files hp)
  injOn := by
    rintro p ⟨⟨tree, -, hp⟩, -⟩ q ⟨⟨tree', -, hq⟩, -⟩ hparts
    exact Glob.eq_of_mem_files hp hq hparts

end Coordinator

/-! ### Outcomes over many rounds -/

/-- What came of the last conversion of a source. -/
def lastOutcome? (looks : List Look) (p : Path) : Option Outcome :=
  (looks.flatMap Look.outcomes).reverse.find? (·.source = p)

/-- The last conversion of the source failed. -/
def Failed (looks : List Look) (p : Path) : Prop :=
  ∃ outcome, lastOutcome? looks p = some outcome ∧ outcome.ok = false

theorem lastOutcome?_concat (looks : List Look) (look : Look) (p : Path) :
    lastOutcome? (looks ++ [look]) p =
      (look.outcomes.reverse.find? (·.source = p)).or (lastOutcome? looks p) := by
  rw [lastOutcome?, lastOutcome?, List.flatMap_append, List.flatMap_singleton, List.reverse_append,
    List.find?_append]

/-- A failure counts if the source has no other outcome in the round. -/
theorem failed_concat {looks : List Look} {look : Look} {outcome : Outcome}
    (hnodup : (look.outcomes.map Outcome.source).Nodup) (hmem : outcome ∈ look.outcomes)
    (hsource : outcome.source = p) (hfailed : outcome.ok = false) : Failed (looks ++ [look]) p := by
  have hfind : look.outcomes.reverse.find? (·.source = p) = some outcome := by
    cases hfound : look.outcomes.reverse.find? (·.source = p) with
    | none =>
      have hnot := List.find?_eq_none.1 hfound outcome (List.mem_reverse.2 hmem)
      exact absurd (decide_eq_true hsource) hnot
    | some other =>
      have hother := List.mem_reverse.1 (List.mem_of_find?_eq_some hfound)
      have hsource' : other.source = p := by simpa using List.find?_some hfound
      rw [List.inj_on_of_nodup_map hnodup hother hmem (hsource'.trans hsource.symm)]
  exact ⟨outcome, by rw [lastOutcome?_concat, hfind, Option.some_or], hfailed⟩

/-- A failure stands while the source is not converted again. -/
theorem Failed.concat {looks : List Look} (h : Failed looks p) {look : Look}
    (hnot : p ∉ look.outcomes.map Outcome.source) : Failed (looks ++ [look]) p := by
  obtain ⟨outcome, hlast, hfailed⟩ := h
  have hnone : look.outcomes.reverse.find? (·.source = p) = none := by
    refine List.find?_eq_none.2 fun other hother hsource ↦ hnot ?_
    exact List.mem_map.2 ⟨other, List.mem_reverse.1 hother, of_decide_eq_true hsource⟩
  exact ⟨outcome, by rw [lastOutcome?_concat, hnone, Option.none_or, hlast], hfailed⟩

/-! ### Sessions -/

/-- The stamps of the files in a tree. -/
def stampsIn (tree : Tree) : Set (Location × Stamp) :=
  {x | ∃ bytes modified, tree.find? x.1 = some (.file bytes modified) ∧
    x.2 = ⟨bytes.length, modified⟩}

/-- A watch, where it takes place, and its history. -/
structure Session where
  watch : Coordinator
  space : Workspace
  /-- What came of the rounds. -/
  looks : List Look
  /-- The locations that were edited. -/
  edited : Set Location
  /-- The stamps that files had at the start or got by an edit. -/
  stamps : Set (Location × Stamp)

namespace Session

/-- The session of a watch before anything has happened. -/
def initial (watch : Coordinator) (space : Workspace) : Session :=
  ⟨watch, space, [], ∅, stampsIn space.tree⟩

/-- The session after an edit. -/
def afterEdit (session : Session) (edit : Edit) : Session where
  watch := session.watch
  space := { session.space with tree := edit.apply session.space.tree }
  looks := session.looks
  edited := insert edit.location session.edited
  stamps := session.stamps ∪ {x | x.1 = edit.location ∧ edit.stamp? = some x.2}

/-- The session after a round. -/
def afterRound (session : Session) (look : Look) (watch : Coordinator) (space : Workspace) :
    Session where
  watch := watch
  space := space
  looks := session.looks ++ [look]
  edited := session.edited
  stamps := session.stamps

/-- What may happen next: an edit away from some places, by which no file gets a stamp that it had
before, or a round. -/
inductive Step (pipeline : Pipeline) (places : Set Location) : Session → Session → Prop where
  | edit (session : Session) (edit : Edit) (possible : edit.Possible session.space.tree)
      (away : edit.location ∉ places)
      (fresh : ∀ stamp, edit.stamp? = some stamp → (edit.location, stamp) ∉ session.stamps) :
      Step pipeline places session (session.afterEdit edit)
  | round (session : Session) (look : Look) (watch : Coordinator) (space : Workspace)
      (poll : session.watch.poll pipeline session.space = (.ok look, watch, space)) :
      Step pipeline places session (session.afterRound look watch space)

end Session

/-! ### What every step preserves -/

/-- What holds throughout a session, where `previous` is what the last look saw. -/
structure Tracked (pipeline : Pipeline) (watch : Coordinator) (start : Workspace)
    (session : Session) (previous : Snapshot) : Prop where
  sameWatch : session.watch = { watch with snapshot := some previous }
  sameHere : session.space.here = start.here
  scratch : start.scratch ≤ session.space.scratch
  sound : session.space.tree.Sound
  apart : pipeline.Apart (watch.sources start.here) session.space
  /-- Directories stay. -/
  directories : ∀ l, start.tree.find? l = some .directory →
    session.space.tree.find? l = some .directory
  /-- The stamps that sources have are known. -/
  stamped : ∀ p ∈ watch.sources start.here, ∀ stamp, session.space.tree.stamp? p = some stamp →
    (p.parts, stamp) ∈ session.stamps
  /-- So are those that the last look saw. -/
  remembered : ∀ p stamp, previous.stamp? p = some stamp →
    p ∈ watch.sources start.here ∧ (p.parts, stamp) ∈ session.stamps
  /-- A source that has not changed since the last look is up to date unless it failed. -/
  settled : ∀ p stamp, previous.stamp? p = some stamp → session.space.tree.stamp? p = some stamp →
    p.parts ∈ session.edited → pipeline.Declared session.space.tree p ∨ Failed session.looks p
  /-- What was there at the start and was never edited is as it was, and the last look saw it so. -/
  unedited : ∀ p, watch.Sees start p → p.parts ∉ session.edited →
    session.space.tree.find? p.parts = start.tree.find? p.parts ∧
      previous.stamp? p = session.space.tree.stamp? p

namespace Tracked

variable {pipeline : Pipeline} {session : Session} {previous current : Snapshot}

theorem initial (habsolute : start.here.isAbsolute = true) (hsound : start.tree.Sound)
    (hapart : pipeline.Apart (watch.sources start.here) start)
    (hscan : ∀ p stamp, current.stamp? p = some stamp ↔
      watch.Finds start p ∧ start.tree.stamp? p = some stamp) :
    Tracked pipeline watch start
      (Session.initial { watch with snapshot := some current } start) current := by
  have hstamped : ∀ p ∈ watch.sources start.here, ∀ stamp, start.tree.stamp? p = some stamp →
      (p.parts, stamp) ∈ stampsIn start.tree := by
    intro p hp stamp hstamp
    obtain ⟨bytes, modified, hlook, rfl⟩ := Tree.stamp?_eq_some.1 hstamp
    have hplain := (Coordinator.listing_sources habsolute).isPlain p hp
    exact ⟨bytes, modified, ((hsound.look_eq_some hplain).1 hlook).2, rfl⟩
  refine ⟨rfl, rfl, Nat.le_refl _, hsound, hapart, fun l hl ↦ hl, hstamped, ?_, ?_, ?_⟩
  · intro p stamp hprevious
    obtain ⟨hfinds, hstamp⟩ := (hscan p stamp).1 hprevious
    exact ⟨hfinds.mem_sources hsound, hstamped p (hfinds.mem_sources hsound) stamp hstamp⟩
  · -- nothing was edited yet
    rintro p - - - ⟨⟩
  · intro p hsees _
    refine ⟨rfl, Option.ext fun stamp ↦ ?_⟩
    rw [hscan, and_iff_right hsees.1]
    rfl

/-- What is found at any time is a source. -/
theorem mem_sources (h : Tracked pipeline watch start session previous)
    (hfinds : watch.Finds session.space p) : p ∈ watch.sources start.here := by
  rw [← h.sameHere]
  exact hfinds.mem_sources h.sound

/-- What was never edited is still found. -/
theorem finds_of_unedited (h : Tracked pipeline watch start session previous)
    (hsees : watch.Sees start p) (hunedited : p.parts ∉ session.edited) :
    watch.Finds session.space p :=
  hsees.1.mono h.sameHere h.sound h.directories (h.unedited p hsees hunedited).1

section Edit

variable {edit : Edit} (h : Tracked pipeline watch start session previous)
  (habsolute : start.here.isAbsolute = true) (possible : edit.Possible session.space.tree)
include h habsolute possible

/-- The stamp of a source after an edit is that of the edit or the one that it had. -/
theorem stamp?_afterEdit (hp : p ∈ watch.sources start.here) {stamp : Stamp}
    (hstamp : (edit.apply session.space.tree).stamp? p = some stamp) :
    p.parts = edit.location ∧ edit.stamp? = some stamp ∨
      p.parts ≠ edit.location ∧ session.space.tree.stamp? p = some stamp := by
  have hplain := (Coordinator.listing_sources habsolute).isPlain p hp
  have hsound' := Edit.sound_apply possible h.sound
  have hfind := Edit.find?_apply possible h.sound p.parts
  by_cases hhere : p.parts = edit.location
  · obtain ⟨bytes, modified, hlook, rfl⟩ := Tree.stamp?_eq_some.1 hstamp
    obtain ⟨-, hfile⟩ := (hsound'.look_eq_some hplain).1 hlook
    rw [hfind, if_pos hhere] at hfile
    exact Or.inl ⟨hhere, Edit.stamp?_eq_some hfile⟩
  · rw [if_neg hhere] at hfind
    rw [h.sound.stamp?_congr hsound' hplain hfind] at hstamp
    exact Or.inr ⟨hhere, hstamp⟩

/-- **An edit keeps track.** -/
theorem afterEdit
    (away : edit.location ∉
      pipeline.artifactsOf (watch.sources start.here) ∪ pipeline.tempPlaces start.scratch)
    (fresh : ∀ stamp, edit.stamp? = some stamp → (edit.location, stamp) ∉ session.stamps) :
    Tracked pipeline watch start (session.afterEdit edit) previous := by
  have hsound' := Edit.sound_apply possible h.sound
  have helsewhere : ∀ l, l ≠ edit.location →
      (edit.apply session.space.tree).find? l = session.space.tree.find? l := fun l hl ↦ by
    rw [Edit.find?_apply possible h.sound, if_neg hl]
  obtain ⟨hartifact, htemp⟩ := not_or.1 away
  refine ⟨h.sameWatch, h.sameHere, h.scratch, hsound', ?_, ?_, ?_, ?_, ?_, ?_⟩
  · -- scratch names that are still to come were reserved at the start
    refine h.apart.later (Nat.le_refl _) ?_
    rintro l ⟨n, hn, rfl⟩
    refine helsewhere _ fun heq ↦ htemp ?_
    exact ⟨n, h.scratch.trans hn, heq.symm⟩
  · exact fun l hl ↦ Edit.find?_directory_apply possible h.sound (h.directories l hl)
  · intro p hp stamp hstamp
    rcases h.stamp?_afterEdit habsolute possible hp hstamp with ⟨hhere, hnew⟩ | ⟨-, hold⟩
    · exact Or.inr ⟨hhere, hnew⟩
    · exact Or.inl (h.stamped p hp stamp hold)
  · intro p stamp hprevious
    obtain ⟨hp, hknown⟩ := h.remembered p stamp hprevious
    exact ⟨hp, Or.inl hknown⟩
  · intro p stamp hprevious hstamp hedited
    obtain ⟨hp, hknown⟩ := h.remembered p stamp hprevious
    rcases h.stamp?_afterEdit habsolute possible hp hstamp with ⟨hhere, hnew⟩ | ⟨hother, hold⟩
    · -- the last look cannot have seen a stamp that is new
      exact absurd (hhere ▸ hknown) (fresh stamp hnew)
    · rcases h.settled p stamp hprevious hold (hedited.resolve_left hother) with
        hdeclared | hfailed
      · refine Or.inl (hdeclared.congr h.apart.suffix
          ((Coordinator.listing_sources habsolute).isPlain p hp) h.sound hsound'
          (helsewhere _ hother) (helsewhere _ fun heq ↦ hartifact ?_))
        exact ⟨p, hp, heq.symm⟩
      · exact Or.inr hfailed
  · intro p hsees hunedited
    obtain ⟨hother, hunedited⟩ := not_or.1 hunedited
    obtain ⟨hfind, hprevious⟩ := h.unedited p hsees hunedited
    have hplain := Tree.isPlain_of_isFile h.sound
      (Glob.isFile_of_mem_files (h.finds_of_unedited hsees hunedited).1)
    refine ⟨(helsewhere _ hother).trans hfind, hprevious.trans ?_⟩
    exact (h.sound.stamp?_congr hsound' hplain (helsewhere _ hother)).symm

end Edit

end Tracked

/-! ### Rounds -/

/-- What a round comes to: it sees the current stamps, and converts the sources whose stamp is
new. -/
structure Round (pipeline : Pipeline) (watch : Coordinator) (before : Workspace)
    (previous current : Snapshot) (look : Look) (after : Workspace) : Prop where
  scan : ∀ p stamp, current.stamp? p = some stamp ↔
    watch.Finds before p ∧ before.tree.stamp? p = some stamp
  events : look.events = (Delta.between previous current).events
  batched : pipeline.Batched before (look.events.map Event.path) look.outcomes after
  nodup : (look.events.map Event.path).Nodup

namespace Round

variable {pipeline : Pipeline} {before after : Workspace} {previous current : Snapshot} {look : Look}

theorem mem_events (h : Round pipeline watch before previous current look after) :
    p ∈ look.events.map Event.path ↔
      ∃ stamp, current.stamp? p = some stamp ∧ previous.stamp? p ≠ some stamp := by
  rw [h.events]
  exact Delta.mem_events

theorem sees (h : Round pipeline watch before previous current look after)
    (hp : p ∈ look.events.map Event.path) : watch.Sees before p := by
  obtain ⟨stamp, hcurrent, -⟩ := h.mem_events.1 hp
  obtain ⟨hfinds, hstamp⟩ := (h.scan p stamp).1 hcurrent
  exact Coordinator.sees_iff.2 ⟨hfinds, stamp, hstamp⟩

end Round

namespace Tracked

variable {pipeline : Pipeline} {session : Session} {previous current : Snapshot} {look : Look}
  {after : Workspace} (h : Tracked pipeline watch start session previous)
  (habsolute : start.here.isAbsolute = true)
  (hlogs : ∀ p ∈ watch.sources start.here,
    (pipeline.artifactOf p).parts ∉ pipeline.logPlaces)
include h habsolute hlogs

/-- **A round never breaks off.** -/
theorem exists_round (hcanLog : pipeline.CanLog)
    (hopened : (Glob.opened? watch.pattern).any Path.hasNull = false) :
    ∃ look current after, session.watch.poll pipeline session.space =
        (.ok look, { watch with snapshot := some current }, after) ∧
      Round pipeline watch session.space previous current look after := by
  obtain ⟨current, hscan, hnodup, hcurrent⟩ := Coordinator.exists_scan hopened session.space
  let events := (Delta.between previous current).events
  have hsources : ∀ p ∈ events.map Event.path, p ∈ watch.sources start.here := by
    intro p hp
    obtain ⟨stamp, hstamp, -⟩ := Delta.mem_events.1 hp
    exact h.mem_sources ((hcurrent p stamp).1 hstamp).1
  obtain ⟨outcomes, after, hprocessAll, hbatched⟩ :=
    Pipeline.processAll_logged h.apart (Coordinator.listing_sources habsolute) hlogs hcanLog h.sound
      hsources
  refine ⟨⟨events, outcomes⟩, current, after, ?_, hcurrent, rfl, hbatched,
    Delta.nodup_events hnodup⟩
  have hscan' : Coordinator.scan { watch with snapshot := some previous } session.space =
      .ok current := hscan
  rw [h.sameWatch, Coordinator.poll, hscan']
  simp only [events] at hprocessAll ⊢
  rw [hprocessAll]
  rfl

section Round

variable (round : Round pipeline watch session.space previous current look after)
include round

omit habsolute hlogs in
theorem mem_sources_of_event (hp : p ∈ look.events.map Event.path) :
    p ∈ watch.sources start.here :=
  h.mem_sources (round.sees hp).1

omit hlogs in
/-- The stamp of a source stays in a round. -/
theorem stamp?_afterRound (hp : p ∈ watch.sources start.here) :
    after.tree.stamp? p = session.space.tree.stamp? p := by
  refine h.sound.stamp?_congr round.batched.sound
    ((Coordinator.listing_sources habsolute).isPlain p hp) ?_
  exact round.batched.find?_source h.apart (fun q ↦ h.mem_sources_of_event round) hp

/-- **A round keeps track.** -/
theorem afterRound :
    Tracked pipeline watch start
      (session.afterRound look { watch with snapshot := some current } after) current := by
  have hlisting : Pipeline.Listing (watch.sources start.here) :=
    Coordinator.listing_sources habsolute
  have hbatch : ∀ p ∈ look.events.map Event.path, p ∈ watch.sources start.here :=
    fun p ↦ h.mem_sources_of_event round
  have hdirs := round.batched.wrote.sameDirectories
  refine ⟨rfl, round.batched.here.trans h.sameHere, h.scratch.trans round.batched.scratch,
    round.batched.sound, round.batched.apart h.apart hbatch, ?_, ?_, ?_, ?_, ?_⟩
  · exact fun l hl ↦ (hdirs l).1 (h.directories l hl)
  · intro p hp stamp hstamp
    exact h.stamped p hp stamp ((h.stamp?_afterRound habsolute round hp).symm.trans hstamp)
  · intro p stamp hcurrent
    obtain ⟨hfinds, hstamp⟩ := (round.scan p stamp).1 hcurrent
    have hp := h.mem_sources hfinds
    exact ⟨hp, h.stamped p hp stamp hstamp⟩
  · intro p stamp hcurrent _ hedited
    obtain ⟨hfinds, hstamp⟩ := (round.scan p stamp).1 hcurrent
    have hp := h.mem_sources hfinds
    by_cases hevent : p ∈ look.events.map Event.path
    · rcases round.batched.settled p hevent with ⟨outcome, hmem, hsource, hfailed⟩ | hdeclared
      · refine Or.inr (failed_concat ?_ hmem hsource hfailed)
        rw [round.batched.sources]
        exact round.nodup
      · exact Or.inl hdeclared
    · -- nothing happened to it since the look before
      have hprevious : previous.stamp? p = some stamp := by
        by_contra hne
        exact hevent (round.mem_events.2 ⟨stamp, hcurrent, hne⟩)
      rcases h.settled p stamp hprevious hstamp hedited with hdeclared | hfailed
      · exact Or.inl (round.batched.declared h.apart hlisting hlogs h.sound hbatch hp hevent
          hdeclared)
      · exact Or.inr (hfailed.concat (by rwa [round.batched.sources]))
  · intro p hsees hunedited
    obtain ⟨hfind, -⟩ := h.unedited p hsees hunedited
    have hfinds := h.finds_of_unedited hsees hunedited
    have hp := h.mem_sources hfinds
    refine ⟨(round.batched.find?_source h.apart hbatch hp).trans hfind, ?_⟩
    refine Option.ext fun stamp ↦ ?_
    rw [round.scan, and_iff_right hfinds]
    show _ ↔ after.tree.stamp? p = some stamp
    rw [h.stamp?_afterRound habsolute round hp]

end Round

end Tracked

end CssTypings.Watch
