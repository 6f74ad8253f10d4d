import CssTypings.Proofs.Watch.Session
import Mathlib.Logic.Relation

/-!
# A watch loses no update

Whatever edits happen between the rounds of a watch, after each round every watched file that was
edited since the first look has the declaration for what it says, or its last conversion failed; and
a round converts only files that are there and that were edited, or were not there at the first look
(`UpToDate`). The main statement is `watch_keepsUp`, about every session that edits and rounds lead
to.

It needs a log that can be asked about and that is none of the artifacts. Otherwise a watch loses
updates: with a log at the place of an artifact in silence, and with a log that cannot be asked
about because the round breaks off (`watch_log_loses`).
-/

namespace CssTypings.Watch

open Relation

variable {pipeline : Pipeline} {watch watch' : Coordinator} {start : Workspace} {session : Session}

/-- What a round owes to the session that it starts from. -/
structure UpToDate (pipeline : Pipeline) (watch : Coordinator) (start : Workspace)
    (session : Session) (look : Look) (after : Workspace) : Prop where
  /-- What is converted is a file that the watch finds. -/
  sees : ∀ event ∈ look.events, watch.Sees session.space event.path
  /-- If it was there at the first look, it was edited since. -/
  edited : ∀ event ∈ look.events, watch.Sees start event.path →
    event.path.parts ∈ session.edited
  /-- Every event has its outcome. -/
  outcomes : look.outcomes.map Outcome.source = look.events.map Event.path
  /-- What was edited has its declaration unless it failed. -/
  settled : ∀ p, watch.Sees after p → p.parts ∈ session.edited →
    pipeline.Declared after.tree p ∨ Failed (session.looks ++ [look]) p

/-- The next round gives a result and does what it owes. -/
def KeepsUp (pipeline : Pipeline) (watch : Coordinator) (start : Workspace) (session : Session) :
    Prop :=
  ∃ look next after, session.watch.poll pipeline session.space = (.ok look, next, after) ∧
    UpToDate pipeline watch start session look after

/-- The places that edits keep away from: those of artifacts and scratch files. -/
def reserved (pipeline : Pipeline) (watch : Coordinator) (start : Workspace) : Set Location :=
  pipeline.artifactsOf (watch.sources start.here) ∪ pipeline.tempPlaces start.scratch

/-- Where edits and rounds lead from the first look. -/
def Reaches (pipeline : Pipeline) (watch : Coordinator) (start : Workspace) :
    Session → Session → Prop :=
  ReflTransGen (Session.Step pipeline (reserved pipeline watch start))

/-- A first look that can be made says that every look can be made. -/
theorem exists_subscribe (h : watch.subscribe start = .ok watch') :
    (Glob.opened? watch.pattern).any Path.hasNull = false ∧
      ∃ current : Snapshot, watch' = { watch with snapshot := some current } ∧
        ∀ p stamp, current.stamp? p = some stamp ↔
          watch.Finds start p ∧ start.tree.stamp? p = some stamp := by
  obtain ⟨current, hscan, rfl⟩ := exists_of_map_eq_ok h
  have hopened := Coordinator.hasNull_opened_of_scan hscan
  obtain ⟨current', hscan', -, hcurrent⟩ := Coordinator.exists_scan hopened start
  obtain rfl := Except.ok.inj (hscan.symm.trans hscan')
  exact ⟨hopened, current, rfl, hcurrent⟩

section Reachable

variable (habsolute : start.here.isAbsolute = true) (hsound : start.tree.Sound)
  (hapart : pipeline.Apart (watch.sources start.here) start)
  (hlogs : ∀ p ∈ watch.sources start.here, (pipeline.artifactOf p).parts ∉ pipeline.logPlaces)
  (hcanLog : pipeline.CanLog) (hsubscribe : watch.subscribe start = .ok watch')
  (hreaches : Reaches pipeline watch start (Session.initial watch' start) session)
include habsolute hsound hapart hlogs hcanLog hsubscribe hreaches

/-- **Every session is tracked.** -/
theorem exists_tracked : ∃ previous, Tracked pipeline watch start session previous := by
  obtain ⟨hopened, current, rfl, hcurrent⟩ := exists_subscribe hsubscribe
  induction hreaches with
  | refl => exact ⟨current, Tracked.initial habsolute hsound hapart hcurrent⟩
  | tail _ hstep ih =>
    obtain ⟨previous, h⟩ := ih
    cases hstep with
    | edit edit possible away fresh => exact ⟨previous, h.afterEdit habsolute possible away fresh⟩
    | round look watch' space poll =>
      -- the round that took place is the one that there is
      obtain ⟨look', current', after, hpoll, round⟩ :=
        h.exists_round habsolute hlogs hcanLog hopened
      obtain ⟨hlook, hrest⟩ := Prod.mk.inj (hpoll.symm.trans poll)
      obtain ⟨rfl, rfl⟩ := Prod.mk.inj hrest
      obtain rfl := Except.ok.inj hlook
      exact ⟨current', h.afterRound habsolute hlogs round⟩

/-- **A watch loses no update.** -/
theorem watch_keepsUp : KeepsUp pipeline watch start session := by
  obtain ⟨previous, h⟩ :=
    exists_tracked habsolute hsound hapart hlogs hcanLog hsubscribe hreaches
  obtain ⟨hopened, -⟩ := exists_subscribe hsubscribe
  obtain ⟨look, current, after, hpoll, round⟩ := h.exists_round habsolute hlogs hcanLog hopened
  have hafter := h.afterRound habsolute hlogs round
  have hevent : ∀ event ∈ look.events, event.path ∈ look.events.map Event.path :=
    fun event hmem ↦ List.mem_map_of_mem hmem
  refine ⟨look, _, after, hpoll, fun event hmem ↦ round.sees (hevent event hmem), ?_,
    round.batched.sources, ?_⟩
  · intro event hmem hsees
    obtain ⟨stamp, hcurrent, hprevious⟩ := round.mem_events.1 (hevent event hmem)
    -- otherwise the last look saw the stamp that this one sees
    by_contra hunedited
    obtain ⟨-, hseen⟩ := h.unedited event.path hsees hunedited
    exact hprevious (hseen.trans ((round.scan _ _).1 hcurrent).2)
  · intro p hsees hedited
    obtain ⟨hfinds, stamp, hstamp⟩ := Coordinator.sees_iff.1 hsees
    have hp := hafter.mem_sources hfinds
    -- what is found after the round was found by its look
    have hfinds' : watch.Finds session.space p := by
      refine hfinds.mono round.batched.here.symm h.sound
        (fun l ↦ (round.batched.wrote.sameDirectories l).2) ?_
      exact (round.batched.find?_source h.apart (fun q ↦ h.mem_sources_of_event round) hp).symm
    have hcurrent : current.stamp? p = some stamp :=
      (round.scan p stamp).2 ⟨hfinds', (h.stamp?_afterRound habsolute round hp).symm.trans hstamp⟩
    exact hafter.settled p stamp hcurrent hstamp hedited

end Reachable

/-! ### A watch in a project -/

section Sample

open Pipeline (sample sampleTree sampleSpace ready_sample)

/-- A watch over the stylesheets of the project. -/
def sampleWatch : Coordinator := ⟨"/w/**/*.css".toList, .ofText "/w".toList, [], none⟩

/-- Conversions in the project with a log at a path. -/
def logged (path : String) : Pipeline :=
  { sample with eventLog := some (.ofText path.toList), mode := "watch".toList }

/-- What the first look at the project sees. -/
def firstLook : Snapshot :=
  [(.ofText "/w/a.css".toList, ⟨5, 0⟩), (.ofText "/w/b.css".toList, ⟨9, 2⟩)]

/-- The stylesheet that does not compile is touched. -/
def sampleTouch : Edit :=
  .write ["w".toList, "b.css".toList] (Utf8.encode "@error no".toList) 7

/-- The other one is replaced. -/
def sampleReplacement : Edit :=
  .write ["w".toList, "a.css".toList] (Utf8.encode ".b \x7b\x7d".toList) 8

/-- The session with both edits. -/
def sampleSession : Session :=
  ((Session.initial { sampleWatch with snapshot := some firstLook } sampleSpace).afterEdit
    sampleTouch).afterEdit sampleReplacement

/-- What the next look sees. -/
def secondLook : Snapshot :=
  [(.ofText "/w/a.css".toList, ⟨5, 8⟩), (.ofText "/w/b.css".toList, ⟨9, 7⟩)]

/-- The last character of a location. -/
def lastChar? (l : Location) : Option Char := l.getLast?.bind List.getLast?

theorem lastChar?_source {p : Path} (hp : p ∈ sampleWatch.sources sampleSpace.here) :
    lastChar? p.parts = some 's' := by
  obtain ⟨⟨tree, -, hfiles⟩, -⟩ := hp
  have hsegments : Glob.segments? sampleWatch.pattern =
      some ([.plain "w".toList, .deep] ++ [.wild "*.css".toList]) := by decide
  obtain ⟨directory, name, hparts, hmatch⟩ := Glob.exists_name_of_mem_files hsegments hfiles
  have hmagic : ∀ c ∈ ".css".toList, Glob.isMagic c = false := Glob.not_isMagic_of_any (by decide)
  obtain ⟨stem, rfl⟩ := (Glob.wildcard_star hmagic).1 hmatch
  simp [lastChar?, hparts]

variable {log : String} {l : Location}

theorem lastChar?_artifact
    (hl : l ∈ (logged log).artifactsOf (sampleWatch.sources sampleSpace.here)) :
    lastChar? l = some 'w' := by
  obtain ⟨p, hp, rfl⟩ := hl
  have hlisting : Pipeline.Listing (sampleWatch.sources sampleSpace.here) :=
    Coordinator.listing_sources rfl
  have hslash : '/' ∉ ".flow".toList := by decide
  have hartifact : (logged log).artifactOf p =
      ⟨p.anchor, p.parts.dropLast ++ [p.name ++ ".flow".toList]⟩ :=
    Path.artifact_eq hslash (hlisting.ne_nil p hp) (hlisting.isPlain p hp)
  simp [lastChar?, hartifact]

/-- A scratch path leads to a name in its own directory. -/
theorem exists_eq_of_mem_tempPlaces (hl : l ∈ (logged log).tempPlaces sampleSpace.scratch) :
    ∃ stem : Text, l = ["tmp".toList, stem ++ ".css".toList] := by
  obtain ⟨n, -, hplace⟩ := hl
  have hstore : (logged log).store = sample.store := rfl
  have hplain : (sample.store.scratchPath n).IsPlain :=
    Store.isPlain_scratchPath (by decide) (by decide) n
  have hparts : (sample.store.scratchPath n).parts =
      ["tmp".toList] ++ [Store.defaultLabel ++ Store.numbered n] :=
    Store.parts_scratchPath (by decide) n
  refine ⟨Store.defaultLabel ++ Text.hex 32 n, ?_⟩
  rw [hplace, hstore, Path.place_of_isPlain hplain, hparts, Store.numbered, List.append_assoc]
  rfl

/-- In the project every log is apart from the sources and the scratch files whose last character is
another one. -/
theorem apart_logged (hlog : lastChar? (Path.ofText log.toList).place ≠ some 's') :
    (logged log).Apart (sampleWatch.sources sampleSpace.here) sampleSpace := by
  have hlogs : ∀ l ∈ (logged log).logPlaces, lastChar? l ≠ some 's' := by
    rintro l ⟨path, hpath, rfl⟩
    obtain rfl : Path.ofText log.toList = path := Option.some.inj hpath
    exact hlog
  refine ⟨by show '/' ∉ ".flow".toList; decide, ?_, ?_, ?_⟩
  · intro p hp hmem
    have hlast := lastChar?_artifact hmem
    rw [lastChar?_source hp] at hlast
    cases hlast
  · exact fun p hp hmem ↦ hlogs _ hmem (lastChar?_source hp)
  · intro l hl
    obtain ⟨stem, rfl⟩ := exists_eq_of_mem_tempPlaces hl
    have hlast : lastChar? ["tmp".toList, stem ++ ".css".toList] = some 's' := by
      simp [lastChar?]
    refine ⟨fun hmem ↦ ?_, fun hmem ↦ hlogs _ hmem hlast, ?_⟩
    · have hlast' := lastChar?_artifact hmem
      rw [hlast] at hlast'
      cases hlast'
    · have hempty : ∀ e ∈ sampleTree.entries, e.1.dropLast ≠ ["tmp".toList] := by decide
      by_contra hsome
      obtain ⟨entry, hentry⟩ := Option.ne_none_iff_exists'.1 hsome
      exact hempty _ (Tree.mem_of_find? (by simp) hentry) rfl

theorem subscribe_sample :
    sampleWatch.subscribe sampleSpace = .ok { sampleWatch with snapshot := some firstLook } := by
  have hscan : sampleWatch.scan sampleSpace = .ok firstLook :=
    Coordinator.scan_of_found (by decide +kernel) sampleSpace (by decide +kernel) (by decide)
      (by decide +kernel)
  rw [Coordinator.subscribe, hscan]
  rfl

theorem mem_stampsIn {tree : Tree} {bytes : Bytes} {modified : Int} {stamp : Stamp}
    (h : tree.find? l = some (.file bytes modified)) :
    (l, stamp) ∈ stampsIn tree ↔ stamp = ⟨bytes.length, modified⟩ := by
  constructor
  · rintro ⟨bytes', modified', hfind, hstamp⟩
    cases hfind.symm.trans h
    exact hstamp
  · intro hstamp
    exact ⟨bytes, modified, h, hstamp⟩

/-- The edits are possible in the project and give new stamps. -/
theorem reaches_sampleSession :
    Reaches (logged log) sampleWatch sampleSpace
      (Session.initial { sampleWatch with snapshot := some firstLook } sampleSpace)
      sampleSession := by
  have haway : ∀ name : Text, lastChar? ["w".toList, name] = some 's' →
      ["w".toList, name] ∉ reserved (logged log) sampleWatch sampleSpace := by
    rintro name hname (hartifact | htemp)
    · rw [lastChar?_artifact hartifact] at hname
      cases hname
    · obtain ⟨stem, heq⟩ := exists_eq_of_mem_tempPlaces htemp
      exact absurd (congrArg List.head? heq) (by simp)
  have hb : sampleTree.find? sampleTouch.location =
      some (.file (Utf8.encode "@error no".toList) 2) := by decide
  have ha : sampleTree.find? sampleReplacement.location =
      some (.file (Utf8.encode ".a \x7b\x7d".toList) 0) := by decide
  refine Relation.ReflTransGen.tail (.single (.edit _ sampleTouch ?_ (haway _ (by decide)) ?_))
    (.edit _ sampleReplacement ?_ (haway _ (by decide)) ?_)
  · exact ⟨⟨["w".toList], "b.css".toList, rfl, by decide, by decide⟩, by decide⟩
  · rintro stamp hstamp hmem
    cases hstamp
    exact absurd ((mem_stampsIn hb).1 hmem) (by decide)
  · exact ⟨⟨["w".toList], "a.css".toList, rfl, by decide, by decide⟩, by decide⟩
  · rintro stamp hstamp (hmem | ⟨hmem, -⟩)
    · cases hstamp
      exact absurd ((mem_stampsIn ha).1 hmem) (by decide)
    · have hother : sampleReplacement.location ≠ sampleTouch.location := by decide
      exact hother hmem

/-- In the project the watch keeps up with the edits. -/
theorem watch_keepsUp_sample :
    KeepsUp (logged "/w/log") sampleWatch sampleSpace sampleSession := by
  have hlast : ∀ l ∈ (logged "/w/log").logPlaces, lastChar? l = some 'g' := by
    rintro l ⟨path, hpath, rfl⟩
    obtain rfl : Path.ofText "/w/log".toList = path := Option.some.inj hpath
    decide
  refine watch_keepsUp rfl ready_sample.tree (apart_logged (by decide)) ?_ ?_ subscribe_sample
    reaches_sampleSession
  · intro p hp hmem
    have hartifact : lastChar? ((logged "/w/log").artifactOf p).parts = some 'w' :=
      lastChar?_artifact ⟨p, hp, rfl⟩
    rw [hlast _ hmem] at hartifact
    cases hartifact
  · intro path hpath
    obtain rfl : Path.ofText "/w/log".toList = path := Option.some.inj hpath
    exact ⟨by decide, by decide⟩

/-- The next round of the session converts both stylesheets. -/
theorem poll_sample (pipeline : Pipeline) :
    sampleSession.watch.poll pipeline sampleSession.space =
      ((pipeline.processAll firstLook.paths sampleSession.space).1.map
          (⟨firstLook.paths.map (⟨.changed, ·⟩), ·⟩),
        { sampleWatch with snapshot := some secondLook },
        (pipeline.processAll firstLook.paths sampleSession.space).2) := by
  have hscan : sampleSession.watch.scan sampleSession.space = .ok secondLook :=
    Coordinator.scan_of_found (by decide +kernel) sampleSession.space (by decide +kernel) (by decide)
      (by decide +kernel)
  have hevents : (Delta.between firstLook secondLook).events =
      firstLook.paths.map (⟨.changed, ·⟩) :=
    Delta.events_of_pairwise [] firstLook.paths (by decide +kernel) (by decide +kernel) .nil
      (by decide)
  exact Coordinator.poll_eq rfl hscan hevents pipeline

/-- All places but that of the log are apart, and yet the watch does not keep up with the
session. -/
def LosesUpdate (log : String) : Prop :=
  (logged log).Apart (sampleWatch.sources sampleSpace.here) sampleSpace ∧
    (∃ watch, sampleWatch.subscribe sampleSpace = .ok watch ∧
      Reaches (logged log) sampleWatch sampleSpace (Session.initial watch sampleSpace)
        sampleSession) ∧
    ¬ KeepsUp (logged log) sampleWatch sampleSpace sampleSession

/-- **A log can make a watch lose updates.** At the place of an artifact it spoils the declaration
of a conversion that succeeds; a log about which nothing can be asked ends the round without
outcomes. -/
theorem watch_log_loses : LosesUpdate "/w/a.css.flow" ∧ LosesUpdate "/w/log\x00" := by
  constructor
  · refine ⟨apart_logged (by decide), ⟨_, subscribe_sample, reaches_sampleSession⟩, ?_⟩
    rintro ⟨look, next, after, hpoll, h⟩
    rw [poll_sample] at hpoll
    obtain ⟨hlook, hrest⟩ := Prod.mk.inj hpoll
    obtain ⟨-, rfl⟩ := Prod.mk.inj hrest
    obtain ⟨outcomes, houtcomes, rfl⟩ := exists_of_map_eq_ok hlook
    have hsees : sampleWatch.Sees
        ((logged "/w/a.css.flow").processAll firstLook.paths sampleSession.space).2
        (.ofText "/w/a.css".toList) :=
      ⟨⟨by decide +kernel, by decide +kernel⟩, Utf8.encode ".b \x7b\x7d".toList, 8,
        by decide +kernel⟩
    rcases h.settled _ hsees (Or.inl rfl) with hdeclared | ⟨outcome, hlast, hfailed⟩
    · exact absurd hdeclared (by decide +kernel)
    · -- the conversion is told to be a success
      have hok : (((logged "/w/a.css.flow").processAll firstLook.paths
          sampleSession.space).1.toOption.bind fun outcomes ↦
            outcomes.reverse.find? (·.source = .ofText "/w/a.css".toList)).all Outcome.ok = true := by
        decide +kernel
      have hnone : lastOutcome? sampleSession.looks (.ofText "/w/a.css".toList) = none := rfl
      rw [lastOutcome?_concat, hnone, Option.or_none] at hlast
      rw [houtcomes, Except.toOption, Option.bind_some, hlast, Option.all_some, hfailed] at hok
      cases hok
  · refine ⟨apart_logged (by decide), ⟨_, subscribe_sample, reaches_sampleSession⟩, ?_⟩
    rintro ⟨look, next, after, hpoll, -⟩
    rw [poll_sample] at hpoll
    have hfault : ((logged "/w/log\x00").processAll firstLook.paths sampleSession.space).1.isOk =
        false := by
      decide +kernel
    obtain ⟨outcomes, houtcomes, -⟩ := exists_of_map_eq_ok (Prod.mk.inj hpoll).1
    rw [houtcomes] at hfault
    cases hfault

end Sample

end CssTypings.Watch
