import CssTypings.Proofs.EventLog.Appending
import CssTypings.Proofs.Pipeline.Copies
import CssTypings.Proofs.Pipeline.Independence
import CssTypings.Proofs.Pipeline.Turns

/-!
# Conversions with a log and without

The log is one more file that conversions write to, and no conversion looks at it. So conversions
that are logged are compared with the same conversions in a copy of the workspace that are not
(`Shadows`): the two trees have the same directories and, outside the log, the same contents.

No turn depends on anything else. If a conversion that is logged has come as far as one that is not
(`Stage.Matches`), it does so with every turn (`Shadows.advance`). What its turns leave behind
besides is a line in the log when it is over, or a report if the log cannot be written (`GoesOn`).
-/

namespace CssTypings

open CssTypings.Tree (SameOutside way)

variable {tree tree' : Tree} {p path : Path} {location : Location} {t : Text}

/-! ### Logs in changing trees -/

namespace Tree

/-- The way to the path is there: if the path leads nowhere, then because a name is too long. -/
def IsReachable (tree : Tree) (p : Path) : Prop :=
  ∀ what q, tree.walk p = .error (.trouble what q) → what = .nameTooLong

section IsReachable

variable (h : tree.IsReachable p) (hdirs : SameDirectories tree tree')
include h hdirs

/-- In a tree with the same directories the path leads to the same location, or nowhere for the same
reason. -/
theorem IsReachable.walk_cases :
    (∃ l e, tree.walk p = .ok (l, e) ∧ tree'.walk p = .ok (l, tree'.find? l)) ∨
      ∃ fault, tree.walk p = .error fault ∧ tree'.walk p = .error fault := by
  cases hwalk : tree.walk p with
  | ok found => exact Or.inl ⟨found.1, found.2, rfl, walk_mono (fun l ↦ (hdirs l).1) hwalk⟩
  | error fault =>
    refine Or.inr ⟨fault, rfl, ?_⟩
    rw [IsReachable, hwalk] at h
    rw [walk] at hwalk ⊢
    by_cases hnull : p.hasNull = true
    · rwa [if_pos hnull] at hwalk ⊢
    · rw [if_neg hnull] at hwalk ⊢
      by_cases hlong : pathLimit < Utf8.size p.text
      · rwa [if_pos hlong] at hwalk ⊢
      · rw [if_neg hlong] at hwalk ⊢
        cases hfollow : tree.follow [] p.parts with
        | ok found =>
          rw [hfollow] at hwalk
          cases hwalk
        | error trouble =>
          rw [hfollow] at hwalk
          cases hwalk
          obtain rfl : trouble = .nameTooLong := h trouble p rfl
          rw [follow_long_mono (fun l ↦ (hdirs l).1) hfollow]
          rfl

theorem IsReachable.of_sameDirectories : tree'.IsReachable p := by
  intro what q hwalk'
  rcases h.walk_cases hdirs with ⟨l, e, -, hwalk⟩ | ⟨fault, hwalk, hsame⟩
  · cases hwalk.symm.trans hwalk'
  · cases hsame.symm.trans hwalk'
    exact h what q hwalk

theorem IsReachable.target_eq : tree'.target p = tree.target p := by
  rw [target, target]
  rcases h.walk_cases hdirs with ⟨l, e, hwalk, hwalk'⟩ | ⟨fault, hwalk, hwalk'⟩
  · simp only [hwalk, hwalk', find?_of_walk hwalk, hdirs l]
  · rw [hwalk, hwalk']

end IsReachable

end Tree

namespace EventLog

/-- A log keeps its text as long as it is left alone. -/
theorem Holds.congr (h : Holds tree path t) (hdirs : Tree.SameDirectories tree tree')
    (hsame : ∀ l, tree.target path = .ok l → tree'.find? l = tree.find? l) :
    Holds tree' path t := by
  have hmono := fun l ↦ (hdirs l).1
  rcases h with ⟨location, hwalk, rfl⟩ | ⟨location, modified, hwalk⟩
  · have htarget : tree.target path = .ok location := Tree.target_eq_ok.2 ⟨_, hwalk, by simp⟩
    refine Or.inl ⟨location, ?_, rfl⟩
    rw [Tree.walk_mono hmono hwalk, hsame location htarget, ← Tree.find?_of_walk hwalk]
  · have htarget : tree.target path = .ok location := Tree.target_eq_ok.2 ⟨_, hwalk, by simp⟩
    refine Or.inr ⟨location, modified, ?_⟩
    rw [Tree.walk_mono hmono hwalk, hsame location htarget, ← Tree.find?_of_walk hwalk]

end EventLog

namespace Pipeline

variable {pipeline : Pipeline} {space bare middle middle' : Workspace} {source : Path}
  {taken : Set Location} {logged : Except Tree.Fault Location}

variable (pipeline) in
/-- The same conversions without a log. -/
def unlogged : Pipeline := { pipeline with eventLog := none }

@[simp] theorem unlogged_store : pipeline.unlogged.store = pipeline.store := rfl

/-- What is reported when an outcome is logged: nothing, or that the log cannot be written. -/
def logReports (path : Path) : Except Tree.Fault Location → List Report
  | .ok _ => []
  | .error fault => [.failed ("Could not write event log " ++ path.toString ++ ": " ++ fault.message)]

/-- **What is logged** is a line more in the log, or a report if the log cannot be written. -/
theorem log_recorded (hlog : pipeline.eventLog = some path) (hproper : path.IsProper)
    (hnull : path.hasNull = false) (space : Workspace) (hsound : space.tree.Sound)
    (outcome : Outcome) :
    ∃ after, pipeline.log outcome space = (.ok (), after) ∧ after.tree.Sound ∧
      after.here = space.here ∧ after.now = space.now ∧ after.scratch = space.scratch ∧
      after.reports = space.reports ++ logReports path (space.tree.target path) ∧
      Tree.WroteAt {l | space.tree.target path = .ok l} space.tree after.tree ∧
      ∀ t, EventLog.Holds space.tree path t →
        EventLog.Holds after.tree path (t ++ (pipeline.eventOf space.now outcome).line) := by
  have hholds (t : Text) (h : EventLog.Holds space.tree path t) :=
    EventLog.exists_append_of_holds h (pipeline.eventOf space.now outcome)
  rw [log, hlog]
  simp only [EventLog.append] at hholds ⊢
  rcases Tree.append_cases space.tree path
    (Utf8.encode (pipeline.eventOf space.now outcome).line) with
    ⟨location, contents, htarget, happend⟩ | ⟨fault, htarget, happend⟩
  · rw [happend, htarget]
    refine ⟨_, rfl, hsound.stamped_target hproper htarget contents, rfl, rfl, rfl,
      (List.append_nil _).symm, ?_, fun t ht ↦ ?_⟩
    · refine (Tree.wroteAt_stamped (Tree.find?_ne_of_target htarget) contents).mono ?_
      rintro l rfl
      rfl
    · obtain ⟨after, happend', hafter⟩ := hholds t ht
      cases happend.symm.trans happend'
      exact hafter
  · rw [happend, htarget]
    cases fault with
    | nullCharacter => exact absurd htarget (Tree.target_ne_nullCharacter space.tree hnull)
    | trouble what path' =>
      refine ⟨_, rfl, hsound, rfl, rfl, rfl, rfl, Tree.WroteAt.refl _ _, fun t ht ↦ ?_⟩
      obtain ⟨after, happend', -⟩ := hholds t ht
      cases happend.symm.trans happend'

/-! ### Workspaces with a log and without -/

variable (pipeline) in
/-- The log of a workspace is apart from the artifacts and from the way to scratch files. -/
structure LogApart (taken : Set Location) (logged : Except Tree.Fault Location) : Prop where
  taken : ∀ l, logged = .ok l → l ∉ taken
  scratch : ∀ l, logged = .ok l → ∀ n, l ∉ way [] (pipeline.store.scratchPath n).parts

variable (pipeline) in
/-- A workspace in which conversions are logged, and one in which the same are not. -/
structure Shadows (path : Path) (taken : Set Location) (logged : Except Tree.Fault Location)
    (space bare : Workspace) : Prop where
  here : bare.here = space.here
  target : space.tree.target path = logged
  reachable : space.tree.IsReachable path
  outside : SameOutside {l | logged = .ok l} space.tree bare.tree
  sound : space.tree.Sound
  sound' : bare.tree.Sound
  fresh : pipeline.Fresh space (taken ∪ {l | logged = .ok l})
  fresh' : pipeline.Fresh bare taken

/-! ### Stages with a log and without -/

namespace Stage

/-- What is reported of a conversion if `extra` is reported when it is logged. -/
def reports (pipeline : Pipeline) (here : Path) (extra : List Report) : Stage → List Report
  | reported outcome => [pipeline.reportOf here outcome]
  | ended outcome => pipeline.reportOf here outcome :: extra
  | _ => []

variable {stage : Stage}

theorem reports_of_result? (h : stage.result? = none) (here : Path) (extra : List Report) :
    stage.reports pipeline here extra = [] := by
  cases stage with
  | reported outcome => cases h
  | ended outcome => cases h
  | _ => rfl

theorem outcome?_of_result? (h : stage.result? = none) : stage.outcome? = none := by
  cases stage with
  | ended outcome => cases h
  | _ => rfl

/-- The stages of a conversion that is logged and of the same that is not. -/
inductive Matches (tree : Tree) (source : Path) : Stage → Stage → Prop
  | waiting : Matches tree source waiting waiting
  | compiled (css : Text) (h : tree.HasDirectoryOf source) :
    Matches tree source (compiled css) (compiled css)
  | declared (declaration : Text) (h : tree.HasDirectoryOf source) :
    Matches tree source (declared declaration) (declared declaration)
  | reported {outcome outcome' : Outcome} (h : outcome.source = source)
    (halike : outcome.Alike outcome') : Matches tree source (reported outcome) (reported outcome')
  | ended {outcome outcome' : Outcome} (h : outcome.source = source)
    (halike : outcome.Alike outcome') : Matches tree source (ended outcome) (ended outcome')

theorem Matches.exists_ended {stage' : Stage} {outcome : Outcome}
    (h : stage.Matches tree source stage') (houtcome : stage.outcome? = some outcome) :
    ∃ outcome', stage'.outcome? = some outcome' ∧ outcome.Alike outcome' ∧
      outcome.source = source := by
  cases h with
  | ended h halike =>
    obtain rfl := Option.some.inj houtcome
    exact ⟨_, rfl, halike, h⟩
  | _ => cases houtcome

theorem Matches.exists_ended' {stage' : Stage} {outcome' : Outcome}
    (h : stage.Matches tree source stage') (houtcome : stage'.outcome? = some outcome') :
    ∃ outcome, stage.outcome? = some outcome := by
  cases h with
  | ended h halike => exact ⟨_, rfl⟩
  | _ => cases houtcome

theorem Matches.of_sameDirectories {stage' : Stage} (h : stage.Matches tree source stage')
    (hdirs : Tree.SameDirectories tree tree') : stage.Matches tree' source stage' := by
  cases h with
  | waiting => exact .waiting
  | compiled css h => exact .compiled css (h.of_sameDirectories hdirs)
  | declared declaration h => exact .declared declaration (h.of_sameDirectories hdirs)
  | reported h halike => exact .reported h halike
  | ended h halike => exact .ended h halike

end Stage

variable (pipeline) in
/-- A conversion that is logged goes on, and the same that is not goes on alike. -/
structure GoesOn (path : Path) (taken : Set Location) (logged : Except Tree.Fault Location)
    (source : Path) (now now' next next' : Stage × Workspace) : Prop where
  stages : next.1.Matches next.2.tree source next'.1
  spaces : pipeline.Shadows path taken logged next.2 next'.2
  here : next.2.here = now.2.here
  time : next.2.now = now.2.now
  directories : Tree.SameDirectories now.2.tree next.2.tree
  reports : ∃ more, next.2.reports = now.2.reports ++ more ∧
    next.1.reports pipeline now.2.here (logReports path logged) =
      now.1.reports pipeline now.2.here (logReports path logged) ++ more
  reports' : ∃ more, next'.2.reports = now'.2.reports ++ more ∧
    next'.1.reports pipeline now.2.here [] = now'.1.reports pipeline now.2.here [] ++ more
  /-- An outcome is a line in the log when the conversion is over. -/
  holds : ∃ more, next.1.outcome?.toList = now.1.outcome?.toList ++ more ∧
    ∀ t, EventLog.Holds now.2.tree path t → EventLog.Holds next.2.tree path
      (t ++ (more.map (pipeline.eventOf now.2.now)).flatMap LogEvent.line)

namespace GoesOn

variable {now now' next next' last last' : Stage × Workspace}

theorem refl (hstages : now.1.Matches now.2.tree source now'.1)
    (hspaces : pipeline.Shadows path taken logged now.2 now'.2) :
    pipeline.GoesOn path taken logged source now now' now now' where
  stages := hstages
  spaces := hspaces
  here := rfl
  time := rfl
  directories _ := Iff.rfl
  reports := ⟨[], by simp⟩
  reports' := ⟨[], by simp⟩
  holds := ⟨[], by simp⟩

/-- One turn after the other. -/
theorem trans (h : pipeline.GoesOn path taken logged source now now' next next')
    (h' : pipeline.GoesOn path taken logged source next next' last last') :
    pipeline.GoesOn path taken logged source now now' last last' := by
  obtain ⟨reports, hreports, htold⟩ := h.reports
  obtain ⟨more, hmore, htoldMore⟩ := h'.reports
  obtain ⟨bare, hbare, htoldBare⟩ := h.reports'
  obtain ⟨rest, hrest, htoldRest⟩ := h'.reports'
  obtain ⟨outcomes, houtcomes, hholds⟩ := h.holds
  obtain ⟨others, hothers, hholds'⟩ := h'.holds
  rw [h.here] at htoldMore htoldRest
  rw [h.time] at hholds'
  exact {
    stages := h'.stages
    spaces := h'.spaces
    here := h'.here.trans h.here
    time := h'.time.trans h.time
    directories := fun l ↦ (h.directories l).trans (h'.directories l)
    reports := ⟨reports ++ more, by rw [hmore, hreports, List.append_assoc],
      by rw [htoldMore, htold, List.append_assoc]⟩
    reports' := ⟨bare ++ rest, by rw [hrest, hbare, List.append_assoc],
      by rw [htoldRest, htoldBare, List.append_assoc]⟩
    holds := ⟨outcomes ++ others, by rw [hothers, houtcomes, List.append_assoc], fun t ht ↦ by
      have hlast := hholds' _ (hholds t ht)
      rwa [List.append_assoc, ← List.flatMap_append, ← List.map_append] at hlast⟩ }

end GoesOn

/-! ### Turns that report nothing -/

variable (pipeline) in
/-- Nothing was written but artifacts, and nothing was reported. -/
structure Kept (path : Path) (taken : Set Location) (logged : Except Tree.Fault Location)
    (space bare middle middle' : Workspace) : Prop where
  spaces : pipeline.Shadows path taken logged middle middle'
  here : middle.here = space.here
  time : middle.now = space.now
  wrote : Tree.WroteAt taken space.tree middle.tree
  reports : middle.reports = space.reports
  reports' : middle'.reports = bare.reports

theorem Shadows.kept_self (h : pipeline.Shadows path taken logged space bare) :
    pipeline.Kept path taken logged space bare space bare :=
  ⟨h, rfl, rfl, Tree.WroteAt.refl _ _, rfl, rfl⟩

/-- Artifacts may be written, the same in both workspaces. -/
theorem Shadows.kept (h : pipeline.Shadows path taken logged space bare)
    (hwrote : Tree.WroteAt taken space.tree tree) (hwrote' : Tree.WroteAt taken bare.tree tree')
    (houtside : SameOutside {l | logged = .ok l} tree tree') (hsound : tree.Sound)
    (hsound' : tree'.Sound) {n n' : Nat} (hscratch : space.scratch ≤ n)
    (hscratch' : bare.scratch ≤ n') :
    pipeline.Kept path taken logged space bare { space with tree, scratch := n }
      { bare with tree := tree', scratch := n' } where
  spaces :=
    { here := h.here
      target := (h.reachable.target_eq hwrote.sameDirectories).trans h.target
      reachable := h.reachable.of_sameDirectories hwrote.sameDirectories
      outside := houtside
      sound := hsound
      sound' := hsound'
      fresh := h.fresh.of_wroteAt (hwrote.mono Set.subset_union_left) hscratch
      fresh' := h.fresh'.of_wroteAt hwrote' hscratch' }
  here := rfl
  time := rfl
  wrote := hwrote
  reports := rfl
  reports' := rfl

namespace Kept

variable (h : pipeline.Kept path taken logged space bare middle middle')
  (hlogged : space.tree.target path = logged) (hapart : pipeline.LogApart taken logged)
include h hlogged hapart

/-- The log keeps its text. -/
theorem holds (ht : EventLog.Holds space.tree path t) : EventLog.Holds middle.tree path t :=
  ht.congr h.wrote.sameDirectories fun l hl ↦
    h.wrote.find?_eq (hapart.taken l (hlogged.symm.trans hl))

variable {stage stage' next next' : Stage} (hstage : stage.result? = none)
  (hstage' : stage'.result? = none)
include hstage hstage'

/-- A turn may report nothing. -/
theorem goesOn (hnext : next.result? = none) (hnext' : next'.result? = none)
    (hmatches : next.Matches middle.tree source next') :
    pipeline.GoesOn path taken logged source (stage, space) (stage', bare) (next, middle)
      (next', middle') where
  stages := hmatches
  spaces := h.spaces
  here := h.here
  time := h.time
  directories := h.wrote.sameDirectories
  reports := ⟨[], by simp [h.reports], by
    simp [Stage.reports_of_result? hstage, Stage.reports_of_result? hnext]⟩
  reports' := ⟨[], by simp [h.reports'], by
    simp [Stage.reports_of_result? hstage', Stage.reports_of_result? hnext']⟩
  holds := ⟨[], by simp [Stage.outcome?_of_result? hstage, Stage.outcome?_of_result? hnext],
    fun t ht ↦ by simpa using h.holds hlogged hapart ht⟩

/-- A turn may report outcomes that are alike. -/
theorem conclude {result result' : Except Failure Path}
    (halike : (Outcome.mk source (result.mapError Failure.reason)).Alike
      ⟨source, result'.mapError Failure.reason⟩) :
    pipeline.GoesOn path taken logged source (stage, space) (stage', bare)
      (pipeline.conclude source result middle)
      (pipeline.unlogged.conclude source result' middle') where
  stages := .reported rfl halike
  spaces := ⟨h.spaces.here, h.spaces.target, h.spaces.reachable, h.spaces.outside, h.spaces.sound,
    h.spaces.sound', ⟨h.spaces.fresh.free, h.spaces.fresh.unused⟩,
    ⟨h.spaces.fresh'.free, h.spaces.fresh'.unused⟩⟩
  here := h.here
  time := h.time
  directories := h.wrote.sameDirectories
  reports := ⟨[_], congrArg (· ++ [_]) h.reports, by
    rw [Stage.reports_of_result? hstage, h.here]
    rfl⟩
  reports' := ⟨[_], congrArg (· ++ [_]) h.reports', by
    rw [Stage.reports_of_result? hstage', h.spaces.here, h.here]
    rfl⟩
  holds := ⟨[], by
    rw [Stage.outcome?_of_result? hstage]
    rfl, fun t ht ↦ (List.append_nil t).symm ▸ h.holds hlogged hapart ht⟩

end Kept

/-! ### The four turns -/

variable (pipeline) in
/-- A source whose file is not the log. -/
structure IsClear (taken : Set Location) (logged : Except Tree.Fault Location) (source : Path) :
    Prop where
  isPlain : source.IsPlain
  ne_log : ∀ l, logged = .ok l → l ≠ source.parts
  artifact : (pipeline.artifactOf source).parts ∈ taken

variable (pipeline) in
/-- There is a log, and it can be asked about. -/
structure HasLog (path : Path) : Prop where
  eventLog : pipeline.eventLog = some path
  proper : path.IsProper
  hasNull : path.hasNull = false
  suffix : '/' ∉ pipeline.suffix

theorem HasLog.hasNull_eq (h : pipeline.HasLog path) :
    ∀ p ∈ pipeline.eventLog, p.hasNull = false := by
  intro p hp
  rw [h.eventLog] at hp
  obtain rfl := Option.some.inj hp
  exact h.hasNull

namespace Shadows

variable (h : pipeline.Shadows path taken logged space bare)
  (hapart : pipeline.LogApart taken logged)
include h

theorem sourceOf_eq (source : Path) :
    pipeline.unlogged.sourceOf bare.here source = pipeline.sourceOf space.here source :=
  congrArg (Path.absolute · (pipeline.cwd.join source)) h.here

include hapart

/-- Scratch paths that are free in one of the workspaces are free in the other. -/
theorem isFree (n : Nat) (hfree : bare.tree.IsFree (pipeline.store.scratchPath n)) :
    space.tree.IsFree (pipeline.store.scratchPath n) :=
  h.outside.isFree (fun l hl hlogged ↦ hapart.scratch l hlogged n hl) hfree

/-- **A source is compiled to the same.** -/
theorem advance_waiting
    (hclear : pipeline.IsClear taken logged (pipeline.sourceOf space.here source)) :
    pipeline.GoesOn path taken logged (pipeline.sourceOf space.here source) (.waiting, space)
      (.waiting, bare) (pipeline.advance source .waiting space)
      (pipeline.unlogged.advance source .waiting bare) := by
  have hsame := h.sourceOf_eq source
  have hrender : pipeline.compiler.render bare.tree (pipeline.sourceOf space.here source) =
      pipeline.compiler.render space.tree (pipeline.sourceOf space.here source) :=
    Compiler.render_of_look (h.outside.look fun l e hwalk hl ↦
      hclear.ne_log l hl (Tree.eq_parts_of_walk hclear.isPlain hwalk)) _
  cases hcss : pipeline.compiler.render space.tree (pipeline.sourceOf space.here source) with
  | error failure =>
    rw [advance_waiting_error hcss, advance_waiting_error (hsame ▸ hrender.trans hcss), hsame]
    exact h.kept_self.conclude h.target hapart rfl rfl (alike_of_reason (SameUpToNumber.refl _))
  | ok css =>
    rw [advance_waiting_ok hcss, advance_waiting_ok (hsame ▸ hrender.trans hcss)]
    exact h.kept_self.goesOn h.target hapart rfl rfl rfl rfl
      (.compiled css (Compiler.hasDirectoryOf_of_render hclear.isPlain hcss))

/-- **A declaration is made of the same CSS.** -/
theorem advance_compiled {css : Text}
    (hdirectory : space.tree.HasDirectoryOf (pipeline.sourceOf space.here source)) :
    pipeline.GoesOn path taken logged (pipeline.sourceOf space.here source) (.compiled css, space)
      (.compiled css, bare) (pipeline.advance source (.compiled css) space)
      (pipeline.unlogged.advance source (.compiled css) bare) := by
  have hsame := h.sourceOf_eq source
  have hfree := h.fresh.free _ (Nat.le_refl _)
  have hfree' := h.fresh'.free _ (Nat.le_refl _)
  have hscratch : bare.tree.target (pipeline.store.scratchPath bare.scratch) =
      space.tree.target (pipeline.store.scratchPath bare.scratch) :=
    h.outside.target_eq fun l hl hlogged ↦ hapart.scratch l hlogged _ hl
  obtain ⟨clock, hdeclare⟩ := declare_eq h.sound hfree css
  obtain ⟨clock', hdeclare'⟩ := @declare_eq pipeline.unlogged bare h.sound' hfree' css
  rw [unlogged_store, drafted, hscratch, ← drafted] at hdeclare'
  have hkept : pipeline.Kept path taken logged space bare
      { space with tree := { space.tree with clock }, scratch := space.scratch + 1 }
      { bare with tree := { bare.tree with clock := clock' }, scratch := bare.scratch + 1 } := by
    refine h.kept (.of_find?_eq (Tree.find?_clock _ _) _) (.of_find?_eq (Tree.find?_clock _ _) _)
      ⟨fun l ↦ ?_, fun l hl ↦ ?_⟩ (h.sound.withClock clock) (h.sound'.withClock clock')
      (Nat.le_succ _) (Nat.le_succ _)
    · simpa using h.outside.directories l
    · simpa [Tree.AgreeAt] using h.outside.agreeAt l hl
  rcases drafted_alike hfree (h.isFree hapart _ hfree') css with
    ⟨declaration, hdraft, hdraft'⟩ | ⟨failure, failure', hdraft, hdraft', halike⟩
  · rw [hdraft] at hdeclare
    rw [hdraft'] at hdeclare'
    rw [advance_compiled_ok hdeclare, advance_compiled_ok hdeclare']
    exact hkept.goesOn h.target hapart rfl rfl rfl rfl
      (.declared declaration (hdirectory.of_sameDirectories hkept.wrote.sameDirectories))
  · rw [hdraft] at hdeclare
    rw [hdraft'] at hdeclare'
    rw [advance_compiled_error hdeclare, advance_compiled_error hdeclare', hsame]
    exact hkept.conclude h.target hapart rfl rfl (alike_of_reason halike)

/-- **The artifact is written** in both workspaces, or in none for the same reason. -/
theorem advance_declared {declaration : Text} (hslash : '/' ∉ pipeline.suffix)
    (hclear : pipeline.IsClear taken logged (pipeline.sourceOf space.here source))
    (hdirectory : space.tree.HasDirectoryOf (pipeline.sourceOf space.here source)) :
    pipeline.GoesOn path taken logged (pipeline.sourceOf space.here source)
      (.declared declaration, space) (.declared declaration, bare)
      (pipeline.advance source (.declared declaration) space)
      (pipeline.unlogged.advance source (.declared declaration) bare) := by
  have hsame := h.sourceOf_eq source
  have htarget' : bare.tree.target (pipeline.artifactOf (pipeline.sourceOf space.here source)) =
      space.tree.target (pipeline.artifactOf (pipeline.sourceOf space.here source)) :=
    hdirectory.target_artifact h.outside.directories hslash hclear.isPlain
  have hwrite := write_eq (pipeline.artifactOf (pipeline.sourceOf space.here source)) declaration
    space
  have hwrite' := write_eq (pipeline.artifactOf (pipeline.sourceOf space.here source)) declaration
    bare
  rw [htarget'] at hwrite'
  cases htarget : space.tree.target (pipeline.artifactOf (pipeline.sourceOf space.here source)) with
  | error fault =>
    rw [htarget] at hwrite hwrite'
    rw [Pipeline.advance_declared hwrite, Pipeline.advance_declared (hsame ▸ hwrite'), hsame]
    exact h.kept_self.conclude h.target hapart rfl rfl (alike_of_reason (SameUpToNumber.refl _))
  | ok l =>
    rw [htarget] at htarget' hwrite hwrite'
    have hl : l = (pipeline.artifactOf (pipeline.sourceOf space.here source)).parts :=
      Tree.eq_parts_of_target (Path.isPlain_artifact hslash hdirectory.1 hclear.isPlain) htarget
    have hsub : ({l} : Set Location) ⊆ taken := Set.singleton_subset_iff.2 (hl ▸ hclear.artifact)
    have hdir := Tree.find?_ne_of_target htarget
    have hdir' := Tree.find?_ne_of_target htarget'
    have hproper : (pipeline.artifactOf (pipeline.sourceOf space.here source)).IsProper :=
      Path.isProper_ofText _
    have hkept := h.kept ((Tree.wroteAt_stamped hdir _).mono hsub)
      ((Tree.wroteAt_stamped hdir' _).mono hsub) (h.outside.stamped hdir hdir' _)
      (h.sound.stamped_target hproper htarget (Utf8.encode declaration))
      (h.sound'.stamped_target hproper htarget' (Utf8.encode declaration)) (Nat.le_refl _)
      (Nat.le_refl _)
    rw [Pipeline.advance_declared hwrite, Pipeline.advance_declared (hsame ▸ hwrite'), hsame]
    exact hkept.conclude h.target hapart rfl rfl ⟨rfl, rfl, Option.Rel.none⟩

omit hapart in
/-- **What is reported is logged**, or not. -/
theorem advance_reported {outcome outcome' : Outcome} (hlogs : pipeline.HasLog path)
    (hsource : outcome.source = pipeline.sourceOf space.here source)
    (halike : outcome.Alike outcome') :
    pipeline.GoesOn path taken logged (pipeline.sourceOf space.here source)
      (.reported outcome, space) (.reported outcome', bare)
      (pipeline.advance source (.reported outcome) space)
      (pipeline.unlogged.advance source (.reported outcome') bare) := by
  obtain ⟨after, hlogged, hsound, hhere, htime, hscratch, hreports, hwrote, hholds⟩ :=
    log_recorded hlogs.eventLog hlogs.proper hlogs.hasNull space h.sound outcome
  rw [h.target] at hreports hwrote
  rw [Pipeline.advance_reported hlogged,
    Pipeline.advance_reported (log_of_none (rfl : pipeline.unlogged.eventLog = none) outcome' bare)]
  exact {
    stages := .ended hsource halike
    spaces :=
      { here := h.here.trans hhere.symm
        target := (h.reachable.target_eq hwrote.sameDirectories).trans h.target
        reachable := h.reachable.of_sameDirectories hwrote.sameDirectories
        outside := h.outside.of_wroteAt hwrote
        sound := hsound
        sound' := h.sound'
        fresh := h.fresh.of_wroteAt (hwrote.mono Set.subset_union_right) hscratch.ge
        fresh' := h.fresh' }
    here := hhere
    time := htime
    directories := hwrote.sameDirectories
    reports := ⟨_, hreports, rfl⟩
    reports' := ⟨[], (List.append_nil _).symm, rfl⟩
    holds := ⟨[outcome], rfl, fun t ht ↦ by simpa using hholds t ht⟩ }

/-- **A turn cannot tell** whether anything is logged. -/
theorem advance (hlogs : pipeline.HasLog path)
    (hclear : pipeline.IsClear taken logged (pipeline.sourceOf space.here source))
    {stage stage' : Stage}
    (hstages : stage.Matches space.tree (pipeline.sourceOf space.here source) stage') :
    pipeline.GoesOn path taken logged (pipeline.sourceOf space.here source) (stage, space)
      (stage', bare) (pipeline.advance source stage space)
      (pipeline.unlogged.advance source stage' bare) := by
  cases hstages with
  | waiting => exact h.advance_waiting hapart hclear
  | compiled css hdirectory => exact h.advance_compiled hapart hdirectory
  | declared declaration hdirectory =>
    exact h.advance_declared hapart hlogs.suffix hclear hdirectory
  | reported hsource halike => exact h.advance_reported hlogs hsource halike
  | ended hsource halike => exact .refl (.ended hsource halike) h

/-- **Turns with nothing between them.** -/
theorem advances (hlogs : pipeline.HasLog path)
    (hclear : pipeline.IsClear taken logged (pipeline.sourceOf space.here source)) (n : Nat)
    {stage stage' : Stage}
    (hstages : stage.Matches space.tree (pipeline.sourceOf space.here source) stage') :
    pipeline.GoesOn path taken logged (pipeline.sourceOf space.here source) (stage, space)
      (stage', bare) (pipeline.advances source n stage space)
      (pipeline.unlogged.advances source n stage' bare) := by
  induction n generalizing stage stage' space bare with
  | zero => exact .refl hstages h
  | succ n ih =>
    have hnext := h.advance hapart hlogs hclear hstages
    refine hnext.trans ?_
    have hstages' := hnext.stages
    rw [← hnext.here] at hclear hstages' ⊢
    exact ih hnext.spaces hclear hstages'

end Shadows

end Pipeline

end CssTypings
