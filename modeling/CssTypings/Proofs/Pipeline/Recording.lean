import CssTypings.Proofs.Pipeline.Shadows

/-!
# Batches and their records

Every conversion that is logged adds a line to the log when it is over or, if the log cannot be
written, a report to the others, and otherwise does what it would do without a log. One after the
other this goes for the conversions of a batch as a whole (`Shadows.processAll`). In any other turns
the two batches go on side by side (`Progress.Shadowed`): at any time the log has one line for each
conversion that is over, in the order in which they were, and the reports are those of the stages
that the conversions have come to.

What is read of the log afterwards is what could be read before, and behind it one record for each
outcome: `runBatch_recorded`.
-/

namespace CssTypings.Pipeline

variable {pipeline : Pipeline} {space bare after : Workspace} {path source : Path}
  {sources : List Path} {taken : Set Location} {logged : Except Tree.Fault Location}
  {outcomes outcomes' : List Outcome}

/-- The record of an outcome. -/
def recordOf (pipeline : Pipeline) (now : Text) (outcome : Outcome) : Json :=
  .object
    ([("artifact", LogEvent.optionValue (outcome.artifact.map Path.text)),
      ("error", LogEvent.optionValue (outcome.error.map String.toList)),
      ("mode", .text pipeline.mode.codes), ("ok", .bool outcome.ok),
      ("source", .text outcome.source.text.codes), ("timestamp", .text now.codes)].map
        fun (name, value) ↦ (Text.codes name.toList, value))

theorem record_eventOf (now : Text) (outcome : Outcome) :
    (pipeline.eventOf now outcome).record = pipeline.recordOf now outcome := rfl

/-! ### One after the other -/

namespace Shadows

variable (h : pipeline.Shadows path taken logged space bare)
  (hapart : pipeline.LogApart taken logged) (hlogs : pipeline.HasLog path)
include h hapart hlogs

/-- **One conversion with a log and without.** -/
theorem process (hclear : pipeline.IsClear taken logged (pipeline.sourceOf space.here source)) :
    ∃ outcome after outcome' after', pipeline.process source space = (.ok outcome, after) ∧
      pipeline.unlogged.process source bare = (.ok outcome', after') ∧ after.here = space.here ∧
      after.reports =
        space.reports ++ pipeline.reportOf space.here outcome :: logReports path logged ∧
      after'.reports = bare.reports ++ [pipeline.reportOf space.here outcome'] ∧
      pipeline.Shadows path taken logged after after' := by
  obtain ⟨outcome, after, hprocess⟩ := exists_process hlogs.hasNull_eq source space
  have hgo := h.advances hapart hlogs hclear 4 .waiting
  rw [process_eq_ok.1 hprocess] at hgo
  cases hbare : pipeline.unlogged.advances source 4 .waiting bare with
  | mk stage' after' =>
    rw [hbare] at hgo
    obtain ⟨more, hreports, htold⟩ := hgo.reports
    obtain ⟨more', hreports', htold'⟩ := hgo.reports'
    cases hgo.stages with
    | @ended _ outcome' hsource halike =>
      refine ⟨outcome, after, outcome', after', hprocess, process_eq_ok.2 hbare, hgo.here, ?_, ?_,
        hgo.spaces⟩
      · exact hreports.trans (congrArg _ htold.symm)
      · exact hreports'.trans (congrArg _ htold'.symm)

/-- **A run with a log and without.** -/
theorem processAll (hclear : ∀ source ∈ sources,
      pipeline.IsClear taken logged (pipeline.sourceOf space.here source)) :
    ∃ outcomes after outcomes' after', pipeline.processAll sources space = (.ok outcomes, after) ∧
      pipeline.unlogged.processAll sources bare = (.ok outcomes', after') ∧
      after.reports = space.reports ++ (outcomes.flatMap fun outcome ↦
        pipeline.reportOf space.here outcome :: logReports path logged) ∧
      after'.reports = bare.reports ++ outcomes'.map (pipeline.reportOf space.here) := by
  induction sources generalizing space bare with
  | nil => exact ⟨[], space, [], bare, rfl, rfl, (List.append_nil _).symm, (List.append_nil _).symm⟩
  | cons source rest ih =>
    obtain ⟨hclear, hclears⟩ := List.forall_mem_cons.1 hclear
    obtain ⟨outcome, middle, outcome', middle', hprocess, hprocess', hhere, hreports, hreports',
      hmiddle⟩ := h.process hapart hlogs hclear
    rw [← hhere] at hclears
    obtain ⟨more, after, more', after', hprocessAll, hprocessAll', hreportss, hreportss'⟩ :=
      ih hmiddle hclears
    refine ⟨outcome :: more, after, outcome' :: more', after', processAll_cons hprocess hprocessAll,
      processAll_cons hprocess' hprocessAll', ?_, ?_⟩
    · rw [hreportss, hreports, hhere, List.flatMap_cons, List.append_assoc]
    · rw [hreportss', hreports', hhere, List.append_assoc]
      rfl

end Shadows

/-! ### In any turns -/

section Lists

variable {α β : Type} {R : α → β → Prop}

/-- What is related to a list with an element in it has a related element there. -/
theorem exists_of_forall₂_append {front back : List α} {a : α} {l : List β}
    (h : List.Forall₂ R (front ++ a :: back) l) :
    ∃ front' b back', l = front' ++ b :: back' ∧ List.Forall₂ R front front' ∧ R a b ∧
      List.Forall₂ R back back' := by
  induction front generalizing l with
  | nil =>
    cases h with
    | cons hhead htail => exact ⟨[], _, _, rfl, .nil, hhead, htail⟩
  | cons c front ih =>
    cases h with
    | cons hhead htail =>
      obtain ⟨front', b, back', rfl, hfront, hmiddle, hback⟩ := ih htail
      exact ⟨_ :: front', b, back', rfl, .cons hhead hfront, hmiddle, hback⟩

/-- An element that is replaced by one with more to it adds that to the rest, up to order. -/
theorem perm_flatMap_replace {front back : List α} {a a' : α} {f : α → List β} {told more : List β}
    (h : told.Perm ((front ++ a :: back).flatMap f)) (hmore : f a' = f a ++ more) :
    (told ++ more).Perm ((front ++ a' :: back).flatMap f) := by
  rw [List.flatMap_append, List.flatMap_cons] at h ⊢
  rw [hmore]
  refine (h.append_right more).trans ?_
  rw [List.append_assoc, List.append_assoc, List.append_assoc]
  exact (List.perm_append_comm.append_left _).append_left _

end Lists

namespace Progress

variable {now now' : Progress} {limit : Option Int}

variable (pipeline path taken logged space bare sources) in
/-- Conversions that are logged, and the same that are not, have come equally far. -/
structure Shadowed (now now' : Progress) : Prop where
  tasks : List.Forall₂ (fun task task' ↦ task.source = task'.source ∧
    task.stage.Matches now.space.tree (pipeline.sourceOf space.here task.source) task'.stage)
    now.tasks now'.tasks
  sources : now.tasks.map Task.source = sources
  spaces : pipeline.Shadows path taken logged now.space now'.space
  here : now.space.here = space.here
  time : now.space.now = space.now
  /-- The reports are those of the stages. -/
  reports : ∃ told, now.space.reports = space.reports ++ told ∧ told.Perm
    (now.tasks.flatMap (·.stage.reports pipeline space.here (logReports path logged)))
  reports' : ∃ told, now'.space.reports = bare.reports ++ told ∧ told.Perm
    (now'.tasks.flatMap (·.stage.reports pipeline space.here []))
  completed : now.completed.Perm (now.tasks.flatMap (·.stage.outcome?.toList))
  /-- The log has a line for each conversion that is over. -/
  holds : ∀ t, EventLog.Holds space.tree path t → EventLog.Holds now.space.tree path
    (t ++ (now.completed.map (pipeline.eventOf space.now)).flatMap LogEvent.line)

namespace Shadowed

theorem start (h : pipeline.Shadows path taken logged space bare) :
    Shadowed pipeline space bare path sources taken logged (.start sources space)
      (.start sources bare) := by
  have hnone {β : Type} (f : Task → List β) (hf : ∀ source, f ⟨source, .waiting⟩ = []) :
      (sources.map (⟨·, .waiting⟩)).flatMap f = [] := by
    rw [List.flatMap_eq_nil_iff]
    intro task htask
    obtain ⟨source, -, rfl⟩ := List.mem_map.1 htask
    exact hf source
  exact {
    tasks := by
      rw [Progress.start, Progress.start, List.forall₂_map_left_iff, List.forall₂_map_right_iff]
      exact List.forall₂_same.2 fun _ _ ↦ ⟨rfl, .waiting⟩
    sources := by rw [Progress.start, List.map_map]; exact List.map_id sources
    spaces := h
    here := rfl
    time := rfl
    reports := ⟨[], (List.append_nil _).symm, by rw [Progress.start, hnone _ fun _ ↦ rfl]⟩
    reports' := ⟨[], (List.append_nil _).symm, by rw [Progress.start, hnone _ fun _ ↦ rfl]⟩
    completed := by rw [Progress.start, hnone _ fun _ ↦ rfl]
    holds := fun t ht ↦ by simpa [Progress.start] using ht }

/-- Of both the same conversions are under way. -/
theorem countP_eq {tree : Tree} {tasks tasks' : List Task}
    (h : List.Forall₂ (fun task task' ↦ task.source = task'.source ∧
      task.stage.Matches tree (pipeline.sourceOf space.here task.source) task'.stage)
      tasks tasks') :
    tasks.countP (·.stage.isUnderWay) = tasks'.countP (·.stage.isUnderWay) := by
  induction h with
  | nil => rfl
  | @cons task task' _ _ hhead _ ih =>
    obtain ⟨source, stage⟩ := task
    obtain ⟨source', stage'⟩ := task'
    rw [List.countP_cons, List.countP_cons, ih]
    cases hhead.2 <;> rfl

/-- The same conversions may have a turn. -/
theorem allows_eq {tree : Tree} {stage stage' : Stage} (h : stage.Matches tree source stage')
    (hcount : now.tasks.countP (·.stage.isUnderWay) = now'.tasks.countP (·.stage.isUnderWay))
    (limit : Option Int) :
    now'.allows limit stage' = now.allows limit stage := by
  cases h with
  | waiting => rw [allows, allows, hcount]
  | _ => rfl

section Turns

variable (h : Shadowed pipeline space bare path sources taken logged now now')
  (hapart : pipeline.LogApart taken logged) (hlogs : pipeline.HasLog path)
  (hclear : ∀ source ∈ sources,
    pipeline.IsClear taken logged (pipeline.sourceOf space.here source))
include h hapart hlogs hclear

/-- **One turn.** -/
theorem turn (limit : Option Int) (i : Nat) :
    Shadowed pipeline space bare path sources taken logged (turn pipeline limit now i)
      (turn pipeline.unlogged limit now' i) := by
  by_cases hi : now.tasks.length ≤ i
  · rwa [turn_of_length_le hi, turn_of_length_le (h.tasks.length_eq ▸ hi)]
  · obtain ⟨tasks, middle, completed⟩ := now
    obtain ⟨tasks', middle', completed'⟩ := now'
    obtain ⟨front, task, back, rfl, rfl⟩ :
        ∃ front task back, tasks = front ++ task :: back ∧ front.length = i := by
      have hlt : i < tasks.length := Nat.lt_of_not_le hi
      refine ⟨tasks.take i, tasks[i], tasks.drop (i + 1), by simp, ?_⟩
      rw [List.length_take, Nat.min_eq_left hlt.le]
    obtain ⟨front', task', back', rfl, hfront, hmatches, hback⟩ := exists_of_forall₂_append h.tasks
    obtain ⟨source, stage⟩ := task
    obtain ⟨source', stage'⟩ := task'
    obtain ⟨rfl, hstages⟩ := hmatches
    have hallows := allows_eq hstages (countP_eq h.tasks) limit
    cases hallow : allows limit ⟨front ++ ⟨source, stage⟩ :: back, middle, completed⟩ stage with
    | false =>
      rw [turn_of_not_allows hallow, hfront.length_eq, turn_of_not_allows (hallows.trans hallow)]
      exact h
    | true =>
      have hclear := hclear source (h.sources ▸ by simp)
      rw [← h.here] at hclear hstages
      have hgo := h.spaces.advance hapart hlogs hclear hstages
      rw [turn_of_allows hallow, hfront.length_eq, turn_of_allows (hallows.trans hallow)]
      generalize pipeline.advance source stage middle = next at hgo ⊢
      generalize pipeline.unlogged.advance source stage' middle' = next' at hgo ⊢
      obtain ⟨told, htold, hperm⟩ := h.reports
      obtain ⟨more, hmore, hadded⟩ := hgo.reports
      obtain ⟨told', htold', hperm'⟩ := h.reports'
      obtain ⟨more', hmore', hadded'⟩ := hgo.reports'
      obtain ⟨lines, hlines, hholds⟩ := hgo.holds
      have houtcome := Stage.outcome?_of_isOpen (isOpen_of_allows hallow)
      have hstays (task task' : Task) (hmatches : task.source = task'.source ∧
          task.stage.Matches middle.tree (pipeline.sourceOf space.here task.source) task'.stage) :
          task.source = task'.source ∧ task.stage.Matches next.2.tree
            (pipeline.sourceOf space.here task.source) task'.stage :=
        ⟨hmatches.1, hmatches.2.of_sameDirectories hgo.directories⟩
      have hnext := hgo.stages
      rw [h.here] at hnext hadded hadded'
      rw [houtcome] at hlines
      obtain rfl : next.1.outcome?.toList = lines := hlines
      rw [h.time] at hholds
      exact {
        tasks := List.rel_append (hfront.imp hstays) (.cons ⟨rfl, hnext⟩ (hback.imp hstays))
        sources := by simpa using h.sources
        spaces := hgo.spaces
        here := hgo.here.trans h.here
        time := hgo.time.trans h.time
        reports := ⟨told ++ more, by rw [← List.append_assoc, ← htold]; exact hmore,
          perm_flatMap_replace hperm hadded⟩
        reports' := ⟨told' ++ more', by rw [← List.append_assoc, ← htold']; exact hmore',
          perm_flatMap_replace hperm' hadded'⟩
        completed := perm_flatMap_replace h.completed (by rw [houtcome]; rfl)
        holds := fun t ht ↦ by
          have hlast := hholds _ (h.holds t ht)
          rwa [List.append_assoc, ← List.flatMap_append, ← List.map_append] at hlast }

/-- **Any turns.** -/
theorem turns (limit : Option Int) (schedule : List Nat) :
    Shadowed pipeline space bare path sources taken logged (turns pipeline limit now schedule)
      (turns pipeline.unlogged limit now' schedule) := by
  induction schedule generalizing now now' with
  | nil => exact h
  | cons i rest ih => exact ih (h.turn hapart hlogs hclear limit i)

end Turns

end Shadowed

end Progress

variable (pipeline) in
/-- Conversions that are logged come to the same as conversions that are not, and each of them is
recorded, in the order in which they are completed. -/
structure AreRecorded (path : Path) (sources : List Path) (space bare : Workspace)
    (outcomes completed : List Outcome) (after : Workspace) (outcomes' : List Outcome)
    (after' : Workspace) : Prop where
  alike : List.Forall₂ Outcome.Alike outcomes outcomes'
  told : outcomes.map Outcome.source = sources.map (pipeline.sourceOf space.here)
  perm : completed.Perm outcomes
  /-- Only the log is different. -/
  agreeAt : ∀ l, space.tree.target path ≠ .ok l → Tree.AgreeAt after.tree after'.tree l
  /-- There is one report more for each source if the log cannot be written. -/
  reports : ∃ told, after.reports = space.reports ++ told ∧ told.Perm
    (outcomes.flatMap fun outcome ↦
      pipeline.reportOf space.here outcome :: logReports path (space.tree.target path))
  reports' : ∃ told, after'.reports = bare.reports ++ told ∧
    told.Perm (outcomes'.map (pipeline.reportOf space.here))
  /-- If the log can be written, the records are behind what can be read before. -/
  read : ∀ t, EventLog.Holds space.tree path t → EventLog.EndsLine t → ∀ n : Int,
    (EventLog.linesOf t).length + sources.length ≤ n →
    EventLog.read after.tree path none n = (EventLog.read space.tree path none n).map
      (· ++ completed.map (pipeline.recordOf space.now))

section AreOver

variable {tasks tasks' : List Task}

theorem AreOver.flatMap_stage (h : AreOver tasks outcomes) {β : Type} (f : Stage → List β) :
    (tasks.flatMap fun task ↦ f task.stage) =
      outcomes.flatMap fun outcome ↦ f (.ended outcome) := by
  induction tasks generalizing outcomes with
  | nil =>
    obtain rfl := List.map_eq_nil_iff.1 h.symm
    rfl
  | cons task rest ih =>
    cases outcomes with
    | nil => cases h
    | cons outcome others =>
      obtain ⟨houtcome, hothers⟩ := List.cons.inj h
      rw [List.flatMap_cons, List.flatMap_cons, ih hothers, Stage.eq_ended houtcome]

theorem AreOver.unique (h : AreOver tasks outcomes) (h' : AreOver tasks outcomes') :
    outcomes = outcomes' :=
  List.map_injective_iff.2 (Option.some_injective _) (h.symm.trans h')

variable {tree : Tree} (htasks : List.Forall₂ (fun task task' ↦ task.source = task'.source ∧
  task.stage.Matches tree (pipeline.sourceOf space.here task.source) task'.stage) tasks tasks')
include htasks

/-- If conversions that are logged are over, so are the same that are not. -/
theorem AreOver.exists_alike (hover : AreOver tasks outcomes) :
    ∃ outcomes', AreOver tasks' outcomes' ∧ List.Forall₂ Outcome.Alike outcomes outcomes' ∧
      outcomes.map Outcome.source =
        tasks.map fun task ↦ pipeline.sourceOf space.here task.source := by
  induction htasks generalizing outcomes with
  | nil =>
    obtain rfl := List.map_eq_nil_iff.1 hover.symm
    exact ⟨[], rfl, .nil, rfl⟩
  | cons hhead _ ih =>
    cases outcomes with
    | nil => cases hover
    | cons outcome others =>
      obtain ⟨houtcome, hothers⟩ := List.cons.inj hover
      obtain ⟨others', hothers', halikes, htolds⟩ := ih hothers
      obtain ⟨outcome', houtcome', halike, htold⟩ := hhead.2.exists_ended houtcome
      exact ⟨outcome' :: others', congrArg₂ List.cons houtcome' hothers', .cons halike halikes,
        congrArg₂ List.cons htold htolds⟩

/-- If conversions that are not logged are over, so are the same that are. -/
theorem AreOver.exists_logged (hover : AreOver tasks' outcomes') :
    ∃ outcomes, AreOver tasks outcomes := by
  induction htasks generalizing outcomes' with
  | nil => exact ⟨[], rfl⟩
  | cons hhead _ ih =>
    cases outcomes' with
    | nil => cases hover
    | cons outcome' others' =>
      obtain ⟨houtcome', hothers'⟩ := List.cons.inj hover
      obtain ⟨others, hothers⟩ := ih hothers'
      obtain ⟨outcome, houtcome⟩ := hhead.2.exists_ended' houtcome'
      exact ⟨outcome :: others, congrArg₂ List.cons houtcome hothers⟩

end AreOver

/-- **Conversions that are over are recorded.** -/
theorem Progress.Shadowed.areRecorded {now now' : Progress}
    (h : Shadowed pipeline space bare path sources taken (space.tree.target path) now now')
    (hover : AreOver now.tasks outcomes) (hover' : AreOver now'.tasks outcomes') :
    pipeline.AreRecorded path sources space bare outcomes now.completed now.space outcomes'
      now'.space := by
  obtain ⟨_, hsame, halike, htold⟩ := hover.exists_alike h.tasks
  obtain rfl := hsame.unique hover'
  have htold' : outcomes.map Outcome.source = sources.map (pipeline.sourceOf space.here) := by
    rw [htold, ← h.sources, List.map_map]
    rfl
  have hperm : now.completed.Perm outcomes := by
    have hperm := h.completed
    rw [hover.flatMap_stage (·.outcome?.toList)] at hperm
    simpa [Stage.outcome?] using hperm
  have hreports := h.reports
  rw [hover.flatMap_stage (·.reports pipeline space.here _)] at hreports
  have hreports' := h.reports'
  rw [hover'.flatMap_stage (·.reports pipeline space.here _)] at hreports'
  refine ⟨halike, htold', hperm, h.spaces.outside.agreeAt, hreports, ?_, fun t ht hends n hn ↦ ?_⟩
  · rw [List.map_eq_flatMap]
    exact hreports'
  · have hcount : now.completed.length = sources.length := by
      rw [hperm.length_eq]
      simpa using congrArg List.length htold'
    have hlength := EventLog.length_linesOf_append_flatMap_line hends
      (now.completed.map (pipeline.eventOf space.now))
    rw [List.length_map, hcount] at hlength
    have hrecords : (now.completed.map (pipeline.eventOf space.now)).map LogEvent.record =
        now.completed.map (pipeline.recordOf space.now) := by
      rw [List.map_map]
      exact List.map_congr_left fun outcome _ ↦ record_eventOf space.now outcome
    have hall : (now.completed.map (pipeline.recordOf space.now)).filter (EventLog.isRecent none) =
        now.completed.map (pipeline.recordOf space.now) := List.filter_eq_self.2 fun _ _ ↦ rfl
    rw [EventLog.read_of_holds_of_le (h.holds t ht) (by omega),
      EventLog.read_of_holds_of_le ht (by omega), EventLog.recordsOf_append_flatMap_line hends,
      hrecords, hall]

/-! ### Batches -/

section HasNull

variable (hlog : pipeline.eventLog = some path) (hnull : path.hasNull = true)
include hlog hnull

/-- A log about which nothing can be asked breaks off whatever is to be logged. -/
theorem log_of_hasNull (outcome : Outcome) (space : Workspace) :
    pipeline.log outcome space = (.error .nullCharacter, space) := by
  have happend (tree : Tree) (bytes : Bytes) : tree.append path bytes = .error .nullCharacter := by
    rw [Tree.append, Tree.changeFile, Tree.walk, if_pos hnull]
  rw [log, hlog]
  simp only [EventLog.append, happend]

theorem process_of_hasNull (source : Path) (space : Workspace) :
    ∃ after, pipeline.process source space = (.error .nullCharacter, after) := by
  rw [process]
  simp only [log_of_hasNull hlog hnull]
  exact ⟨_, rfl⟩

/-- So no conversion comes to its end. -/
theorem advance_ne_ended {stage : Stage} (hstage : ∀ outcome, stage ≠ .ended outcome)
    (source : Path) (space : Workspace) (outcome : Outcome) :
    (pipeline.advance source stage space).1 ≠ .ended outcome := by
  cases stage with
  | reported outcome =>
    simp only [advance, log_of_hasNull hlog hnull]
    exact Stage.noConfusion
  | ended outcome' => exact hstage outcome
  | broken fault => exact Stage.noConfusion
  | _ => exact advance_ne_of_not_isOpen rfl rfl rfl source space

theorem not_mayEnd_of_hasNull (hne : sources ≠ []) (limit : Option Int) (space : Workspace)
    (outcomes : List Outcome) (after : Workspace) :
    ¬ pipeline.MayEnd limit sources space outcomes after := by
  rintro ⟨schedule, completed, tasks, hrun, hover⟩
  have hnone := Progress.forall_turns (P := fun stage ↦ ∀ outcome, stage ≠ .ended outcome)
    (fun source _ space hstage ↦ advance_ne_ended hlog hnull hstage source space) limit
    (.start sources space) schedule (by simp [Progress.start])
  have hlength := Progress.length_turns pipeline limit (.start sources space) schedule
  rw [hrun] at hnone hlength
  cases tasks with
  | nil => exact hne (List.map_eq_nil_iff.1 (List.length_eq_zero_iff.1 hlength.symm))
  | cons task rest =>
    cases outcomes with
    | nil => cases hover
    | cons outcome others =>
      exact hnone task List.mem_cons_self outcome (Stage.eq_ended (List.cons.inj hover).1)

end HasNull

variable (pipeline) in
/-- The places of the artifacts of a batch. -/
def batchPlaces (here : Path) (sources : List Path) : Set Location :=
  {l | ∃ source ∈ sources, l = (pipeline.artifactOf (pipeline.sourceOf here source)).parts}

variable (pipeline) in
/-- A batch with a log that gets in no other file's way. -/
structure Recordable (path : Path) (sources : List Path) (space : Workspace) : Prop where
  eventLog : pipeline.eventLog = some path
  log : path.IsProper
  suffix : '/' ∉ pipeline.suffix
  cwd : pipeline.cwd.IsProper
  here : space.here.IsProper
  proper : ∀ source ∈ sources, source.IsProper
  /-- The directory of the log is there. -/
  reachable : space.tree.IsReachable path
  /-- The log is none of the sources. -/
  noSource : ∀ source ∈ sources, ∀ l, space.tree.target path = .ok l →
    l ≠ (pipeline.sourceOf space.here source).parts
  apart : pipeline.LogApart (pipeline.batchPlaces space.here sources) (space.tree.target path)

/-- In the beginning the workspaces are copies of each other. -/
theorem Recordable.shadows (h : pipeline.Recordable path sources space)
    (hcopy : pipeline.Copies (pipeline.batchPlaces space.here sources) space bare) :
    pipeline.Shadows path (pipeline.batchPlaces space.here sources) (space.tree.target path)
      space bare where
  here := hcopy.here
  target := rfl
  reachable := h.reachable
  outside := Tree.SameOutside.of_sameContents hcopy.contents _
  sound := hcopy.sound
  sound' := hcopy.sound'
  fresh := by
    refine ⟨hcopy.fresh.free, fun n hn l htarget hl ↦ ?_⟩
    rcases hl with hl | hl
    · exact hcopy.fresh.unused n hn l htarget hl
    · exact h.apart.scratch l hl n (Tree.mem_way_of_target htarget)
  fresh' := hcopy.fresh'

/-- A batch whose log can be asked about can be recorded. -/
theorem Recordable.hasLog (h : pipeline.Recordable path sources space)
    (hnull : path.hasNull = false) : pipeline.HasLog path :=
  ⟨h.eventLog, h.log, hnull, h.suffix⟩

theorem Recordable.isClear (h : pipeline.Recordable path sources space) :
    ∀ source ∈ sources, pipeline.IsClear (pipeline.batchPlaces space.here sources)
      (space.tree.target path) (pipeline.sourceOf space.here source) := fun source hsource ↦
  ⟨Path.isPlain_absolute h.here (h.cwd.join (h.proper source hsource)), h.noSource source hsource,
    source, hsource, rfl⟩

/-- **Batches are recorded.** A batch with a log and the same batch without one have the same
outcomes, up to scratch numbers, and leave the same contents everywhere but in the log. If the log
can be written, it gains one record for each outcome, and can be read exactly if it could be read
before; otherwise there is one report more for each outcome. The records are in the order in which
the conversions are completed: in that of the sources if they are run one after the other, and
whatever turns the conversions have otherwise, at most `limit` at once, those without a log may have
the same. Only a log about which nothing can be asked breaks off the batch. -/
theorem runBatch_recorded (h : pipeline.Recordable path sources space)
    (hcopy : pipeline.Copies (pipeline.batchPlaces space.here sources) space bare)
    {limit : Option Int} (hlimit : ∀ n ∈ limit, 0 < n) :
    (path.hasNull = false →
      (∃ outcomes after outcomes' after',
        pipeline.runBatch sources limit space = (.ok outcomes, after) ∧
        pipeline.unlogged.runBatch sources limit bare = (.ok outcomes', after') ∧
        pipeline.AreRecorded path sources space bare outcomes outcomes after outcomes' after' ∧
        after.reports = space.reports ++ (outcomes.flatMap fun outcome ↦
          pipeline.reportOf space.here outcome :: logReports path (space.tree.target path)) ∧
        after'.reports = bare.reports ++ outcomes'.map (pipeline.reportOf space.here)) ∧
      pipeline.CanEnd limit sources space ∧
      ∀ schedule,
        (∀ outcomes completed after,
          pipeline.Ends limit sources space schedule outcomes completed after →
          ∃ outcomes' completed' after',
            pipeline.unlogged.Ends limit sources bare schedule outcomes' completed' after' ∧
            pipeline.AreRecorded path sources space bare outcomes completed after outcomes'
              after') ∧
        (∀ outcomes' completed' after',
          pipeline.unlogged.Ends limit sources bare schedule outcomes' completed' after' →
          ∃ outcomes completed after,
            pipeline.Ends limit sources space schedule outcomes completed after ∧
            pipeline.AreRecorded path sources space bare outcomes completed after outcomes'
              after')) ∧
    (path.hasNull = true → sources ≠ [] →
      (pipeline.runBatch sources limit space).1 = .error (.access .nullCharacter) ∧
      ∀ outcomes after, ¬ pipeline.MayEnd limit sources space outcomes after) := by
  constructor
  · intro hnull
    have hshadows := h.shadows hcopy
    have hlogs := h.hasLog hnull
    have hrun (schedule : List Nat) :=
      (Progress.Shadowed.start hshadows).turns h.apart hlogs h.isClear limit schedule
    refine ⟨?_, canEnd hlimit hlogs.hasNull_eq sources space, fun schedule ↦ ⟨?_, ?_⟩⟩
    · obtain ⟨outcomes, after, outcomes', after', hprocess, hprocess', hreports, hreports'⟩ :=
        hshadows.processAll h.apart hlogs h.isClear
      obtain ⟨tasks, hturns, hover⟩ := ends_inOrder hlimit hprocess
      obtain ⟨tasks', hturns', hover'⟩ := ends_inOrder hlimit hprocess'
      have hside := hrun (inOrder 0 sources.length)
      rw [hturns, hturns'] at hside
      exact ⟨outcomes, after, outcomes', after', runBatch_eq hlimit hprocess,
        runBatch_eq hlimit hprocess', hside.areRecorded hover hover', hreports, hreports'⟩
    · rintro outcomes completed after ⟨tasks, hturns, hover⟩
      have hside := hrun schedule
      rw [hturns] at hside
      obtain ⟨outcomes', hover', -⟩ := hover.exists_alike hside.tasks
      exact ⟨outcomes', _, _, ⟨_, rfl, hover'⟩, hside.areRecorded hover hover'⟩
    · rintro outcomes' completed' after' ⟨tasks', hturns', hover'⟩
      have hside := hrun schedule
      rw [hturns'] at hside
      obtain ⟨outcomes, hover⟩ := hover'.exists_logged hside.tasks
      exact ⟨outcomes, _, _, ⟨_, rfl, hover⟩, hside.areRecorded hover hover'⟩
  · intro hnull hne
    refine ⟨?_, not_mayEnd_of_hasNull h.eventLog hnull hne limit space⟩
    obtain ⟨source, rest, rfl⟩ := List.exists_cons_of_ne_nil hne
    obtain ⟨middle, hprocess⟩ := process_of_hasNull h.eventLog hnull source space
    rw [runBatch_of_limit hlimit, processAll]
    simp only [hprocess]
    rfl

/-! ### A project with a log -/

/-- The log of the project. -/
def sampleLogPath : Path := .ofText "/w/log".toList

/-- Conversions in the project with a log. -/
def loggedSample : Pipeline := { sample with eventLog := some sampleLogPath }

theorem target_sampleLogPath :
    sampleTree.target sampleLogPath = .ok ["w".toList, "log".toList] := by decide

theorem recordable_sample : loggedSample.Recordable sampleLogPath sampleSources sampleSpace where
  eventLog := rfl
  log := by decide
  suffix := by decide
  cwd := by decide
  here := by decide
  proper := by decide
  reachable what q h := by
    obtain ⟨entry, hwalk, -⟩ := Tree.target_eq_ok.1 target_sampleLogPath
    cases h.symm.trans hwalk
  noSource source hsource l hl := by
    cases target_sampleLogPath.symm.trans hl
    revert source
    decide
  apart := by
    constructor
    · rintro l hl ⟨source, hsource, rfl⟩
      have hne : ∀ source ∈ sampleSources, (loggedSample.artifactOf
          (loggedSample.sourceOf sampleSpace.here source)).parts ≠ ["w".toList, "log".toList] := by
        decide
      exact hne source hsource (Except.ok.inj (hl.symm.trans target_sampleLogPath))
    · intro l hl n hway
      cases target_sampleLogPath.symm.trans hl
      have hplain : (loggedSample.store.scratchPath n).IsPlain :=
        Store.isPlain_scratchPath (by decide) (by decide) n
      have hprefix := Tree.prefix_of_mem_way hplain.up_not_mem hway
      have hdirectory : loggedSample.store.directory.parts = ["tmp".toList] := by decide
      rw [Store.parts_scratchPath (by decide), hdirectory] at hprefix
      exact absurd (List.cons_prefix_cons.1 hprefix).1 (by decide)

theorem copies_sample :
    loggedSample.Copies (loggedSample.batchPlaces sampleSpace.here sampleSources) sampleSpace
      { sampleSpace with scratch := 7 } := by
  have hfresh (scratch : Nat) : loggedSample.Fresh { sampleSpace with scratch }
      (loggedSample.batchPlaces sampleSpace.here sampleSources) := by
    have hempty : ∀ e ∈ sampleTree.entries, loggedSample.store.directory.parts <+: e.1 →
        e.1 = loggedSample.store.directory.parts := by decide
    refine fresh_of_empty (by decide) (by decide) hempty ?_
    have hartifacts : ∀ source ∈ sampleSources, ¬ loggedSample.store.directory.parts <+:
        (loggedSample.artifactOf (loggedSample.sourceOf sampleSpace.here source)).parts := by decide
    rintro l ⟨source, hsource, rfl⟩
    exact hartifacts source hsource
  exact ⟨rfl, .refl _, ready_sample.tree, ready_sample.tree, hfresh 0, hfresh 7⟩

/-- Turns in which the stylesheet that does not compile overtakes the one before it. -/
def overtaking : List Nat := [0, 1, 1, 0, 0, 0, 2, 2, 2, 2]

theorem ends_overtaking :
    ∃ outcomes completed after,
      loggedSample.Ends (some 2) sampleSources sampleSpace overtaking outcomes completed after ∧
      outcomes.map Outcome.ok = [true, false, true] ∧
      completed.map Outcome.ok = [false, true, true] := by
  let last : Progress := .turns loggedSample (some 2) (.start sampleSources sampleSpace) overtaking
  have hended : ∀ task ∈ last.tasks, task.stage.outcome?.isSome = true := by decide +kernel
  have hok : last.tasks.map (·.stage.outcome?.map Outcome.ok) =
      [true, false, true].map some := by decide +kernel
  obtain ⟨outcomes, hover⟩ := Progress.exists_areOver fun task htask ↦
    Option.isSome_iff_ne_none.1 (hended task htask)
  refine ⟨outcomes, last.completed, last.space, ⟨last.tasks, rfl, hover⟩, ?_, by decide +kernel⟩
  refine List.map_injective_iff.2 (Option.some_injective _) ?_
  rw [← hok, List.map_map]
  have hsame := congrArg (List.map (Option.map Outcome.ok)) hover
  rw [List.map_map, List.map_map] at hsame
  exact hsame.symm

/-- In the project three conversions are recorded, one of them a failure, in order or not. -/
theorem runBatch_recorded_sample :
    loggedSample.Recordable sampleLogPath sampleSources sampleSpace ∧
      loggedSample.Copies (loggedSample.batchPlaces sampleSpace.here sampleSources) sampleSpace
        { sampleSpace with scratch := 7 } ∧
      (∃ outcomes after,
        loggedSample.runBatch sampleSources (some 2) sampleSpace = (.ok outcomes, after) ∧
        EventLog.read after.tree sampleLogPath none 4 =
          .ok (outcomes.map (loggedSample.recordOf sampleSpace.now))) ∧
      ∃ outcomes completed after,
        loggedSample.Ends (some 2) sampleSources sampleSpace overtaking outcomes completed after ∧
        outcomes.map Outcome.ok = [true, false, true] ∧
        completed.map Outcome.ok = [false, true, true] ∧
        EventLog.read after.tree sampleLogPath none 4 =
          .ok (completed.map (loggedSample.recordOf sampleSpace.now)) := by
  have hlimit : ∀ n ∈ some (2 : Int), 0 < n := by
    rintro n ⟨⟩
    decide
  have hholds : EventLog.Holds sampleSpace.tree sampleLogPath [] :=
    Or.inl ⟨["w".toList, "log".toList], by decide, rfl⟩
  have hempty : EventLog.read sampleSpace.tree sampleLogPath none 4 = .ok [] := by
    rw [EventLog.read_of_holds hholds (by decide)]
    rfl
  obtain ⟨⟨outcomes, after, _, _, hrun, -, hrecorded, -⟩, -, hturns⟩ :=
    (runBatch_recorded recordable_sample copies_sample hlimit).1 (by decide)
  obtain ⟨outcomes', completed, after', hends, hok, hcompleted⟩ := ends_overtaking
  obtain ⟨_, _, _, -, hrecorded'⟩ := (hturns overtaking).1 _ _ _ hends
  refine ⟨recordable_sample, copies_sample, ⟨outcomes, after, hrun, ?_⟩, outcomes', completed,
    after', hends, hok, hcompleted, ?_⟩
  · rw [hrecorded.read [] hholds (by decide) 4 (by decide), hempty]
    rfl
  · rw [hrecorded'.read [] hholds (by decide) 4 (by decide), hempty]
    rfl

end CssTypings.Pipeline
