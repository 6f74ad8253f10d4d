import CssTypings.Proofs.Pipeline.Logging
import CssTypings.Proofs.Pipeline.Reports

/-!
# Entries that cannot be written to the log

A log that can be asked about never breaks off a conversion, whatever is in the tree: an entry that
cannot be written is reported, and the conversions go on. Which entries a batch has, and in which
trees they are to be written, is told by `Logs`; that each of them is either written or reported is
`Told`. It is shown for one conversion (`exists_process_told`) and follows for a batch
(`exists_processAll_told`) and for a set of sources (`exists_convertAll_told`), which then only
breaks off if no search for dangling artifacts can be begun.
-/

namespace CssTypings

variable {log : Option Path} {entries entries' : Tree → LogEvent → Prop}
  {before middle after : Workspace}

/-- The report that an entry could not be written to the log. -/
def unwritten (path : Path) (fault : Tree.Fault) : Report :=
  .failed ("Could not write event log " ++ path.toString ++ ": " ++ fault.message)

/-- Reports were only added, and among them is one for each entry that could not be written. -/
def Told (log : Option Path) (entries : Tree → LogEvent → Prop) (before after : Workspace) : Prop :=
  ∃ more, after.reports = before.reports ++ more ∧
    ∀ path ∈ log, ∀ tree event fault, entries tree event →
      EventLog.append tree path event = .error fault → unwritten path fault ∈ more

/-- Without entries there is nothing to tell. -/
theorem Told.of_reports {more : List Report} (h : after.reports = before.reports ++ more)
    (hnone : ∀ tree event, ¬ entries tree event) : Told log entries before after :=
  ⟨more, h, fun _ _ tree event _ hentry ↦ absurd hentry (hnone tree event)⟩

theorem Told.of_reports_eq (h : after.reports = before.reports)
    (hnone : ∀ tree event, ¬ entries tree event) : Told log entries before after :=
  .of_reports (h.trans (List.append_nil _).symm) hnone

/-- Each entry of two runs is one of the first or of the second. -/
theorem Told.trans {all : Tree → LogEvent → Prop} (h : Told log entries before middle)
    (h' : Told log entries' middle after)
    (hall : ∀ tree event, all tree event → entries tree event ∨ entries' tree event) :
    Told log all before after := by
  obtain ⟨more, hmore, htold⟩ := h
  obtain ⟨more', hmore', htold'⟩ := h'
  refine ⟨more ++ more', by rw [hmore', hmore, List.append_assoc], ?_⟩
  intro path hpath tree event fault hentry happend
  rcases hall tree event hentry with hentry | hentry
  · exact List.mem_append_left _ (htold path hpath tree event fault hentry happend)
  · exact List.mem_append_right _ (htold' path hpath tree event fault hentry happend)

/-! ### On the console -/

/-- The search for dangling artifacts has a place to begin at, if there is a pattern to search
by. -/
def Dangling.CanFind (pattern : Option Text) (suffix : Text) : Prop :=
  ∀ p ∈ pattern, (Glob.opened? (p ++ suffix)).any Path.hasNull = false

namespace Pipeline

variable {pipeline : Pipeline} {space : Workspace} {source : Path} {sources : List Path}

/-! ### One conversion -/

theorem reports_write (path : Path) (t : Text) (space : Workspace) :
    (write path t space).2.reports = space.reports := by
  unfold write
  split <;> rfl

variable (pipeline) in
theorem reports_declare (css : Text) (space : Workspace) :
    (pipeline.declare css space).2.reports = space.reports := by
  simp only [declare, Store.withScratch, Store.allocate]
  split
  · next hwrite => exact (congrArg (·.2.reports) hwrite).symm.trans (reports_write _ _ _)
  · next hwrite => exact (congrArg (·.2.reports) hwrite).symm.trans (reports_write _ _ _)

variable (pipeline) in
/-- A conversion itself reports nothing. -/
theorem reports_convert (source : Path) (space : Workspace) :
    (pipeline.convert source space).2.reports = space.reports := by
  rw [convert]
  cases pipeline.compiler.render space.tree source with
  | error failure => rfl
  | ok css =>
    have hdeclare := pipeline.reports_declare css space
    cases hdeclared : pipeline.declare css space with
    | mk result middle =>
    rw [hdeclared] at hdeclare
    cases result with
    | error failure => simpa only [hdeclared] using hdeclare
    | ok declaration =>
      have hwrite := reports_write (source.artifact pipeline.suffix) declaration middle
      cases hwritten : write (source.artifact pipeline.suffix) declaration middle with
      | mk result after =>
      rw [hwritten] at hwrite
      cases result <;> simpa only [hdeclared, hwritten] using hwrite.trans hdeclare

/-- The entry for the outcome of a conversion, and the tree in which it is to be written. -/
inductive Enters (pipeline : Pipeline) (source : Path) (space : Workspace) : Tree → LogEvent → Prop
  | mk : Enters pipeline source space
      (pipeline.convert (pipeline.sourceOf space.here source) space).2.tree
      (pipeline.eventOf (pipeline.convert (pipeline.sourceOf space.here source) space).2.now
        ⟨pipeline.sourceOf space.here source,
          (pipeline.convert (pipeline.sourceOf space.here source) space).1.mapError Failure.reason⟩)

section Log

variable (hnull : ∀ path ∈ pipeline.eventLog, path.hasNull = false)
include hnull

/-- **Logging is told**: the entry is written, or that it cannot be written is reported. -/
theorem exists_log_told (outcome : Outcome) (space : Workspace) :
    ∃ after, pipeline.log outcome space = (.ok (), after) ∧
      Told pipeline.eventLog (fun tree event ↦ tree = space.tree ∧
        event = pipeline.eventOf space.now outcome) space after := by
  rw [log]
  cases hpath : pipeline.eventLog with
  | none => exact ⟨space, rfl, [], (List.append_nil _).symm, by rintro path ⟨⟩⟩
  | some path =>
    cases happend : EventLog.append space.tree path (pipeline.eventOf space.now outcome) with
    | ok tree =>
      simp only [happend]
      refine ⟨_, rfl, [], (List.append_nil _).symm, ?_⟩
      rintro path' ⟨⟩ tree' event fault ⟨rfl, rfl⟩ hfault
      cases happend.symm.trans hfault
    | error fault =>
      simp only [happend]
      cases fault with
      | nullCharacter =>
        rcases Tree.append_cases space.tree path
          (Utf8.encode (pipeline.eventOf space.now outcome).line) with
          ⟨location, contents, -, hwritten⟩ | ⟨fault, htarget, hfault⟩
        · cases happend.symm.trans hwritten
        · cases happend.symm.trans hfault
          exact absurd htarget (Tree.target_ne_nullCharacter space.tree (hnull path hpath))
      | trouble what place =>
        refine ⟨_, rfl, [unwritten path (.trouble what place)], rfl, ?_⟩
        rintro path' ⟨⟩ tree' event fault ⟨rfl, rfl⟩ hfault
        cases happend.symm.trans hfault
        exact List.mem_singleton_self _

/-- **One conversion never breaks off**, and its entry is written or reported. -/
theorem exists_process_told (source : Path) (space : Workspace) :
    ∃ outcome after, pipeline.process source space = (.ok outcome, after) ∧
      Told pipeline.eventLog (pipeline.Enters source space) space after := by
  have hreports := pipeline.reports_convert (pipeline.sourceOf space.here source) space
  cases hconvert : pipeline.convert (pipeline.sourceOf space.here source) space with
  | mk result converted =>
  rw [hconvert] at hreports
  let outcome : Outcome := ⟨pipeline.sourceOf space.here source, result.mapError Failure.reason⟩
  let report := pipeline.reportOf converted.here outcome
  obtain ⟨after, hlog, htold⟩ := exists_log_told hnull outcome (converted.report report)
  refine ⟨outcome, after, ?_, ?_⟩
  · have hconvert' : pipeline.convert (space.here.absolute (pipeline.cwd.join source)) space =
        (result, converted) := hconvert
    simp only [process, hconvert']
    exact congrArg (fun logged ↦ (logged.1.map fun _ ↦ outcome, logged.2)) hlog
  · have hadded : (converted.report report).reports = space.reports ++ [report] := by
      rw [Workspace.report, hreports]
    have hreport : Told pipeline.eventLog (fun _ _ ↦ False) space (converted.report report) :=
      .of_reports hadded fun _ _ ↦ id
    refine hreport.trans htold ?_
    rintro tree event ⟨⟩
    rw [hconvert]
    exact Or.inr ⟨rfl, rfl⟩

end Log

/-! ### Batches -/

/-- The entries of a batch, and the trees in which they are to be written. -/
inductive Logs (pipeline : Pipeline) : List Path → Workspace → Tree → LogEvent → Prop
  | first {source : Path} {rest : List Path} {space : Workspace} {tree : Tree} {event : LogEvent}
      (h : pipeline.Enters source space tree event) : Logs pipeline (source :: rest) space tree event
  | later {source : Path} {rest : List Path} {space : Workspace} {tree : Tree} {event : LogEvent}
      (h : Logs pipeline rest (pipeline.process source space).2 tree event) :
      Logs pipeline (source :: rest) space tree event

section Log

variable (hnull : ∀ path ∈ pipeline.eventLog, path.hasNull = false)
include hnull

/-- **A batch never breaks off**, and each of its entries is written or reported. -/
theorem exists_processAll_told (sources : List Path) (space : Workspace) :
    ∃ outcomes after, pipeline.processAll sources space = (.ok outcomes, after) ∧
      Told pipeline.eventLog (pipeline.Logs sources space) space after := by
  induction sources generalizing space with
  | nil => exact ⟨[], space, rfl, .of_reports_eq rfl fun tree event h ↦ nomatch h⟩
  | cons source rest ih =>
    obtain ⟨outcome, middle, hprocess, hfirst⟩ := exists_process_told hnull source space
    obtain ⟨outcomes, after, hprocessAll, hrest⟩ := ih middle
    refine ⟨outcome :: outcomes, after, processAll_cons hprocess hprocessAll,
      hfirst.trans hrest fun tree event h ↦ ?_⟩
    cases h with
    | first h => exact Or.inl h
    | later h =>
      rw [hprocess] at h
      exact Or.inr h

/-- **When converting a set of sources breaks off**: only if there is no place where the search for
dangling artifacts can begin, and not before everything was converted. -/
theorem exists_convertAll_told (sources : SourceSet) {limit : Option Int}
    (hlimit : ∀ n ∈ limit, 0 < n) (exclude : List Text) (space : Workspace) :
    ∃ result after, pipeline.convertAll sources limit exclude space = (result, after) ∧
      Told pipeline.eventLog (pipeline.Logs sources.files space) space after ∧
      (Dangling.CanFind sources.pattern pipeline.suffix → ∃ converted, result = .ok converted) ∧
      (¬ Dangling.CanFind sources.pattern pipeline.suffix →
        result = .error (.access .nullCharacter)) := by
  obtain ⟨outcomes, after, hrun, htold⟩ := exists_processAll_told hnull sources.files space
  rw [convertAll, runBatch_eq hlimit hrun]
  cases sources.pattern with
  | none =>
    have hcanFind : Dangling.CanFind none pipeline.suffix := by simp [Dangling.CanFind]
    exact ⟨_, after, rfl, htold, fun _ ↦ ⟨_, rfl⟩, fun h ↦ absurd hcanFind h⟩
  | some pattern =>
    have hcanFind : Dangling.CanFind (some pattern) pipeline.suffix ↔
        (Glob.opened? (pattern ++ pipeline.suffix)).any Path.hasNull = false := by
      simp [Dangling.CanFind]
    rw [hcanFind]
    simp only [Dangling.find, Glob.search]
    cases (Glob.opened? (pattern ++ pipeline.suffix)).any Path.hasNull with
    | true =>
      exact ⟨_, after, rfl, htold, fun h ↦ absurd h.symm Bool.false_ne_true, fun _ ↦ rfl⟩
    | false =>
      exact ⟨_, _, rfl, htold.trans (.of_reports rfl fun _ _ ↦ id) fun tree event ↦ Or.inl,
        fun _ ↦ ⟨_, rfl⟩, fun h ↦ absurd rfl h⟩

end Log

end Pipeline

end CssTypings
