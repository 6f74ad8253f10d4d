import CssTypings.Proofs.Pipeline.Containment
import CssTypings.Proofs.Pipeline.Logging
import Mathlib.Algebra.GroupWithZero.Nat

/-!
# Conversions in turns

The conversions of a batch do not wait for each other. Each has up to four turns: the source is
compiled, the declaration is made by way of the scratch file, the artifact is written, and what came
of it, which is reported at once, is logged (`advance`). Between two turns of one conversion any
turns of others may come, and if there is a limit, a conversion only begins while fewer are under
way (`Progress.turn`). Making a declaration is one turn, although the scratch file is written, read
and removed in it, since no other conversion knows the path of the file. The last turn does nothing
if there is no log.

Running the conversions one after the other is one of the ways they may go (`ends_inOrder`), and
however far they have come, they can go on to the end (`canEnd`).
-/

namespace CssTypings.Pipeline

/-! ### Turns -/

/-- How far a conversion has come. -/
inductive Stage where
  /-- It has not begun. -/
  | waiting
  /-- The source is compiled. -/
  | compiled (css : Text)
  /-- The declaration is made, and the scratch file is gone. -/
  | declared (declaration : Text)
  /-- What came of it is reported. -/
  | reported (outcome : Outcome)
  /-- It is over. -/
  | ended (outcome : Outcome)
  /-- The log has broken it off. -/
  | broken (fault : Tree.Fault)
deriving Repr

namespace Stage

/-- What came of a conversion that is over. -/
def outcome? : Stage → Option Outcome
  | ended outcome => some outcome
  | _ => none

/-- What came of a conversion that is over or only remains to be logged. -/
def result? : Stage → Option Outcome
  | reported outcome | ended outcome => some outcome
  | _ => none

/-- The number of turns that a conversion may still have. -/
def left : Stage → Nat
  | waiting => 4
  | compiled _ => 3
  | declared _ => 2
  | reported _ => 1
  | ended _ | broken _ => 0

/-- Whether a conversion may have a turn at all. -/
def isOpen : Stage → Bool
  | ended _ | broken _ => false
  | _ => true

/-- Whether a conversion has begun and may have a turn. -/
def isUnderWay (stage : Stage) : Bool :=
  match stage with
  | waiting => false
  | _ => stage.isOpen

variable {stage : Stage}

theorem eq_ended {outcome : Outcome} (h : stage.outcome? = some outcome) :
    stage = ended outcome := by
  cases stage with
  | ended other => rw [Option.some.inj h]
  | _ => cases h

theorem outcome?_of_isOpen (h : stage.isOpen = true) : stage.outcome? = none := by
  cases stage with
  | ended outcome => cases h
  | _ => rfl

theorem isOpen_of_isUnderWay (h : stage.isUnderWay = true) : stage.isOpen = true := by
  cases stage with
  | waiting => cases h
  | _ => exact h

end Stage

/-- The conversion of a source, as far as it has come. -/
structure Task where
  source : Path
  stage : Stage
deriving Repr

variable (pipeline : Pipeline)

/-- What came of a conversion is reported. -/
def conclude (source : Path) (result : Except Failure Path) (space : Workspace) :
    Stage × Workspace :=
  let outcome : Outcome := ⟨source, result.mapError Failure.reason⟩
  (.reported outcome, space.report (pipeline.reportOf space.here outcome))

/-- One turn in the conversion of a source. -/
def advance (source : Path) (stage : Stage) (space : Workspace) : Stage × Workspace :=
  let source := pipeline.sourceOf space.here source
  match stage with
  | .waiting =>
    match pipeline.compiler.render space.tree source with
    | .ok css => (.compiled css, space)
    | .error failure => pipeline.conclude source (.error failure) space
  | .compiled css =>
    match pipeline.declare css space with
    | (.ok declaration, space) => (.declared declaration, space)
    | (.error failure, space) => pipeline.conclude source (.error failure) space
  | .declared declaration =>
    match write (pipeline.artifactOf source) declaration space with
    | (.ok _, space) => pipeline.conclude source (.ok (pipeline.artifactOf source)) space
    | (.error failure, space) => pipeline.conclude source (.error failure) space
  | .reported outcome =>
    match pipeline.log outcome space with
    | (.ok _, space) => (.ended outcome, space)
    | (.error fault, space) => (.broken fault, space)
  | .ended outcome => (.ended outcome, space)
  | .broken fault => (.broken fault, space)

/-- Turns of one conversion with nothing between them. -/
def advances (source : Path) : Nat → Stage → Workspace → Stage × Workspace
  | 0, stage, space => (stage, space)
  | turns + 1, stage, space =>
    let (stage, space) := pipeline.advance source stage space
    advances source turns stage space

/-- The conversions of a batch, as far as they have come, and what they did to the workspace. -/
structure Progress where
  tasks : List Task
  space : Workspace
  /-- What came of those that are over, in the order in which they were. -/
  completed : List Outcome
deriving Repr

namespace Progress

/-- No conversion has begun. -/
def start (sources : List Path) (space : Workspace) : Progress :=
  ⟨sources.map (⟨·, .waiting⟩), space, []⟩

/-- Whether a conversion may have a turn: a conversion begins only if fewer than `limit` are under
way. -/
def allows (limit : Option Int) (now : Progress) (stage : Stage) : Bool :=
  match stage with
  | .waiting => limit.all fun n ↦ (now.tasks.countP (·.stage.isUnderWay) : Int) < n
  | _ => stage.isOpen

/-- The conversion with an index has a turn, if it may. -/
def turn (limit : Option Int) (now : Progress) (i : Nat) : Progress :=
  match now.tasks[i]? with
  | none => now
  | some task =>
    if now.allows limit task.stage then
      let (stage, space) := pipeline.advance task.source task.stage now.space
      ⟨now.tasks.set i { task with stage }, space, now.completed ++ stage.outcome?.toList⟩
    else now

/-- Conversions have turns, one after the other. -/
def turns (limit : Option Int) (now : Progress) (schedule : List Nat) : Progress :=
  schedule.foldl (turn pipeline limit) now

end Progress

/-- The conversions are over, with these outcomes. -/
def AreOver (tasks : List Task) (outcomes : List Outcome) : Prop :=
  tasks.map (·.stage.outcome?) = outcomes.map some

/-- Converting the sources in these turns, at most `limit` at once, comes to these outcomes, which
are completed in some order, and this workspace. -/
def Ends (limit : Option Int) (sources : List Path) (before : Workspace) (schedule : List Nat)
    (outcomes completed : List Outcome) (after : Workspace) : Prop :=
  ∃ tasks,
    Progress.turns pipeline limit (.start sources before) schedule = ⟨tasks, after, completed⟩ ∧
    AreOver tasks outcomes

/-- Converting the sources, at most `limit` at once, may come to these outcomes and this
workspace. -/
def MayEnd (limit : Option Int) (sources : List Path) (before : Workspace) (outcomes : List Outcome)
    (after : Workspace) : Prop :=
  ∃ schedule completed, pipeline.Ends limit sources before schedule outcomes completed after

/-- Whatever turns conversions have had, at most `limit` at once, they can go on until all are
over. -/
def CanEnd (limit : Option Int) (sources : List Path) (before : Workspace) : Prop :=
  ∀ schedule, ∃ more outcomes,
    AreOver (Progress.turns pipeline limit (.start sources before) (schedule ++ more)).tasks outcomes

variable {pipeline} {limit : Option Int} {space after : Workspace} {source : Path} {stage : Stage}
  {sources done : List Path} {outcomes : List Outcome} {now : Progress} {front back : List Task}

/-! ### What a turn does -/

section Advance

variable {css declaration : Text} {failure : Failure} {outcome : Outcome} {middle : Workspace}

theorem advance_waiting_error
    (h : pipeline.compiler.render space.tree (pipeline.sourceOf space.here source) =
      .error failure) :
    pipeline.advance source .waiting space =
      pipeline.conclude (pipeline.sourceOf space.here source) (.error failure) space := by
  simp only [advance, h]

theorem advance_waiting_ok
    (h : pipeline.compiler.render space.tree (pipeline.sourceOf space.here source) = .ok css) :
    pipeline.advance source .waiting space = (.compiled css, space) := by
  simp only [advance, h]

theorem advance_compiled_error (h : pipeline.declare css space = (.error failure, middle)) :
    pipeline.advance source (.compiled css) space =
      pipeline.conclude (pipeline.sourceOf space.here source) (.error failure) middle := by
  simp only [advance, h]

theorem advance_compiled_ok (h : pipeline.declare css space = (.ok declaration, middle)) :
    pipeline.advance source (.compiled css) space = (.declared declaration, middle) := by
  simp only [advance, h]

theorem advance_declared {result : Except Failure Unit}
    (h : write (pipeline.artifactOf (pipeline.sourceOf space.here source)) declaration space =
      (result, middle)) :
    pipeline.advance source (.declared declaration) space =
      pipeline.conclude (pipeline.sourceOf space.here source)
        (result.map fun _ ↦ pipeline.artifactOf (pipeline.sourceOf space.here source)) middle := by
  simp only [advance, h]
  cases result <;> rfl

theorem advance_reported (h : pipeline.log outcome space = (.ok (), middle)) :
    pipeline.advance source (.reported outcome) space = (.ended outcome, middle) := by
  simp only [advance, h]

end Advance

variable (pipeline) in
theorem left_advance (hopen : stage.isOpen = true) (source : Path) (space : Workspace) :
    (pipeline.advance source stage space).1.left < stage.left := by
  cases stage with
  | waiting =>
    simp only [advance]
    split <;> simp [conclude, Stage.left]
  | compiled css =>
    simp only [advance]
    split <;> simp [conclude, Stage.left]
  | declared declaration =>
    simp only [advance]
    split <;> simp [conclude, Stage.left]
  | reported outcome =>
    simp only [advance]
    split <;> simp [Stage.left]
  | ended outcome => cases hopen
  | broken fault => cases hopen

/-- Before it is reported, a conversion stays open. -/
theorem isOpen_advance (hopen : stage.isOpen = true) (hresult : stage.result? = none)
    (source : Path) (space : Workspace) :
    (pipeline.advance source stage space).1.isOpen = true := by
  cases stage with
  | waiting =>
    simp only [advance]
    split <;> rfl
  | compiled css =>
    simp only [advance]
    split <;> rfl
  | declared declaration =>
    simp only [advance]
    split <;> rfl
  | reported outcome => cases hresult
  | ended outcome => cases hopen
  | broken fault => cases hopen

/-- What is not open is not what a conversion comes to before it is reported. -/
theorem advance_ne_of_not_isOpen {last : Stage} (hlast : last.isOpen = false)
    (hopen : stage.isOpen = true) (hresult : stage.result? = none) (source : Path)
    (space : Workspace) : (pipeline.advance source stage space).1 ≠ last := by
  rintro rfl
  rw [isOpen_advance hopen hresult] at hlast
  cases hlast

/-- Only a log about which nothing can be asked breaks off a conversion. -/
theorem advance_ne_broken (hlog : ∀ path ∈ pipeline.eventLog, path.hasNull = false)
    (hstage : ∀ fault, stage ≠ .broken fault) (source : Path) (space : Workspace)
    (fault : Tree.Fault) : (pipeline.advance source stage space).1 ≠ .broken fault := by
  cases stage with
  | reported outcome =>
    obtain ⟨after, hlogged⟩ := exists_log hlog outcome space
    rw [advance_reported hlogged]
    exact Stage.noConfusion
  | ended outcome => exact hstage fault
  | broken fault' => exact hstage fault
  | _ => exact advance_ne_of_not_isOpen rfl rfl rfl source space

namespace Progress

theorem allows_of_isUnderWay (h : stage.isUnderWay = true) : now.allows limit stage = true := by
  cases stage with
  | waiting => cases h
  | _ => exact h

/-- While none is under way, any conversion may begin. -/
theorem allows_waiting (hlimit : ∀ n ∈ limit, 0 < n)
    (hnone : now.tasks.countP (·.stage.isUnderWay) = 0) : now.allows limit .waiting = true := by
  rw [allows, hnone, Option.all_eq_true]
  exact fun n hn ↦ decide_eq_true (hlimit n hn)

theorem isOpen_of_allows (h : now.allows limit stage = true) : stage.isOpen = true := by
  cases stage with
  | waiting => rfl
  | _ => exact h

theorem turn_of_length_le {i : Nat} (h : now.tasks.length ≤ i) :
    turn pipeline limit now i = now := by
  rw [turn, List.getElem?_eq_none h]

variable {completed : List Outcome}

theorem turn_of_allows
    (hallows : allows limit ⟨front ++ ⟨source, stage⟩ :: back, space, completed⟩ stage = true) :
    turn pipeline limit ⟨front ++ ⟨source, stage⟩ :: back, space, completed⟩ front.length =
      ⟨front ++ ⟨source, (pipeline.advance source stage space).1⟩ :: back,
        (pipeline.advance source stage space).2,
        completed ++ (pipeline.advance source stage space).1.outcome?.toList⟩ := by
  simp [turn, hallows]

theorem turn_of_not_allows
    (hallows : allows limit ⟨front ++ ⟨source, stage⟩ :: back, space, completed⟩ stage = false) :
    turn pipeline limit ⟨front ++ ⟨source, stage⟩ :: back, space, completed⟩ front.length =
      ⟨front ++ ⟨source, stage⟩ :: back, space, completed⟩ := by
  simp [turn, hallows]

variable (pipeline) in
/-- **A turn** changes nothing, or the stage of one conversion and the workspace. -/
theorem turn_cases (limit : Option Int) (now : Progress) (i : Nat) :
    turn pipeline limit now i = now ∨
    ∃ front task back, now.tasks = front ++ task :: back ∧ task.stage.isOpen = true ∧
      turn pipeline limit now i =
        ⟨front ++ ⟨task.source, (pipeline.advance task.source task.stage now.space).1⟩ :: back,
          (pipeline.advance task.source task.stage now.space).2,
          now.completed ++
            (pipeline.advance task.source task.stage now.space).1.outcome?.toList⟩ := by
  rw [turn]
  cases htask : now.tasks[i]? with
  | none => exact Or.inl rfl
  | some task =>
    by_cases hallows : now.allows limit task.stage = true
    · obtain ⟨hi, rfl⟩ := List.getElem?_eq_some_iff.1 htask
      obtain ⟨front, back, htasks, -, hset⟩ := List.exists_of_set hi
      refine Or.inr ⟨front, _, back, htasks, isOpen_of_allows hallows, ?_⟩
      simp only [hallows, if_true]
      rw [hset]
    · exact Or.inl (by simp only [hallows]; rfl)

theorem turns_append (limit : Option Int) (now : Progress) (schedule more : List Nat) :
    turns pipeline limit now (schedule ++ more) =
      turns pipeline limit (turns pipeline limit now schedule) more :=
  List.foldl_append

/-! ### To the end -/

/-- The number of turns that the conversions may still have. -/
def left (now : Progress) : Nat := (now.tasks.map (·.stage.left)).sum

variable (pipeline) in
/-- While a conversion is open, one may have a turn. -/
theorem exists_turn (hlimit : ∀ n ∈ limit, 0 < n)
    (hopen : ∃ task ∈ now.tasks, task.stage.isOpen = true) :
    ∃ i, (turn pipeline limit now i).left < now.left := by
  -- if none is under way, all that are open wait, and one of them may begin
  obtain ⟨task, htask, hallows⟩ : ∃ task ∈ now.tasks, now.allows limit task.stage = true := by
    by_cases hway : ∃ task ∈ now.tasks, task.stage.isUnderWay = true
    · obtain ⟨task, htask, hway⟩ := hway
      exact ⟨task, htask, allows_of_isUnderWay hway⟩
    · obtain ⟨task, htask, hopen⟩ := hopen
      have hcount : now.tasks.countP (·.stage.isUnderWay) = 0 :=
        List.countP_eq_zero.2 fun task htask hway' ↦ hway ⟨task, htask, hway'⟩
      refine ⟨task, htask, ?_⟩
      cases hstage : task.stage with
      | waiting => exact allows_waiting hlimit hcount
      | _ =>
        rw [hstage] at hopen
        exact hopen
  obtain ⟨front, back, htasks⟩ := List.append_of_mem htask
  obtain ⟨tasks, space, completed⟩ := now
  subst htasks
  refine ⟨front.length, ?_⟩
  have hless := pipeline.left_advance (isOpen_of_allows hallows) task.source space
  rw [turn_of_allows hallows]
  simp only [left, List.map_append, List.map_cons, List.sum_append, List.sum_cons]
  omega

variable (pipeline) in
/-- However far conversions have come, they can go on until none is open. -/
theorem exists_turns (hlimit : ∀ n ∈ limit, 0 < n) (now : Progress) :
    ∃ schedule, ∀ task ∈ (turns pipeline limit now schedule).tasks, task.stage.isOpen = false := by
  induction hleft : now.left using Nat.strong_induction_on generalizing now with
  | _ n ih =>
    by_cases hopen : ∃ task ∈ now.tasks, task.stage.isOpen = true
    · obtain ⟨i, hi⟩ := exists_turn pipeline hlimit hopen
      obtain ⟨schedule, hclosed⟩ := ih _ (hleft ▸ hi) _ rfl
      exact ⟨i :: schedule, hclosed⟩
    · exact ⟨[], fun task htask ↦ Bool.eq_false_iff.2 fun h ↦ hopen ⟨task, htask, h⟩⟩

variable (pipeline) in
theorem length_turns (limit : Option Int) (now : Progress) (schedule : List Nat) :
    (turns pipeline limit now schedule).tasks.length = now.tasks.length := by
  induction schedule generalizing now with
  | nil => rfl
  | cons i rest ih =>
    refine (ih (turn pipeline limit now i)).trans ?_
    rcases turn_cases pipeline limit now i with heq | ⟨front, task, back, htasks, -, heq⟩
    · rw [heq]
    · rw [heq, htasks]
      simp

/-- What each turn preserves of the stage of its conversion is preserved of all stages. -/
theorem forall_turns {P : Stage → Prop}
    (hstep : ∀ source stage space, P stage → P (pipeline.advance source stage space).1)
    (limit : Option Int) (now : Progress) (schedule : List Nat)
    (h : ∀ task ∈ now.tasks, P task.stage) :
    ∀ task ∈ (turns pipeline limit now schedule).tasks, P task.stage := by
  induction schedule generalizing now with
  | nil => exact h
  | cons i rest ih =>
    refine ih (turn pipeline limit now i) ?_
    rcases turn_cases pipeline limit now i with heq | ⟨front, task, back, htasks, -, heq⟩
    · rwa [heq]
    · rw [htasks] at h
      rw [heq]
      obtain ⟨hfront, hrest⟩ := List.forall_mem_append.1 h
      obtain ⟨htask, hback⟩ := List.forall_mem_cons.1 hrest
      exact List.forall_mem_append.2
        ⟨hfront, List.forall_mem_cons.2 ⟨hstep _ _ _ htask, hback⟩⟩

theorem exists_areOver {tasks : List Task} (h : ∀ task ∈ tasks, task.stage.outcome? ≠ none) :
    ∃ outcomes, AreOver tasks outcomes := by
  induction tasks with
  | nil => exact ⟨[], rfl⟩
  | cons task rest ih =>
    obtain ⟨htask, hrest⟩ := List.forall_mem_cons.1 h
    obtain ⟨outcome, houtcome⟩ := Option.ne_none_iff_exists'.1 htask
    obtain ⟨outcomes, houtcomes⟩ := ih hrest
    exact ⟨outcome :: outcomes, congrArg₂ List.cons houtcome houtcomes⟩

end Progress

/-- **Conversions come to an end**, since each turn leaves fewer of them, and a log that can be
asked about breaks none off. -/
theorem canEnd (hlimit : ∀ n ∈ limit, 0 < n)
    (hlog : ∀ path ∈ pipeline.eventLog, path.hasNull = false) (sources : List Path)
    (space : Workspace) : pipeline.CanEnd limit sources space := by
  intro schedule
  obtain ⟨more, hclosed⟩ := Progress.exists_turns pipeline hlimit
    (.turns pipeline limit (.start sources space) schedule)
  rw [← Progress.turns_append] at hclosed
  have hunbroken := Progress.forall_turns (P := fun stage ↦ ∀ fault, stage ≠ .broken fault)
    (fun source _ space hstage ↦ advance_ne_broken hlog hstage source space) limit
    (.start sources space) (schedule ++ more) (by simp [Progress.start])
  obtain ⟨outcomes, hover⟩ := Progress.exists_areOver fun task htask hnone ↦ by
    have hstage := hclosed task htask
    have hbroken := hunbroken task htask
    cases heq : task.stage with
    | ended outcome => simp [heq, Stage.outcome?] at hnone
    | broken fault => exact hbroken fault heq
    | _ => simp [heq, Stage.isOpen] at hstage
  exact ⟨more, outcomes, hover⟩

/-! ### One after the other -/

/-- Four turns for each conversion, one conversion after the other. -/
def inOrder (first count : Nat) : List Nat := (List.range' first count).flatMap (List.replicate 4)

/-- Of conversions that are over none is under way. -/
theorem AreOver.countP_isUnderWay {tasks : List Task} (h : AreOver tasks outcomes) :
    tasks.countP (·.stage.isUnderWay) = 0 := by
  refine List.countP_eq_zero.2 fun task htask hway ↦ ?_
  have hmem : task.stage.outcome? ∈ outcomes.map some := h ▸ List.mem_map_of_mem htask
  rw [Stage.outcome?_of_isOpen (Stage.isOpen_of_isUnderWay hway)] at hmem
  simp at hmem

theorem here_write (path : Path) (t : Text) (space : Workspace) :
    (write path t space).2.here = space.here := by
  rw [write]
  split <;> rfl

variable (pipeline) in
theorem here_declare (css : Text) (space : Workspace) :
    (pipeline.declare css space).2.here = space.here := by
  have hwrite := here_write (pipeline.store.scratchPath space.scratch) css
    { space with scratch := space.scratch + 1 }
  show (pipeline.store.withScratch ".css".toList _ space).2.here = space.here
  simp only [Store.withScratch, Store.allocate]
  rw [Store.scratchPath] at hwrite
  generalize write _ css _ = written at hwrite ⊢
  obtain ⟨result, middle⟩ := written
  cases result <;> exact hwrite

section Advances

variable {outcome : Outcome}

/-- What is not open stays as it is. -/
theorem advances_of_not_isOpen (h : stage.isOpen = false) (source : Path) (turns : Nat)
    (space : Workspace) : pipeline.advances source turns stage space = (stage, space) := by
  induction turns with
  | zero => rfl
  | succ turns ih =>
    cases stage with
    | ended outcome => exact ih
    | broken fault => exact ih
    | _ => cases h

/-- What is reported has one turn left. -/
theorem advances_reported (source : Path) (turns : Nat) (outcome : Outcome) (space : Workspace) :
    pipeline.advances source (turns + 1) (.reported outcome) space =
      pipeline.advance source (.reported outcome) space := by
  have hclosed : (pipeline.advance source (.reported outcome) space).1.isOpen = false := by
    simp only [advance]
    split <;> rfl
  exact advances_of_not_isOpen hclosed source turns _

variable (pipeline) in
/-- A conversion is reported after one, two or three turns. -/
theorem exists_conclude (source : Path) (space : Workspace) :
    ∃ turns result middle,
      pipeline.convert (pipeline.sourceOf space.here source) space = (result, middle) ∧
      pipeline.advances source 4 .waiting space = pipeline.advances source (turns + 1)
        (pipeline.conclude (pipeline.sourceOf space.here source) result middle).1
        (pipeline.conclude (pipeline.sourceOf space.here source) result middle).2 := by
  cases hrender : pipeline.compiler.render space.tree (pipeline.sourceOf space.here source) with
  | error failure =>
    refine ⟨2, .error failure, space, by simp only [convert, hrender], ?_⟩
    simp only [advances, advance_waiting_error hrender]
  | ok css =>
    cases hdeclare : pipeline.declare css space with
    | mk result middle =>
      cases result with
      | error failure =>
        refine ⟨1, .error failure, middle, by simp only [convert, hrender, hdeclare], ?_⟩
        simp only [advances, advance_waiting_ok hrender, advance_compiled_error hdeclare]
      | ok declaration =>
        have hhere : middle.here = space.here := by
          have := pipeline.here_declare css space
          rwa [hdeclare] at this
        cases hwrite : write (pipeline.artifactOf (pipeline.sourceOf space.here source)) declaration
          middle with
        | mk written last =>
          refine ⟨0, written.map fun _ ↦ pipeline.artifactOf (pipeline.sourceOf space.here source),
            last, ?_, ?_⟩
          · rw [artifactOf] at hwrite
            simp only [convert, hrender, hdeclare, hwrite]
            cases written <;> rfl
          · rw [← hhere] at hwrite
            simp only [advances, advance_waiting_ok hrender, advance_compiled_ok hdeclare,
              advance_declared hwrite, hhere]

/-- **A conversion has four turns**, or fewer if it fails. -/
theorem process_eq_ok :
    pipeline.process source space = (.ok outcome, after) ↔
      pipeline.advances source 4 .waiting space = (.ended outcome, after) := by
  obtain ⟨turns, result, middle, hconvert, hadvances⟩ := pipeline.exists_conclude source space
  rw [hadvances, conclude, advances_reported, process, ← sourceOf]
  simp only [hconvert, advance]
  generalize pipeline.log _ _ = logged
  obtain ⟨result | result, space⟩ := logged <;> simp [Except.map]

/-- If the log can be asked about, every conversion has an outcome. -/
theorem exists_process (hlog : ∀ path ∈ pipeline.eventLog, path.hasNull = false) (source : Path)
    (space : Workspace) :
    ∃ outcome after, pipeline.process source space = (.ok outcome, after) := by
  rw [process]
  simp only
  obtain ⟨after, hlogged⟩ := exists_log hlog _ _
  rw [hlogged]
  exact ⟨_, _, rfl⟩

end Advances

namespace Progress

section Alone

variable (hlimit : ∀ n ∈ limit, 0 < n) (hnone : (front ++ back).countP (·.stage.isUnderWay) = 0)
include hlimit hnone

/-- A conversion that is alone under way goes on with every turn. -/
theorem turn_alone (source : Path) (stage : Stage) (space : Workspace) (completed : List Outcome) :
    turn pipeline limit ⟨front ++ ⟨source, stage⟩ :: back, space,
        completed ++ stage.outcome?.toList⟩ front.length =
      ⟨front ++ ⟨source, (pipeline.advance source stage space).1⟩ :: back,
        (pipeline.advance source stage space).2,
        completed ++ (pipeline.advance source stage space).1.outcome?.toList⟩ := by
  cases stage with
  | waiting =>
    rw [turn_of_allows (allows_waiting hlimit ?_)]
    · simp [Stage.outcome?]
    · simpa [List.countP_append, Stage.isUnderWay] using hnone
  | ended outcome => simp [turn, allows, Stage.isOpen, advance]
  | broken fault => simp [turn, allows, Stage.isOpen, advance]
  | _ =>
    rw [turn_of_allows rfl]
    simp [Stage.outcome?]

variable (pipeline) in
theorem turns_alone (source : Path) (completed : List Outcome) (n : Nat) (stage : Stage)
    (space : Workspace) :
    turns pipeline limit ⟨front ++ ⟨source, stage⟩ :: back, space,
        completed ++ stage.outcome?.toList⟩ (List.replicate n front.length) =
      ⟨front ++ ⟨source, (pipeline.advances source n stage space).1⟩ :: back,
        (pipeline.advances source n stage space).2,
        completed ++ (pipeline.advances source n stage space).1.outcome?.toList⟩ := by
  induction n generalizing stage space with
  | zero => rfl
  | succ n ih =>
    rw [List.replicate_succ, turns, List.foldl_cons, turn_alone hlimit hnone, ← turns, ih]
    rfl

end Alone

/-- Conversions that have not begun can have their turns one after the other. -/
theorem exists_turns_inOrder (hlimit : ∀ n ∈ limit, 0 < n) {more : List Outcome}
    (h : pipeline.processAll sources space = (.ok more, after)) (hfront : AreOver front outcomes)
    (completed : List Outcome) :
    ∃ tasks,
      turns pipeline limit ⟨front ++ sources.map (⟨·, .waiting⟩), space, completed⟩
        (inOrder front.length sources.length) = ⟨tasks, after, completed ++ more⟩ ∧
      AreOver tasks (outcomes ++ more) := by
  induction sources generalizing front outcomes completed more space with
  | nil =>
    obtain ⟨hmore, rfl⟩ := Prod.mk.inj h
    obtain rfl := Except.ok.inj hmore
    exact ⟨front, by simp [turns, inOrder], by simpa using hfront⟩
  | cons source rest ih =>
    obtain ⟨outcome, others, middle, rfl, hprocess, hrest⟩ := processAll_cons_eq_ok.1 h
    have hnone : (front ++ rest.map fun s ↦ (⟨s, .waiting⟩ : Task)).countP
        (·.stage.isUnderWay) = 0 := by
      rw [List.countP_append, hfront.countP_isUnderWay, List.countP_map, Nat.zero_add]
      exact List.countP_eq_zero.2 fun _ _ h ↦ Bool.noConfusion h
    have hturns := turns_alone pipeline hlimit hnone source completed 4 .waiting space
    rw [process_eq_ok.1 hprocess] at hturns
    have hfront' : AreOver (front ++ [⟨source, .ended outcome⟩]) (outcomes ++ [outcome]) := by
      rw [AreOver, List.map_append, List.map_append, hfront]
      rfl
    obtain ⟨tasks, hrun, hover⟩ := ih hrest hfront' (completed ++ [outcome])
    refine ⟨tasks, ?_, by simpa using hover⟩
    have horder : inOrder front.length (source :: rest).length =
        List.replicate 4 front.length ++ inOrder (front.length + 1) rest.length := rfl
    simp only [Stage.outcome?, Option.toList, List.append_nil] at hturns
    rw [horder, turns_append, List.map_cons, hturns]
    simpa using hrun

end Progress

/-- **One after the other** is one of the ways that conversions may go. They are completed in order
then. -/
theorem ends_inOrder (hlimit : ∀ n ∈ limit, 0 < n)
    (h : pipeline.processAll sources space = (.ok outcomes, after)) :
    pipeline.Ends limit sources space (inOrder 0 sources.length) outcomes outcomes after :=
  Progress.exists_turns_inOrder hlimit h (show AreOver [] [] from rfl) []

end CssTypings.Pipeline
