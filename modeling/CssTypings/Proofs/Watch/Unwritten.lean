import CssTypings.Proofs.Pipeline.Unwritten
import CssTypings.Proofs.Watch.Snapshots

/-!
# Watches whose log cannot be written

A watch looks again and again while the tree is changed from outside. Once the directory that its
pattern opens can be asked about, no look fails, whatever the changes are; and since no conversion
breaks off, neither does the watch (`exists_pollAll_told`). As in a batch, each of its entries is
written to the log or reported.
-/

namespace CssTypings.Watch.Coordinator

open Pipeline (exists_processAll_told)

variable {watch : Coordinator} {pipeline : Pipeline} {space : Workspace}

/-- The entries of the next look, and the trees in which they are to be written. -/
inductive Looks (pipeline : Pipeline) (watch : Coordinator) (space : Workspace) :
    Tree → LogEvent → Prop
  | mk {previous current : Snapshot} {tree : Tree} {event : LogEvent}
      (seen : watch.snapshot = some previous) (scanned : watch.scan space = .ok current)
      (h : pipeline.Logs ((Delta.between previous current).events.map Event.path) space tree event) :
      Looks pipeline watch space tree event

/-- The entries of a watch, and the trees in which they are to be written; each step changes the
tree before the next look. -/
inductive Logs (pipeline : Pipeline) :
    Coordinator → List (Tree → Tree) → Workspace → Tree → LogEvent → Prop
  | next {watch : Coordinator} {step : Tree → Tree} {rest : List (Tree → Tree)} {space : Workspace}
      {tree : Tree} {event : LogEvent}
      (h : Looks pipeline watch { space with tree := step space.tree } tree event) :
      Logs pipeline watch (step :: rest) space tree event
  | later {watch watch' : Coordinator} {step : Tree → Tree} {rest : List (Tree → Tree)}
      {space after : Workspace} {look : Look} {tree : Tree} {event : LogEvent}
      (polled : watch.poll pipeline { space with tree := step space.tree } = (.ok look, watch', after))
      (h : Logs pipeline watch' rest after tree event) :
      Logs pipeline watch (step :: rest) space tree event

variable (hopened : (Glob.opened? watch.pattern).any Path.hasNull = false)
  (hnull : ∀ path ∈ pipeline.eventLog, path.hasNull = false)
include hopened hnull

/-- **A look never fails**, and each of its entries is written or reported. -/
theorem exists_poll_told (space : Workspace) :
    ∃ look watch' after, watch.poll pipeline space = (.ok look, watch', after) ∧
      watch'.pattern = watch.pattern ∧
      Told pipeline.eventLog (Looks pipeline watch space) space after := by
  have hscan := scan_eq hopened space
  cases hseen : watch.snapshot with
  | none =>
    refine ⟨⟨[], []⟩, { watch with snapshot := some (.ofList (watch.findings space)) }, space, ?_, rfl,
      .of_reports_eq rfl ?_⟩
    · rw [poll, hscan]
      simp only [hseen]
    · rintro tree event ⟨seen⟩
      cases hseen.symm.trans seen
  | some previous =>
    let current : Snapshot := .ofList (watch.findings space)
    obtain ⟨outcomes, after, hrun, htold⟩ := exists_processAll_told hnull
      ((Delta.between previous current).events.map Event.path) space
    refine ⟨_, _, after, poll_of_run hseen hscan rfl hrun, rfl, htold.trans
      (.of_reports_eq rfl fun _ _ ↦ id) ?_⟩
    rintro tree event ⟨seen, scanned, h⟩
    cases hseen.symm.trans seen
    cases hscan.symm.trans scanned
    exact Or.inl h

/-- **A watch never breaks off**, and each of its entries is written or reported. -/
theorem exists_pollAll_told (steps : List (Tree → Tree)) (space : Workspace) :
    ∃ looks watch' after, watch.pollAll pipeline steps space = (.ok looks, watch', after) ∧
      Told pipeline.eventLog (Logs pipeline watch steps space) space after := by
  induction steps generalizing watch space with
  | nil => exact ⟨[], watch, space, rfl, .of_reports_eq rfl fun tree event h ↦ nomatch h⟩
  | cons step rest ih =>
    obtain ⟨look, watch', middle, hpoll, hpattern, hfirst⟩ :=
      exists_poll_told hopened hnull { space with tree := step space.tree }
    obtain ⟨looks, watch'', after, hpollAll, hrest⟩ := ih (hpattern ▸ hopened) middle
    refine ⟨look :: looks, watch'', after, ?_, ?_⟩
    · rw [pollAll, hpoll]
      simp only [hpollAll]
      rfl
    · have hstep : Told pipeline.eventLog (fun _ _ ↦ False) space
          { space with tree := step space.tree } := .of_reports_eq rfl fun _ _ ↦ id
      refine hstep.trans (hfirst.trans hrest fun tree event ↦ id) fun tree event h ↦ Or.inr ?_
      cases h with
      | next h => exact Or.inl h
      | later polled h =>
        cases hpoll.symm.trans polled
        exact Or.inr h

/-- **A run of a watch never breaks off.** Its baseline can be taken, and each entry of the looks
after that is written or reported. -/
theorem exists_run_told (steps : List (Tree → Tree)) (space : Workspace) :
    ∃ watch' looks watch'' after, watch.subscribe space = .ok watch' ∧
      watch.run pipeline steps space = (.ok looks, watch'', after) ∧
      Told pipeline.eventLog (Logs pipeline watch' steps space) space after := by
  let watch' : Coordinator := { watch with snapshot := some (.ofList (watch.findings space)) }
  have hsubscribe : watch.subscribe space = .ok watch' := by
    rw [subscribe, scan_eq hopened]
    rfl
  have hopened' : (Glob.opened? watch'.pattern).any Path.hasNull = false := hopened
  obtain ⟨looks, watch'', after, hpollAll, htold⟩ := exists_pollAll_told hopened' hnull steps space
  refine ⟨watch', looks, watch'', after, hsubscribe, ?_, htold⟩
  rw [run, hsubscribe]
  exact hpollAll

end CssTypings.Watch.Coordinator
