import CssTypings.Proofs.Pipeline.Copies
import CssTypings.Proofs.Pipeline.Independence
import CssTypings.Proofs.Pipeline.Turns

/-!
# Untangled conversions

If an artifact is a source, different ways of converting a batch may come to different ends. But if
the conversions are untangled (`Untangled`) and nothing is logged, no turn can tell which others
came before it: at any time each source has come as far as it would alone, and the declarations of
those that are reported are the only difference in the tree (`Progress.Consistent`). So all ways end
alike, also in copies of the workspace (`MayEnd.agree`).
-/

namespace CssTypings.Pipeline

variable {pipeline : Pipeline} {limit : Option Int} {space after : Workspace} {source : Path}
  {stage : Stage} {sources done : List Path} {outcomes : List Outcome} {now : Progress}
  {front back : List Task}

variable (pipeline space sources) in
/-- No conversion reads or goes through what another one writes. -/
structure Untangled : Prop where
  /-- No artifact is a source. -/
  source : ∀ s ∈ sources, ∀ s' ∈ sources,
    (pipeline.artifactOf (pipeline.sourceOf space.here s)).place ≠
      (pipeline.sourceOf space.here s').place
  /-- No artifact is on the way to another one, or at the same place. Where a directory is, nothing
  is ever written. -/
  artifact : ∀ s ∈ sources, ∀ s' ∈ sources,
    pipeline.sourceOf space.here s ≠ pipeline.sourceOf space.here s' →
    (pipeline.artifactOf (pipeline.sourceOf space.here s)).place ∈
      Tree.way [] (pipeline.artifactOf (pipeline.sourceOf space.here s')).parts →
    space.tree.find? (pipeline.artifactOf (pipeline.sourceOf space.here s)).place = some .directory

/-- Untangled conversions are so in a copy. -/
theorem Untangled.copy {copy : Workspace} (h : pipeline.Untangled space sources)
    (hhere : copy.here = space.here) (hcontents : space.tree.SameContents copy.tree) :
    pipeline.Untangled copy sources := by
  obtain ⟨hsource, hartifact⟩ := h
  rw [← hhere] at hsource hartifact
  exact ⟨hsource, fun s hs s' hs' hother hway ↦
    (hcontents.sameDirectories _).1 (hartifact s hs s' hs' hother hway)⟩

/-- On the way to the artifact of a file there are directories, up to the artifact itself. -/
theorem eq_or_find?_of_mem_way (hslash : '/' ∉ pipeline.suffix) (hsound : space.tree.Sound)
    (hfile : (space.tree.find? source.parts).any Entry.isFile = true) {l : Location}
    (hway : l ∈ Tree.way [] (pipeline.artifactOf source).parts) :
    l = (pipeline.artifactOf source).parts ∨ space.tree.find? l = some .directory := by
  have hplain := Tree.isPlain_of_isFile hsound hfile
  have hne := Tree.ne_nil_of_isFile hfile
  have hup : Path.up ∉ (pipeline.artifactOf source).parts :=
    (Path.isPlain_artifact hslash hne hplain).up_not_mem
  have hartifact : (pipeline.artifactOf source).parts =
      source.parts.dropLast ++ [source.name ++ pipeline.suffix] :=
    congrArg Path.parts (Path.artifact_eq hslash hne hplain)
  have hwithin := Tree.prefix_of_mem_way hup hway
  rw [List.nil_append, hartifact, List.prefix_concat_iff] at hwithin
  rcases hwithin with heq | hwithin
  · exact Or.inl (heq.trans hartifact.symm)
  · -- the place leads down to the file itself, and is not that of the file
    obtain ⟨entry, hfind, -⟩ := (Option.any_eq_true _ _).1 hfile
    refine Or.inr (hsound.find?_of_prefix hfind (hwithin.trans (List.dropLast_prefix _)) ?_)
    intro heq
    have hlength := hwithin.length_le
    rw [heq, List.length_dropLast] at hlength
    have hpos := List.length_pos_iff.2 hne
    omega

/-- **A suffix without a slash** leaves the conversions of files untangled, unless an artifact is a
source. -/
theorem untangled_of_not_mem_slash (hslash : '/' ∉ pipeline.suffix) (hsound : space.tree.Sound)
    {anchor : Anchor} (habsolute : anchor ≠ .relative)
    (hsources : ∀ s ∈ sources, s.anchor = anchor ∧ (space.tree.find? s.parts).any Entry.isFile = true)
    (hnone : ∀ s ∈ sources, pipeline.artifactOf s ∉ sources) : pipeline.Untangled space sources := by
  have hplain : ∀ s ∈ sources, s.IsPlain := fun s hs ↦
    Tree.isPlain_of_isFile hsound (hsources s hs).2
  have hne : ∀ s ∈ sources, s.parts ≠ [] := fun s hs ↦ Tree.ne_nil_of_isFile (hsources s hs).2
  have hsame : ∀ s ∈ sources, pipeline.sourceOf space.here s = s := by
    intro s hs
    refine sourceOf_of_isPlain (hplain s hs) ?_ space.here
    rw [Path.isAbsolute, (hsources s hs).1]
    exact decide_eq_true habsolute
  have hartifact : ∀ s ∈ sources, pipeline.artifactOf s =
      ⟨anchor, s.parts.dropLast ++ [s.name ++ pipeline.suffix]⟩ := fun s hs ↦
    (hsources s hs).1 ▸ Path.artifact_eq hslash (hne s hs) (hplain s hs)
  have hplace : ∀ s ∈ sources, (pipeline.artifactOf s).place = (pipeline.artifactOf s).parts :=
    fun s hs ↦ Path.place_of_isPlain (Path.isPlain_artifact hslash (hne s hs) (hplain s hs))
  constructor
  · intro s hs s' hs' heq
    rw [hsame s hs, hsame s' hs', hplace s hs, Path.place_of_isPlain (hplain s' hs'),
      hartifact s hs] at heq
    refine hnone s hs ?_
    rw [hartifact s hs, show s.parts.dropLast ++ [s.name ++ pipeline.suffix] = s'.parts from heq,
      ← (hsources s' hs').1]
    exact hs'
  · intro s hs s' hs' hother hway
    rw [hsame s hs, hsame s' hs'] at hother hway
    rw [hsame s hs]
    rw [hplace s hs] at hway ⊢
    refine (eq_or_find?_of_mem_way hslash hsound (hsources s' hs').2 hway).resolve_left fun heq ↦ ?_
    have hparts := Path.parts_eq_of_artifact hslash (hne s hs) (hplain s hs) (hne s' hs')
      (hplain s' hs') heq
    have hanchor := (hsources s hs).1.trans (hsources s' hs').1.symm
    obtain ⟨a, parts⟩ := s
    obtain ⟨a', parts'⟩ := s'
    obtain ⟨rfl, rfl⟩ : a = a' ∧ parts = parts' := ⟨hanchor, hparts⟩
    exact hother rfl

variable (pipeline space sources) in
/-- The places of the artifacts. -/
def placesOf : Set Location :=
  {l | ∃ s ∈ sources, l = (pipeline.artifactOf (pipeline.sourceOf space.here s)).place}

variable (pipeline space) in
/-- As far as a conversion has come, it came to what it would come to alone. -/
def Reached (source : Path) : Stage → Prop
  | .waiting => True
  | .compiled css =>
    pipeline.compiler.render space.tree (pipeline.sourceOf space.here source) = .ok css
  | .declared declaration => ∃ css n, space.tree.IsFree (pipeline.store.scratchPath n) ∧
    pipeline.compiler.render space.tree (pipeline.sourceOf space.here source) = .ok css ∧
    drafted space.tree (pipeline.store.scratchPath n) css = .ok declaration
  | .reported outcome | .ended outcome => pipeline.Tells space source outcome
  | .broken _ => False

variable (pipeline space) in
/-- The workspace when some of the conversions are reported. -/
structure Standing (done : List Path) (now : Workspace) : Prop where
  here : now.here = space.here
  scratch : space.scratch ≤ now.scratch
  sound : now.tree.Sound
  written : pipeline.Written space done now.tree

/-- The sources whose conversions are reported. -/
def doneOf (tasks : List Task) : List Path :=
  (tasks.filter (·.stage.result?.isSome)).map Task.source

theorem Written.congr {tree : Tree} {done' : List Path} (h : pipeline.Written space done tree)
    (hsame : ∀ s, s ∈ done ↔ s ∈ done') : pipeline.Written space done' tree := by
  simpa only [Written, hsame] using h

/-- Where a source was written there is its artifact. -/
theorem eq_place_of_fate {l : Location} {declaration : Text}
    (h : pipeline.fate space source = .ok (l, declaration)) :
    l = (pipeline.artifactOf (pipeline.sourceOf space.here source)).place := by
  obtain ⟨css, -, -, htarget⟩ := verdict_eq_ok.1 h
  exact Tree.eq_place_of_target htarget

namespace Standing

variable {now : Workspace} (hnow : pipeline.Standing space done now) (hdone : done ⊆ sources)

include hnow in
theorem sourceOf_here (source : Path) :
    pipeline.sourceOf now.here source = pipeline.sourceOf space.here source := by
  rw [hnow.here]

include hnow hdone

theorem wroteAt : Tree.WroteAt (pipeline.placesOf space sources) space.tree now.tree := by
  refine hnow.written.wroteAt.mono ?_
  rintro l ⟨s, hs, declaration, hfate⟩
  exact ⟨s, hdone hs, eq_place_of_fate hfate⟩

/-- Scratch files can still be made. -/
theorem isFree (hfresh : pipeline.Fresh space (pipeline.placesOf space sources)) :
    now.tree.IsFree (pipeline.store.scratchPath now.scratch) :=
  (hfresh.of_wroteAt (hnow.wroteAt hdone) hnow.scratch).free _ (Nat.le_refl _)

section Untangled

variable (huntangled : pipeline.Untangled space sources) (hsource : source ∈ sources)
include huntangled hsource

/-- **A source is compiled** to what it would be alone. -/
theorem render_eq :
    pipeline.compiler.render now.tree (pipeline.sourceOf space.here source) =
      pipeline.compiler.render space.tree (pipeline.sourceOf space.here source) := by
  have hlook : now.tree.look (pipeline.sourceOf space.here source) =
      space.tree.look (pipeline.sourceOf space.here source) := by
    refine (hnow.wroteAt hdone).look_eq fun l e hwalk ↦ ?_
    rintro ⟨s, hs, hl⟩
    exact huntangled.source s hs source hsource (hl.symm.trans (Tree.eq_place_of_walk hwalk))
  rw [Compiler.render, Compiler.render, hlook]

/-- **An artifact can be written** if it could be alone, and otherwise goes wrong for the same
reason. -/
theorem target_artifact :
    now.tree.target (pipeline.artifactOf (pipeline.sourceOf space.here source)) =
      space.tree.target (pipeline.artifactOf (pipeline.sourceOf space.here source)) := by
  cases htarget : space.tree.target (pipeline.artifactOf (pipeline.sourceOf space.here source)) with
  | ok l => exact (hnow.wroteAt hdone).target_eq_ok_iff.2 htarget
  | error fault =>
    rw [← htarget]
    refine Tree.target_agreeAt fun l hway ↦ ?_
    rcases hnow.written.wroteAt l with hsame | ⟨⟨s, hs, declaration, hfate⟩, hdir, -⟩
    · rw [Tree.AgreeAt, hsame]
    · -- what was written on the way was written for another source, so there is a directory
      have hl := eq_place_of_fate hfate
      by_cases hother : pipeline.sourceOf space.here s = pipeline.sourceOf space.here source
      · obtain ⟨css, -, -, htarget'⟩ := verdict_eq_ok.1 hfate
        rw [hother] at htarget'
        cases htarget.symm.trans htarget'
      · exact absurd (hl ▸ huntangled.artifact s (hdone hs) source hsource hother (hl ▸ hway)) hdir

end Untangled

omit hdone in
/-- Where nothing was written the workspace is as before. -/
theorem keep (hfind : ∀ l, after.tree.find? l = now.tree.find? l) (hsound : after.tree.Sound)
    (hhere : after.here = now.here) (hscratch : now.scratch ≤ after.scratch) :
    pipeline.Standing space done after := by
  refine ⟨hhere.trans hnow.here, hnow.scratch.trans hscratch, hsound, fun l ↦ ?_⟩
  rw [hfind]
  exact hnow.written l

omit hdone in
/-- **A conversion that is reported** did what its verdict says. -/
theorem conclude (hfree : space.tree.IsFree (pipeline.store.scratchPath space.scratch)) {n : Nat}
    (hfree' : space.tree.IsFree (pipeline.store.scratchPath n))
    {verdict : Except Failure (Location × Text)}
    (hverdict : pipeline.verdict space.tree (pipeline.store.scratchPath n)
      (pipeline.sourceOf space.here source) = verdict)
    (hfollowed : now.tree.Followed verdict after.tree) (hsound : after.tree.Sound)
    (hhere : after.here = now.here) (hscratch : now.scratch ≤ after.scratch) :
    ∃ stage after', pipeline.conclude (pipeline.sourceOf space.here source)
        (verdict.map fun _ ↦ pipeline.artifactOf (pipeline.sourceOf space.here source)) after =
          (stage, after') ∧
      pipeline.Reached space source stage ∧
      pipeline.Standing space (done ++ doneOf [⟨source, stage⟩]) after' := by
  subst hverdict
  refine ⟨_, _, rfl, ⟨n, hfree', rfl⟩, hhere.trans hnow.here, hnow.scratch.trans hscratch, hsound, ?_⟩
  exact hnow.written.step hfollowed ⟨verdict_congr hfree hfree', verdict_congr hfree' hfree⟩

/-! #### The four turns -/

section Turns

variable (huntangled : pipeline.Untangled space sources)
  (hfresh : pipeline.Fresh space (pipeline.placesOf space sources)) (hsource : source ∈ sources)
include huntangled hfresh hsource

omit hfresh in
theorem turn_waiting (hfree : space.tree.IsFree (pipeline.store.scratchPath space.scratch)) :
    ∃ stage after, pipeline.advance source .waiting now = (stage, after) ∧
      pipeline.Reached space source stage ∧
      pipeline.Standing space (done ++ doneOf [⟨source, stage⟩]) after := by
  have hsame := hnow.sourceOf_here source
  have hrender := hnow.render_eq hdone huntangled hsource
  cases hcss : pipeline.compiler.render space.tree (pipeline.sourceOf space.here source) with
  | error failure =>
    have hverdict : pipeline.verdict space.tree (pipeline.store.scratchPath space.scratch)
        (pipeline.sourceOf space.here source) = .error failure := by rw [verdict_eq, hcss]
    rw [advance_waiting_error (hsame ▸ hrender.trans hcss), hsame]
    exact hnow.conclude hfree hfree hverdict (fun _ ↦ rfl) hnow.sound rfl (Nat.le_refl _)
  | ok css =>
    refine ⟨_, _, advance_waiting_ok (hsame ▸ hrender.trans hcss), hcss, ?_⟩
    exact (List.append_nil done).symm ▸ hnow

omit huntangled hsource in
theorem turn_compiled {css : Text} (hreached : pipeline.Reached space source (.compiled css)) :
    ∃ stage after, pipeline.advance source (.compiled css) now = (stage, after) ∧
      pipeline.Reached space source stage ∧
      pipeline.Standing space (done ++ doneOf [⟨source, stage⟩]) after := by
  have hfree := hfresh.free _ (Nat.le_refl _)
  have hfree' := hfresh.free _ hnow.scratch
  have hrender : pipeline.compiler.render space.tree (pipeline.sourceOf space.here source) =
      .ok css := hreached
  obtain ⟨clock, hdeclare⟩ := declare_eq hnow.sound (hnow.isFree hdone hfresh) css
  have hclock := Tree.find?_clock now.tree clock
  have hsound := hnow.sound.withClock clock
  rw [drafted, hnow.written.target_scratch hfree hfree', ← drafted] at hdeclare
  cases hdraft : drafted space.tree (pipeline.store.scratchPath now.scratch) css with
  | error failure =>
    have hverdict : pipeline.verdict space.tree (pipeline.store.scratchPath now.scratch)
        (pipeline.sourceOf space.here source) = .error failure := by
      simp only [verdict_eq, hrender, hdraft]
    rw [hdraft] at hdeclare
    rw [advance_compiled_error hdeclare, hnow.sourceOf_here]
    exact hnow.conclude hfree hfree' hverdict hclock hsound rfl (Nat.le_succ _)
  | ok declaration =>
    rw [hdraft] at hdeclare
    refine ⟨_, _, advance_compiled_ok hdeclare, ⟨css, _, hfree', hrender, hdraft⟩, ?_⟩
    exact (List.append_nil done).symm ▸ hnow.keep hclock hsound rfl (Nat.le_succ _)

theorem turn_declared {declaration : Text}
    (hreached : pipeline.Reached space source (.declared declaration)) :
    ∃ stage after, pipeline.advance source (.declared declaration) now = (stage, after) ∧
      pipeline.Reached space source stage ∧
      pipeline.Standing space (done ++ doneOf [⟨source, stage⟩]) after := by
  obtain ⟨css, n, hfree', hrender, hdraft⟩ := hreached
  have hfree := hfresh.free _ (Nat.le_refl _)
  have hsame := hnow.sourceOf_here source
  have htarget := hnow.target_artifact hdone huntangled hsource
  cases hplace : space.tree.target (pipeline.artifactOf (pipeline.sourceOf space.here source)) with
  | error fault =>
    have hverdict : pipeline.verdict space.tree (pipeline.store.scratchPath n)
        (pipeline.sourceOf space.here source) = .error (.access fault) := by
      rw [artifactOf] at hplace
      simp only [verdict_eq, hrender, hdraft, hplace]
    have hwrite : write (pipeline.artifactOf (pipeline.sourceOf now.here source)) declaration now =
        (.error (.access fault), now) := by
      rw [write_eq, hsame, htarget, hplace]
    rw [advance_declared hwrite, hsame]
    exact hnow.conclude hfree hfree' hverdict (fun _ ↦ rfl) hnow.sound rfl (Nat.le_refl _)
  | ok l =>
    have hverdict : pipeline.verdict space.tree (pipeline.store.scratchPath n)
        (pipeline.sourceOf space.here source) = .ok (l, declaration) :=
      verdict_eq_ok.2 ⟨css, hrender, hdraft, hplace⟩
    have hwrite : write (pipeline.artifactOf (pipeline.sourceOf now.here source)) declaration now =
        (.ok (), { now with
          tree := Tree.changeFile.stamped now.tree l (Utf8.encode declaration) }) := by
      rw [write_eq, hsame, htarget, hplace]
    have hdir := Tree.find?_ne_of_target (htarget.trans hplace)
    rw [advance_declared hwrite, hsame]
    refine hnow.conclude hfree hfree' hverdict ⟨hdir, now.tree.clock, fun l' ↦ ?_⟩ ?_ rfl
      (Nat.le_refl _)
    · exact Tree.find?_stamped (Tree.ne_nil_of_find? hdir) _ l'
    · exact hnow.sound.stamped_target (Path.isProper_ofText _) (htarget.trans hplace) _

omit hdone huntangled hfresh hsource in
theorem turn_reported {outcome : Outcome} (hlog : pipeline.eventLog = none)
    (hmem : source ∈ done) (hreached : pipeline.Reached space source (.reported outcome)) :
    ∃ stage after, pipeline.advance source (.reported outcome) now = (stage, after) ∧
      pipeline.Reached space source stage ∧
      pipeline.Standing space (done ++ doneOf [⟨source, stage⟩]) after := by
  refine ⟨_, _, advance_reported (log_of_none hlog outcome now), hreached, hnow.here, hnow.scratch,
    hnow.sound, hnow.written.congr fun s ↦ ?_⟩
  have hdone : doneOf [⟨source, .ended outcome⟩] = [source] := rfl
  rw [hdone, List.mem_append, List.mem_singleton]
  exact ⟨Or.inl, fun h ↦ h.elim id fun heq ↦ heq ▸ hmem⟩

/-- **A turn cannot tell** which turns came before it. -/
theorem turn (hlog : pipeline.eventLog = none) (hreached : pipeline.Reached space source stage)
    (hstage : stage.result?.isSome = true → source ∈ done) (hopen : stage.isOpen = true) :
    ∃ stage' after, pipeline.advance source stage now = (stage', after) ∧
      pipeline.Reached space source stage' ∧
      pipeline.Standing space (done ++ doneOf [⟨source, stage'⟩]) after := by
  cases stage with
  | waiting => exact hnow.turn_waiting hdone huntangled hsource (hfresh.free _ (Nat.le_refl _))
  | compiled css => exact hnow.turn_compiled hdone hfresh hreached
  | declared declaration => exact hnow.turn_declared hdone huntangled hfresh hsource hreached
  | reported outcome => exact hnow.turn_reported hlog (hstage rfl) hreached
  | ended outcome => cases hopen
  | broken fault => cases hopen

end Turns

end Standing

/-! ### All turns -/

/-- What is reported stays so. -/
theorem isSome_result?_advance (hlog : pipeline.eventLog = none)
    (h : stage.result?.isSome = true) (source : Path) (space : Workspace) :
    (pipeline.advance source stage space).1.result?.isSome = true := by
  cases stage with
  | reported outcome =>
    rw [advance_reported (log_of_none hlog outcome space)]
    rfl
  | ended outcome => rfl
  | _ => cases h

theorem mem_doneOf_split {task : Task}
    (hkeep : task.stage.result?.isSome = true → stage.result?.isSome = true) {s : Path} :
    s ∈ doneOf (front ++ task :: back) ++ doneOf [⟨task.source, stage⟩] ↔
      s ∈ doneOf (front ++ ⟨task.source, stage⟩ :: back) := by
  simp only [doneOf, List.filter_append, List.map_append, List.filter_cons]
  cases hold : task.stage.result?.isSome with
  | true => simp [hkeep hold, or_comm, or_left_comm]
  | false => cases stage.result?.isSome <;> simp [or_comm, or_left_comm]

variable (pipeline space sources) in
/-- Every conversion has come as far as it would alone. -/
structure Progress.Consistent (now : Progress) : Prop where
  sources : now.tasks.map Task.source = sources
  reached : ∀ task ∈ now.tasks, pipeline.Reached space task.source task.stage
  standing : pipeline.Standing space (doneOf now.tasks) now.space

namespace Progress.Consistent

theorem start (hsound : space.tree.Sound) :
    Consistent pipeline space sources (.start sources space) := by
  have hdone : doneOf (sources.map (⟨·, .waiting⟩)) = [] := by
    simp [doneOf, Stage.result?]
  refine ⟨?_, ?_, rfl, Nat.le_refl _, hsound, ?_⟩
  · rw [Progress.start, List.map_map]
    exact List.map_id sources
  · simp [Progress.start, Reached]
  · intro l
    exact Or.inr ⟨by simp [Progress.start, hdone], rfl⟩

section Turns

variable (hlog : pipeline.eventLog = none) (huntangled : pipeline.Untangled space sources)
  (hfresh : pipeline.Fresh space (pipeline.placesOf space sources))
include hlog huntangled hfresh

/-- **One turn.** -/
theorem turn (h : Consistent pipeline space sources now) (limit : Option Int) (i : Nat) :
    Consistent pipeline space sources (turn pipeline limit now i) := by
  rcases turn_cases pipeline limit now i with heq | ⟨front, task, back, htasks, hopen, heq⟩
  · rwa [heq]
  · obtain ⟨tasks, now, completed⟩ := now
    obtain ⟨rfl, hreached, hstanding⟩ := h
    obtain rfl : tasks = front ++ task :: back := htasks
    have hdone : doneOf (front ++ task :: back) ⊆ (front ++ task :: back).map Task.source :=
      (List.filter_sublist.map _).subset
    have hsource : task.source ∈ (front ++ task :: back).map Task.source :=
      List.mem_map_of_mem (by simp)
    have hmem : task.stage.result?.isSome = true → task.source ∈ doneOf (front ++ task :: back) :=
      fun h ↦ List.mem_map_of_mem (List.mem_filter.2 ⟨by simp, h⟩)
    have hkeep := fun h ↦ isSome_result?_advance hlog (h : task.stage.result?.isSome = true)
      task.source now
    obtain ⟨stage, after, hadvance, hreached', hstanding'⟩ :=
      hstanding.turn hdone huntangled hfresh hsource hlog (hreached task (by simp)) hmem hopen
    rw [hadvance] at hkeep
    rw [heq, hadvance]
    refine ⟨by simp, fun other hother ↦ ?_, hstanding'.here, hstanding'.scratch, hstanding'.sound,
      hstanding'.written.congr fun s ↦ mem_doneOf_split hkeep⟩
    rcases List.mem_append.1 hother with hother | hother
    · exact hreached other (List.mem_append_left _ hother)
    · rcases List.mem_cons.1 hother with rfl | hother
      · exact hreached'
      · exact hreached other (List.mem_append_right _ (List.mem_cons_of_mem _ hother))

/-- **Any turns.** -/
theorem turns (h : Consistent pipeline space sources now) (limit : Option Int) (schedule : List Nat) :
    Consistent pipeline space sources (turns pipeline limit now schedule) := by
  induction schedule generalizing now with
  | nil => exact h
  | cons i rest ih => exact ih (h.turn hlog huntangled hfresh limit i)

end Turns

end Progress.Consistent

/-- Outcomes are told when conversions are over. -/
theorem tells_of_areOver {tasks : List Task} (hover : AreOver tasks outcomes)
    (hreached : ∀ task ∈ tasks, pipeline.Reached space task.source task.stage) :
    List.Forall₂ (pipeline.Tells space) (tasks.map Task.source) outcomes ∧
      doneOf tasks = tasks.map Task.source := by
  induction tasks generalizing outcomes with
  | nil =>
    obtain rfl := List.map_eq_nil_iff.1 hover.symm
    exact ⟨.nil, rfl⟩
  | cons task rest ih =>
    obtain ⟨htask, hrest⟩ := List.forall_mem_cons.1 hreached
    cases outcomes with
    | nil => cases hover
    | cons outcome others =>
      obtain ⟨houtcome, hothers⟩ := List.cons.inj hover
      obtain ⟨htells, hdone⟩ := ih hothers hrest
      rw [Stage.eq_ended houtcome] at htask
      refine ⟨.cons htask htells, ?_⟩
      have hresult : task.stage.result?.isSome = true := by rw [Stage.eq_ended houtcome]; rfl
      rw [List.map_cons, ← hdone, doneOf, List.filter_cons, if_pos hresult]
      rfl

/-- However untangled conversions go, each source is told what it would be told alone. -/
theorem MayEnd.settled (hlog : pipeline.eventLog = none)
    (huntangled : pipeline.Untangled space sources)
    (hfresh : pipeline.Fresh space (pipeline.placesOf space sources)) (hsound : space.tree.Sound)
    (h : pipeline.MayEnd limit sources space outcomes after) :
    List.Forall₂ (pipeline.Tells space) sources outcomes ∧
      pipeline.Written space sources after.tree := by
  obtain ⟨schedule, completed, tasks, hrun, hover⟩ := h
  have hend := (Progress.Consistent.start hsound).turns hlog huntangled hfresh limit schedule
  rw [hrun] at hend
  obtain ⟨htells, hdone⟩ := tells_of_areOver hover hend.reached
  have hwritten := hend.standing.written
  rw [hdone, hend.sources] at hwritten
  rw [hend.sources] at htells
  exact ⟨htells, hwritten⟩

section Copies

variable {copy : Workspace} (hcopies : pipeline.Copies (pipeline.placesOf space sources) space copy)
include hcopies

/-- In a copy a source has the same fate. -/
theorem Copies.fate_eq_ok {found : Location × Text} :
    pipeline.fate copy source = .ok found ↔ pipeline.fate space source = .ok found := by
  have hfree := hcopies.fresh.free _ (Nat.le_refl _)
  have hfree' := hcopies.contents.symm.isFree (hcopies.fresh'.free _ (Nat.le_refl _))
  rw [fate, fate, hcopies.here, verdict_sameContents hcopies.contents]
  exact ⟨verdict_congr hfree' hfree, verdict_congr hfree hfree'⟩

/-- What is told in a copy could be told here. -/
theorem Copies.tells {outcome : Outcome} (h : pipeline.Tells copy source outcome) :
    pipeline.Tells space source outcome := by
  obtain ⟨n, hfree, rfl⟩ := h
  refine ⟨n, hcopies.contents.symm.isFree hfree, ?_⟩
  rw [told, told, hcopies.here, verdict_sameContents hcopies.contents]

/-- The declarations of all sources determine the contents of the tree. -/
theorem Untangled.sameContents (huntangled : pipeline.Untangled space sources) {tree tree' : Tree}
    (h : pipeline.Written space sources tree) (h' : pipeline.Written copy sources tree') :
    tree.SameContents tree' := by
  intro l
  rcases h l with ⟨s, hs, declaration, modified, hfate, hfind⟩ | ⟨hnone, hfind⟩ <;>
    rcases h' l with ⟨s', hs', declaration', modified', hfate', hfind'⟩ | ⟨hnone', hfind'⟩
  · rw [hcopies.fate_eq_ok] at hfate'
    obtain ⟨css, -, -, htarget⟩ := verdict_eq_ok.1 hfate'
    by_cases hother : pipeline.sourceOf space.here s = pipeline.sourceOf space.here s'
    · rw [fate, hother, ← fate, hfate'] at hfate
      obtain ⟨-, rfl⟩ := Prod.mk.inj (Except.ok.inj hfate)
      rw [hfind, hfind']
      rfl
    · -- two sources do not write to one place
      have hl := eq_place_of_fate hfate
      have hway := Tree.mem_way_of_target htarget
      exact absurd (hl ▸ huntangled.artifact s hs s' hs' hother (hl ▸ hway))
        (Tree.find?_ne_of_target htarget)
  · exact absurd (hcopies.fate_eq_ok.2 hfate) (hnone' s hs declaration)
  · exact absurd (hcopies.fate_eq_ok.1 hfate') (hnone s' hs' declaration')
  · rw [hfind, hfind']
    exact hcopies.contents l

/-- **However untangled conversions go, they end alike**, here and in a copy. -/
theorem MayEnd.agree (hlog : pipeline.eventLog = none)
    (huntangled : pipeline.Untangled space sources) {limit' : Option Int}
    {outcomes' : List Outcome} {after' : Workspace}
    (h : pipeline.MayEnd limit sources space outcomes after)
    (h' : pipeline.MayEnd limit' sources copy outcomes' after') :
    List.Forall₂ Outcome.Alike outcomes outcomes' ∧ after.tree.SameContents after'.tree := by
  have hplaces : pipeline.placesOf copy sources = pipeline.placesOf space sources := by
    rw [placesOf, hcopies.here]
    rfl
  obtain ⟨htells, hwritten⟩ := h.settled hlog huntangled hcopies.fresh hcopies.sound
  obtain ⟨htells', hwritten'⟩ := h'.settled hlog (huntangled.copy hcopies.here hcopies.contents)
    (hplaces ▸ hcopies.fresh') hcopies.sound'
  exact ⟨forall₂_alike htells (htells'.imp fun _ _ ↦ hcopies.tells),
    huntangled.sameContents hcopies hwritten hwritten'⟩

end Copies

end CssTypings.Pipeline
