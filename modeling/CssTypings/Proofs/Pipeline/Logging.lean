import CssTypings.Proofs.Pipeline.Batch
import CssTypings.Proofs.Tree.Places

/-!
# Batches that are logged

A log is written to by every conversion, so besides the artifacts it is the one file that a batch
changes (`process_logged`). If the places of sources, artifacts, log and scratch files are apart
(`Apart`), conversions do not disturb each other: after a batch each source has an outcome, and
unless that is a failure its artifact holds the declaration for what the source says
(`processAll_logged`).

Being declared (`Declared`) is a property of the tree alone, so it can be followed through later
changes: it lasts as long as the source and the artifact are left alone (`Declared.congr`).
-/

namespace CssTypings

/-! ### Writing to the end of a file -/

namespace Tree

variable {p : Path}

/-- Bytes are added at the target of a path, if it has one. -/
theorem append_cases (tree : Tree) (p : Path) (bytes : Bytes) :
    (∃ location contents, tree.target p = .ok location ∧
      tree.append p bytes = .ok (changeFile.stamped tree location contents)) ∨
    ∃ fault, tree.target p = .error fault ∧ tree.append p bytes = .error fault := by
  rw [append, changeFile, target]
  cases tree.walk p with
  | error fault => exact Or.inr ⟨fault, rfl, rfl⟩
  | ok found =>
    obtain ⟨location, entry⟩ := found
    cases entry with
    | none => exact Or.inl ⟨location, _, rfl, rfl⟩
    | some entry =>
      cases entry with
      | directory => exact Or.inr ⟨_, rfl, rfl⟩
      | file contents modified => exact Or.inl ⟨location, _, rfl, rfl⟩

theorem target_ne_nullCharacter (tree : Tree) (h : p.hasNull = false) :
    tree.target p ≠ .error .nullCharacter := by
  rw [target, walk, h]
  by_cases hlong : pathLimit < Utf8.size p.text
  · simp [hlong]
  · cases tree.follow [] p.parts with
    | error trouble => simp [hlong, Except.mapError]
    | ok found =>
      by_cases hdir : found.2 = some .directory <;> simp [hlong, Except.mapError, hdir]

end Tree

namespace Pipeline

variable (pipeline : Pipeline) {space : Workspace} {source p : Path} {sources : Set Path}

/-- The place of the log, if there is one. -/
def logPlaces : Set Location := {l | ∃ path ∈ pipeline.eventLog, l = path.place}

/-- The places of the artifacts of some sources. -/
def artifactsOf (sources : Set Path) : Set Location :=
  {l | ∃ p ∈ sources, l = (pipeline.artifactOf p).parts}

/-- The places of scratch files, from a number on. -/
def tempPlaces (first : Nat) : Set Location :=
  {l | ∃ n, first ≤ n ∧ l = (pipeline.store.scratchPath n).place}

/-- The log can be asked about. -/
def CanLog : Prop := ∀ path ∈ pipeline.eventLog, path.IsProper ∧ path.hasNull = false

/-- The artifact of the source holds the declaration for what the source says. -/
def Declared (tree : Tree) (source : Path) : Prop :=
  ∃ css names, pipeline.compiler.render tree source = .ok css ∧
    Stylesheet.exported (Text.unifyNewlines css) = .ok names ∧
    tree.read (pipeline.artifactOf source) = .ok (Utf8.encode (Declaration.document names))

variable {pipeline}

/-- Whether a source is declared can be found out. -/
instance (tree : Tree) (source : Path) : Decidable (pipeline.Declared tree source) :=
  match hrender : pipeline.compiler.render tree source with
  | .error _ => isFalse fun ⟨_, _, h, _⟩ ↦ by simp [hrender] at h
  | .ok css =>
    match hnames : Stylesheet.exported (Text.unifyNewlines css) with
    | .error _ => isFalse fun ⟨_, _, h, h', _⟩ ↦ by
      obtain rfl := Except.ok.inj (hrender.symm.trans h)
      simp [hnames] at h'
    | .ok names =>
      decidable_of_iff (tree.read (pipeline.artifactOf source) =
          .ok (Utf8.encode (Declaration.document names)))
        ⟨fun h ↦ ⟨css, names, hrender, hnames, h⟩, fun ⟨_, _, h, h', h''⟩ ↦ by
          obtain rfl := Except.ok.inj (hrender.symm.trans h)
          obtain rfl := Except.ok.inj (hnames.symm.trans h')
          exact h''⟩

/-! ### One conversion -/

theorem log_of_none (hlog : pipeline.eventLog = none) (outcome : Outcome) (space : Workspace) :
    pipeline.log outcome space = (.ok (), space) := by
  rw [log, hlog]

/-- Logging never breaks off if the log can be asked about. -/
theorem exists_log (hlog : ∀ path ∈ pipeline.eventLog, path.hasNull = false) (outcome : Outcome)
    (space : Workspace) : ∃ after, pipeline.log outcome space = (.ok (), after) := by
  rw [log]
  cases hpath : pipeline.eventLog with
  | none => exact ⟨space, rfl⟩
  | some path =>
    simp only [EventLog.append]
    rcases Tree.append_cases space.tree path
      (Utf8.encode (pipeline.eventOf space.now outcome).line) with
      ⟨location, contents, -, happend⟩ | ⟨fault, htarget, happend⟩
    · rw [happend]
      exact ⟨_, rfl⟩
    · rw [happend]
      cases fault with
      | nullCharacter =>
        exact absurd htarget (Tree.target_ne_nullCharacter space.tree (hlog path hpath))
      | trouble what path' => exact ⟨_, rfl⟩

/-- **What is logged** goes to the log and nowhere else. -/
theorem log_step (hlog : pipeline.CanLog) (space : Workspace) (hsound : space.tree.Sound)
    (outcome : Outcome) :
    ∃ after, pipeline.log outcome space = (.ok (), after) ∧
      Tree.WroteAt pipeline.logPlaces space.tree after.tree ∧ after.tree.Sound ∧
      after.here = space.here ∧ after.scratch = space.scratch := by
  rw [log]
  cases hpath : pipeline.eventLog with
  | none => exact ⟨space, rfl, Tree.WroteAt.refl _ _, hsound, rfl, rfl⟩
  | some path =>
    obtain ⟨hproper, hnull⟩ := hlog path hpath
    simp only [EventLog.append]
    rcases Tree.append_cases space.tree path
      (Utf8.encode (pipeline.eventOf space.now outcome).line) with
      ⟨location, contents, htarget, happend⟩ | ⟨fault, htarget, happend⟩
    · rw [happend]
      refine ⟨_, rfl, ?_, hsound.stamped_target hproper htarget contents, rfl, rfl⟩
      have hwrote := Tree.wroteAt_stamped (Tree.find?_ne_of_target htarget) contents
      refine hwrote.mono ?_
      rintro l rfl
      exact ⟨path, hpath, Tree.eq_place_of_target htarget⟩
    · rw [happend]
      cases fault with
      | nullCharacter => exact absurd htarget (Tree.target_ne_nullCharacter space.tree hnull)
      | trouble what path' => exact ⟨_, rfl, Tree.WroteAt.refl _ _, hsound, rfl, rfl⟩

/-- **One conversion with a log.** First the tree becomes what the verdict says, then the log is
written. -/
theorem process_logged (hlog : pipeline.CanLog) (hsound : space.tree.Sound)
    (hplain : source.IsPlain) (habsolute : source.isAbsolute = true)
    (hfree : space.tree.IsFree (pipeline.store.scratchPath space.scratch)) :
    ∃ middle after, pipeline.process source space =
        (.ok (pipeline.told space.tree (pipeline.store.scratchPath space.scratch) source), after) ∧
      space.tree.Followed
        (pipeline.verdict space.tree (pipeline.store.scratchPath space.scratch) source) middle ∧
      middle.Sound ∧ Tree.WroteAt pipeline.logPlaces middle after.tree ∧ after.tree.Sound ∧
      after.here = space.here ∧ space.scratch ≤ after.scratch := by
  obtain ⟨middle, hconvert, hfollowed, hsound', hhere, -, hscratch⟩ :=
    convert_step hsound hfree source
  have hsource : space.here.absolute (pipeline.cwd.join source) = source :=
    sourceOf_of_isPlain hplain habsolute space.here
  rw [process, hsource]
  simp only [hconvert]
  let outcome := pipeline.told space.tree (pipeline.store.scratchPath space.scratch) source
  obtain ⟨after, hlogged, hwrote, hsound'', hhere', hscratch'⟩ :=
    log_step hlog (middle.report (pipeline.reportOf middle.here outcome)) hsound' outcome
  refine ⟨middle.tree, after, ?_, hfollowed, hsound', hwrote, hsound'', hhere'.trans hhere, ?_⟩
  · rw [← told, hlogged]
    rfl
  · rw [hscratch']
    exact hscratch

/-! ### Declarations that last -/

section Declared

variable {tree tree' : Tree} {source : Path} (hslash : '/' ∉ pipeline.suffix)
  (hplain : source.IsPlain)
include hslash hplain

/-- **A declaration lasts** as long as the source and the artifact are left alone. -/
theorem Declared.congr (h : pipeline.Declared tree source) (hsound : tree.Sound)
    (hsound' : tree'.Sound) (hsource : tree'.find? source.parts = tree.find? source.parts)
    (hartifact : tree'.find? (pipeline.artifactOf source).parts =
      tree.find? (pipeline.artifactOf source).parts) : pipeline.Declared tree' source := by
  obtain ⟨css, names, hrender, hnames, hread⟩ := h
  have hne := Compiler.parts_ne_nil_of_render hplain hrender
  have hplain' := Path.isPlain_artifact hslash hne hplain
  refine ⟨css, names, ?_, hnames, ?_⟩
  · obtain ⟨bytes, modified, hlook, hcompile⟩ := Compiler.render_eq_ok.1 hrender
    obtain ⟨hshort, hfind⟩ := (hsound.look_eq_some hplain).1 hlook
    refine Compiler.render_eq_ok.2 ⟨bytes, modified, ?_, hcompile⟩
    exact (hsound'.look_eq_some hplain).2 ⟨hshort, hsource.trans hfind⟩
  · obtain ⟨hshort, modified, hfind⟩ := (hsound.read_eq_ok hplain').1 hread
    exact (hsound'.read_eq_ok hplain').2 ⟨hshort, modified, hartifact.trans hfind⟩

/-- **A source is declared** where the declaration that its verdict gave is found. -/
theorem declared_of_verdict {scratch : Path} {location : Location} {declaration : Text}
    {modified : Int} (hverdict : pipeline.verdict tree scratch source = .ok (location, declaration))
    (hsound : tree.Sound) (hsound' : tree'.Sound)
    (hsource : tree'.find? source.parts = tree.find? source.parts)
    (hfile : tree'.find? location = some (.file (Utf8.encode declaration) modified)) :
    pipeline.Declared tree' source := by
  obtain ⟨css, hrender, hdrafted, htarget⟩ := verdict_eq_ok.1 hverdict
  obtain ⟨names, hnames, hdeclaration⟩ := Declaration.ofCss_eq_ok.1 (drafted_eq_ok.1 hdrafted).2
  have hlocation := location_of_verdict hslash hplain hverdict
  have hparts := Compiler.parts_ne_nil_of_render hplain hrender
  have hplain' := Path.isPlain_artifact hslash hparts hplain
  refine ⟨css, names, ?_, hnames, ?_⟩
  · obtain ⟨bytes, modified', hlook, hcompile⟩ := Compiler.render_eq_ok.1 hrender
    obtain ⟨hshort, hfind⟩ := (hsound.look_eq_some hplain).1 hlook
    refine Compiler.render_eq_ok.2 ⟨bytes, modified', ?_, hcompile⟩
    exact (hsound'.look_eq_some hplain).2 ⟨hshort, hsource.trans hfind⟩
  · obtain ⟨entry, hwalk, -⟩ := Tree.target_eq_ok.1 htarget
    rw [hdeclaration]
    exact (hsound'.read_eq_ok hplain').2 ⟨Tree.isShort_of_walk hwalk, modified, hlocation ▸ hfile⟩

/-- A verdict that is carried out makes its source declared. -/
theorem declared_of_followed {scratch : Path} {location : Location} {declaration : Text}
    (hverdict : pipeline.verdict tree scratch source = .ok (location, declaration))
    (hfollowed : tree.Followed (.ok (location, declaration)) tree') (hsound : tree.Sound)
    (hsound' : tree'.Sound) (hne : source.parts ≠ location) : pipeline.Declared tree' source := by
  obtain ⟨-, modified, hfind⟩ := hfollowed
  have hsource : tree'.find? source.parts = tree.find? source.parts := by rw [hfind, if_neg hne]
  have hfile : tree'.find? location = some (.file (Utf8.encode declaration) modified) := by
    rw [hfind, if_pos rfl]
  exact declared_of_verdict hslash hplain hverdict hsound hsound' hsource hfile

end Declared

/-! ### Batches -/

/-- Paths as a search finds them: each leads from the root to a place of its own. -/
structure Listing (sources : Set Path) : Prop where
  isPlain : ∀ p ∈ sources, p.IsPlain
  isAbsolute : ∀ p ∈ sources, p.isAbsolute = true
  ne_nil : ∀ p ∈ sources, p.parts ≠ []
  injOn : Set.InjOn Path.parts sources

theorem Listing.eq_of_artifact {q : Path} (h : Listing sources) (hslash : '/' ∉ pipeline.suffix)
    (hp : p ∈ sources) (hq : q ∈ sources)
    (hparts : (pipeline.artifactOf p).parts = (pipeline.artifactOf q).parts) : p = q :=
  h.injOn hp hq (Path.parts_eq_of_artifact hslash (h.ne_nil p hp) (h.isPlain p hp) (h.ne_nil q hq)
    (h.isPlain q hq) hparts)

variable (pipeline) in
/-- The places of sources, artifacts, log and scratch files are apart. -/
structure Apart (sources : Set Path) (space : Workspace) : Prop where
  suffix : '/' ∉ pipeline.suffix
  /-- No artifact is a source. -/
  artifacts : ∀ p ∈ sources, p.parts ∉ pipeline.artifactsOf sources
  /-- The log is no source. -/
  logs : ∀ p ∈ sources, p.parts ∉ pipeline.logPlaces
  /-- Scratch names are not used otherwise. -/
  temps : ∀ l ∈ pipeline.tempPlaces space.scratch,
    l ∉ pipeline.artifactsOf sources ∧ l ∉ pipeline.logPlaces ∧ space.tree.find? l = none

/-- Places stay apart as long as nothing happens at those of scratch files. -/
theorem Apart.later {after : Workspace} (h : pipeline.Apart sources space)
    (hscratch : space.scratch ≤ after.scratch)
    (htree : ∀ l ∈ pipeline.tempPlaces space.scratch, after.tree.find? l = space.tree.find? l) :
    pipeline.Apart sources after := by
  refine ⟨h.suffix, h.artifacts, h.logs, ?_⟩
  rintro l ⟨n, hn, rfl⟩
  have hl : (pipeline.store.scratchPath n).place ∈ pipeline.tempPlaces space.scratch :=
    ⟨n, hscratch.trans hn, rfl⟩
  obtain ⟨hartifact, hlog, hnone⟩ := h.temps _ hl
  exact ⟨hartifact, hlog, (htree _ hl).trans hnone⟩

theorem Apart.of_wroteAt {after : Workspace} (h : pipeline.Apart sources space)
    (hscratch : space.scratch ≤ after.scratch)
    (hwrote : Tree.WroteAt (pipeline.artifactsOf sources ∪ pipeline.logPlaces) space.tree
      after.tree) : pipeline.Apart sources after := by
  refine h.later hscratch fun l hl ↦ hwrote.find?_eq ?_
  obtain ⟨hartifact, hlog, -⟩ := h.temps l hl
  exact not_or.2 ⟨hartifact, hlog⟩

variable (pipeline) in
/-- What a batch comes to: the sources have their outcomes, and nothing was written but their
artifacts and the log. -/
structure Batched (before : Workspace) (done : List Path) (outcomes : List Outcome)
    (after : Workspace) : Prop where
  sound : after.tree.Sound
  here : after.here = before.here
  scratch : before.scratch ≤ after.scratch
  wrote : Tree.WroteAt (pipeline.artifactsOf {p | p ∈ done} ∪ pipeline.logPlaces) before.tree
    after.tree
  sources : outcomes.map Outcome.source = done
  /-- A source either failed or is declared. -/
  settled : ∀ p ∈ done, (∃ outcome ∈ outcomes, outcome.source = p ∧ outcome.ok = false) ∨
    pipeline.Declared after.tree p

theorem artifactsOf_mono {fewer : Set Path} (h : fewer ⊆ sources) :
    pipeline.artifactsOf fewer ⊆ pipeline.artifactsOf sources := by
  rintro l ⟨p, hp, rfl⟩
  exact ⟨p, h hp, rfl⟩

section Batch

variable {done more batch : List Path} {outcomes outcomes' : List Outcome} {middle after : Workspace}
  (hapart : pipeline.Apart sources space) (hlisting : Listing sources)
  (hlogs : ∀ p ∈ sources, (pipeline.artifactOf p).parts ∉ pipeline.logPlaces)

include hapart

/-- A batch leaves its places apart. -/
theorem Batched.apart (h : pipeline.Batched space batch outcomes after)
    (hbatch : ∀ p ∈ batch, p ∈ sources) : pipeline.Apart sources after :=
  hapart.of_wroteAt h.scratch
    (h.wrote.mono (Set.union_subset_union_left _ (artifactsOf_mono hbatch)))

/-- A batch leaves the sources alone. -/
theorem Batched.find?_source (h : pipeline.Batched space batch outcomes after)
    (hbatch : ∀ p ∈ batch, p ∈ sources) (hp : p ∈ sources) :
    after.tree.find? p.parts = space.tree.find? p.parts := by
  refine h.wrote.find?_eq (not_or.2 ⟨fun hmem ↦ ?_, hapart.logs p hp⟩)
  exact hapart.artifacts p hp (artifactsOf_mono hbatch hmem)

include hlisting hlogs

/-- A batch leaves the declarations of other sources alone. -/
theorem Batched.declared (h : pipeline.Batched space batch outcomes after)
    (hsound : space.tree.Sound) (hbatch : ∀ p ∈ batch, p ∈ sources) (hp : p ∈ sources)
    (hnot : p ∉ batch) (hdeclared : pipeline.Declared space.tree p) :
    pipeline.Declared after.tree p := by
  refine hdeclared.congr hapart.suffix (hlisting.isPlain p hp) hsound h.sound
    (h.find?_source hapart hbatch hp) (h.wrote.find?_eq (not_or.2 ⟨?_, hlogs p hp⟩))
  rintro ⟨q, hq, hparts⟩
  exact hnot (hlisting.eq_of_artifact hapart.suffix hp (hbatch q hq) hparts ▸ hq)

/-- One batch after the other is a batch. -/
theorem Batched.trans (h : pipeline.Batched space done outcomes middle)
    (h' : pipeline.Batched middle more outcomes' after) (hdone : ∀ p ∈ done, p ∈ sources)
    (hmore : ∀ p ∈ more, p ∈ sources) :
    pipeline.Batched space (done ++ more) (outcomes ++ outcomes') after := by
  refine ⟨h'.sound, h'.here.trans h.here, h.scratch.trans h'.scratch, ?_, ?_, ?_⟩
  · refine (h.wrote.mono ?_).trans (h'.wrote.mono ?_)
    · exact Set.union_subset_union_left _ (artifactsOf_mono fun p hp ↦ List.mem_append_left _ hp)
    · exact Set.union_subset_union_left _ (artifactsOf_mono fun p hp ↦ List.mem_append_right _ hp)
  · rw [List.map_append, h.sources, h'.sources]
  · intro p hp
    -- the later batch decides about what it converts again
    by_cases hmem : p ∈ more
    · rcases h'.settled p hmem with ⟨outcome, houtcome, hfailed⟩ | hdeclared
      · exact Or.inl ⟨outcome, List.mem_append_right _ houtcome, hfailed⟩
      · exact Or.inr hdeclared
    · have hp : p ∈ done := (List.mem_append.1 hp).resolve_right hmem
      rcases h.settled p hp with ⟨outcome, houtcome, hfailed⟩ | hdeclared
      · exact Or.inl ⟨outcome, List.mem_append_left _ houtcome, hfailed⟩
      · exact Or.inr (h'.declared (h.apart hapart hdone) hlisting hlogs h.sound hmore
          (hdone p hp) hmem hdeclared)

variable (hcanLog : pipeline.CanLog)
include hcanLog

/-- **One conversion is a batch.** -/
theorem process_batched (hsound : space.tree.Sound) (hsource : source ∈ sources) :
    ∃ outcome after, pipeline.process source space = (.ok outcome, after) ∧
      pipeline.Batched space [source] [outcome] after := by
  have hslash := hapart.suffix
  have hplain := hlisting.isPlain source hsource
  have hfree : space.tree.IsFree (pipeline.store.scratchPath space.scratch) :=
    Tree.isFree_of_place (hapart.temps _ ⟨space.scratch, Nat.le_refl _, rfl⟩).2.2
  obtain ⟨middle, after, hprocess, hfollowed, hmiddle, hlogged, hsound', hhere, hscratch⟩ :=
    process_logged hcanLog hsound hplain (hlisting.isAbsolute source hsource) hfree
  have hwrote : Tree.WroteAt (pipeline.artifactsOf {p | p ∈ [source]}) space.tree middle := by
    refine wroteAt_of_followed hfollowed fun location declaration hverdict ↦ ?_
    exact ⟨source, List.mem_singleton_self _, location_of_verdict hslash hplain hverdict⟩
  refine ⟨_, after, hprocess, hsound', hhere, hscratch, ?_, rfl, ?_⟩
  · exact (hwrote.mono Set.subset_union_left).trans (hlogged.mono Set.subset_union_right)
  · refine List.forall_mem_singleton.2 ?_
    cases hverdict :
      pipeline.verdict space.tree (pipeline.store.scratchPath space.scratch) source with
    | error failure =>
      refine Or.inl ⟨_, List.mem_singleton_self _, rfl, ?_⟩
      rw [told, hverdict]
      rfl
    | ok found =>
      obtain ⟨location, declaration⟩ := found
      rw [hverdict] at hfollowed
      have hlocation := location_of_verdict hslash hplain hverdict
      have hne : source.parts ≠ location := fun h ↦
        hapart.artifacts source hsource ⟨source, hsource, h.trans hlocation⟩
      -- the log is written after the artifact, but elsewhere
      have hdeclared := declared_of_followed hslash hplain hverdict hfollowed hsound hmiddle hne
      exact Or.inr (hdeclared.congr hslash hplain hmiddle hsound'
        (hlogged.find?_eq (hapart.logs source hsource)) (hlogged.find?_eq (hlogs source hsource)))

/-- **A batch with a log.** Each source has an outcome and is declared unless it failed. -/
theorem processAll_logged (hsound : space.tree.Sound) (hbatch : ∀ p ∈ batch, p ∈ sources) :
    ∃ outcomes after, pipeline.processAll batch space = (.ok outcomes, after) ∧
      pipeline.Batched space batch outcomes after := by
  let P (done : List Path) (outcomes : List Outcome) (now : Workspace) : Prop :=
    (∀ p ∈ done, p ∈ sources) ∧ pipeline.Batched space done outcomes now
  have hstep : ∀ source ∈ batch, ∀ done outcomes now, P done outcomes now →
      ∃ outcome after, pipeline.process source now = (.ok outcome, after) ∧
        P (done ++ [source]) (outcomes ++ [outcome]) after := by
    rintro source hsource done outcomes now ⟨hdone, hnow⟩
    have hone : ∀ p ∈ [source], p ∈ sources := List.forall_mem_singleton.2 (hbatch source hsource)
    obtain ⟨outcome, after, hprocess, hafter⟩ :=
      process_batched (hnow.apart hapart hdone) hlisting hlogs hcanLog hnow.sound
        (hbatch source hsource)
    exact ⟨outcome, after, hprocess, List.forall_mem_append.2 ⟨hdone, hone⟩,
      hnow.trans hapart hlisting hlogs hafter hdone hone⟩
  have hstart : P [] [] space := by
    refine ⟨by simp, hsound, rfl, Nat.le_refl _, Tree.WroteAt.refl _ _, rfl, ?_⟩
    exact fun p hp ↦ absurd hp List.not_mem_nil
  obtain ⟨outcomes, after, hprocessAll, -, hafter⟩ := processAll_of_step hstep [] [] hstart
  exact ⟨outcomes, after, hprocessAll, hafter⟩

end Batch

end Pipeline

end CssTypings
