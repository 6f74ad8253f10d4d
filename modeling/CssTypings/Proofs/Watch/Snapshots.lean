import CssTypings.Proofs.Sources
import CssTypings.Watch.Coordinator
import Mathlib.Data.List.Nodup

/-!
# What a look sees

A look takes the stamps of the files that match the pattern and are not ignored, each path once
(`exists_scan`). Two looks differ at the paths whose stamp is not the same, and those that have a
stamp in the later one make up the events: `mem_events`. No path has two of them (`nodup_events`).
-/

namespace CssTypings.Watch

namespace Snapshot

variable {snapshot : Snapshot} {p : Path} {stamp : Stamp}

/-! ### Setting stamps -/

theorem stamp?_cons (q : Path) (stamp : Stamp) (rest : Snapshot) (p : Path) :
    Snapshot.stamp? ((q, stamp) :: rest) p = if p = q then some stamp else rest.stamp? p := by
  by_cases h : p = q
  · simp [stamp?, h]
  · rw [stamp?, List.lookup_cons, beq_false_of_ne h, if_neg h]
    rfl

theorem isSome_stamp? : (snapshot.stamp? p).isSome = true ↔ p ∈ snapshot.paths := by
  induction snapshot with
  | nil => simp [stamp?, paths]
  | cons entry rest ih =>
    obtain ⟨q, stamp⟩ := entry
    have hpaths : Snapshot.paths ((q, stamp) :: rest) = q :: Snapshot.paths rest := rfl
    rw [stamp?_cons, hpaths, List.mem_cons, ← ih]
    by_cases h : p = q <;> simp [h]

theorem paths_replace (snapshot : Snapshot) (q : Path) (stamp : Stamp) :
    Snapshot.paths (snapshot.map fun entry ↦ if entry.1 = q then (q, stamp) else entry) =
      snapshot.paths := by
  rw [paths, paths, List.map_map]
  refine List.map_congr_left fun entry _ ↦ ?_
  by_cases h : entry.1 = q <;> simp [h]

theorem stamp?_replace (snapshot : Snapshot) (q : Path) (stamp : Stamp) (p : Path) :
    Snapshot.stamp? (snapshot.map fun entry ↦ if entry.1 = q then (q, stamp) else entry) p =
      if p = q then (snapshot.stamp? p).map fun _ ↦ stamp else snapshot.stamp? p := by
  induction snapshot with
  | nil => split <;> rfl
  | cons entry rest ih =>
    obtain ⟨first, old⟩ := entry
    rw [List.map_cons]
    by_cases hfirst : first = q
    · rw [if_pos hfirst, stamp?_cons, stamp?_cons, ih, hfirst]
      by_cases h : p = q <;> simp [h]
    · rw [if_neg hfirst, stamp?_cons, stamp?_cons, ih]
      by_cases h : p = q
      · simp [h, Ne.symm hfirst]
      · simp [h]

/-- **A stamp that is set** is found, and nothing else changes. -/
theorem stamp?_set (snapshot : Snapshot) (q : Path) (stamp : Stamp) (p : Path) :
    (snapshot.set q stamp).stamp? p = if p = q then some stamp else snapshot.stamp? p := by
  rw [set]
  split
  · next hsome =>
    rw [stamp?_replace]
    by_cases h : p = q
    · obtain ⟨old, hold⟩ := Option.isSome_iff_exists.1 hsome
      rw [if_pos h, if_pos h, h, hold, Option.map_some]
    · rw [if_neg h, if_neg h]
  · next hnone =>
    have happend : Snapshot.stamp? (snapshot ++ [(q, stamp)]) p =
        (snapshot.stamp? p).or (Snapshot.stamp? [(q, stamp)] p) := List.lookup_append
    rw [happend, stamp?_cons]
    by_cases h : p = q
    · rw [if_pos h, if_pos h, h, Option.not_isSome_iff_eq_none.1 hnone, Option.none_or]
    · rw [if_neg h, if_neg h]
      exact Option.or_none

theorem nodup_set (h : snapshot.paths.Nodup) (q : Path) (stamp : Stamp) :
    (snapshot.set q stamp).paths.Nodup := by
  rw [set]
  split
  · rwa [paths_replace]
  · next hnone =>
    have happend : Snapshot.paths (snapshot ++ [(q, stamp)]) = snapshot.paths ++ [q] :=
      List.map_append
    rw [happend, ← List.concat_eq_append]
    exact h.concat fun hq ↦ hnone (isSome_stamp?.2 hq)

/-! ### Lists of findings -/

variable {entries : List (Path × Stamp)}

theorem stamp?_foldl_set (f : Path → Option Stamp) (h : ∀ entry ∈ entries, f entry.1 = some entry.2)
    (snapshot : Snapshot) (p : Path) :
    (entries.foldl (fun snapshot entry ↦ snapshot.set entry.1 entry.2) snapshot).stamp? p =
      if p ∈ entries.map Prod.fst then f p else snapshot.stamp? p := by
  induction entries generalizing snapshot with
  | nil => rfl
  | cons entry rest ih =>
    obtain ⟨hfirst, hrest⟩ := List.forall_mem_cons.1 h
    rw [List.foldl_cons, ih hrest, stamp?_set, List.map_cons, ← hfirst]
    by_cases hp : p = entry.1
    · simp [hp]
    · simp only [List.mem_cons, hp, false_or, if_false]

theorem nodup_foldl_set (entries : List (Path × Stamp)) (h : snapshot.paths.Nodup) :
    Snapshot.paths (entries.foldl (fun snapshot entry ↦ snapshot.set entry.1 entry.2) snapshot)
      |>.Nodup := by
  induction entries generalizing snapshot with
  | nil => exact h
  | cons entry rest ih => exact ih (nodup_set h entry.1 entry.2)

end Snapshot

/-! ### A look -/

namespace Coordinator

variable (watch : Coordinator) {space : Workspace} {p : Path}

/-- A search for the pattern finds the path, and it is not ignored. -/
def Finds (space : Workspace) (p : Path) : Prop :=
  p ∈ Glob.files space.tree space.here watch.pattern ∧
    Glob.ignores watch.exclude watch.root p = false

/-- The stamps of the files that a search finds, in order. -/
def findings (space : Workspace) : List (Path × Stamp) :=
  (SourceSet.found space.tree space.here watch.pattern watch.root watch.exclude).filterMap
    fun path ↦ (space.tree.stamp? path).map (path, ·)

variable {watch}

theorem mem_findings {stamp : Stamp} :
    (p, stamp) ∈ watch.findings space ↔ watch.Finds space p ∧ space.tree.stamp? p = some stamp := by
  rw [findings, List.mem_filterMap, Finds, ← SourceSet.mem_found]
  constructor
  · rintro ⟨q, hq, hstamp⟩
    obtain ⟨stamp', hstamp', heq⟩ := Option.map_eq_some_iff.1 hstamp
    obtain ⟨rfl, rfl⟩ := Prod.mk.inj heq
    exact ⟨hq, hstamp'⟩
  · rintro ⟨hp, hstamp⟩
    exact ⟨p, hp, by rw [hstamp, Option.map_some]⟩

section Scan

variable (hopened : (Glob.opened? watch.pattern).any Path.hasNull = false) (space : Workspace)
include hopened

theorem scan_eq : watch.scan space = .ok (.ofList (watch.findings space)) := by
  rw [scan, Snapshot.take, SourceSet.expand_eq, hopened]
  rfl

/-- A look at files that are found in order. -/
theorem scan_of_found {snapshot : Snapshot}
    (hfound : (Glob.files space.tree space.here watch.pattern).filter
      (fun p ↦ !Glob.ignores watch.exclude watch.root p) = snapshot.paths)
    (hsorted : snapshot.paths.Pairwise fun p q ↦ p.le q = true)
    (hstamps : Snapshot.ofList (snapshot.paths.filterMap fun path ↦
      (space.tree.stamp? path).map (path, ·)) = snapshot) : watch.scan space = .ok snapshot := by
  rw [scan_eq hopened, findings, SourceSet.found_of_pairwise hfound hsorted, hstamps]

/-- **What a look sees**: the stamps of what is found. It never fails once the directory that the
pattern opens can be asked about. -/
theorem exists_scan :
    ∃ snapshot, watch.scan space = .ok snapshot ∧ snapshot.paths.Nodup ∧
      ∀ p stamp, snapshot.stamp? p = some stamp ↔
        watch.Finds space p ∧ space.tree.stamp? p = some stamp := by
  have hstamps : ∀ entry ∈ watch.findings space, space.tree.stamp? entry.1 = some entry.2 :=
    fun entry hentry ↦ (mem_findings.1 hentry).2
  refine ⟨_, scan_eq hopened space, Snapshot.nodup_foldl_set _ List.nodup_nil, fun p stamp ↦ ?_⟩
  rw [Snapshot.ofList, Snapshot.stamp?_foldl_set _ hstamps, ← mem_findings]
  constructor
  · intro h
    split at h
    · next hmem =>
      obtain ⟨entry, hentry, rfl⟩ := List.mem_map.1 hmem
      exact mem_findings.2 ⟨(mem_findings.1 hentry).1, h⟩
    · cases h
  · intro h
    rw [if_pos (List.mem_map.2 ⟨_, h, rfl⟩)]
    exact (mem_findings.1 h).2

end Scan

/-- A look that can be made says that every look can be made. -/
theorem hasNull_opened_of_scan {snapshot : Snapshot} (h : watch.scan space = .ok snapshot) :
    (Glob.opened? watch.pattern).any Path.hasNull = false := by
  by_contra hnull
  rw [scan, Snapshot.take, SourceSet.expand, Glob.search, if_pos (by simpa using hnull)] at h
  cases h

end Coordinator

/-! ### Events -/

namespace Delta

variable {previous current : Snapshot} {p : Path}

theorem map_path_events (delta : Delta) :
    delta.events.map Event.path = delta.added ++ delta.changed := by
  rw [events, List.map_append, List.map_map, List.map_map]
  exact congrArg₂ _ (List.map_id _) (List.map_id _)

/-- **The events** are the paths whose stamp is new. -/
theorem mem_events :
    p ∈ (between previous current).events.map Event.path ↔
      ∃ stamp, current.stamp? p = some stamp ∧ previous.stamp? p ≠ some stamp := by
  rw [map_path_events, List.mem_append, between, Path.mem_sort, Path.mem_sort, List.mem_filter,
    List.mem_filter, ← Snapshot.isSome_stamp?]
  cases hcurrent : current.stamp? p with
  | none => simp
  | some stamp =>
    cases previous.stamp? p with
    | none => simp
    | some stamp' => simp

/-- The events of additions and changes that are in order. -/
theorem events_of_pairwise (added changed : List Path)
    (hadded : current.paths.filter (fun p ↦ (previous.stamp? p).isNone) = added)
    (hchanged : current.paths.filter (fun p ↦ (previous.stamp? p).isSome ∧
      previous.stamp? p ≠ current.stamp? p) = changed)
    (hsorted : added.Pairwise fun p q ↦ p.le q = true)
    (hsorted' : changed.Pairwise fun p q ↦ p.le q = true) :
    (between previous current).events =
      added.map (⟨.added, ·⟩) ++ changed.map (⟨.changed, ·⟩) := by
  rw [events, between]
  simp only [hadded, hchanged, Path.sort, List.mergeSort_of_pairwise hsorted,
    List.mergeSort_of_pairwise hsorted']

theorem nodup_events (h : current.paths.Nodup) :
    ((between previous current).events.map Event.path).Nodup := by
  rw [map_path_events]
  refine (Path.nodup_sort (h.filter _)).append (Path.nodup_sort (h.filter _)) ?_
  intro p hadded hchanged
  have hnone := (List.mem_filter.1 (Path.mem_sort.1 hadded)).2
  have hsome := (List.mem_filter.1 (Path.mem_sort.1 hchanged)).2
  rw [Option.isNone_iff_eq_none] at hnone
  simp [hnone] at hsome

end Delta

/-- A round converts what its look asks for. -/
theorem Coordinator.poll_eq {watch : Coordinator} {space : Workspace} {previous current : Snapshot}
    {events : List Event} (hseen : watch.snapshot = some previous)
    (hscan : watch.scan space = .ok current)
    (hevents : (Delta.between previous current).events = events) (pipeline : Pipeline) :
    watch.poll pipeline space =
      ((pipeline.processAll (events.map Event.path) space).1.map (⟨events, ·⟩),
        { watch with snapshot := some current },
        (pipeline.processAll (events.map Event.path) space).2) := by
  rw [poll, hscan]
  simp only [hseen, hevents]

theorem Coordinator.poll_of_run {watch : Coordinator} {space after : Workspace}
    {previous current : Snapshot} {pipeline : Pipeline} {events : List Event} {outcomes : List Outcome}
    (hseen : watch.snapshot = some previous) (hscan : watch.scan space = .ok current)
    (hevents : (Delta.between previous current).events = events)
    (hrun : pipeline.processAll (events.map Event.path) space = (.ok outcomes, after)) :
    watch.poll pipeline space =
      (.ok ⟨events, outcomes⟩, { watch with snapshot := some current }, after) := by
  rw [poll_eq hseen hscan hevents, hrun]
  rfl

end CssTypings.Watch
