import CssTypings.Proofs.Watch.Snapshots

/-!
# What a difference says

Snapshots are compared as finite maps: each path stands in them once (`Snapshot.IsMap`), and what
counts is the stamp of a path (`Snapshot.Same`). A difference is exact (`Delta.IsExact`) if it says
once of every path what becomes of it, and if what it says is enough to get from the one snapshot to
the other.

The difference between any two snapshots is exact, it is reversed when they are exchanged, and it is
empty just if they are the same: `between_exact`. All of this follows from which paths each group
has (`mem_added`, `mem_changed`, `mem_removed`), and the order from that of paths.
-/

namespace CssTypings.Watch

variable {previous current : Snapshot} {p : Path}

/-! ### Snapshots as maps -/

namespace Snapshot

/-- Each path stands in the snapshot once and can be read from a text. -/
structure IsMap (snapshot : Snapshot) : Prop where
  nodup : snapshot.paths.Nodup
  isProper : ∀ p ∈ snapshot.paths, p.IsProper

/-- The snapshots have the same stamps. -/
def Same (previous current : Snapshot) : Prop := ∀ p, previous.stamp? p = current.stamp? p

/-- The snapshot without some paths. -/
def without (snapshot : Snapshot) (paths : List Path) : Snapshot :=
  snapshot.filter fun entry ↦ entry.1 ∉ paths

/-- The stamps of some paths, as far as the snapshot has them. -/
def restrict (snapshot : Snapshot) (paths : List Path) : List (Path × Stamp) :=
  paths.filterMap fun p ↦ (snapshot.stamp? p).map (p, ·)

/-- The snapshot with stamps set. -/
def update (snapshot : Snapshot) (entries : List (Path × Stamp)) : Snapshot :=
  entries.foldl (fun snapshot entry ↦ snapshot.set entry.1 entry.2) snapshot

variable {snapshot : Snapshot} {paths : List Path}

theorem stamp?_without (snapshot : Snapshot) (paths : List Path) (p : Path) :
    (snapshot.without paths).stamp? p = if p ∈ paths then none else snapshot.stamp? p := by
  rw [stamp?, without, lookup_filter_key fun q ↦ decide (q ∉ paths)]
  by_cases hp : p ∈ paths
  · simp [hp]
  · simp [hp, stamp?]

theorem stamp?_of_mem_restrict {entry : Path × Stamp} (h : entry ∈ snapshot.restrict paths) :
    snapshot.stamp? entry.1 = some entry.2 := by
  obtain ⟨q, -, hq⟩ := List.mem_filterMap.1 h
  obtain ⟨stamp, hstamp, rfl⟩ := Option.map_eq_some_iff.1 hq
  exact hstamp

theorem map_fst_restrict (h : ∀ p ∈ paths, p ∈ snapshot.paths) :
    (snapshot.restrict paths).map Prod.fst = paths := by
  induction paths with
  | nil => rfl
  | cons q paths ih =>
    obtain ⟨hq, hpaths⟩ := List.forall_mem_cons.1 h
    obtain ⟨stamp, hstamp⟩ := Option.isSome_iff_exists.1 (isSome_stamp?.2 hq)
    have hrest := ih hpaths
    rw [restrict] at hrest ⊢
    rw [List.filterMap_cons_some (by rw [hstamp]; rfl), List.map_cons, hrest]

/-- **What another snapshot sets** are the stamps of the given paths, and nothing else changes. -/
theorem stamp?_update_restrict (h : ∀ p ∈ paths, p ∈ current.paths) (snapshot : Snapshot) (p : Path) :
    (snapshot.update (current.restrict paths)).stamp? p =
      if p ∈ paths then current.stamp? p else snapshot.stamp? p := by
  rw [update, stamp?_foldl_set current.stamp? fun _ ↦ stamp?_of_mem_restrict, map_fst_restrict h]

theorem stamp?_eq_none_iff : snapshot.stamp? p = none ↔ p ∉ snapshot.paths := by
  rw [← isSome_stamp?, Bool.not_eq_true, Option.isSome_eq_false_iff, Option.isNone_iff_eq_none]

end Snapshot

/-- **What a look sees is a map**, in every tree that is found on a disk. -/
theorem Coordinator.isMap_of_scan {watch : Coordinator} {space : Workspace} {snapshot : Snapshot}
    (hsound : space.tree.Sound) (h : watch.scan space = .ok snapshot) : snapshot.IsMap := by
  obtain ⟨snapshot', h', hnodup, hstamps⟩ := exists_scan (hasNull_opened_of_scan h) space
  obtain rfl := Except.ok.inj (h.symm.trans h')
  refine ⟨hnodup, fun p hp ↦ ?_⟩
  obtain ⟨stamp, hstamp⟩ := Option.isSome_iff_exists.1 (Snapshot.isSome_stamp?.2 hp)
  have hfinds := ((hstamps p stamp).1 hstamp).1
  exact (Tree.isPlain_of_isFile hsound (Glob.isFile_of_mem_files hfinds.1)).isProper

/-! ### The groups of a difference -/

namespace Delta

theorem mem_added :
    p ∈ (between previous current).added ↔ p ∉ previous.paths ∧ p ∈ current.paths := by
  rw [between, Path.mem_sort, List.mem_filter, Option.isNone_iff_eq_none,
    Snapshot.stamp?_eq_none_iff, and_comm]

theorem mem_changed :
    p ∈ (between previous current).changed ↔
      p ∈ previous.paths ∧ p ∈ current.paths ∧ previous.stamp? p ≠ current.stamp? p := by
  rw [between, Path.mem_sort, List.mem_filter, decide_eq_true_eq, Snapshot.isSome_stamp?, and_left_comm]

theorem mem_removed :
    p ∈ (between previous current).removed ↔ p ∈ previous.paths ∧ p ∉ current.paths := by
  rw [between, Path.mem_sort, List.mem_filter, Option.isNone_iff_eq_none,
    Snapshot.stamp?_eq_none_iff]

/-- A path that is in no group has the same stamp in both snapshots, or none in either. -/
theorem stamp?_eq_iff :
    previous.stamp? p = current.stamp? p ↔ p ∉ (between previous current).added ∧
      p ∉ (between previous current).changed ∧ p ∉ (between previous current).removed := by
  rw [mem_added, mem_changed, mem_removed]
  by_cases hprevious : p ∈ previous.paths <;> by_cases hcurrent : p ∈ current.paths
  · simp [hprevious, hcurrent]
  · refine iff_of_false (fun h ↦ hcurrent ?_) (by simp [hprevious, hcurrent])
    rwa [← Snapshot.isSome_stamp?, ← h, Snapshot.isSome_stamp?]
  · refine iff_of_false (fun h ↦ hprevious ?_) (by simp [hprevious, hcurrent])
    rwa [← Snapshot.isSome_stamp?, h, Snapshot.isSome_stamp?]
  · refine iff_of_true ?_ (by simp [hprevious, hcurrent])
    rw [Snapshot.stamp?_eq_none_iff.2 hprevious, Snapshot.stamp?_eq_none_iff.2 hcurrent]

/-! ### Exact differences -/

/-- What becomes of a path from one snapshot to the next. -/
inductive Fate where
  | added
  | changed
  | removed
  | kept
deriving DecidableEq

variable (delta : Delta)

/-- What a difference says of a path. That the path is kept it says by leaving it out. -/
def Tells (previous current : Snapshot) : Fate → Path → Prop
  | .added, p => p ∈ delta.added
  | .changed, p => p ∈ delta.changed
  | .removed, p => p ∈ delta.removed
  | .kept, p => ∃ stamp, previous.stamp? p = some stamp ∧ current.stamp? p = some stamp

/-- The paths with a change. -/
def group : Change → List Path
  | .added => delta.added
  | .changed => delta.changed

/-- What a difference between two snapshots has to be. -/
structure IsExact (previous current : Snapshot) : Prop where
  ascending_added : Path.Ascending delta.added
  ascending_changed : Path.Ascending delta.changed
  ascending_removed : Path.Ascending delta.removed
  disjoint : delta.added.Disjoint delta.changed ∧ delta.added.Disjoint delta.removed ∧
    delta.changed.Disjoint delta.removed
  /-- Every path is in one group, or kept, and not in two. -/
  tells : ∀ p, p ∈ previous.paths ∨ p ∈ current.paths → ∃! fate, delta.Tells previous current fate p
  /-- Taking away what was removed and setting what is new leads to the later snapshot. -/
  patch : ((previous.without delta.removed).update
    (current.restrict (delta.added ++ delta.changed))).Same current
  /-- The events are the paths of the two groups, each once, -/
  mem_events : ∀ event, event ∈ delta.events ↔ event.path ∈ delta.group event.change
  nodup_events : (delta.events.map Event.path).Nodup
  /-- the additions in front, -/
  added_first : delta.events.Pairwise fun e f ↦ f.change = .added → e.change = .added
  /-- and no path that was removed. -/
  removed_not_mem : ∀ p ∈ delta.removed, p ∉ delta.events.map Event.path

/-! ### Events of any difference -/

theorem mem_events_iff (event : Event) :
    event ∈ delta.events ↔ event.path ∈ delta.group event.change := by
  obtain ⟨change, p⟩ := event
  cases change <;> simp [events, group]

theorem pairwise_events : delta.events.Pairwise fun e f ↦ f.change = .added → e.change = .added := by
  rw [events, List.pairwise_append]
  refine ⟨?_, ?_, ?_⟩
  · exact List.pairwise_map.2 (List.pairwise_of_forall fun _ _ _ ↦ rfl)
  · refine List.pairwise_map.2 (List.pairwise_of_forall fun p q hadded ↦ ?_)
    cases hadded
  · rintro e he f - -
    obtain ⟨p, -, rfl⟩ := List.mem_map.1 he
    rfl

/-! ### The difference between snapshots -/

variable {delta}

theorem tells_kept_iff : delta.Tells previous current .kept p ↔
    p ∈ previous.paths ∧ p ∈ current.paths ∧ previous.stamp? p = current.stamp? p := by
  rw [Tells, ← Snapshot.isSome_stamp?, ← Snapshot.isSome_stamp?]
  cases previous.stamp? p <;> cases current.stamp? p <;> simp [eq_comm]

/-- **Every path has one fate.** -/
theorem existsUnique_tells (h : p ∈ previous.paths ∨ p ∈ current.paths) :
    ∃! fate, (between previous current).Tells previous current fate p := by
  by_cases hprevious : p ∈ previous.paths
  · by_cases hcurrent : p ∈ current.paths
    · by_cases hstamp : previous.stamp? p = current.stamp? p
      · refine ⟨.kept, tells_kept_iff.2 ⟨hprevious, hcurrent, hstamp⟩, fun fate hfate ↦ ?_⟩
        cases fate with
        | added => exact absurd hprevious (mem_added.1 hfate).1
        | changed => exact absurd hstamp (mem_changed.1 hfate).2.2
        | removed => exact absurd hcurrent (mem_removed.1 hfate).2
        | kept => rfl
      · refine ⟨.changed, mem_changed.2 ⟨hprevious, hcurrent, hstamp⟩, fun fate hfate ↦ ?_⟩
        cases fate with
        | added => exact absurd hprevious (mem_added.1 hfate).1
        | changed => rfl
        | removed => exact absurd hcurrent (mem_removed.1 hfate).2
        | kept => exact absurd (tells_kept_iff.1 hfate).2.2 hstamp
    · refine ⟨.removed, mem_removed.2 ⟨hprevious, hcurrent⟩, fun fate hfate ↦ ?_⟩
      cases fate with
      | added => exact absurd hprevious (mem_added.1 hfate).1
      | changed => exact absurd (mem_changed.1 hfate).2.1 hcurrent
      | removed => rfl
      | kept => exact absurd (tells_kept_iff.1 hfate).2.1 hcurrent
  · refine ⟨.added, mem_added.2 ⟨hprevious, h.resolve_left hprevious⟩, fun fate hfate ↦ ?_⟩
    cases fate with
    | added => rfl
    | changed => exact absurd (mem_changed.1 hfate).1 hprevious
    | removed => exact absurd (mem_removed.1 hfate).1 hprevious
    | kept => exact absurd (tells_kept_iff.1 hfate).1 hprevious

/-- **What a difference says is enough** to get to the later snapshot. -/
theorem patch_between (previous current : Snapshot) :
    ((previous.without (between previous current).removed).update
      (current.restrict ((between previous current).added ++ (between previous current).changed))).Same
      current := by
  have hnew : ∀ p ∈ (between previous current).added ++ (between previous current).changed,
      p ∈ current.paths := by
    intro p hp
    rcases List.mem_append.1 hp with hadded | hchanged
    · exact (mem_added.1 hadded).2
    · exact (mem_changed.1 hchanged).2.1
  intro p
  rw [Snapshot.stamp?_update_restrict hnew, Snapshot.stamp?_without]
  split
  · rfl
  · next hold =>
    rw [List.mem_append, not_or] at hold
    split
    · next hremoved => exact (Snapshot.stamp?_eq_none_iff.2 (mem_removed.1 hremoved).2).symm
    · next hkept => exact stamp?_eq_iff.2 ⟨hold.1, hold.2, hkept⟩

theorem between_eq_nothing_iff : between previous current = ⟨[], [], []⟩ ↔ previous.Same current := by
  constructor
  · intro h p
    rw [stamp?_eq_iff, h]
    simp
  · intro h
    have hadded : (between previous current).added = [] :=
      List.eq_nil_iff_forall_not_mem.2 fun p ↦ (stamp?_eq_iff.1 (h p)).1
    have hchanged : (between previous current).changed = [] :=
      List.eq_nil_iff_forall_not_mem.2 fun p ↦ (stamp?_eq_iff.1 (h p)).2.1
    have hremoved : (between previous current).removed = [] :=
      List.eq_nil_iff_forall_not_mem.2 fun p ↦ (stamp?_eq_iff.1 (h p)).2.2
    show Delta.mk (between previous current).added (between previous current).changed
      (between previous current).removed = _
    rw [hadded, hchanged, hremoved]

section Maps

variable (hprevious : previous.IsMap) (hcurrent : current.IsMap)
include hprevious hcurrent

theorem ascending_between : Path.Ascending (between previous current).added ∧
    Path.Ascending (between previous current).changed ∧
    Path.Ascending (between previous current).removed := by
  refine ⟨?_, ?_, ?_⟩
  · exact Path.ascending_sort (hcurrent.nodup.filter _) fun p hp ↦
      hcurrent.isProper p (List.mem_of_mem_filter hp)
  · exact Path.ascending_sort (hcurrent.nodup.filter _) fun p hp ↦
      hcurrent.isProper p (List.mem_of_mem_filter hp)
  · exact Path.ascending_sort (hprevious.nodup.filter _) fun p hp ↦
      hprevious.isProper p (List.mem_of_mem_filter hp)

/-- **Backwards, additions are removals** and changes are changes. -/
theorem between_swap : between current previous = ⟨(between previous current).removed,
    (between previous current).changed, (between previous current).added⟩ := by
  have hchanged : (between current previous).changed = (between previous current).changed := by
    refine (ascending_between hcurrent hprevious).2.1.eq_of_mem_iff
      (ascending_between hprevious hcurrent).2.1 fun p ↦ ?_
    rw [mem_changed, mem_changed, and_left_comm, ne_comm]
  exact congrArg (Delta.mk _ · _) hchanged

theorem isExact_between : (between previous current).IsExact previous current where
  ascending_added := (ascending_between hprevious hcurrent).1
  ascending_changed := (ascending_between hprevious hcurrent).2.1
  ascending_removed := (ascending_between hprevious hcurrent).2.2
  disjoint := by
    refine ⟨fun p hadded hchanged ↦ ?_, fun p hadded hremoved ↦ ?_, fun p hchanged hremoved ↦ ?_⟩
    · exact (mem_added.1 hadded).1 (mem_changed.1 hchanged).1
    · exact (mem_added.1 hadded).1 (mem_removed.1 hremoved).1
    · exact (mem_removed.1 hremoved).2 (mem_changed.1 hchanged).2.1
  tells _ := existsUnique_tells
  patch := patch_between previous current
  mem_events := mem_events_iff _
  nodup_events := nodup_events hcurrent.nodup
  added_first := pairwise_events _
  removed_not_mem p hremoved hevent := by
    obtain ⟨stamp, hstamp, -⟩ := mem_events.1 hevent
    rw [Snapshot.stamp?_eq_none_iff.2 (mem_removed.1 hremoved).2] at hstamp
    cases hstamp

/-- **The difference between two snapshots** is exact. Backwards it says the same with additions and
removals exchanged, and it says nothing just if the snapshots are the same. -/
theorem between_exact : (between previous current).IsExact previous current ∧
    between current previous = ⟨(between previous current).removed,
      (between previous current).changed, (between previous current).added⟩ ∧
    (between previous current = ⟨[], [], []⟩ ↔ previous.Same current) :=
  ⟨isExact_between hprevious hcurrent, between_swap hprevious hcurrent, between_eq_nothing_iff⟩

end Maps

/-- Stamps of the files of a project. -/
def earlier : Snapshot :=
  [(.ofText "/w/a-b".toList, ⟨1, 1⟩), (.ofText "/w/c".toList, ⟨1, 1⟩), (.ofText "/w/d".toList, ⟨1, 1⟩)]

/-- Later stamps. A file is gone, one is written, and two are new. -/
def later : Snapshot :=
  [(.ofText "/w/d".toList, ⟨1, 1⟩), (.ofText "/w/c-d".toList, ⟨1, 1⟩), (.ofText "/w/c".toList, ⟨1, 2⟩),
    (.ofText "/w/c/d".toList, ⟨1, 1⟩)]

/-- A file in a directory is in front of one whose name only begins like that of the directory. -/
theorem between_exact_later :
    earlier.IsMap ∧ later.IsMap ∧ (between earlier later).IsExact earlier later ∧
      between later earlier = ⟨[.ofText "/w/a-b".toList], [.ofText "/w/c".toList],
        [.ofText "/w/c/d".toList, .ofText "/w/c-d".toList]⟩ := by
  have hearlier : earlier.IsMap := ⟨by decide +kernel, by decide +kernel⟩
  have hlater : later.IsMap := ⟨by decide +kernel, by decide +kernel⟩
  have hadded : (between earlier later).added =
      [.ofText "/w/c/d".toList, .ofText "/w/c-d".toList] :=
    Path.Ascending.sort_eq (List.pairwise_pair.2 (by decide +kernel)) (by decide +kernel)
      (by decide +kernel)
  have hchanged : (between earlier later).changed = [.ofText "/w/c".toList] :=
    Path.Ascending.sort_eq (List.pairwise_singleton _ _) (by decide +kernel) (by decide +kernel)
  have hremoved : (between earlier later).removed = [.ofText "/w/a-b".toList] :=
    Path.Ascending.sort_eq (List.pairwise_singleton _ _) (by decide +kernel) (by decide +kernel)
  obtain ⟨hexact, hswap, -⟩ := between_exact hearlier hlater
  refine ⟨hearlier, hlater, hexact, ?_⟩
  rw [hswap, hadded, hchanged, hremoved]

end Delta

end CssTypings.Watch
