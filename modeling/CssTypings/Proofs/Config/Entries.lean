import CssTypings.Proofs.Config.Checks
import CssTypings.Proofs.Config.Fields
import CssTypings.Proofs.Number.Integers

/-!
# What entries write

An entry says what it writes in its field without the checks it has to pass (`Field.read?`), and a
check passes exactly if that is valid (`Field.check_eq_ok_iff`). The former value of a field does
not matter to this. So a field that is set gets what is written in it, one that is not keeps its
value, valid values stay valid, and doing the same once more changes nothing.
-/

namespace CssTypings.Config

namespace Field

variable {α : Type}

/-- Whether an entry sets the field. It does, but that `null` sets no limit. -/
def isSetBy : Field α → Value → Bool
  | maxConcurrency, .null => false
  | _, _ => true

/-- The entry that sets a field in a file. -/
def entry? (field : Field α) (file : Table) : Option Value :=
  match file.get? field.table.toList with
  | some (.table entries) => (Table.get? entries field.key.toList).filter field.isSetBy
  | _ => none

/-- What an entry writes in a field, if it is of the right kind. Paths are read from a directory. -/
def read? : Field α → (directory : Path) → Value → Option α
  | extension, _, .text t => some (plainExtension t)
  | declarationSuffix, _, .text t => some t
  | excludeGlobs, _, .list items => texts? items
  | maxConcurrency, _, .integer n => some (some n.toNat)
  | outputStyle, _, .text t => OutputStyle.ofName? t
  | includePaths, directory, .list items => (texts? items).bind (paths? directory)
  | pollInterval, _, .integer n => Double.ofInt? n
  | pollInterval, _, .float d => some d
  | silent, _, .bool b => some b
  | color, _, .text t => ColorMode.ofName? t
  | eventLog, directory, .text t =>
    if t.trim = [] then none else (directory.resolve? (.ofText t)).map some
  | _, _, _ => none

/-- What the command line writes in a field. -/
def override? : Field α → Overrides → Option α
  | extension, overrides => overrides.extension.map plainExtension
  | silent, overrides => overrides.silent
  | _, _ => none

/-- What may stand in a field. An interval that is not a number is not zero or less. -/
def IsValid : Field α → α → Prop
  | extension, t => t ≠ [] ∧ t.head? ≠ some '.' ∧ ∀ c ∈ t, c ∉ reserved
  | declarationSuffix, t => t.head? = some '.' ∧ 2 ≤ t.length
  | maxConcurrency, limit => ∀ n ∈ limit, 1 ≤ n ∧ n ≤ concurrencyCap
  | includePaths, paths => ∀ path ∈ paths, path.hasNull = false
  | pollInterval, d => d.isAtMostZero = false
  | eventLog, log => ∀ path ∈ log, path.hasNull = false
  | _, _ => True

/-! ### Checks -/

variable {field : Field α} {directory : Path} {file : Table} {overrides : Overrides} {former a : α}
  {v : Value}

theorem isValid_plainExtension_iff {t : Text} :
    extension.IsValid (plainExtension t) ↔
      plainExtension t ≠ [] ∧ ∀ c ∈ plainExtension t, c ∉ reserved :=
  and_congr_right fun _ ↦ and_iff_right (head?_plainExtension_ne t)

/-- **A check passes** if what the entry writes is valid, and gives that. -/
theorem check_eq_ok_iff (hset : field.isSetBy v = true) :
    field.check directory former v = .ok a ↔ field.read? directory v = some a ∧ field.IsValid a := by
  cases field with
  | extension =>
    cases v with
    | text t =>
      rw [read?, Option.some.injEq, check, checkExtension_eq_ok_iff]
      refine and_congr_right fun heq ↦ ?_
      rw [← heq, isValid_plainExtension_iff]
    | _ => simp [check, read?]
  | declarationSuffix =>
    rw [check, checkSuffix_eq_ok_iff]
    cases v with
    | text t => simp [read?, IsValid]
    | _ => simp [read?]
  | excludeGlobs =>
    rw [check, checkTexts_eq_ok_iff]
    cases v with
    | list items => simp [read?, IsValid]
    | _ => simp [read?]
  | maxConcurrency =>
    rw [check, checkConcurrency_eq_ok_iff]
    cases v with
    | null => cases hset
    | integer n =>
      have hrange : (1 ≤ n ∧ n ≤ concurrencyCap) ↔
          maxConcurrency.IsValid (some n.toNat) := by
        simp only [IsValid, Option.mem_some_iff, forall_eq']
        omega
      simp only [read?, Option.some.injEq, Value.integer.injEq, exists_eq_left', reduceCtorEq,
        false_and, false_or, hrange]
      refine and_congr_right fun heq ↦ ?_
      rw [heq]
    | _ => simp [read?]
  | outputStyle =>
    rw [check, checkChoice_eq_ok_iff]
    cases v with
    | text t => simp [read?, IsValid]
    | _ => simp [read?]
  | includePaths =>
    rw [check, checkPaths_eq_ok_iff]
    cases v with
    | list items =>
      simp only [read?, Value.list.injEq, exists_eq_left']
      refine (and_iff_left_of_imp fun hpaths ↦ ?_).symm
      obtain ⟨texts, -, hpaths⟩ := Option.bind_eq_some_iff.1 hpaths
      exact hasNull_of_paths? hpaths
    | _ => simp [read?]
  | pollInterval =>
    rw [check, checkInterval_eq_ok_iff]
    cases v with
    | integer n =>
      simp only [read?, IsValid, Value.integer.injEq, exists_eq_left', reduceCtorEq, false_and,
        or_false]
      rw [and_comm]
      refine and_congr_right fun hdouble ↦ ?_
      rw [← Bool.not_eq_true, Double.isAtMostZero_of_ofInt? hdouble, Int.not_le]
    | float d => simp [read?, IsValid]
    | _ => simp [read?]
  | silent =>
    rw [check, checkBool_eq_ok_iff]
    cases v with
    | bool b => simp [read?, IsValid]
    | _ => simp [read?]
  | color =>
    rw [check, checkChoice_eq_ok_iff]
    cases v with
    | text t => simp [read?, IsValid]
    | _ => simp [read?]
  | eventLog =>
    have hpath : eventLog.check directory former v = .ok a ↔
        ∃ path, checkPath "output.event_log" directory v = .ok path ∧ some path = a := by
      simp only [check, bind_eq_ok, pure, Except.pure, Except.ok.injEq]
    rw [hpath]
    simp only [checkPath_eq_ok_iff]
    cases v with
    | text t =>
      by_cases hblank : t.trim = []
      · simp [read?, hblank]
      · simp only [read?, Value.text.injEq, exists_eq_left', ne_eq, hblank, not_false_eq_true,
          true_and, if_false, Option.map_eq_some_iff]
        refine (and_iff_left_of_imp ?_).symm
        rintro ⟨path, hresolve, rfl⟩ _ ⟨⟩
        exact Path.hasNull_of_resolve? hresolve
    | _ => simp [read?]

theorem check_of_isSetBy_eq_false (h : field.isSetBy v = false) :
    field.check directory former v = .ok former := by
  cases field with
  | maxConcurrency =>
    cases v with
    | null => rfl
    | _ => cases h
  | _ => cases h

/-! ### Files -/

theorem entry?_eq {entries : Table} (h : sectionOf file field.table = .ok entries) :
    field.entry? file = (Table.get? entries field.key.toList).filter field.isSetBy := by
  unfold sectionOf at h
  unfold entry?
  split at h
  · next hnone =>
    rw [hnone, ← Except.ok.inj h]
    rfl
  · next found hfound => rw [hfound, ← Except.ok.inj h]
  · cases h

/-- An entry stands in a section. -/
theorem exists_of_entry? (h : field.entry? file = some v) :
    ∃ entries, sectionOf file field.table = .ok entries ∧
      Table.get? entries field.key.toList = some v := by
  unfold entry? at h
  split at h
  · next entries hentries =>
    refine ⟨entries, ?_, (Option.filter_eq_some_iff.1 h).1⟩
    rw [sectionOf, hentries]
  · cases h

theorem setting_eq_ok_iff {entries : Table} (h : sectionOf file field.table = .ok entries) :
    setting entries field.key former (field.check directory former) = .ok a ↔
      (∀ v ∈ field.entry? file, ∃ b, field.read? directory v = some b ∧ field.IsValid b) ∧
        ((field.entry? file).bind (field.read? directory)).getD former = a := by
  rw [entry?_eq h, setting]
  cases hv : Table.get? entries field.key.toList with
  | none => simp
  | some v =>
    cases hset : field.isSetBy v with
    | false => simp [Option.filter, hset, check_of_isSetBy_eq_false hset]
    | true =>
      simp only [check_eq_ok_iff hset, Option.filter, hset, if_true, Option.mem_some_iff, forall_eq',
        Option.bind_some]
      cases field.read? directory v with
      | none => simp
      | some b =>
        simp only [Option.some.injEq, Option.getD_some, exists_eq_left']
        rw [and_comm]
        exact and_congr_left fun heq ↦ by rw [heq]

/-- A field takes a file if the entry that sets it there, if any, writes something valid. -/
structure TakesFile (field : Field α) (directory : Path) (file : Table) : Prop where
  isTable : ∃ entries, sectionOf file field.table = .ok entries
  entry : ∀ v ∈ field.entry? file, ∃ a, field.read? directory v = some a ∧ field.IsValid a

/-- **A file is applied** to a field that takes it, which gets what the file writes in it. -/
theorem apply_eq_ok_iff :
    field.apply directory file former = .ok a ↔
      field.TakesFile directory file ∧
        ((field.entry? file).bind (field.read? directory)).getD former = a := by
  rw [apply, bind_eq_ok]
  constructor
  · rintro ⟨entries, hentries, h⟩
    obtain ⟨hentry, ha⟩ := (setting_eq_ok_iff hentries).1 h
    exact ⟨⟨⟨entries, hentries⟩, hentry⟩, ha⟩
  · rintro ⟨⟨⟨entries, hentries⟩, hentry⟩, ha⟩
    exact ⟨entries, hentries, (setting_eq_ok_iff hentries).2 ⟨hentry, ha⟩⟩

/-! ### The command line -/

/-- **The command line is applied** to a field if it sets nothing or something valid there. -/
theorem override_eq_ok_iff :
    field.override overrides former = .ok a ↔
      (∀ b ∈ field.override? overrides, field.IsValid b) ∧
        (field.override? overrides).getD former = a := by
  cases field with
  | extension =>
    rcases overrides with ⟨extension | t, silent⟩
    · simp [override, override?]
    · rw [override, checkExtension_eq_ok_iff, and_comm]
      simp only [override?, Option.map_some, Option.mem_some_iff, forall_eq', Option.getD_some,
        isValid_plainExtension_iff]
      exact and_congr_left fun heq ↦ by rw [heq]
  | silent => simp [override, override?, IsValid]
  | _ => simp [override, override?]

/-! ### Merging -/

/-- What a file and the command line write in a field, the command line first. -/
def value? (field : Field α) (directory : Path) (file : Table) (overrides : Overrides) : Option α :=
  (field.override? overrides).or ((field.entry? file).bind (field.read? directory))

/-- Whether a file or the command line sets a field. -/
def isSet (field : Field α) (file : Table) (overrides : Overrides) : Bool :=
  (field.override? overrides).isSome || (field.entry? file).isSome

/-- A field takes what a file and the command line set in it. -/
structure Takes (field : Field α) (directory : Path) (file : Table) (overrides : Overrides) : Prop
    extends field.TakesFile directory file where
  override : ∀ a ∈ field.override? overrides, field.IsValid a

/-- **A field is merged** if it takes what is set in it, and gets that. -/
theorem merge_eq_ok_iff :
    field.merge directory file overrides former = .ok a ↔
      field.Takes directory file overrides ∧
        (field.value? directory file overrides).getD former = a := by
  simp only [merge, bind_eq_ok, apply_eq_ok_iff, override_eq_ok_iff, value?, Option.getD_or]
  constructor
  · rintro ⟨middle, ⟨hfile, rfl⟩, hoverride, ha⟩
    exact ⟨⟨hfile, hoverride⟩, ha⟩
  · rintro ⟨⟨hfile, hoverride⟩, ha⟩
    exact ⟨_, ⟨hfile, rfl⟩, hoverride, ha⟩

namespace Takes

variable (h : field.Takes directory file overrides)
include h

theorem isSome_value? :
    (field.value? directory file overrides).isSome = field.isSet file overrides := by
  rw [value?, isSet, Option.isSome_or]
  congr 1
  cases hv : field.entry? file with
  | none => rfl
  | some v =>
    obtain ⟨a, ha, -⟩ := h.entry v hv
    rw [Option.bind_some, ha, Option.isSome_some, Option.isSome_some]

/-- What a field takes is valid. -/
theorem isValid (ha : field.value? directory file overrides = some a) : field.IsValid a := by
  rcases Option.or_eq_some_iff.1 ha with hsaid | ⟨-, hentry⟩
  · exact h.override a hsaid
  · obtain ⟨v, hv, hread⟩ := Option.bind_eq_some_iff.1 hentry
    obtain ⟨b, hb, hvalid⟩ := h.entry v hv
    rwa [Option.some.inj (hread.symm.trans hb)]

end Takes

/-- **Valid values stay valid.** -/
theorem isValid_of_merge (h : field.merge directory file overrides former = .ok a)
    (hformer : field.IsValid former) : field.IsValid a := by
  obtain ⟨htakes, rfl⟩ := merge_eq_ok_iff.1 h
  cases hvalue : field.value? directory file overrides with
  | none => exact hformer
  | some b => exact htakes.isValid hvalue

end Field

end CssTypings.Config
