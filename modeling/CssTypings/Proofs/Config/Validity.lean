import CssTypings.Proofs.Config.Accepted
import CssTypings.Proofs.Config.Layers
import CssTypings.Proofs.Config.Refusals

/-!
# Validity

Whatever layers say, a configuration that is accepted has valid settings (`Checked`), but that the
interval between two looks may be no number at all: this is neither zero nor less, and so it passes
the check. It is one exactly if the last layer that sets it says so. A layer that is refused is
refused for a value that does not fit, except where the interval is an integer that no double is
near to; there the conversion fails before there is a value. The main statement is
`mergeLayer_checked`.
-/

namespace CssTypings.Config

variable {config base : Config} {here cwd anchor directory : Path} {file : Table}
  {layers : List Layer} {n : Nat}

/-- The settings of a configuration that is accepted. -/
structure Checked (config : Config) : Prop where
  extension_ne_nil : config.extension ≠ []
  head?_extension_ne : config.extension.head? ≠ some '.'
  not_mem_extension : ∀ c ∈ "/\\*?[]".toList, c ∉ config.extension
  suffix : ∃ c t, config.declarationSuffix = '.' :: c :: t
  limit : ∀ n ∈ config.maxConcurrency, 1 ≤ n ∧ n ≤ 256
  style : config.outputStyle.name ∈ ["nested", "expanded", "compact", "compressed"]
  color : config.color.name ∈ ["auto", "always", "never"]
  interval : config.pollInterval = .nan ∨ config.pollInterval.IsPositive

/-! ### What is accepted -/

theorem accepted_of_mergeAll (h : mergeAll here (default cwd) layers = .ok config) :
    Accepted cwd config := by
  induction layers using List.reverseRecOn generalizing config with
  | nil => exact Except.ok.inj h ▸ .default
  | append_singleton layers layer ih =>
    rw [mergeAll_concat] at h
    obtain ⟨middle, hmiddle, h⟩ := bind_eq_ok.1 h
    exact .merge (ih hmiddle) _ _ _ _ h

/-- **Accepted settings are valid.** -/
theorem Accepted.checked (h : Accepted cwd config) : config.Checked := by
  obtain ⟨hne, hhead, hplain⟩ := h.isValid .extension
  obtain ⟨hdot, hlength⟩ := h.isValid .declarationSuffix
  refine ⟨hne, hhead, fun c hc hmem ↦ hplain c hmem hc, ?_, h.isValid .maxConcurrency, ?_, ?_,
    Double.isAtMostZero_eq_false_iff.1 (h.isValid .pollInterval)⟩
  · have hdot : config.declarationSuffix.head? = some '.' := hdot
    have hlength : 2 ≤ config.declarationSuffix.length := hlength
    match config.declarationSuffix, hdot, hlength with
    | _ :: c :: t, rfl, _ => exact ⟨c, t, rfl⟩
  · cases config.outputStyle <;> decide
  · cases config.color <;> decide

/-! ### Intervals that are no numbers -/

theorem read?_pollInterval_eq_nan_iff {v : Value} :
    Field.pollInterval.read? directory v = some .nan ↔ v = .float .nan := by
  cases v with
  | integer n =>
    refine ⟨fun h ↦ ?_, by rintro ⟨⟩⟩
    cases Double.eq_number_of_ofInt? h
  | _ => simp [Field.read?]

/-- **The interval is no number** if the last layer that sets it says so. -/
theorem pollInterval_eq_nan_iff (h : mergeAll here (default cwd) layers = .ok config) :
    config.pollInterval = .nan ↔
      ∃ last, layers.reverse.find? Field.pollInterval.isSetIn = some last ∧
        Field.pollInterval.entry? last.file = some (.float .nan) := by
  have hsettled := settled?_of_mergeAll h .pollInterval
  unfold Field.settled? at hsettled
  cases hlast : layers.reverse.find? Field.pollInterval.isSetIn with
  | none =>
    rw [hlast] at hsettled
    have hhalf : Double.half = config.pollInterval := Option.some.inj hsettled
    simp [← hhalf, Double.half]
  | some last =>
    rw [hlast] at hsettled
    obtain ⟨directory, -, hwritten⟩ := Option.bind_eq_some_iff.1 hsettled
    obtain ⟨v, hv, hread⟩ := Option.bind_eq_some_iff.1 hwritten
    have hread : Field.pollInterval.read? directory v = some config.pollInterval := hread
    rw [← Option.some.injEq, ← hread, read?_pollInterval_eq_nan_iff]
    simp [hv]

/-! ### Intervals that are too large -/

theorem checkInterval_of_overflow_le (hn : Double.overflow ≤ n) :
    checkInterval (.integer n) = .error .tooLarge := by
  have hpos := Double.overflow_pos
  have hn' : ¬(n : Int) ≤ 0 := by omega
  have hnone : Double.ofInt? n = none := Double.ofInt?_eq_none_iff.2 hn
  rw [checkInterval, if_neg hn', hnone]

/-- If the fields of the other sections take a file, it is refused for an interval that is too
large. -/
theorem applyFile_of_overflow_le (hdirectory : resolvePath here anchor = .ok directory)
    (htakes : ∀ {α : Type} (field : Field α), field.table ≠ "watch" → field.TakesFile directory file)
    (hentry : Field.pollInterval.entry? file = some (.integer n)) (hn : Double.overflow ≤ n) :
    config.applyFile here file anchor = .error .tooLarge := by
  obtain ⟨convert, hconvert⟩ := (htakes .extension (by decide)).isTable
  obtain ⟨compiler, hcompiler⟩ := (htakes .outputStyle (by decide)).isTable
  obtain ⟨output, houtput⟩ := (htakes .silent (by decide)).isTable
  obtain ⟨watch, hwatch, hv⟩ := Field.exists_of_entry? hentry
  have hsetting {α : Type} (field : Field α) {entries : Table}
      (hentries : sectionOf file field.table = .ok entries) (hfield : field.table ≠ "watch") :
      setting entries field.key (field.get config) (field.check directory (field.get config)) =
        .ok _ :=
    (Field.apply_eq field hentries _).symm.trans
      (Field.apply_eq_ok_iff.2 ⟨htakes field hfield, rfl⟩)
  have hinterval : setting watch "poll_interval" config.pollInterval checkInterval =
      .error .tooLarge := by
    have hv : watch.get? "poll_interval".toList = some (.integer n) := hv
    rw [setting, hv]
    exact checkInterval_of_overflow_le hn
  -- what is checked in front of the interval is accepted
  unfold Config.applyFile
  refine bind_eq_of_ok hconvert ?_
  refine bind_eq_of_ok hcompiler ?_
  refine bind_eq_of_ok hwatch ?_
  refine bind_eq_of_ok houtput ?_
  refine bind_eq_of_ok hdirectory ?_
  refine bind_eq_of_ok (hsetting .extension hconvert (by decide)) ?_
  refine bind_eq_of_ok (hsetting .declarationSuffix hconvert (by decide)) ?_
  refine bind_eq_of_ok (hsetting .excludeGlobs hconvert (by decide)) ?_
  refine bind_eq_of_ok (hsetting .maxConcurrency hconvert (by decide)) ?_
  refine bind_eq_of_ok (hsetting .outputStyle hcompiler (by decide)) ?_
  refine bind_eq_of_ok (hsetting .includePaths hcompiler (by decide)) ?_
  exact bind_eq_error.2 (Or.inl hinterval)

/-- **A layer is refused for an interval that is too large** only if it has one. -/
theorem exists_overflow_le {layer : Layer} (h : base.mergeLayer here layer = .error .tooLarge) :
    ∃ n : Nat, Field.pollInterval.entry? layer.file = some (.integer n) ∧ Double.overflow ≤ n := by
  rcases bind_eq_error.1 h with happly | ⟨middle, -, hoverride⟩
  · obtain ⟨watch, k, hwatch, hv, hpos, hnone⟩ := exists_interval_of_applyFile happly
    obtain ⟨n, rfl⟩ := Int.eq_ofNat_of_zero_le (Int.le_of_lt hpos)
    refine ⟨n, ?_, Double.ofInt?_eq_none_iff.1 hnone⟩
    have hentry : Field.pollInterval.entry? layer.file = _ := Field.entry?_eq hwatch
    exact hentry.trans (Option.filter_eq_some_iff.2 ⟨hv, rfl⟩)
  · exact absurd hoverride fits_override

/-- A layer that has such an interval is not accepted. -/
theorem mergeLayer_ne_ok_of_overflow_le {layer : Layer}
    (hentry : Field.pollInterval.entry? layer.file = some (.integer n)) (hn : Double.overflow ≤ n) :
    base.mergeLayer here layer ≠ .ok config := by
  intro h
  obtain ⟨directory, -, -, hfields⟩ := merge_eq_ok_iff.1 h
  obtain ⟨htakes, -⟩ := Field.merge_eq_ok_iff.1 (hfields .pollInterval)
  obtain ⟨d, hd, -⟩ := htakes.entry _ hentry
  have hnone : Double.ofInt? n = none := Double.ofInt?_eq_none_iff.2 hn
  exact absurd (hd.symm.trans hnone) (by simp)

/-! ### The main statement -/

/-- **Only valid configurations are accepted**, but that the interval may be no number, which it is
exactly if the last layer that sets it says so. **A layer is refused for a value that does not
fit**, but that its interval may be an integer that no double is near to. Such a layer is never
accepted, and unless the fields of the other sections do not take it, that is what it is refused
for. -/
theorem mergeLayer_checked (h : mergeAll here (default cwd) layers = .ok base) (layer : Layer) :
    (∀ config, base.mergeLayer here layer = .ok config →
      config.Checked ∧
      (config.pollInterval = .nan ↔
        ∃ last, (layers ++ [layer]).reverse.find? Field.pollInterval.isSetIn = some last ∧
          Field.pollInterval.entry? last.file = some (.float .nan))) ∧
    (base.mergeLayer here layer = .error .tooLarge →
      ∃ n : Nat, Field.pollInterval.entry? layer.file = some (.integer n) ∧ Double.overflow ≤ n) ∧
    ∀ n : Nat, Field.pollInterval.entry? layer.file = some (.integer n) → Double.overflow ≤ n →
      (∀ config, base.mergeLayer here layer ≠ .ok config) ∧
      ∀ directory, here.resolve? (layer.directory.getD cwd) = some directory →
        (∀ {α : Type} (field : Field α), field.table ≠ "watch" →
          field.TakesFile directory layer.file) →
        base.mergeLayer here layer = .error .tooLarge := by
  refine ⟨fun config hconfig ↦ ?_, exists_overflow_le, fun n hentry hn ↦
    ⟨fun config ↦ mergeLayer_ne_ok_of_overflow_le hentry hn, fun directory hdirectory htakes ↦ ?_⟩⟩
  · have hall : mergeAll here (default cwd) (layers ++ [layer]) = .ok config := by
      rw [mergeAll_concat]
      exact bind_eq_of_ok h hconfig
    exact ⟨(accepted_of_mergeAll hall).checked, pollInterval_eq_nan_iff hall⟩
  · have hcwd : base.cwd = cwd := cwd_of_mergeAll h
    rw [← hcwd] at hdirectory
    have happly : base.applyFile here layer.file (layer.directory.getD base.cwd) =
        .error .tooLarge :=
      applyFile_of_overflow_le (resolvePath_eq_ok_iff.2 hdirectory) htakes hentry hn
    exact bind_eq_error.2 (Or.inl happly)

/-- A layer whose file says nothing but the interval. -/
def intervalLayer (v : Value) : Layer :=
  ⟨[("watch".toList, .table [("poll_interval".toList, v)])], .none, none⟩

/-- An interval that is no number is accepted, and one of `10 ^ 400` seconds is not refused for its
value. -/
theorem mergeLayer_checked_sample :
    (∃ config, (default (.ofText "/w".toList)).mergeLayer (.ofText "/".toList)
        (intervalLayer (.float .nan)) = .ok config ∧ config.pollInterval = .nan) ∧
    (default (.ofText "/w".toList)).mergeLayer (.ofText "/".toList)
      (intervalLayer (.integer (10 ^ 400 : Nat))) = .error .tooLarge := by
  have hbase : mergeAll (.ofText "/".toList) (default (.ofText "/w".toList)) [] =
    .ok (default (.ofText "/w".toList)) := rfl
  constructor
  · obtain ⟨hnan, -⟩ := mergeLayer_checked hbase (intervalLayer (.float .nan))
    have hmerge : (default (.ofText "/w".toList)).mergeLayer (.ofText "/".toList)
        (intervalLayer (.float .nan)) =
      .ok { default (.ofText "/w".toList) with pollInterval := .nan } := by decide +kernel
    exact ⟨_, hmerge, (hnan _ hmerge).2.2 ⟨_, rfl, rfl⟩⟩
  · obtain ⟨-, -, hlarge⟩ :=
      mergeLayer_checked hbase (intervalLayer (.integer (10 ^ 400 : Nat)))
    refine (hlarge (10 ^ 400) rfl (by decide +kernel)).2 (.ofText "/w".toList) (by decide) ?_
    intro α field hfield
    cases field with
    | pollInterval => exact absurd rfl hfield
    | _ => exact ⟨⟨_, rfl⟩, by rintro v ⟨⟩⟩

end CssTypings.Config
