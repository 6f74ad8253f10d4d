import CssTypings.Config.Load
import CssTypings.Proofs.Config.Entries
import CssTypings.Proofs.Sources

/-!
# Configurations that are accepted

A configuration comes from the default one of its directory by merging files and command lines into
it (`Accepted`). Every check refuses the values that do not fit, so whatever the files say, the
settings that conversions rely on are as they should be (`Accepted.wellFormed`).
-/

namespace CssTypings.Config

variable {α : Type} {config : Config} {cwd : Path} {overrides : Overrides}

/-- The settings that conversions rely on. -/
structure WellFormed (config : Config) : Prop where
  extension : IsExtension config.extension
  suffix : config.declarationSuffix.head? = some '.'
  limit : ∀ n ∈ config.maxConcurrency, 0 < n

/-- The configurations for a directory that merging leads to. -/
inductive Accepted (cwd : Path) : Config → Prop where
  | default : Accepted cwd (default cwd)
  | merge {config config' : Config} (accepted : Accepted cwd config) (here : Path) (file : Table)
      (overrides : Overrides) (anchor : Path)
      (merged : config.merge here file overrides anchor = .ok config') : Accepted cwd config'

theorem isValid_default (cwd : Path) (field : Field α) : field.IsValid (field.get (default cwd)) := by
  cases field with
  | extension =>
    show Field.extension.IsValid "css".toList
    have hplain : ("css".toList.all fun c ↦ !reserved.contains c) = true := by decide
    exact ⟨by decide, by decide, fun c hc ↦ by simpa using List.all_eq_true.1 hplain c hc⟩
  | declarationSuffix =>
    show Field.declarationSuffix.IsValid defaultSuffix
    exact ⟨by decide, by decide⟩
  | maxConcurrency => rintro n ⟨⟩
  | includePaths => rintro path ⟨⟩
  | pollInterval => rfl
  | eventLog => rintro path ⟨⟩
  | _ => trivial

/-- **What is accepted is valid.** -/
theorem Accepted.isValid (h : Accepted cwd config) (field : Field α) :
    field.IsValid (field.get config) := by
  induction h with
  | default => exact isValid_default cwd field
  | merge accepted here file overrides anchor merged ih =>
    obtain ⟨directory, -, -, hfields⟩ := merge_eq_ok_iff.1 merged
    exact Field.isValid_of_merge (hfields field) ih

theorem Accepted.cwd_eq (h : Accepted cwd config) : config.cwd = cwd := by
  induction h with
  | default => rfl
  | merge accepted here file overrides anchor merged ih =>
    obtain ⟨directory, -, hcwd, -⟩ := merge_eq_ok_iff.1 merged
    exact hcwd.trans ih

theorem isExtension_default : IsExtension "css".toList :=
  ⟨by decide, by decide, by decide, Glob.not_isMagic_of_any (by decide)⟩

/-- **What is accepted is well formed** and stays in its directory. -/
theorem Accepted.wellFormed (h : Accepted cwd config) : config.WellFormed ∧ config.cwd = cwd := by
  obtain ⟨hne, hhead, hplain⟩ := h.isValid .extension
  refine ⟨⟨isExtension_of_forall_not_mem hne hhead hplain, (h.isValid .declarationSuffix).1, ?_⟩,
    h.cwd_eq⟩
  intro n hn
  exact (h.isValid .maxConcurrency n hn).1

/-- **A log that is accepted can be asked about.** -/
theorem Accepted.hasNull_eventLog (h : Accepted cwd config) :
    ∀ path ∈ config.eventLog, path.hasNull = false :=
  h.isValid .eventLog

/-- What is loaded is accepted. -/
theorem accepted_of_load {tree : Tree} {asked : Option Path}
    (h : load tree cwd asked overrides = .ok config) : Accepted cwd config := by
  have hmerge : ∃ table, (default cwd).merge cwd table overrides (filePath cwd asked).parent =
      .ok config := by
    unfold load at h
    obtain ⟨found, -, h⟩ := exists_of_bind_eq_ok h
    cases found with
    | true =>
      obtain ⟨table, -, h⟩ := exists_of_bind_eq_ok h
      exact ⟨table, mapError_eq_ok.1 h⟩
    | false =>
      cases asked with
      | some asked => cases h
      | none => exact ⟨[], mapError_eq_ok.1 h⟩
  obtain ⟨table, hmerge⟩ := hmerge
  exact .merge .default _ _ _ _ hmerge

end CssTypings.Config
