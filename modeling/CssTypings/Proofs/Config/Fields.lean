import CssTypings.Config.Merge
import CssTypings.Proofs.Collect

/-!
# Merging field by field

A configuration has ten fields that can be set (`Field`), each by an entry in a section of a file,
and two of them by the command line as well. They are all checked one after the other in one
function, where each could be mixed up with another one; so it is shown once that they are not.
Merging succeeds exactly if it does for each field by itself, and it makes of each field what it
makes of it by itself (`merge_eq_ok_iff`). What holds of a single field (`Field.merge`) then holds
of the whole configuration, however many files are merged.
-/

namespace CssTypings.Config

variable {α : Type} {config config' : Config} {here anchor directory : Path} {file : Table}
  {overrides : Overrides}

/-- The fields that can be set. The index is what a field holds. -/
inductive Field : Type → Type where
  | extension : Field Text
  | declarationSuffix : Field Text
  | excludeGlobs : Field (List Text)
  | maxConcurrency : Field (Option Nat)
  | outputStyle : Field OutputStyle
  | includePaths : Field (List Path)
  | pollInterval : Field Double
  | silent : Field Bool
  | color : Field ColorMode
  | eventLog : Field (Option Path)

namespace Field

/-- What a field holds in a configuration. -/
def get : Field α → Config → α
  | extension, config => config.extension
  | declarationSuffix, config => config.declarationSuffix
  | excludeGlobs, config => config.excludeGlobs
  | maxConcurrency, config => config.maxConcurrency
  | outputStyle, config => config.outputStyle
  | includePaths, config => config.includePaths
  | pollInterval, config => config.pollInterval
  | silent, config => config.silent
  | color, config => config.color
  | eventLog, config => config.eventLog

/-- The section that the entry of a field stands in. -/
def table : Field α → String
  | extension | declarationSuffix | excludeGlobs | maxConcurrency => "convert"
  | outputStyle | includePaths => "compiler"
  | pollInterval => "watch"
  | silent | color | eventLog => "output"

/-- The name of the entry in its section. -/
def key : Field α → String
  | extension => "extension"
  | declarationSuffix => "declaration_suffix"
  | excludeGlobs => "exclude_globs"
  | maxConcurrency => "max_concurrency"
  | outputStyle => "output_style"
  | includePaths => "include_paths"
  | pollInterval => "poll_interval"
  | silent => "silent"
  | color => "color"
  | eventLog => "event_log"

/-! ### Merging a single field -/

/-- The check of an entry. -/
def check : Field α → (directory : Path) → (former : α) → Value → Except Fault α
  | extension, _, _ => fun
    | .text t => checkExtension "convert.extension" t
    | _ => .error (.field "convert.extension" "be a string")
  | declarationSuffix, _, _ => checkSuffix
  | excludeGlobs, _, _ => checkTexts "convert.exclude_globs"
  | maxConcurrency, _, former => checkConcurrency former
  | outputStyle, _, _ =>
    checkChoice "compiler.output_style" (OutputStyle.all.map OutputStyle.name) OutputStyle.ofName?
  | includePaths, directory, _ => checkPaths "compiler.include_paths" directory
  | pollInterval, _, _ => checkInterval
  | silent, _, _ => checkBool "output.silent"
  | color, _, _ => checkChoice "output.color" (ColorMode.all.map ColorMode.name) ColorMode.ofName?
  | eventLog, directory, _ => fun v ↦ return some (← checkPath "output.event_log" directory v)

/-- What a file makes of a field. -/
def apply (field : Field α) (directory : Path) (file : Table) (former : α) : Except Fault α := do
  setting (← sectionOf file field.table) field.key former (field.check directory former)

/-- What the command line makes of a field. -/
def override : Field α → Overrides → (former : α) → Except Fault α
  | extension, overrides, former =>
    match overrides.extension with
    | some t => checkExtension "--extension" t
    | none => .ok former
  | silent, overrides, former => .ok (overrides.silent.getD former)
  | _, _, former => .ok former

/-- What a file and then the command line make of a field. -/
def merge (field : Field α) (directory : Path) (file : Table) (overrides : Overrides) (former : α) :
    Except Fault α := do
  field.override overrides (← field.apply directory file former)

end Field

/-! ### Merging all fields -/

/-- The fields are all there is to a configuration besides its directory. -/
theorem eq_of_get_eq (hcwd : config.cwd = config'.cwd)
    (h : ∀ {α : Type} (field : Field α), field.get config = field.get config') : config = config' := by
  cases config
  cases config'
  obtain rfl : _ = _ := hcwd
  obtain rfl : _ = _ := h .extension
  obtain rfl : _ = _ := h .declarationSuffix
  obtain rfl : _ = _ := h .excludeGlobs
  obtain rfl : _ = _ := h .maxConcurrency
  obtain rfl : _ = _ := h .outputStyle
  obtain rfl : _ = _ := h .includePaths
  obtain rfl : _ = _ := h .pollInterval
  obtain rfl : _ = _ := h .silent
  obtain rfl : _ = _ := h .color
  obtain rfl : _ = _ := h .eventLog
  rfl

theorem Field.apply_eq (field : Field α) {entries : Table}
    (h : sectionOf file field.table = .ok entries) (former : α) :
    field.apply directory file former =
      setting entries field.key former (field.check directory former) := by
  rw [apply, h]
  rfl

/-- **A file can be applied** exactly if it can be to each field by itself. -/
theorem applyFile_eq_ok_iff :
    config.applyFile here file anchor = .ok config' ↔
      ∃ directory, resolvePath here anchor = .ok directory ∧ config'.cwd = config.cwd ∧
        ∀ {α : Type} (field : Field α),
          field.apply directory file (field.get config) = .ok (field.get config') := by
  constructor
  · intro h
    unfold Config.applyFile at h
    obtain ⟨convert, hconvert, h⟩ := exists_of_bind_eq_ok h
    obtain ⟨compiler, hcompiler, h⟩ := exists_of_bind_eq_ok h
    obtain ⟨watch, hwatch, h⟩ := exists_of_bind_eq_ok h
    obtain ⟨output, houtput, h⟩ := exists_of_bind_eq_ok h
    obtain ⟨directory, hdirectory, h⟩ := exists_of_bind_eq_ok h
    obtain ⟨extension, hextension, h⟩ := exists_of_bind_eq_ok h
    obtain ⟨suffix, hsuffix, h⟩ := exists_of_bind_eq_ok h
    obtain ⟨globs, hglobs, h⟩ := exists_of_bind_eq_ok h
    obtain ⟨limit, hlimit, h⟩ := exists_of_bind_eq_ok h
    obtain ⟨style, hstyle, h⟩ := exists_of_bind_eq_ok h
    obtain ⟨includePaths, hincludePaths, h⟩ := exists_of_bind_eq_ok h
    obtain ⟨interval, hinterval, h⟩ := exists_of_bind_eq_ok h
    obtain ⟨silent, hsilent, h⟩ := exists_of_bind_eq_ok h
    obtain ⟨color, hcolor, h⟩ := exists_of_bind_eq_ok h
    obtain ⟨eventLog, heventLog, h⟩ := exists_of_bind_eq_ok h
    obtain rfl := Except.ok.inj h
    refine ⟨directory, hdirectory, rfl, fun field ↦ ?_⟩
    cases field with
    | extension => exact (Field.apply_eq .extension hconvert _).trans hextension
    | declarationSuffix => exact (Field.apply_eq .declarationSuffix hconvert _).trans hsuffix
    | excludeGlobs => exact (Field.apply_eq .excludeGlobs hconvert _).trans hglobs
    | maxConcurrency => exact (Field.apply_eq .maxConcurrency hconvert _).trans hlimit
    | outputStyle => exact (Field.apply_eq .outputStyle hcompiler _).trans hstyle
    | includePaths => exact (Field.apply_eq .includePaths hcompiler _).trans hincludePaths
    | pollInterval => exact (Field.apply_eq .pollInterval hwatch _).trans hinterval
    | silent => exact (Field.apply_eq .silent houtput _).trans hsilent
    | color => exact (Field.apply_eq .color houtput _).trans hcolor
    | eventLog => exact (Field.apply_eq .eventLog houtput _).trans heventLog
  · rintro ⟨directory, hdirectory, hcwd, h⟩
    obtain ⟨convert, hconvert, hextension⟩ := exists_of_bind_eq_ok (h .extension)
    obtain ⟨compiler, hcompiler, hstyle⟩ := exists_of_bind_eq_ok (h .outputStyle)
    obtain ⟨watch, hwatch, hinterval⟩ := exists_of_bind_eq_ok (h .pollInterval)
    obtain ⟨output, houtput, hsilent⟩ := exists_of_bind_eq_ok (h .silent)
    have hsuffix := (Field.apply_eq .declarationSuffix hconvert _).symm.trans (h .declarationSuffix)
    have hglobs := (Field.apply_eq .excludeGlobs hconvert _).symm.trans (h .excludeGlobs)
    have hlimit := (Field.apply_eq .maxConcurrency hconvert _).symm.trans (h .maxConcurrency)
    have hincludePaths := (Field.apply_eq .includePaths hcompiler _).symm.trans (h .includePaths)
    have hcolor := (Field.apply_eq .color houtput _).symm.trans (h .color)
    have heventLog := (Field.apply_eq .eventLog houtput _).symm.trans (h .eventLog)
    cases config'
    obtain rfl : _ = _ := hcwd
    unfold Config.applyFile
    refine bind_eq_of_ok hconvert ?_
    refine bind_eq_of_ok hcompiler ?_
    refine bind_eq_of_ok hwatch ?_
    refine bind_eq_of_ok houtput ?_
    refine bind_eq_of_ok hdirectory ?_
    refine bind_eq_of_ok hextension ?_
    refine bind_eq_of_ok hsuffix ?_
    refine bind_eq_of_ok hglobs ?_
    refine bind_eq_of_ok hlimit ?_
    refine bind_eq_of_ok hstyle ?_
    refine bind_eq_of_ok hincludePaths ?_
    refine bind_eq_of_ok hinterval ?_
    refine bind_eq_of_ok hsilent ?_
    refine bind_eq_of_ok hcolor ?_
    refine bind_eq_of_ok heventLog ?_
    rfl

/-- Only the extension on the command line is checked. -/
theorem override_eq :
    config.override overrides =
      (Field.extension.override overrides config.extension).map fun extension ↦
        { config with extension, silent := overrides.silent.getD config.silent } := by
  rcases overrides with ⟨extension | t, silent⟩
  · rfl
  · rfl

/-- **The command line can be applied** exactly if it can be to each field by itself. -/
theorem override_eq_ok_iff :
    config.override overrides = .ok config' ↔
      config'.cwd = config.cwd ∧ ∀ {α : Type} (field : Field α),
        field.override overrides (field.get config) = .ok (field.get config') := by
  rw [override_eq]
  constructor
  · intro h
    obtain ⟨extension, hextension, rfl⟩ := exists_of_map_eq_ok h
    refine ⟨rfl, fun field ↦ ?_⟩
    cases field with
    | extension => exact hextension
    | _ => rfl
  · rintro ⟨hcwd, h⟩
    have hextension : Field.extension.override overrides config.extension = .ok config'.extension :=
      h .extension
    rw [hextension]
    refine congrArg Except.ok (eq_of_get_eq hcwd.symm fun field ↦ ?_)
    have hfield := h field
    cases field with
    | extension => rfl
    | _ => exact Except.ok.inj hfield

/-- **Merging is merging field by field.** -/
theorem merge_eq_ok_iff :
    config.merge here file overrides anchor = .ok config' ↔
      ∃ directory, resolvePath here anchor = .ok directory ∧ config'.cwd = config.cwd ∧
        ∀ {α : Type} (field : Field α),
          field.merge directory file overrides (field.get config) = .ok (field.get config') := by
  constructor
  · intro h
    obtain ⟨middle, hfile, hoverride⟩ := exists_of_bind_eq_ok h
    obtain ⟨directory, hdirectory, hcwd, happly⟩ := applyFile_eq_ok_iff.1 hfile
    obtain ⟨hcwd', hoverride⟩ := override_eq_ok_iff.1 hoverride
    exact ⟨directory, hdirectory, hcwd'.trans hcwd, fun field ↦
      bind_eq_of_ok (happly field) (hoverride field)⟩
  · rintro ⟨directory, hdirectory, hcwd, h⟩
    -- the fields between the file and the command line make up a configuration
    have hsplit := fun {α : Type} (field : Field α) ↦ exists_of_bind_eq_ok (h field)
    choose middle happly hoverride using @hsplit
    let between : Config := ⟨config.cwd, middle .extension, middle .declarationSuffix,
      middle .excludeGlobs, middle .maxConcurrency, middle .outputStyle, middle .includePaths,
      middle .pollInterval, middle .silent, middle .color, middle .eventLog⟩
    have hget : ∀ {α : Type} (field : Field α), field.get between = middle field := by
      intro α field
      cases field <;> rfl
    refine bind_eq_of_ok (a := between) ?_ ?_
    · refine applyFile_eq_ok_iff.2 ⟨directory, hdirectory, rfl, fun field ↦ ?_⟩
      rw [hget]
      exact happly field
    · refine override_eq_ok_iff.2 ⟨hcwd, fun field ↦ ?_⟩
      rw [hget]
      exact hoverride field

end CssTypings.Config
