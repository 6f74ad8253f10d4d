import CssTypings.Proofs.Config.Entries
import Mathlib.Data.List.Forall2
import Mathlib.Data.List.Induction

/-!
# Layers

Configurations are merged in layers: a file, a command line and the directory that relative paths in
the file are read from. However many there are, each field holds what the last layer that sets it
writes there, and its default if there is none (`Field.settled?`). This takes nothing but the
field's own entry in each layer, so the fields are settled independently, and a layer that comes
twice in a row counts once. The main statement is `mergeAll_settled`.
-/

namespace CssTypings.Config

variable {α : Type} {config config' : Config} {here cwd : Path}

/-- A file and a command line that are merged together. -/
structure Layer where
  file : Table
  overrides : Overrides
  /-- The directory that relative paths in the file are read from, if it is not that of the
  configuration. -/
  directory : Option Path

/-- The configuration with a layer merged into it. -/
def mergeLayer (config : Config) (here : Path) (layer : Layer) : Except Fault Config :=
  config.merge here layer.file layer.overrides (layer.directory.getD config.cwd)

/-- The configuration with layers merged into it one after the other. -/
def mergeAll (here : Path) (config : Config) (layers : List Layer) : Except Fault Config :=
  layers.foldlM (fun config layer ↦ config.mergeLayer here layer) config

theorem mergeAll_concat (layers : List Layer) (layer : Layer) :
    mergeAll here config (layers ++ [layer]) =
      mergeAll here config layers >>= (·.mergeLayer here layer) := by
  simp [mergeAll]

/-! ### What layers write -/

namespace Field

/-- Whether a layer sets a field. -/
def isSetIn (field : Field α) (layer : Layer) : Bool := field.isSet layer.file layer.overrides

/-- What a layer writes in a field of the configuration for a directory. -/
def written? (here cwd : Path) (field : Field α) (layer : Layer) : Option α :=
  (here.resolve? (layer.directory.getD cwd)).bind fun directory ↦
    field.value? directory layer.file layer.overrides

/-- What a field holds after layers: what the last one that sets it writes there, or its default. -/
def settled? (here cwd : Path) (layers : List Layer) (field : Field α) : Option α :=
  match layers.reverse.find? field.isSetIn with
  | some layer => field.written? here cwd layer
  | none => some (field.get (default cwd))

/-- The two layers say the same of a field. They may differ in all other ones. -/
structure Alike (field : Field α) (layer layer' : Layer) : Prop where
  entry : field.entry? layer.file = field.entry? layer'.file
  override : field.override? layer.overrides = field.override? layer'.overrides
  directory : layer.directory = layer'.directory

namespace Alike

variable {field : Field α} {layer layer' : Layer} (h : field.Alike layer layer')
include h

theorem isSetIn_eq : field.isSetIn layer = field.isSetIn layer' := by
  rw [isSetIn, isSetIn, isSet, isSet, h.entry, h.override]

theorem written?_eq : field.written? here cwd layer = field.written? here cwd layer' := by
  simp only [written?, value?, h.entry, h.override, h.directory]

end Alike

/-- Nothing else matters to what a field holds. -/
theorem settled?_congr {field : Field α} {layers layers' : List Layer}
    (h : List.Forall₂ field.Alike layers layers') :
    field.settled? here cwd layers = field.settled? here cwd layers' := by
  rw [settled?, settled?]
  have h := List.forall₂_reverse_iff.2 h
  generalize layers.reverse = newest at h ⊢
  generalize layers'.reverse = newest' at h ⊢
  induction h with
  | nil => rfl
  | @cons layer layer' newest newest' halike _ ih =>
    rw [List.find?_cons, List.find?_cons, halike.isSetIn_eq]
    cases field.isSetIn layer' with
    | true => exact halike.written?_eq
    | false => exact ih

theorem settled?_concat (layers : List Layer) (layer : Layer) (field : Field α) :
    field.settled? here cwd (layers ++ [layer]) =
      if field.isSetIn layer then field.written? here cwd layer
      else field.settled? here cwd layers := by
  rw [settled?, List.reverse_append, List.reverse_singleton, List.singleton_append, List.find?_cons]
  cases field.isSetIn layer <;> rfl

end Field

/-! ### One layer -/

section MergeLayer

variable {layer : Layer} (h : config.mergeLayer here layer = .ok config')
include h

theorem cwd_of_mergeLayer : config'.cwd = config.cwd := by
  obtain ⟨-, -, hcwd, -⟩ := merge_eq_ok_iff.1 h
  exact hcwd

/-- **A layer decides the fields that it sets** and keeps the other ones. -/
theorem get_of_mergeLayer (field : Field α) :
    some (field.get config') =
      if field.isSetIn layer then field.written? here config.cwd layer
      else some (field.get config) := by
  obtain ⟨directory, hdirectory, -, hfields⟩ := merge_eq_ok_iff.1 h
  obtain ⟨htakes, hvalue⟩ := Field.merge_eq_ok_iff.1 (hfields field)
  have hwritten : field.written? here config.cwd layer =
      field.value? directory layer.file layer.overrides := by
    rw [Field.written?, resolvePath_eq_ok_iff.1 hdirectory, Option.bind_some]
  rw [hwritten, ← hvalue, Field.isSetIn, ← htakes.isSome_value?]
  cases field.value? directory layer.file layer.overrides <;> rfl

/-- **A layer that comes twice in a row** counts once. -/
theorem mergeLayer_idem : config'.mergeLayer here layer = .ok config' := by
  obtain ⟨directory, hdirectory, hcwd, hfields⟩ := merge_eq_ok_iff.1 h
  refine merge_eq_ok_iff.2 ⟨directory, ?_, rfl, fun field ↦ ?_⟩
  · rwa [hcwd]
  · obtain ⟨htakes, hvalue⟩ := Field.merge_eq_ok_iff.1 (hfields field)
    refine Field.merge_eq_ok_iff.2 ⟨htakes, ?_⟩
    rw [← hvalue]
    cases field.value? directory layer.file layer.overrides <;> rfl

end MergeLayer

/-! ### All layers -/

theorem cwd_of_mergeAll {layers : List Layer} (h : mergeAll here config layers = .ok config') :
    config'.cwd = config.cwd := by
  induction layers using List.reverseRecOn generalizing config' with
  | nil => exact congrArg cwd (Except.ok.inj h).symm
  | append_singleton layers layer ih =>
    rw [mergeAll_concat] at h
    obtain ⟨middle, hmiddle, h⟩ := bind_eq_ok.1 h
    exact (cwd_of_mergeLayer h).trans (ih hmiddle)

theorem settled?_of_mergeAll {layers : List Layer}
    (h : mergeAll here (default cwd) layers = .ok config) (field : Field α) :
    field.settled? here cwd layers = some (field.get config) := by
  induction layers using List.reverseRecOn generalizing config with
  | nil => exact congrArg (some ∘ field.get) (Except.ok.inj h)
  | append_singleton layers layer ih =>
    rw [mergeAll_concat] at h
    obtain ⟨middle, hmiddle, h⟩ := bind_eq_ok.1 h
    rw [Field.settled?_concat, ih hmiddle, get_of_mergeLayer h, cwd_of_mergeAll hmiddle]
    rfl

/-- **Each field is settled by the last layer that sets it.** Its default stays if there is none,
the directory stays in any case. What other fields are set to in the layers does not matter, and a
layer that comes twice in a row counts once. -/
theorem mergeAll_settled {layers : List Layer}
    (h : mergeAll here (default cwd) layers = .ok config) :
    config.cwd = cwd ∧
    (∀ {α : Type} (field : Field α), field.settled? here cwd layers = some (field.get config)) ∧
    (∀ {α : Type} (field : Field α) (layers' : List Layer) (config' : Config),
      List.Forall₂ field.Alike layers layers' → mergeAll here (default cwd) layers' = .ok config' →
      field.get config' = field.get config) ∧
    ∀ (layer : Layer), mergeAll here (default cwd) (layers ++ [layer, layer]) =
      mergeAll here (default cwd) (layers ++ [layer]) := by
  refine ⟨cwd_of_mergeAll h, settled?_of_mergeAll h, ?_, ?_⟩
  · intro α field layers' config' halike h'
    have hsettled := settled?_of_mergeAll h' field
    rw [← Field.settled?_congr halike, settled?_of_mergeAll h field] at hsettled
    exact (Option.some.inj hsettled).symm
  · intro layer
    have hconcat : layers ++ [layer, layer] = (layers ++ [layer]) ++ [layer] := by simp
    rw [hconcat, mergeAll_concat]
    cases hlayer : mergeAll here (default cwd) (layers ++ [layer]) with
    | error fault => rfl
    | ok merged =>
      rw [mergeAll_concat] at hlayer
      obtain ⟨before, -, hlayer⟩ := bind_eq_ok.1 hlayer
      exact mergeLayer_idem hlayer

/-- Two layers. The second one is given another extension on the command line than in its file. -/
def sampleLayers : List Layer :=
  [⟨[("convert".toList, .table [("extension".toList, .text ".scss".toList),
        ("max_concurrency".toList, .integer 4)]),
      ("output".toList, .table [("silent".toList, .bool true),
        ("event_log".toList, .text "../log.jsonl".toList)])],
    .none, some (.ofText "conf/a".toList)⟩,
   ⟨[("convert".toList, .table [("extension".toList, .text "less".toList),
        ("max_concurrency".toList, .null)])],
    ⟨some " ..sass".toList, none⟩, none⟩]

/-- What the two layers are merged to in the directory `/w`. -/
def sampleConfig : Config :=
  { default (.ofText "/w".toList) with
    extension := "sass".toList
    maxConcurrency := some 4
    silent := true
    eventLog := some (.ofText "/conf/log.jsonl".toList) }

theorem mergeAll_settled_sample :
    mergeAll (.ofText "/".toList) (default (.ofText "/w".toList)) sampleLayers = .ok sampleConfig ∧
    ∀ {α : Type} (field : Field α),
      field.settled? (.ofText "/".toList) (.ofText "/w".toList) sampleLayers =
        some (field.get sampleConfig) := by
  have h : mergeAll (.ofText "/".toList) (default (.ofText "/w".toList)) sampleLayers =
    .ok sampleConfig := by decide +kernel
  exact ⟨h, (mergeAll_settled h).2.1⟩

end CssTypings.Config
