import CssTypings.Config.Basic
import CssTypings.Config.Value

/-!
# Merging configurations

A configuration file changes the settings it mentions, and the command line has the last word. Every
value is checked when it is read; the first one that does not fit decides the fault. The four
sections are checked to be tables before any of their fields.

Relative paths in a file are read from the directory of the file. It is made absolute between the
sections and the fields, so that no field is read if its path holds a null character.
-/

namespace CssTypings.Config

/-- Settings from the command line. -/
structure Overrides where
  /-- The extension of stylesheets. -/
  extension : Option Text
  /-- Whether successes go unreported. -/
  silent : Option Bool
deriving DecidableEq, Repr

/-- No settings. -/
def Overrides.none : Overrides := ⟨.none, .none⟩

/-- What can be wrong with a configuration. -/
inductive Fault where
  /-- A part of the file that is no table. -/
  | notTable (name : String)
  /-- A field whose value does not meet a requirement. -/
  | field (name requirement : String)
  /-- An integer where a number is wanted that no double comes close to. -/
  | tooLarge
  /-- A path that holds a null character. -/
  | nullCharacter
  /-- A file that was asked for and does not exist. -/
  | missingFile (path : Path)
deriving DecidableEq, Repr

/-- The wording of a fault. -/
def Fault.message : Fault → String
  | .notTable name => "Config section '" ++ name ++ "' must be a table."
  | .field name requirement => "Config field '" ++ name ++ "' must " ++ requirement ++ "."
  | .tooLarge => "int too large to convert to float"
  | .nullCharacter => "embedded null byte"
  | .missingFile path => "Config file not found: " ++ path.toString

/-! ### Checks -/

/-- The entries of a section; a section that is not there has none. -/
def sectionOf (file : Table) (name : String) : Except Fault Table :=
  match file.get? name.toList with
  | .none => .ok []
  | some (.table entries) => .ok entries
  | some _ => .error (.notTable name)

/-- The value of a field if the section has it and the check accepts it, and the former value if the
section does not have it. -/
def setting {α : Type} (entries : Table) (key : String) (former : α)
    (check : Value → Except Fault α) : Except Fault α :=
  match entries.get? key.toList with
  | .none => .ok former
  | some v => check v

/-- Characters that an extension may not have. -/
def reserved : Text := "/\\*?[]".toList

/-- An extension without blanks around it and dots in front. -/
def checkExtension (name : String) (t : Text) : Except Fault Text :=
  let extension := t.trim.dropWhile (· = '.')
  if extension = [] ∨ extension.any reserved.contains then
    .error (.field name "be a plain file extension")
  else .ok extension

/-- A suffix of declarations: a dot and something behind it. -/
def checkSuffix : Value → Except Fault Text
  | .text ('.' :: c :: r) => .ok ('.' :: c :: r)
  | _ => .error (.field "convert.declaration_suffix" "be a string starting with '.'")

/-- A list of texts. -/
def checkTexts (name : String) : Value → Except Fault (List Text)
  | .list items => items.mapM fun
    | .text t => .ok t
    | _ => .error (.field name "contain only strings")
  | _ => .error (.field name "be a list of strings")

/-- A limit for conversions; `null` keeps the former one. -/
def checkConcurrency (former : Option Nat) : Value → Except Fault (Option Nat)
  | .null => .ok former
  | .integer n =>
    if n < 1 then .error (.field "convert.max_concurrency" "be a positive integer")
    else if concurrencyCap < n then
      let cap := String.ofList (Text.decimal concurrencyCap)
      .error (.field "convert.max_concurrency" ("be <= " ++ cap))
    else .ok (some n.toNat)
  | _ => .error (.field "convert.max_concurrency" "be a positive integer")

/-- One of the names of a setting. -/
def checkChoice {α : Type} (name : String) (choices : List String) (ofName? : Text → Option α) :
    Value → Except Fault α
  | v =>
    match v with
    | .text t =>
      match ofName? t with
      | some a => .ok a
      | .none => refuse
    | _ => refuse
where
  refuse : Except Fault α := .error (.field name ("be one of " ++ ", ".intercalate choices))

/-- A number of seconds above zero. -/
def checkInterval : Value → Except Fault Double
  | .integer n =>
    if n ≤ 0 then refuse
    else match Double.ofInt? n with
      | some d => .ok d
      | .none => .error .tooLarge
  | .float d => if d.isAtMostZero then refuse else .ok d
  | _ => refuse
where
  refuse : Except Fault Double := .error (.field "watch.poll_interval" "be a positive number")

/-- A truth value. -/
def checkBool (name : String) : Value → Except Fault Bool
  | .bool b => .ok b
  | _ => .error (.field name "be a boolean")

/-- The absolute form of a path that is read from the directory `anchor`. -/
def resolvePath (anchor p : Path) : Except Fault Path :=
  match anchor.resolve? p with
  | some resolved => .ok resolved
  | .none => .error .nullCharacter

/-- A list of paths, which are read from the directory `anchor`. -/
def checkPaths (name : String) (anchor : Path) (v : Value) : Except Fault (List Path) := do
  (← checkTexts name v).mapM fun t ↦ resolvePath anchor (Path.ofText t)

/-- A path that is not blank and is read from the directory `anchor`. -/
def checkPath (name : String) (anchor : Path) : Value → Except Fault Path
  | .text t =>
    if t.trim = [] then .error (.field name "be a non-empty string")
    else resolvePath anchor (Path.ofText t)
  | _ => .error (.field name "be a non-empty string")

/-! ### Layers -/

/-- The configuration with the command line applied. -/
def override (config : Config) (overrides : Overrides) : Except Fault Config := do
  let extension ← match overrides.extension with
    | some t => checkExtension "--extension" t
    | .none => .ok config.extension
  return { config with extension, silent := overrides.silent.getD config.silent }

/-- The configuration with the contents of a file applied; relative paths in the file are read from
the directory `anchor`, which is read from `here`. -/
def applyFile (config : Config) (here : Path) (file : Table) (anchor : Path) :
    Except Fault Config := do
  let convert ← sectionOf file "convert"
  let compiler ← sectionOf file "compiler"
  let watch ← sectionOf file "watch"
  let output ← sectionOf file "output"
  let anchor ← resolvePath here anchor
  let extension ← setting convert "extension" config.extension fun
    | .text t => checkExtension "convert.extension" t
    | _ => .error (.field "convert.extension" "be a string")
  let declarationSuffix ← setting convert "declaration_suffix" config.declarationSuffix checkSuffix
  let excludeGlobs ← setting convert "exclude_globs" config.excludeGlobs
    (checkTexts "convert.exclude_globs")
  let maxConcurrency ← setting convert "max_concurrency" config.maxConcurrency
    (checkConcurrency config.maxConcurrency)
  let outputStyle ← setting compiler "output_style" config.outputStyle
    (checkChoice "compiler.output_style" (OutputStyle.all.map OutputStyle.name) OutputStyle.ofName?)
  let includePaths ← setting compiler "include_paths" config.includePaths
    (checkPaths "compiler.include_paths" anchor)
  let pollInterval ← setting watch "poll_interval" config.pollInterval checkInterval
  let silent ← setting output "silent" config.silent (checkBool "output.silent")
  let color ← setting output "color" config.color
    (checkChoice "output.color" (ColorMode.all.map ColorMode.name) ColorMode.ofName?)
  let eventLog ← setting output "event_log" config.eventLog fun v ↦
    return some (← checkPath "output.event_log" anchor v)
  return { config with
    extension, declarationSuffix, excludeGlobs, maxConcurrency, outputStyle, includePaths,
    pollInterval, silent, color, eventLog }

/-- The configuration with the contents of a file and then the command line applied. -/
def merge (config : Config) (here : Path) (file : Table) (overrides : Overrides) (anchor : Path) :
    Except Fault Config := do
  (← config.applyFile here file anchor).override overrides

end CssTypings.Config
