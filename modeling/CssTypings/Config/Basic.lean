import CssTypings.Number.Double
import CssTypings.Path.Absolute

/-!
# The configuration

Everything that can be set for a run. A configuration is complete: every setting has a value, and
what a file or the command line does not mention keeps the value it had.
-/

namespace CssTypings

/-- How the compiler lays out its output. -/
inductive OutputStyle where
  | nested
  | expanded
  | compact
  | compressed
deriving DecidableEq, Repr

namespace OutputStyle

/-- The styles in the order in which they are listed. -/
def all : List OutputStyle := [nested, expanded, compact, compressed]

/-- The name of a style. -/
def name : OutputStyle → String
  | nested => "nested"
  | expanded => "expanded"
  | compact => "compact"
  | compressed => "compressed"

/-- The style of a name. -/
def ofName? (t : Text) : Option OutputStyle := all.find? fun style ↦ style.name.toList = t

end OutputStyle

/-- When the console is coloured. -/
inductive ColorMode where
  /-- When the stream is a terminal and the environment does not forbid it. -/
  | auto
  | always
  | never
deriving DecidableEq, Repr

namespace ColorMode

/-- The modes in the order in which they are listed. -/
def all : List ColorMode := [auto, always, never]

/-- The name of a mode. -/
def name : ColorMode → String
  | auto => "auto"
  | always => "always"
  | never => "never"

/-- The mode of a name. -/
def ofName? (t : Text) : Option ColorMode := all.find? fun mode ↦ mode.name.toList = t

end ColorMode

/-- A complete configuration. -/
structure Config where
  /-- The directory that sources are found from. -/
  cwd : Path
  /-- The extension of stylesheets, without the dot. -/
  extension : Text
  /-- What is appended to a source to name its declaration. -/
  declarationSuffix : Text
  /-- Patterns of paths to ignore. -/
  excludeGlobs : List Text
  /-- How many conversions may run at once, if there is a limit. -/
  maxConcurrency : Option Nat
  /-- The layout of the compiler's output. -/
  outputStyle : OutputStyle
  /-- Directories that the compiler searches for imports. -/
  includePaths : List Path
  /-- Seconds between two looks at the sources. -/
  pollInterval : Double
  /-- Whether successes go unreported. -/
  silent : Bool
  /-- When the console is coloured. -/
  color : ColorMode
  /-- The file that conversions are logged to, if any. -/
  eventLog : Option Path
deriving DecidableEq, Repr

namespace Config

/-- The name of the file that is read when none is given. -/
def fileName : Text := "css-modules-flow-types.toml".toList

/-- The suffix of declarations, unless another one is set. -/
def defaultSuffix : Text := ".flow".toList

/-- The most conversions that may be allowed at once. -/
def concurrencyCap : Nat := 256

/-- The configuration for a directory when nothing is set. -/
def default (cwd : Path) : Config where
  cwd := cwd
  extension := "css".toList
  declarationSuffix := defaultSuffix
  excludeGlobs := []
  maxConcurrency := none
  outputStyle := .nested
  includePaths := []
  pollInterval := .half
  silent := false
  color := .auto
  eventLog := none

end Config

end CssTypings
