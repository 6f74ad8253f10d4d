import CssTypings.Config.Basic

/-!
# The console

What the operator is told are reports: a declaration was written, a source failed, a warning, or a
remark. Reports are data; how they look and which of them are shown depends on the settings of the
console. Failures and warnings always appear, on the error stream; silence hides the rest.
-/

namespace CssTypings

/-- Something to tell the operator. -/
inductive Report where
  /-- A declaration was written; the path is shown as it is given. -/
  | wrote (path : String)
  /-- Something failed. -/
  | failed (reason : String)
  /-- A line of advice. -/
  | warning (line : String)
  /-- A remark. -/
  | remark (line : String)
deriving DecidableEq, Repr

/-- What was written to the two output streams. -/
structure Output where
  out : String
  err : String
deriving DecidableEq, Repr

namespace Output

/-- Nothing written. -/
def empty : Output := ⟨"", ""⟩

/-- One output after the other. -/
def append (a b : Output) : Output := ⟨a.out ++ b.out, a.err ++ b.err⟩

instance : Append Output := ⟨append⟩

end Output

/-- An output stream, as far as colours are concerned. -/
inductive Stream where
  /-- A stream that can say whether it is a terminal. -/
  | device (terminal : Bool)
  /-- A stream that cannot. -/
  | plain
deriving DecidableEq, Repr

/-- What decides about colours besides the mode. -/
structure Surroundings where
  out : Stream
  err : Stream
  /-- The value of the variable that forbids colours, if it is set. -/
  noColor : Option String
deriving DecidableEq, Repr

namespace ColorMode

/-- Whether output to a stream is coloured. Setting the variable to nothing does not forbid it. -/
def enabled (mode : ColorMode) (noColor : Option String) (stream : Stream) : Bool :=
  match mode, stream with
  | always, _ => true
  | never, _ => false
  | auto, .device terminal => terminal && (noColor.getD "").isEmpty
  | auto, .plain => false

end ColorMode

/-- The settings of a console. -/
structure Console where
  silent : Bool
  /-- Whether the output stream is coloured. -/
  outColor : Bool
  /-- Whether the error stream is coloured. -/
  errColor : Bool
deriving DecidableEq, Repr

namespace Console

/-- The console for a mode in its surroundings. -/
def make (silent : Bool) (mode : ColorMode) (around : Surroundings) : Console where
  silent := silent
  outColor := mode.enabled around.noColor around.out
  errColor := mode.enabled around.noColor around.err

/-- The code that starts green text. -/
def green : String := "\x1b[32m"

/-- The code that starts red text. -/
def red : String := "\x1b[31m"

/-- The code that ends coloured text. -/
def reset : String := "\x1b[39m"

/-- A line in a colour. -/
def line (colored : Bool) (code text : String) : String :=
  if colored then code ++ text ++ reset ++ "\n" else text ++ "\n"

/-- What a report writes. -/
def render (console : Console) : Report → Output
  | .wrote path =>
    if console.silent then .empty
    else ⟨line console.outColor green ("[Wrote] " ++ path), ""⟩
  | .failed reason => ⟨"", line console.errColor red ("[Error] " ++ reason)⟩
  | .warning text => ⟨"", line console.errColor red text⟩
  | .remark text => if console.silent then .empty else ⟨text ++ "\n", ""⟩

/-- What a list of reports writes. -/
def renderAll (console : Console) (reports : List Report) : Output :=
  (reports.map console.render).foldl (· ++ ·) .empty

end Console

end CssTypings
