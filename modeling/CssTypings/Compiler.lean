import CssTypings.Config.Basic
import CssTypings.Text.Search
import CssTypings.Tree.Access

/-!
# Compilers

A compiler turns a stylesheet into plain CSS. It is any function of the path and the bytes of the
stylesheet, so that conversions can be run with any compiler.

The compiler at hand takes plain CSS, which it passes through, and obeys three directives: `@error`
refuses the stylesheet with a diagnostic, `@crash` breaks the compiler, and `@options` is replaced
by rules that tell the settings.
-/

namespace CssTypings

/-- Why a source could not be converted. -/
inductive Failure where
  /-- The compiler or the extractor refused the source with this diagnostic. -/
  | rejected (diagnostic : String)
  /-- The source does not exist. -/
  | missingSource (path : Path)
  /-- A file could not be read or written. -/
  | access (fault : Tree.Fault)
  /-- A file holds no text. -/
  | undecodable (fault : Utf8.Fault)
  /-- The compiler broke. -/
  | crashed (message : String)
deriving DecidableEq, Repr

namespace Failure

/-- The wording of a failure by itself. -/
def message : Failure → String
  | rejected diagnostic => diagnostic
  | missingSource path => "Missing stylesheet: " ++ path.toString
  | access fault => fault.message
  | undecodable fault => fault.message
  | crashed message => message

/-- The reason that is reported: an unexpected failure is told with its kind. -/
def reason : Failure → String
  | access .nullCharacter => "ValueError: " ++ Tree.Fault.nullCharacter.message
  | undecodable fault => "UnicodeDecodeError: " ++ fault.message
  | crashed message => "RuntimeError: " ++ message
  | failure => failure.message

end Failure

/-- A compiler of stylesheets. -/
structure Compiler where
  /-- The CSS for the path and the contents of a stylesheet. -/
  compile : Path → Bytes → Except Failure Text

namespace Compiler

/-- The CSS for the stylesheet at a path, which has to be a file. -/
def render (compiler : Compiler) (tree : Tree) (source : Path) : Except Failure Text :=
  match tree.look source with
  | .ok (some (.file bytes _)) => compiler.compile source bytes
  | .ok _ => .error (.missingSource source)
  | .error fault => .error (.access fault)

/-! ### Plain CSS with directives -/

/-- The directive that refuses a stylesheet. -/
def errorDirective : Text := "@error".toList

/-- The directive that breaks the compiler. -/
def crashDirective : Text := "@crash".toList

/-- The directive that tells the settings. -/
def optionsDirective : Text := "@options".toList

/-- The diagnostic of a refusal: the name of the file, and what follows the directive up to the next
semicolon. -/
def diagnostic (source : Path) (behind : Text) : String :=
  let reason := behind.takeWhile (· ≠ ';')
  String.ofList (Text.trim ("Error: ".toList ++ source.name ++ ':' :: reason))

/-- The rules that tell the settings: one for the layout and one for each include path. -/
def optionRules (style : Text) (includePaths : List Path) : Text :=
  let names := style :: includePaths.map Path.name
  Text.join [' '] (names.map fun name ↦ '.' :: name ++ "\x7b\x7d".toList)

/-- The compiler that passes CSS through and obeys the directives. The layout is given by its name,
which may be any. -/
def plain (style : Text) (includePaths : List Path) : Compiler where
  compile source bytes :=
    match Utf8.decode bytes with
    | .error fault => .error (.undecodable fault)
    | .ok t =>
      match Text.behind? errorDirective t with
      | some behind => .error (.rejected (diagnostic source behind))
      | none =>
        if Text.occurs crashDirective t then .error (.crashed "compiler crashed")
        else .ok (Text.replace optionsDirective (optionRules style includePaths) t)

end Compiler

end CssTypings
