import CssTypings.Config.Merge
import CssTypings.Toml.Reader
import CssTypings.Tree.Access

/-!
# Loading the configuration

The configuration is read from a file that was asked for, which has to exist, or from the file of
the usual name in the working directory, which need not.
-/

namespace CssTypings.Config

/-- Why no configuration could be loaded. -/
inductive LoadFault where
  /-- The file cannot be opened. -/
  | access (fault : Tree.Fault)
  /-- The file holds no text. -/
  | undecodable (fault : Utf8.Fault)
  /-- The text of the file is not in its format. -/
  | malformed (document : Text) (fault : Toml.Fault)
  /-- A setting is wrong. -/
  | setting (fault : Fault)
deriving DecidableEq, Repr

/-- The wording of a fault. -/
def LoadFault.message : LoadFault → String
  | .access fault => fault.message
  | .undecodable fault => fault.message
  | .malformed document fault => fault.message document
  | .setting fault => fault.message

/-- The table in the file at a path. -/
def readFile (tree : Tree) (path : Path) : Except LoadFault Table :=
  match tree.read path with
  | .error fault => .error (.access fault)
  | .ok bytes =>
    match Utf8.decode bytes with
    | .error fault => .error (.undecodable fault)
    | .ok t =>
      let document := Toml.unifyLineEnds t
      (Toml.read document).mapError (.malformed document)

/-- The path of the file to read. -/
def filePath (cwd : Path) : Option Path → Path
  | some path => cwd.join path
  | none => cwd.child fileName

/-- The configuration for a directory, from the file and then from the command line. -/
def load (tree : Tree) (cwd : Path) (file : Option Path) (overrides : Overrides) :
    Except LoadFault Config := do
  let path := filePath cwd file
  let table ←
    if ← (tree.has path).mapError .access then readFile tree path
    else match file with
      | some asked => .error (.setting (.missingFile asked))
      | none => .ok []
  ((default cwd).merge cwd table overrides path.parent).mapError .setting

end CssTypings.Config
