import CssTypings.Text.Basic

/-!
# Declaration documents

The names that a stylesheet exports are typed by a Flow declaration: the module exports an exact
object with one read-only string property per name. The document ends with a newline.
-/

namespace CssTypings.Declaration

/-- The lines in front of every declaration. -/
def header : List Text :=
  ["/* @flow */", "/* This file is automatically generated by css-modules-flow-types */"].map
    String.toList

/-- A character between single quotes: quotes and backslashes take a backslash in front. -/
def escape (c : Char) : Text := if c = '\\' ∨ c = '\'' then ['\\', c] else [c]

/-- The property for a name. -/
def property (name : Text) : Text :=
  "  +'".toList ++ name.flatMap escape ++ "': string;".toList

/-- The lines of the declaration for the names, in order. -/
def lines (names : List Text) : List Text :=
  header ++ "declare module.exports: \x7b|".toList :: names.map property ++ ["|\x7d;".toList]

/-- The declaration for the names. -/
def document (names : List Text) : Text := (lines names).flatMap (· ++ ['\n'])

end CssTypings.Declaration
