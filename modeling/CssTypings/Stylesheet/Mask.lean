import CssTypings.Text.Basic

/-!
# Masking comments and strings

Before a stylesheet is split into rules, the comments and string literals in it are blanked out:
every character of them becomes a space, delimiters included, and only newlines stay. Offsets and
line numbers therefore keep their meaning, and no bracket inside a comment or a string is seen by
a later scanner.

A comment ends at the first `*/`. A string ends at the next quote of its own kind that no backslash
escapes. Neither has to end: what is left of the text is then masked as well.
-/

namespace CssTypings.Stylesheet

/-- What the masker is inside of. -/
inductive Region where
  /-- Code, which is kept. -/
  | code
  /-- A comment. -/
  | comment
  /-- A string literal with this delimiter. -/
  | quoted (delimiter : Char)
deriving DecidableEq, Repr

/-- A delimiter of string literals. -/
def isQuote (c : Char) : Bool := c == '\'' || c == '"'

/-- A masked character: a space, unless it is a newline. -/
def blanked (c : Char) : Char := if c = '\n' then '\n' else ' '

/-- Masks a text that begins inside the given region. -/
def maskFrom : Region → Text → Text
  | _, [] => []
  | .code, '/' :: '*' :: r => ' ' :: ' ' :: maskFrom .comment r
  | .code, c :: r =>
    if isQuote c then ' ' :: maskFrom (.quoted c) r else c :: maskFrom .code r
  | .comment, '*' :: '/' :: r => ' ' :: ' ' :: maskFrom .code r
  | .comment, c :: r => blanked c :: maskFrom .comment r
  | .quoted q, '\\' :: c :: r => ' ' :: blanked c :: maskFrom (.quoted q) r
  | .quoted q, c :: r =>
    if c = q then ' ' :: maskFrom .code r else blanked c :: maskFrom (.quoted q) r

/-- The text with comments and string literals blanked out. -/
def mask (t : Text) : Text := maskFrom .code t

end CssTypings.Stylesheet
