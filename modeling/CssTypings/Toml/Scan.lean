import CssTypings.Text.Printable
import CssTypings.Text.Quoted
import CssTypings.Toml.Fault

/-!
# Blanks, comments and strings

Every scanner takes what is left of the document and gives what it read and what is left then.

Strings come in four forms. Basic strings stand in double quotes and have escapes, literal strings
stand in single quotes and have none; with three quotes either may run over several lines, and one
or two quotes of the kind may stand right before the end.
-/

namespace CssTypings.Toml

/-- A blank within a line. -/
def isBlank (c : Char) : Bool := c == ' ' || c == '\t'

/-- A blank or the end of a line. -/
def isBlankOrNewline (c : Char) : Bool := isBlank c || c == '\n'

/-- The text without blanks in front. -/
def skipBlanks (t : Text) : Text := t.dropWhile isBlank

/-- A control character of ASCII. -/
def isControl (c : Char) : Bool := decide (c.toNat < 0x20) || c.toNat == 0x7F

/-- A character that may not stand in comments and in strings of one line. -/
def isIllegal (c : Char) : Bool := isControl c && c != '\t'

/-- A character that may not stand in strings of several lines. -/
def isIllegalInLines (c : Char) : Bool := isIllegal c && c != '\n'

/-- A quoted character for messages. -/
def quotedChar (c : Char) : String := String.ofList (Text.quoted [c])

/-- Refuses a text if one of its characters is illegal. `rest` is what follows the text. -/
def checkLegal (illegal : Char → Bool) (rest : Text) : Text → Except Fault Unit
  | [] => .ok ()
  | c :: r =>
    if illegal c then
      .error (.malformed ("Found invalid character " ++ quotedChar c) (c :: r ++ rest))
    else checkLegal illegal rest r

/-- What is left behind a comment, if one starts here. -/
def skipComment (t : Text) : Except Fault Text :=
  match t with
  | '#' :: r => do
    let (comment, rest) := r.span (· ≠ '\n')
    checkLegal isIllegal rest comment
    return rest
  | _ => .ok t

/-- What is left behind blanks, line ends and comments. Each round takes a comment, so the length of
the text is enough fuel. -/
def skipAll : (fuel : Nat) → Text → Except Fault Text
  | 0, t => .ok t
  | fuel + 1, t => do
    let t := t.dropWhile isBlankOrNewline
    match t with
    | '#' :: _ => skipAll fuel (← skipComment t)
    | _ => return t

/-- What is left behind blanks, line ends and comments. -/
def skipFiller (t : Text) : Except Fault Text := skipAll (t.length + 1) t

/-! ### Literal strings -/

/-- Splits a text at the first occurrence of `stop`. -/
def splitAt? (stop : Text) : Text → Option (Text × Text)
  | [] => if stop = [] then some ([], []) else none
  | c :: r =>
    match Text.after? stop (c :: r) with
    | some rest => some ([], rest)
    | none => (splitAt? stop r).map fun (a, b) ↦ (c :: a, b)

/-- A string up to `stop`, in which nothing is escaped. -/
def readLiteral (stop : Text) (illegal : Char → Bool) (t : Text) :
    Except Fault (Text × Text) :=
  match splitAt? stop t with
  | none => .error (.malformed ("Expected " ++ String.ofList stop.quoted) [])
  | some (content, rest) => do
    checkLegal illegal (stop ++ rest) content
    return (content, rest)

/-! ### Basic strings -/

/-- The character of a code that is written by `digits` hexadecimal digits. -/
def readCode (digits : Nat) (t : Text) : Except Fault (Char × Text) :=
  let code := t.take digits
  if code.length ≠ digits ∨ !code.all fun c ↦ (Text.hexValue? c).isSome then
    .error (.malformed "Invalid hex value" t)
  else
    let n := code.foldl (fun n c ↦ n * 16 + (Text.hexValue? c).getD 0) 0
    if h : n.isValidChar then .ok (Char.ofNatAux n h, t.drop digits)
    else .error (.malformed "Escaped character is not a Unicode scalar value" (t.drop digits))

/-- The character that stands behind a backslash for another one. -/
def escaped? (c : Char) : Option Char :=
  if c = 'b' then some (Char.ofNat 0x08)
  else if c = 't' then some '\t'
  else if c = 'n' then some '\n'
  else if c = 'f' then some (Char.ofNat 0x0C)
  else if c = 'r' then some '\r'
  else if c = '"' ∨ c = '\\' then some c
  else none

/-- The refusal of a backslash that escapes nothing. -/
def unescaped (rest : Text) : Fault := .malformed "Unescaped '\\' in a string" rest

/-- What an escape stands for, behind its backslash. Over several lines a backslash at the end of a
line takes all blanks and line ends behind it away. -/
def readEscape (lines : Bool) (t : Text) : Except Fault (Text × Text) :=
  match t with
  | [] => .error (unescaped [])
  | c :: r =>
    if lines && c == '\n' then .ok ([], r.dropWhile isBlankOrNewline)
    else if lines && isBlank c then
      match skipBlanks r with
      | [] => .ok ([], [])
      | '\n' :: r => .ok ([], r.dropWhile isBlankOrNewline)
      | r => .error (unescaped r)
    else if c = 'u' ∨ c = 'U' then do
      let (c, r) ← readCode (if c = 'u' then 4 else 8) r
      return ([c], r)
    else
      match escaped? c with
      | some c => .ok ([c], r)
      | none => .error (unescaped r)

/-- A basic string up to its end. Each round takes a character. -/
def readBasicFrom (lines : Bool) : (fuel : Nat) → Text → Except Fault (Text × Text)
  | 0, t => .error (.malformed "Unterminated string" t)
  | fuel + 1, t =>
    match t with
    | [] => .error (.malformed "Unterminated string" [])
    | c :: r => do
      if c = '"' ∧ !lines then return ([], r)
      else if c = '"' ∧ ['"', '"'].isPrefixOf r then return ([], r.drop 2)
      else if c = '\\' then
        let (part, r) ← readEscape lines r
        let (content, r) ← readBasicFrom lines fuel r
        return (part ++ content, r)
      else if (if lines then isIllegalInLines c else isIllegal c) then
        .error (.malformed ("Illegal character " ++ quotedChar c) t)
      else
        let (content, r) ← readBasicFrom lines fuel r
        return (c :: content, r)

/-- A basic string up to its end. -/
def readBasic (lines : Bool) (t : Text) : Except Fault (Text × Text) :=
  readBasicFrom lines (t.length + 1) t

/-! ### Strings of any form -/

/-- A string with up to two more quotes that stand right behind its end. -/
def addQuotes (quote : Char) (content rest : Text) : Text × Text :=
  match rest with
  | a :: b :: r =>
    if a = quote ∧ b = quote then (content ++ [quote, quote], r)
    else if a = quote then (content ++ [quote], b :: r)
    else (content, rest)
  | [a] => if a = quote then (content ++ [quote], []) else (content, rest)
  | [] => (content, rest)

/-- A string of several lines behind its three quotes; a line end right behind them is dropped. -/
def readLines (quote : Char) (t : Text) : Except Fault (Text × Text) := do
  let t := match t with | '\n' :: r => r | t => t
  let (content, rest) ←
    if quote = '"' then readBasic true t
    else readLiteral [quote, quote, quote] isIllegalInLines t
  return addQuotes quote content rest

/-- The string that starts here. -/
def readString? (t : Text) : Option (Except Fault (Text × Text)) :=
  match t with
  | '"' :: '"' :: '"' :: r => some (readLines '"' r)
  | '\'' :: '\'' :: '\'' :: r => some (readLines '\'' r)
  | '"' :: r => some (readBasic false r)
  | '\'' :: r => some (readLiteral ['\''] isIllegal r)
  | _ => none

end CssTypings.Toml
