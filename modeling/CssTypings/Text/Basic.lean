/-!
# Text as a list of characters

Everything the library scans, from stylesheets and path components to configuration files, is a
list of Unicode scalar values, so that a scanner is a recursion on its input. This module holds
what all scanners share: blanks and trimming, the newline convention of files, and prefixes and
suffixes.

The blanks are the twenty-nine characters listed in `isBlank`, separators U+001C to U+001F among
them. They are the same set wherever blanks are skipped or trimmed.
-/

namespace CssTypings

/-- A text: its characters in order. -/
abbrev Text := List Char

/-- Membership of a code point in a table of inclusive ranges. -/
def inRanges (table : List (Nat × Nat)) (c : Char) : Bool :=
  table.any fun r ↦ decide (r.1 ≤ c.toNat) && decide (c.toNat ≤ r.2)

namespace Text

/-! ### Blanks -/

/-- The blank characters, as inclusive ranges of code points. -/
def blankRanges : List (Nat × Nat) :=
  [(0x09, 0x0D), (0x1C, 0x20), (0x85, 0x85), (0xA0, 0xA0), (0x1680, 0x1680), (0x2000, 0x200A),
    (0x2028, 0x2029), (0x202F, 0x202F), (0x205F, 0x205F), (0x3000, 0x3000)]

/-- A blank: tab to carriage return, U+001C to the space, or one of the blanks beyond ASCII. -/
def isBlank (c : Char) : Bool := inRanges blankRanges c

/-- The text without its leading blanks. -/
def trimLeft (t : Text) : Text := t.dropWhile isBlank

/-- The text without its trailing blanks. -/
def trimRight (t : Text) : Text := (t.reverse.dropWhile isBlank).reverse

/-- The text without leading and trailing blanks. -/
def trim (t : Text) : Text := trimRight (trimLeft t)

/-! ### Prefixes and suffixes -/

/-- What follows `head` at the start of the text, if the text starts with it. -/
def after? (head : Text) (t : Text) : Option Text :=
  if head.isPrefixOf t then some (t.drop head.length) else none

/-- What comes before `tail` at the end of the text, if the text ends with it. -/
def before? (tail : Text) (t : Text) : Option Text :=
  if tail.isSuffixOf t then some (t.take (t.length - tail.length)) else none

/-- Every suffix of the text, the longest first. -/
def suffixes : Text → List Text
  | [] => [[]]
  | c :: r => (c :: r) :: suffixes r

/-- The parts of the text between occurrences of the separator; at least one part. -/
def splitOn (separator : Char) : Text → List Text
  | [] => [[]]
  | c :: r =>
    if c = separator then [] :: splitOn separator r
    else (splitOn separator r).modifyHead (c :: ·)

/-- The parts in order with the separator between neighbours. -/
def join (separator : Text) (parts : List Text) : Text := separator.intercalate parts

/-! ### Order -/

/-- Whether the first text comes before the second one, by code points. -/
def isBefore (s t : Text) : Bool := List.lex s t fun a b ↦ decide (a < b)

/-! ### Lines -/

/-- One newline for each line end: `\r\n` and a lone `\r` both become `\n`. -/
def unifyNewlines : Text → Text
  | [] => []
  | '\r' :: '\n' :: r => '\n' :: unifyNewlines r
  | '\r' :: r => '\n' :: unifyNewlines r
  | c :: r => c :: unifyNewlines r

/-! ### Hexadecimal digits -/

/-- The lowercase hexadecimal digit for a value below sixteen. -/
def hexDigit (n : Nat) : Char :=
  if n < 10 then Char.ofNat ('0'.toNat + n) else Char.ofNat ('a'.toNat + (n - 10))

/-- The last `width` hexadecimal digits of a number, the most significant first. -/
def hex : (width : Nat) → Nat → Text
  | 0, _ => []
  | w + 1, n => hex w (n / 16) ++ [hexDigit (n % 16)]

@[simp] theorem length_hex (w n : Nat) : (hex w n).length = w := by
  induction w generalizing n with
  | zero => rfl
  | succ w ih => simp [hex, ih]

/-- The value of a hexadecimal digit of either case. -/
def hexValue? (c : Char) : Option Nat :=
  if '0' ≤ c ∧ c ≤ '9' then some (c.toNat - '0'.toNat)
  else if 'a' ≤ c ∧ c ≤ 'f' then some (c.toNat - 'a'.toNat + 10)
  else if 'A' ≤ c ∧ c ≤ 'F' then some (c.toNat - 'A'.toNat + 10)
  else none

/-- A decimal digit of ASCII. -/
def isDigit (c : Char) : Bool := decide ('0' ≤ c) && decide (c ≤ '9')

/-- The number that a run of decimal digits writes. -/
def digitsValue (t : Text) : Nat := t.foldl (fun n c ↦ 10 * n + (c.toNat - '0'.toNat)) 0

/-- The decimal digits of a number. -/
def decimal (n : Nat) : Text := Nat.toDigits 10 n

end Text

end CssTypings
