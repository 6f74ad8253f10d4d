import CssTypings.Config.Value
import CssTypings.Number.Literal
import CssTypings.Toml.Fault

/-!
# Numbers and times

A number is taken as far as it has the form of one; what follows is left to the caller. Single
underscores may stand between digits. Dates have to exist, and other than that nothing is kept of
dates and times but where they end.
-/

namespace CssTypings.Toml

open Config (Value)

/-! ### Digits -/

/-- Digits with single underscores between them; at least one. -/
def digits? (isDigit : Char → Bool) : Text → Option (Text × Text)
  | [] => none
  | [c] => if isDigit c then some ([c], []) else none
  | c :: '_' :: r =>
    if isDigit c then
      match digits? isDigit r with
      | some (more, rest) => some (c :: more, rest)
      | none => some ([c], '_' :: r)
    else none
  | c :: r =>
    if isDigit c then
      match digits? isDigit r with
      | some (more, rest) => some (c :: more, rest)
      | none => some ([c], r)
    else none

/-- The number that digits write to a base. -/
def valueOf (base : Nat) (digits : Text) : Nat :=
  digits.foldl (fun n c ↦ n * base + (Text.hexValue? c).getD 0) 0

/-- An integer with its base in front. -/
def prefixed? : Text → Option (Nat × Text)
  | '0' :: 'x' :: r => number 16 (fun c ↦ (Text.hexValue? c).isSome) r
  | '0' :: 'b' :: r => number 2 (fun c ↦ c == '0' || c == '1') r
  | '0' :: 'o' :: r => number 8 (fun c ↦ decide ('0' ≤ c) && decide (c ≤ '7')) r
  | _ => none
where
  number (base : Nat) (isDigit : Char → Bool) (r : Text) : Option (Nat × Text) :=
    (digits? isDigit r).map fun (digits, rest) ↦ (valueOf base digits, rest)

/-! ### Numbers -/

/-- The digits of a decimal integer, which start with a zero only if that is all. -/
def whole? : Text → Option (Text × Text)
  | '0' :: r => some (['0'], r)
  | t => digits? Text.isDigit t

/-- An optional fraction with its point. -/
def fraction (t : Text) : Text × Text :=
  match t with
  | '.' :: r =>
    match digits? Text.isDigit r with
    | some (digits, rest) => ('.' :: digits, rest)
    | none => ([], t)
  | _ => ([], t)

/-- An optional exponent with its mark. -/
def exponent (t : Text) : Text × Text :=
  match t with
  | c :: r =>
    if c = 'e' ∨ c = 'E' then
      let (sign, r) := match r with
        | '+' :: r => (['+'], r)
        | '-' :: r => (['-'], r)
        | r => ([], r)
      match digits? Text.isDigit r with
      | some (digits, rest) => ('e' :: sign ++ digits, rest)
      | none => ([], t)
    else ([], t)
  | [] => ([], t)

/-- The decimal number that starts here. -/
def decimal? (t : Text) : Option (Except Fault (Value × Text)) := do
  let (sign, r) := match t with
    | '+' :: r => (['+'], r)
    | '-' :: r => (['-'], r)
    | r => ([], r)
  let (whole, r) ← whole? r
  let (fraction, r) := fraction r
  let (exponent, r) := exponent r
  if fraction = [] ∧ exponent = [] then
    if digitLimit < whole.length then return .error (.tooManyDigits whole.length)
    else
      let n : Int := valueOf 10 whole
      return .ok (.integer (if sign = ['-'] then -n else n), r)
  else
    let d ← Double.ofLiteral? (sign ++ whole ++ fraction ++ exponent)
    return .ok (.float d, r)

/-- The words for numbers without digits. -/
def special? (t : Text) : Option (Value × Text) :=
  let words : List (String × Double) := [("inf", .number false Double.infinity), ("nan", .nan),
    ("-inf", .number true Double.infinity), ("+inf", .number false Double.infinity),
    ("-nan", .nan), ("+nan", .nan)]
  words.findSome? fun (word, d) ↦ (Text.after? word.toList t).map (.float d, ·)

/-- The number that starts here. -/
def readNumber? (t : Text) : Option (Except Fault (Value × Text)) :=
  match prefixed? t with
  | some (n, rest) => some (.ok (.integer n, rest))
  | none =>
    match decimal? t with
    | some result => some result
    | none => (special? t).map .ok

/-! ### Dates and times -/

/-- A number of exactly `width` digits in a range. -/
def field? (width low high : Nat) (t : Text) : Option (Nat × Text) :=
  let digits := t.take width
  let n := valueOf 10 digits
  if digits.length = width ∧ digits.all Text.isDigit ∧ low ≤ n ∧ n ≤ high then
    some (n, t.drop width)
  else none

/-- What is left behind a character. -/
def expect? (c : Char) : Text → Option Text
  | [] => none
  | d :: r => if d = c then some r else none

/-- What is left behind a time of day. -/
def time? (t : Text) : Option Text := do
  let (_, t) ← field? 2 0 23 t
  let (_, t) ← field? 2 0 59 (← expect? ':' t)
  let (_, t) ← field? 2 0 59 (← expect? ':' t)
  match t with
  | '.' :: c :: r => return if Text.isDigit c then r.dropWhile Text.isDigit else t
  | _ => return t

/-- What is left behind an optional offset from universal time. -/
def skipOffset (t : Text) : Text :=
  match t with
  | c :: r =>
    if c = 'Z' ∨ c = 'z' then r
    else if c = '+' ∨ c = '-' then (offset? r).getD t
    else t
  | [] => t
where
  offset? (r : Text) : Option Text := do
    let (_, r) ← field? 2 0 23 r
    let (_, r) ← field? 2 0 59 (← expect? ':' r)
    return r

/-- The number of days in a month. -/
def daysIn (year month : Nat) : Nat :=
  if month = 2 then
    if year % 4 = 0 ∧ (year % 100 ≠ 0 ∨ year % 400 = 0) then 29 else 28
  else if month = 4 ∨ month = 6 ∨ month = 9 ∨ month = 11 then 30
  else 31

/-- A date that starts here, with the time that may follow it: whether there is such a date, and
what is left. -/
def date? (t : Text) : Option (Bool × Text) := do
  let (year, t) ← field? 4 0 9999 t
  let (month, t) ← field? 2 1 12 (← expect? '-' t)
  let (day, t) ← field? 2 1 31 (← expect? '-' t)
  let rest := match t with
    | c :: r =>
      if c = 'T' ∨ c = 't' ∨ c = ' ' then ((time? r).map skipOffset).getD t else t
    | [] => t
  return (decide (1 ≤ year ∧ day ≤ daysIn year month), rest)

/-- The date or the time that starts here. -/
def readMoment? (t : Text) : Option (Except Fault (Value × Text)) :=
  match date? t with
  | some (true, rest) => some (.ok (.moment, rest))
  | some (false, _) => some (.error (.malformed "Invalid date or datetime" t))
  | none => (time? t).map fun rest ↦ .ok (.moment, rest)

end CssTypings.Toml
