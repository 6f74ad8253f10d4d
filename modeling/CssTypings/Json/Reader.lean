import CssTypings.Json.Basic
import CssTypings.Number.Literal

/-!
# Reading JSON

The reader takes a whole text and refuses anything behind the value. Besides what the format has, it
knows the numbers `NaN`, `Infinity` and `-Infinity`. If an object repeats a name, the last value
counts. Integers are exact, but the reader refuses those with too many digits in a way of its own,
and so it does when too many arrays and objects are inside one another.
-/

namespace CssTypings.Json

/-- A kind of value that holds others. -/
inductive Nest where
  | array
  | object
deriving DecidableEq, Repr

/-- Why a text is no value. -/
inductive Fault where
  /-- It does not have the form of a value. -/
  | syntaxError
  /-- It holds an integer with this many digits. -/
  | tooManyDigits (count : Nat)
  /-- It has too many arrays and objects inside one another, the innermost of this kind. -/
  | tooDeep (kind : Nest)
deriving DecidableEq, Repr

/-- The most digits that an integer may have. -/
def digitLimit : Nat := 4300

/-- The wording of the refusal of an integer. -/
def digitMessage (count : Nat) : String :=
  "Exceeds the limit (" ++ String.ofList (Text.decimal digitLimit) ++
    " digits) for integer string conversion: value has " ++ String.ofList (Text.decimal count) ++
    " digits; use sys.set_int_max_str_digits() to increase the limit"

/-- The most arrays and objects that may be inside one another. -/
def depthLimit : Nat := 980

/-- The word for a kind. -/
def Nest.name : Nest → String
  | array => "array"
  | object => "object"

/-- The wording of the refusal of an array or an object that is too deep. -/
def Nest.depthMessage (kind : Nest) : String :=
  "maximum recursion depth exceeded while decoding a JSON " ++ kind.name ++
    " from a unicode string"

/-- The text without the blanks of the format in front. -/
def skipBlanks (t : Text) : Text :=
  t.dropWhile fun c ↦ c == ' ' || c == '\t' || c == '\n' || c == '\r'

/-! ### Texts -/

/-- A part of a quoted text: a character, or a code unit of sixteen bits. -/
inductive Part where
  | char (c : Char)
  | unit (n : Fin 0x10000)
deriving DecidableEq, Repr

/-- What the character behind a backslash stands for. -/
def escaped? (c : Char) : Option Char :=
  if c = '"' ∨ c = '\\' ∨ c = '/' then some c
  else if c = 'b' then some (Char.ofNat 0x08)
  else if c = 'f' then some (Char.ofNat 0x0C)
  else if c = 'n' then some '\n'
  else if c = 'r' then some '\r'
  else if c = 't' then some '\t'
  else none

/-- The number that hexadecimal digits write. -/
def hexValue? (digits : Text) : Option Nat :=
  digits.foldlM (fun n c ↦ (Text.hexValue? c).map (n * 16 + ·)) 0

/-- The parts of a quoted text up to its end, and what follows it. -/
def parts? : Text → Option (List Part × Text)
  | [] => none
  | '"' :: r => some ([], r)
  | '\\' :: 'u' :: a :: b :: c :: d :: r => do
    let n ← hexValue? [a, b, c, d]
    let (parts, rest) ← parts? r
    return (.unit (Fin.ofNat 0x10000 n) :: parts, rest)
  | '\\' :: c :: r => do
    let c ← escaped? c
    let (parts, rest) ← parts? r
    return (.char c :: parts, rest)
  | c :: r => do
    if c.toNat < 0x20 ∨ c = '\\' then none
    else
      let (parts, rest) ← parts? r
      return (.char c :: parts, rest)

/-- The text that parts make up: two surrogates that fit make one character, and any other surrogate
stands alone. -/
def assemble : List Part → Codes
  | [] => []
  | .char c :: r => .ofChar c :: assemble r
  | .unit a :: .unit b :: r =>
    if h : (0xD800 ≤ a.val ∧ a.val < 0xDC00) ∧ 0xDC00 ≤ b.val ∧ b.val < 0xE000 then
      ⟨0x10000 + (a.val - 0xD800) * 0x400 + (b.val - 0xDC00), by omega⟩ :: assemble r
    else alone a :: assemble (.unit b :: r)
  | .unit a :: r => alone a :: assemble r
where
  /-- The code point with the number of a code unit. -/
  alone (a : Fin 0x10000) : CodePoint := a.castLE (by decide)

/-- The rest of a quoted text whose opening quote was read. -/
def readText (t : Text) : Except Fault (Codes × Text) :=
  match parts? t with
  | some (parts, rest) => .ok (assemble parts, rest)
  | none => .error .syntaxError

/-! ### Numbers -/

/-- An optional fraction at the start of a text, with its point, and the rest of the text. -/
def fractionOf (t : Text) : Text × Text :=
  match t with
  | '.' :: r =>
    match r.span Text.isDigit with
    | ([], _) => ([], t)
    | (digits, rest) => ('.' :: digits, rest)
  | _ => ([], t)

/-- An optional exponent at the start of a text, with its mark, and the rest of the text. -/
def exponentOf (t : Text) : Text × Text :=
  match t with
  | c :: r =>
    if c = 'e' ∨ c = 'E' then
      let (sign, r) := match r with
        | '+' :: r => (['+'], r)
        | '-' :: r => (['-'], r)
        | r => ([], r)
      match r.span Text.isDigit with
      | ([], _) => ([], t)
      | (digits, rest) => (c :: sign ++ digits, rest)
    else ([], t)
  | [] => ([], t)

/-- A number at the start of a text: an integer unless it has a fraction or an exponent. -/
def readNumber (t : Text) : Except Fault (Json × Text) :=
  let (negative, r) := match t with
    | '-' :: r => (true, r)
    | t => (false, t)
  let (whole, r) := match r with
    | '0' :: r => (['0'], r)
    | r => r.span Text.isDigit
  if whole = [] then .error .syntaxError
  else
    let (fraction, r) := fractionOf r
    let (exponent, r) := exponentOf r
    if fraction = [] ∧ exponent = [] then
      if digitLimit < whole.length then .error (.tooManyDigits whole.length)
      else
        let n : Int := Text.digitsValue whole
        .ok (.integer (if negative then -n else n), r)
    else
      let literal := (if negative then ['-'] else []) ++ whole ++ fraction ++ exponent
      match Double.ofLiteral? literal with
      | some d => .ok (.float d, r)
      | none => .error .syntaxError

/-! ### Values -/

/-- The words that are values. -/
def words : List (Text × Json) :=
  [("null".toList, .null), ("true".toList, .bool true), ("false".toList, .bool false),
    ("NaN".toList, .float .nan), ("Infinity".toList, .float (.number false Double.infinity)),
    ("-Infinity".toList, .float (.number true Double.infinity))]

/-- The word at the start of a text, and the rest of the text. -/
def readWord? (t : Text) : Option (Json × Text) :=
  words.findSome? fun (word, value) ↦ (Text.after? word t).map (value, ·)

mutual

/-- The value at the start of a text, in which `room` arrays and objects may be inside one
another. -/
def readValue : (fuel room : Nat) → Text → Except Fault (Json × Text)
  | 0, _, _ => .error .syntaxError
  | fuel + 1, room, t => do
    match t with
    | '"' :: r =>
      let (content, r) ← readText r
      return (.text content, r)
    | '[' :: r =>
      match room, skipBlanks r with
      | 0, _ => .error (.tooDeep .array)
      | _ + 1, ']' :: r => .ok (.array [], r)
      | room + 1, r =>
        let (items, r) ← readItems fuel room r
        return (.array items, r)
    | '{' :: r =>
      match room, skipBlanks r with
      | 0, _ => .error (.tooDeep .object)
      | _ + 1, '}' :: r => .ok (.object [], r)
      | room + 1, r =>
        let (members, r) ← readMembers fuel room [] r
        return (.object members, r)
    | t =>
      match readWord? t with
      | some result => .ok result
      | none => readNumber t

/-- The items of an array from the next one on. -/
def readItems : (fuel room : Nat) → Text → Except Fault (List Json × Text)
  | 0, _, _ => .error .syntaxError
  | fuel + 1, room, t => do
    let (item, r) ← readValue fuel room t
    match skipBlanks r with
    | ']' :: r => return ([item], r)
    | ',' :: r =>
      let (items, r) ← readItems fuel room (skipBlanks r)
      return (item :: items, r)
    | _ => .error .syntaxError

/-- The members of an object, of which some were read, from the next one on. -/
def readMembers :
    (fuel room : Nat) → List (Codes × Json) → Text → Except Fault (List (Codes × Json) × Text)
  | 0, _, _, _ => .error .syntaxError
  | fuel + 1, room, members, t => do
    match t with
    | '"' :: r =>
      let (name, r) ← readText r
      match skipBlanks r with
      | ':' :: r =>
        let (value, r) ← readValue fuel room (skipBlanks r)
        let members := setMember members name value
        match skipBlanks r with
        | '}' :: r => return (members, r)
        | ',' :: r => readMembers fuel room members (skipBlanks r)
        | _ => .error .syntaxError
      | _ => .error .syntaxError
    | _ => .error .syntaxError

end

/-- The value that a text writes. Each step of the reader either takes a character or is followed by
one that does, so the fuel does not run out. -/
def read (t : Text) : Except Fault Json := do
  let (value, rest) ← readValue (2 * t.length + 2) depthLimit (skipBlanks t)
  if skipBlanks rest = [] then return value else .error .syntaxError

end CssTypings.Json
