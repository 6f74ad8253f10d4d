import CssTypings.Text.Decimal
import CssTypings.Text.Quoted

/-!
# Options

An option has a long spelling and, all but one, a short one. A long spelling may be cut short as
long as it is clear which option is meant, and its value may follow behind `=`. A short spelling may
be followed by its value, or by further short spellings if it takes none.

Everything else is a path. So are a hyphen alone, what looks like a negative number, and what starts
with a hyphen and holds a space, unless they spell an option. The argument `--` says that no
options follow.
-/

namespace CssTypings.CommandLine

/-- The options. -/
inductive Flag where
  | help
  | watch
  | extension
  | silent
  | config
deriving DecidableEq, Repr

namespace Flag

/-- Whether an option takes a value. -/
def takesValue : Flag → Bool
  | extension | config => true
  | help | watch | silent => false

/-- The spellings of options, in the order in which they are told. -/
def spellings : List (String × Flag) :=
  [("-h", help), ("--help", help), ("--watch", watch), ("-w", watch),
    ("--extension", extension), ("-e", extension), ("--silent", silent), ("-s", silent),
    ("--config", config)]

/-- The option of a spelling. -/
def ofSpelling? (t : Text) : Option Flag :=
  (spellings.find? fun (spelling, _) ↦ spelling.toList = t).map Prod.snd

/-- The name of an option in messages: all its spellings. -/
def name (flag : Flag) : String :=
  "/".intercalate ((spellings.filter (·.2 = flag)).map Prod.fst)

end Flag

/-- Why nothing is run. -/
inductive Stop where
  /-- The description of the command was asked for. -/
  | help
  /-- The arguments are wrong. -/
  | misuse (message : String)
deriving DecidableEq, Repr

/-- A misuse of an option. -/
def misuseOf (flag : Flag) (message : String) : Stop :=
  .misuse ("argument " ++ flag.name ++ ": " ++ message)

/-- The refusal of a value that an option does not take. -/
def unwanted (flag : Flag) (value : Text) : Stop :=
  misuseOf flag ("ignored explicit argument " ++ String.ofList value.quoted)

/-- What an argument is. -/
inductive Word where
  /-- A path, or the value of the option in front of it. -/
  | plain
  /-- The mark behind which no options follow. -/
  | mark
  /-- An option in a short or in a long spelling, with what follows the spelling, if anything. -/
  | option (flag : Flag) (short : Bool) (attached : Option Text)
  /-- An option that there is not. -/
  | unknown
deriving DecidableEq, Repr

/-- Cuts a text at its first equals sign. -/
def cutEquals (t : Text) : Text × Option Text :=
  match t.span (· ≠ '=') with
  | (head, _ :: rest) => (head, some rest)
  | (head, []) => (head, none)

/-- A negative number in digits of any script, with or without a fraction; a line end may follow. -/
def isNegativeNumber (t : Text) : Bool :=
  match t with
  | '-' :: r =>
    let r := (Text.before? ['\n'] r).getD r
    match r.span Text.isDecimal with
    | (whole, []) => !whole.isEmpty
    | (_, '.' :: fraction) => !fraction.isEmpty && fraction.all Text.isDecimal
    | _ => false
  | _ => false

/-- The reading of an argument that starts with a hyphen and spells no option. -/
def unspelled (t : Text) : Word :=
  if isNegativeNumber t || t.contains ' ' then .plain else .unknown

/-- The long spellings that start with a text. -/
def completions (t : Text) : List (String × Flag) :=
  Flag.spellings.filter fun (spelling, _) ↦ t.isPrefixOf spelling.toList

/-- What an argument in front of the mark is. -/
def classify (t : Text) : Except Stop Word :=
  match t with
  | '-' :: second :: rest =>
    match Flag.ofSpelling? t with
    | some flag => .ok (.option flag (second ≠ '-') none)
    | none =>
      let (head, value) := cutEquals t
      -- A whole spelling in front of an equals sign is never ambiguous.
      match value, Flag.ofSpelling? head with
      | some value, some flag => .ok (.option flag (second ≠ '-') (some value))
      | _, _ =>
        if second = '-' then
          match completions head with
          | [] => .ok (unspelled t)
          | [(_, flag)] => .ok (.option flag false value)
          | several => .error (.misuse ("ambiguous option: " ++ String.ofList t ++
              " could match " ++ ", ".intercalate (several.map Prod.fst)))
        else
          match Flag.ofSpelling? ['-', second] with
          | some flag => .ok (.option flag true (some rest))
          | none => .ok (unspelled t)
  | _ => .ok .plain

/-- What the arguments are. -/
def classifyAll : List Text → Except Stop (List (Text × Word))
  | [] => .ok []
  | t :: rest =>
    if t = ['-', '-'] then .ok ((t, .mark) :: rest.map (·, .plain))
    else do
      let word ← classify t
      return (t, word) :: (← classifyAll rest)

end CssTypings.CommandLine
