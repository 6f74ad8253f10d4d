import CssTypings.CommandLine.Options

/-!
# Reading the command line

All arguments are classified before any of them takes effect. Then they take effect in order. Paths
have to stand together: the first run of them is taken, and a path in a later run is not recognized.
Arguments that are not recognized are told together when everything else was read.
-/

namespace CssTypings.CommandLine

/-- The value of an option. -/
inductive Value where
  | text (t : Text)
  /-- What the mark `--` leaves when it is attached as a value. -/
  | nothing
deriving DecidableEq, Repr

/-- What the command line asks for. -/
structure Options where
  paths : List Text
  watch : Bool
  extension : Option Value
  silent : Bool
  config : Option Value
deriving DecidableEq, Repr

/-- Where the run of paths stands. -/
inductive Run where
  | ahead
  | within
  | over
deriving DecidableEq, Repr

/-- What was read so far; lists are in order. -/
structure Progress where
  options : Options
  run : Run
  /-- Arguments that were not recognized. -/
  extras : List Text
deriving DecidableEq, Repr

namespace Progress

/-- Nothing was read. -/
def start : Progress := ⟨⟨[], false, none, false, none⟩, .ahead, []⟩

/-- Reads an argument that is no option. -/
def addPlain (progress : Progress) (t : Text) : Progress :=
  match progress.run with
  | .over => { progress with extras := progress.extras ++ [t] }
  | _ =>
    { progress with
      run := .within
      options := { progress.options with paths := progress.options.paths ++ [t] } }

/-- Reads an argument that is not recognized. -/
def addUnknown (progress : Progress) (t : Text) : Progress :=
  { progress with extras := progress.extras ++ [t] }

/-- Ends the run of paths, if it has begun. -/
def endRun (progress : Progress) : Progress :=
  if progress.run = .within then { progress with run := .over } else progress

/-- Lets an option without a value take effect. -/
def switch (progress : Progress) : Flag → Except Stop Progress
  | .help => .error .help
  | .watch => .ok { progress with options := { progress.options with watch := true } }
  | .silent => .ok { progress with options := { progress.options with silent := true } }
  | .extension | .config => .ok progress

/-- Lets an option with a value take effect. -/
def assign (progress : Progress) (flag : Flag) (t : Text) : Progress :=
  let value : Value := if t = ['-', '-'] then .nothing else .text t
  match flag with
  | .extension => { progress with options := { progress.options with extension := some value } }
  | .config => { progress with options := { progress.options with config := some value } }
  | .help | .watch | .silent => progress

end Progress

/-- The options that an argument spells: those without a value, the last one, and its value if that
is attached. -/
def spelled (flag : Flag) (short : Bool) : Text → Except Stop (List Flag × Flag × Option Text)
  | [] => if flag.takesValue then .ok ([], flag, some []) else .error (unwanted flag [])
  | c :: r =>
    if flag.takesValue then .ok ([], flag, some (c :: r))
    else
      match short, Flag.ofSpelling? ['-', c] with
      | true, some next =>
        if r = [] then .ok ([flag], next, none)
        else (spelled next true r).map fun (flags, last, value) ↦ (flag :: flags, last, value)
      | _, _ => .error (unwanted flag (c :: r))

/-- The options that a word spells, as `spelled`. Without anything attached it is the option
itself. -/
def spelledBy (flag : Flag) (short : Bool) : Option Text → Except Stop (List Flag × Flag × Option Text)
  | none => .ok ([], flag, none)
  | some t => spelled flag short t

/-- Reads arguments in order. -/
def consume (progress : Progress) : List (Text × Word) → Except Stop Progress
  | [] => .ok progress
  | (t, .plain) :: rest | (t, .mark) :: rest => consume (progress.addPlain t) rest
  | (t, .unknown) :: rest => consume (progress.endRun.addUnknown t) rest
  | (_, .option flag short attached) :: rest => do
    let (flags, last, value) ← spelledBy flag short attached
    -- The options without a value take effect only if the value of the last one is there.
    if last.takesValue then
      match value with
      | some t => consume ((← flags.foldlM Progress.switch progress.endRun).assign last t) rest
      | none =>
        match rest with
        | (t, .plain) :: rest =>
          consume ((← flags.foldlM Progress.switch progress.endRun).assign last t) rest
        | _ => .error (misuseOf last "expected one argument")
    else consume (← (flags ++ [last]).foldlM Progress.switch progress.endRun) rest

/-- What the arguments ask for. Among the paths the first mark `--` is dropped. -/
def parse (arguments : List Text) : Except Stop Options := do
  let progress ← consume .start (← classifyAll arguments)
  match progress.extras with
  | [] => return { progress.options with paths := progress.options.paths.erase ['-', '-'] }
  | extras =>
    .error (.misuse ("unrecognized arguments: " ++
      " ".intercalate (extras.map String.ofList)))

end CssTypings.CommandLine
