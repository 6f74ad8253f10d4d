import CssTypings.Compiler
import CssTypings.Dangling
import CssTypings.Declaration
import CssTypings.EventLog
import CssTypings.Stylesheet.Exports
import CssTypings.Workspace

/-!
# Converting sources

A source is compiled to CSS, the CSS is put into a scratch file, the names that it exports are read
off, and the declaration is written next to the source. Whatever fails on the way is contained: each
source gives one outcome and one report, and the scratch file is gone in the end.

The conversions of a batch do not wait for each other. They are run one after the other here, in the
order of the sources, which is one of the ways they may go. Other ways come to the same if no
artifact is a source, nor on the way to another artifact, which none is unless the suffix has a
slash.
-/

namespace CssTypings

/-- The declaration for the CSS file at a path. -/
def Declaration.ofFile (tree : Tree) (path : Path) : Except Failure Text :=
  match tree.read path with
  | .error fault => .error (.access fault)
  | .ok bytes =>
    match Utf8.decode bytes with
    | .error fault => .error (.undecodable fault)
    | .ok css =>
      match Stylesheet.exported (Text.unifyNewlines css) with
      | .ok names => .ok (document names)
      | .error fault =>
        .error (.rejected ("Unbalanced braces in " ++ path.toString ++ ": " ++ fault.message))

/-- What became of a source. -/
structure Outcome where
  source : Path
  /-- What was written, or the reason why nothing was. -/
  result : Except String Path
deriving Repr

namespace Outcome

/-- Whether the source was converted. -/
def ok (outcome : Outcome) : Bool := outcome.result.isOk

/-- What was written. -/
def artifact (outcome : Outcome) : Option Path := outcome.result.toOption

/-- The reason why nothing was written. -/
def error (outcome : Outcome) : Option String :=
  match outcome.result with
  | .ok _ => none
  | .error reason => some reason

end Outcome

/-- Everything that conversions need. -/
structure Pipeline where
  compiler : Compiler
  /-- What is appended to a source to name its declaration. -/
  suffix : Text
  /-- The directory that sources are read from and shown from. -/
  cwd : Path
  /-- The file that conversions are logged to, if any. -/
  eventLog : Option Path
  /-- The kind of run, for the log. -/
  mode : Text
  /-- Where scratch files are put. -/
  store : Store

namespace Pipeline

/-- Puts a text into a file. -/
def write (path : Path) (t : Text) (space : Workspace) : Except Failure Unit × Workspace :=
  match space.tree.write path (Utf8.encode t) with
  | .ok tree => (.ok (), { space with tree })
  | .error fault => (.error (.access fault), space)

/-- The declaration for CSS, by way of a scratch file. -/
def declare (pipeline : Pipeline) (css : Text) (space : Workspace) :
    Except Failure Text × Workspace :=
  pipeline.store.withScratch ".css".toList (fun path space ↦
    match write path css space with
    | (.ok _, space) => (Declaration.ofFile space.tree path, space)
    | (.error failure, space) => (.error failure, space)) space

/-- Converts the source at an absolute path and gives the path of the declaration. -/
def convert (pipeline : Pipeline) (source : Path) (space : Workspace) :
    Except Failure Path × Workspace :=
  match pipeline.compiler.render space.tree source with
  | .error failure => (.error failure, space)
  | .ok css =>
    match pipeline.declare css space with
    | (.error failure, space) => (.error failure, space)
    | (.ok declaration, space) =>
      let artifact := Path.artifact pipeline.suffix source
      match write artifact declaration space with
      | (.ok _, space) => (.ok artifact, space)
      | (.error failure, space) => (.error failure, space)

/-- The report of an outcome. -/
def reportOf (pipeline : Pipeline) (here : Path) (outcome : Outcome) : Report :=
  match outcome.result with
  | .ok artifact => .wrote (String.ofList (here.display pipeline.cwd artifact))
  | .error reason => .failed (if reason.isEmpty then "Unknown error" else reason)

/-- The logged form of an outcome at a time. -/
def eventOf (pipeline : Pipeline) (now : Text) (outcome : Outcome) : LogEvent where
  timestamp := now
  mode := pipeline.mode
  source := outcome.source.text
  artifact := outcome.artifact.map Path.text
  ok := outcome.ok
  error := outcome.error.map String.toList

/-- Logs an outcome if there is a log. A log that cannot be written is reported and changes nothing
else; only a path about which nothing can be asked is a fault. -/
def log (pipeline : Pipeline) (outcome : Outcome) (space : Workspace) :
    Except Tree.Fault Unit × Workspace :=
  match pipeline.eventLog with
  | none => (.ok (), space)
  | some path =>
    match EventLog.append space.tree path (pipeline.eventOf space.now outcome) with
    | .ok tree => (.ok (), { space with tree })
    | .error .nullCharacter => (.error .nullCharacter, space)
    | .error fault =>
      let place := path.toString
      (.ok (), space.report (.failed
        ("Could not write event log " ++ place ++ ": " ++ fault.message)))

/-- Converts a source, reports and logs what became of it. What fails during the conversion is part
of the outcome; a fault can only come from the log. -/
def process (pipeline : Pipeline) (source : Path) (space : Workspace) :
    Except Tree.Fault Outcome × Workspace :=
  let source := space.here.absolute (pipeline.cwd.join source)
  -- The report comes before the log entry, whose fault is reported in turn.
  let (result, space) := pipeline.convert source space
  let outcome : Outcome := ⟨source, result.mapError Failure.reason⟩
  let (logged, space) :=
    pipeline.log outcome (space.report (pipeline.reportOf space.here outcome))
  (logged.map fun _ ↦ outcome, space)

/-! ### Batches -/

/-- Converts sources in order. A fault with one of them does not keep the others from being
converted; the first fault is the one that is told. -/
def processAll (pipeline : Pipeline) :
    List Path → Workspace → Except Tree.Fault (List Outcome) × Workspace
  | [], space => (.ok [], space)
  | source :: rest, space =>
    let (outcome, space) := pipeline.process source space
    let (outcomes, space) := pipeline.processAll rest space
    (outcome.bind fun outcome ↦ outcomes.map (outcome :: ·), space)

/-- Why a batch has no result. -/
inductive Fault where
  /-- The limit for the number of conversions at once is below zero. -/
  | negativeLimit
  /-- The log cannot be written, or artifacts cannot be looked for. -/
  | access (fault : Tree.Fault)
deriving DecidableEq, Repr

/-- The wording of a fault. -/
def Fault.message : Fault → String
  | negativeLimit => "Semaphore initial value must be >= 0"
  | access fault => fault.message

/-- Converts sources, at most `limit` at once, which may not be negative. They are converted one
after the other, which every limit but zero allows; a limit of zero is never asked for. How many
conversions are under way at once makes no difference if no artifact is a source, nor on the way to
another artifact; otherwise it may. -/
def runBatch (pipeline : Pipeline) (sources : List Path) (limit : Option Int) (space : Workspace) :
    Except Fault (List Outcome) × Workspace :=
  if limit.any (· < 0) then (.error .negativeLimit, space)
  else
    let (outcomes, space) := pipeline.processAll sources space
    (outcomes.mapError .access, space)

/-- What became of a set of sources. -/
structure BatchResult where
  outcomes : List Outcome
  /-- The artifacts without a source that were found afterwards. -/
  dangling : List Path
deriving Repr

/-- The sources that failed. -/
def BatchResult.failed (result : BatchResult) : List Outcome :=
  result.outcomes.filter fun outcome ↦ !outcome.ok

/-- Converts a set of sources and then reports dangling artifacts, if there is a pattern to find
them by. -/
def convertAll (pipeline : Pipeline) (sources : SourceSet) (limit : Option Int)
    (exclude : List Text) (space : Workspace) : Except Fault BatchResult × Workspace :=
  match pipeline.runBatch sources.files limit space, sources.pattern with
  | (.error fault, space), _ => (.error fault, space)
  | (.ok outcomes, space), none => (.ok ⟨outcomes, []⟩, space)
  | (.ok outcomes, space), some pattern =>
    match Dangling.find space.tree space.here pattern sources.files pipeline.suffix sources.root
      exclude with
    | .error fault => (.error (.access fault), space)
    | .ok dangling =>
      let reports := Dangling.reports space.here pipeline.cwd pipeline.suffix dangling
      (.ok ⟨outcomes, dangling⟩, { space with reports := space.reports ++ reports })

end Pipeline

end CssTypings
