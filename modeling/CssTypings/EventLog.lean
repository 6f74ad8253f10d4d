import CssTypings.Json.Printer
import CssTypings.Json.Reader
import CssTypings.Tree.Access

/-!
# The event log

Every conversion can be logged to a file, one JSON object per line. The log is only ever appended
to. Reading it gives the latest records: lines that are no JSON are skipped, since a line may have
been cut short, and so are records before a given time. Times are compared as texts.

A log is decoded block by block, and each line is read as soon as it is complete. So if a line is at
fault and the bytes are as well, it depends on the blocks which fault is told.
-/

namespace CssTypings

/-- A conversion as it is logged. -/
structure LogEvent where
  timestamp : Text
  /-- The kind of run. -/
  mode : Text
  source : Text
  /-- What was written, if the conversion succeeded. -/
  artifact : Option Text
  ok : Bool
  /-- What went wrong, if it did not. -/
  error : Option Text
deriving DecidableEq, Repr

namespace LogEvent

/-- A text that may be missing. -/
def printOption : Option Text → Text
  | some t => Json.printText t
  | none => "null".toList

/-- The members of the record, in the order of their names. -/
def members (event : LogEvent) : List (String × Text) :=
  [("artifact", printOption event.artifact), ("error", printOption event.error),
    ("mode", Json.printText event.mode), ("ok", (toString event.ok).toList),
    ("source", Json.printText event.source), ("timestamp", Json.printText event.timestamp)]

/-- The record as a line, with its end. -/
def line (event : LogEvent) : Text :=
  let printed := event.members.map fun (name, value) ↦
    Json.printText name.toList ++ ": ".toList ++ value
  '\x7b' :: Text.join ", ".toList printed ++ ['\x7d', '\n']

end LogEvent

namespace EventLog

/-- Why a log cannot be read. -/
inductive Fault where
  /-- The file cannot be read. -/
  | access (fault : Tree.Fault)
  /-- The file holds no text. -/
  | undecodable (fault : Utf8.Fault)
  /-- A record is of this kind, and so has no time. -/
  | noObject (kind : String)
  /-- A record holds an integer with this many digits. -/
  | tooManyDigits (count : Nat)
  /-- A record has too many values inside one another, the innermost of this kind. -/
  | tooDeep (kind : Json.Nest)
deriving DecidableEq, Repr

/-- The wording of a fault. -/
def Fault.message : Fault → String
  | .access fault => fault.message
  | .undecodable fault => fault.message
  | .noObject kind => "'" ++ kind ++ "' object has no attribute 'get'"
  | .tooManyDigits count => Json.digitMessage count
  | .tooDeep kind => kind.depthMessage

/-- Makes the directories that lead to a log. -/
def prepare (tree : Tree) (path : Path) : Except Tree.Fault Unit × Tree :=
  tree.makeDirectories path.parent

/-- The tree with an event logged. -/
def append (tree : Tree) (path : Path) (event : LogEvent) : Except Tree.Fault Tree :=
  tree.append path (Utf8.encode event.line)

/-- Whether a record is not before a time. Only objects have a time, and one that is no text is
before every time. -/
def isSince (since : Codes) : Json → Except Fault Bool
  | .object members =>
    match members.lookup (Text.codes "timestamp".toList) with
    | some (.text t) => .ok (decide (¬ t < since))
    | _ => .ok false
  | .null => .error (.noObject "NoneType")
  | .bool _ => .error (.noObject "bool")
  | .integer _ => .error (.noObject "int")
  | .float _ => .error (.noObject "float")
  | .text _ => .error (.noObject "str")
  | .array _ => .error (.noObject "list")

/-- The record on a line, if there is one and it is not before the given time. -/
def recordOf (since : Option Codes) (line : Text) : Except Fault (Option Json) :=
  let line := line.trim
  if line = [] then .ok none
  else
    match Json.read line with
    | .error .syntaxError => .ok none
    | .error (.tooManyDigits count) => .error (.tooManyDigits count)
    | .error (.tooDeep kind) => .error (.tooDeep kind)
    | .ok record =>
      match since with
      | none => .ok (some record)
      | some time => return if ← isSince time record then some record else none

/-- The lines of a text; the last one has no end. -/
def linesOf (t : Text) : List Text := Text.splitOn '\n' (Text.unifyNewlines t)

/-- The records on lines, in order. -/
def recordsOf (since : Option Codes) (lines : List Text) : Except Fault (List Json) := do
  let records ← lines.mapM (recordOf since)
  return records.filterMap id

/-- The number of bytes in a block. -/
def blockSize : Nat := 8192

/-- The position of the byte that shows a fault. The bytes of a surrogate are not refused until all
three are there, and that a character is cut short shows only behind the last byte. -/
def shownAt (fault : Utf8.Fault) (bytes : Bytes) : Nat :=
  match fault.reason with
  | .invalidStart => fault.start
  | .invalidContinuation =>
    let second := (bytes.drop (fault.start + 1)).head?
    if fault.byte = 0xED ∧ second.any (fun b ↦ decide (0xA0 ≤ b) && decide (b ≤ 0xBF)) then
      fault.start + 2
    else fault.stop
  | .unexpectedEnd => bytes.length

/-- The number of bytes that are decoded before a fault shows: the blocks in front of the byte that
shows it. -/
def decodedBefore (fault : Utf8.Fault) (bytes : Bytes) : Nat :=
  let shown := shownAt fault bytes
  if shown < bytes.length then shown / blockSize * blockSize else bytes.length

/-- The lines that are complete before a fault shows. A carriage return at the end of the text may
be the first half of a line end, so it does not complete a line yet. -/
def linesBefore (fault : Utf8.Fault) (bytes : Bytes) : List Text :=
  let t := Utf8.decodePrefix (bytes.take (decodedBefore fault bytes))
  (linesOf ((Text.before? ['\r'] t).getD t)).dropLast

/-- The latest records of the log at a path, in order and at most `limit` of them. -/
def read (tree : Tree) (path : Path) (since : Option Codes) (limit : Int) :
    Except Fault (List Json) :=
  if limit < 1 then .ok []
  else do
    if ← (tree.has path).mapError .access then
      let bytes ← (tree.read path).mapError .access
      match Utf8.decode bytes with
      | .ok t =>
        let records ← recordsOf since (linesOf t)
        return records.drop (records.length - limit.toNat)
      | .error fault =>
        discard (recordsOf since (linesBefore fault bytes))
        .error (.undecodable fault)
    else return []

end EventLog

end CssTypings
