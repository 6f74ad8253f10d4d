import CssTypings.CommandLine.Execute
import CssTypings.Timestamp
import Std.Time.DateTime.Timestamp

/-!
# The command

The command reads what it may need into a tree, runs on the tree, and carries the changes over to
the disk. It reads the working directory and what the arguments name; a file argument brings the
directory that it is in. While sources are watched, this is done again for every look.
-/

namespace CssTypings

/-- The path that a string writes. -/
def pathOf (s : String) : Path := .ofText s.toList

/-- The directories to read: the working directory and those that the arguments name or are in, but
none that is inside another one. -/
def placesOf (arguments : List String) : IO (List Path) := do
  let here ← IO.currentDir
  let places ← ("" :: arguments).mapM fun (argument : String) ↦ do
    let place := here / argument
    let directory := if ← place.isDir then place else place.parent.getD here
    return ((pathOf "/").absolute (pathOf directory.toString), ← directory.isDir)
  let directories := ((places.filter Prod.snd).map Prod.fst).eraseDups
  return directories.filter fun p ↦
    !directories.any fun q ↦ q ≠ p && q.parts.isPrefixOf p.parts

/-- What is on the disk in the working directory and where the arguments lead. -/
def readTree (arguments : List String) : IO Tree := do
  let here ← IO.currentDir
  let clock : Int := (← IO.monoNanosNow)
  let mut tree : Tree := ⟨[], clock⟩
  for place in ← placesOf arguments do
    let mut found : List (Location × Entry) := []
    for file in ← (here / place.toString).walkDir do
      let about ← file.metadata
      let location := (pathOf file.toString).parts
      if about.type == .dir then found := (location, .directory) :: found
      else if about.type == .file then
        let bytes := (← IO.FS.readBinFile file).toList
        let modified := about.modified.sec * 1000000000 + about.modified.nsec.toNat
        found := (location, .file bytes modified) :: found
    let (_, above) := tree.makeDirectories place
    tree := { above with entries := found ++ above.entries }
  return tree

/-- Carries what differs between two trees over to the disk. A file that was not read can only be a
log, so it is appended to. -/
def writeChanges (before after : Tree) : IO Unit := do
  for (location, entry) in after.entries.reverse do
    let name := (Path.mk .root location).toString
    match entry, before.find? location with
    | .directory, none => IO.FS.createDirAll name
    | .file bytes _, none =>
      let handle ← IO.FS.Handle.mk name .append
      handle.write (ByteArray.mk bytes.toArray)
    | .file bytes _, some (.file former _) =>
      if bytes ≠ former then IO.FS.writeBinFile name (ByteArray.mk bytes.toArray)
    | _, _ => pure ()

/-- Writes output to the two streams. -/
def display (output : Output) : IO Unit := do
  (← IO.getStdout).putStr output.out
  (← IO.getStdout).flush
  (← IO.getStderr).putStr output.err

/-- What the console depends on. -/
def surroundings : IO Surroundings := do
  let out := Stream.device (← (← IO.getStdout).isTty)
  let err := Stream.device (← (← IO.getStderr).isTty)
  return ⟨out, err, ← IO.getEnv "NO_COLOR"⟩

/-- The time, as it is logged. -/
def now : IO Text := do
  return Timestamp.text (← Std.Time.Timestamp.now).toMillisecondsSinceUnixEpoch.val.toNat

/-- Looks at the sources again and again. -/
partial def watchOn (arguments : List String) (watching : CommandLine.Watching)
    (space : Workspace) : IO Unit := do
  IO.sleep (UInt32.ofNat watching.interval.milliseconds)
  let tree ← readTree arguments
  let space := { space with tree, now := ← now, reports := [] }
  let (look, watch, space) := watching.watch.poll watching.pipeline space
  writeChanges tree space.tree
  display (watching.console.renderAll space.reports)
  match look with
  | .ok _ => watchOn arguments { watching with watch } space
  | .error fault => (← IO.getStderr).putStr (fault.message ++ "\n")

end CssTypings

open CssTypings

/-- The command. -/
def main (arguments : List String) : IO UInt32 := do
  let here := pathOf (← IO.currentDir).toString
  let tree ← readTree arguments
  let result := CommandLine.run (arguments.map String.toList) (← surroundings) []
    ⟨tree, here, pathOf "/tmp", ← now, 0, []⟩
  writeChanges tree result.space.tree
  display result.output
  match result.exit, result.watching with
  | .error breakage, _ =>
    (← IO.getStderr).putStr (breakage.message ++ "\n")
    return 1
  | .ok code, none => return UInt32.ofNat code
  | .ok code, some watching =>
    watchOn arguments watching result.space
    return UInt32.ofNat code
