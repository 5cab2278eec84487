import Std.Time.DateTime.Timestamp
import SourceAtlas.CommandLine.Scope
import SourceAtlas.Files.Snapshot
import SourceAtlas.Files.Time
import SourceAtlas.Project.JobId
import SourceAtlas.Settings.Environment

/-!
# The program

The outermost layer.  It takes a snapshot of the files that a command line can look at, hands it to
`CommandLine.run`, removes the entries that the run has removed, and prints what the run prints.
Nothing is decided here.
-/

namespace SourceAtlas.CommandLine

/-- The location of a path that starts at the root. -/
def locationOf (path : String) : Location :=
  (Path.segments path).filter (· ≠ "")

/-! ## Snapshots -/

/-- The place that a path leads to in the end; the path itself if it leads nowhere. -/
def realPath (path : String) : IO String := do
  try
    return (← IO.FS.realPath path).toString
  catch _ =>
    return path

/-- What the target of a link that leads nowhere is recorded as. -/
def nowhere : String := "/nowhere"

/-- The place that the link at a path leads to in the end. -/
def linkTarget (path : String) : IO String := do
  let real ← realPath path
  return if real = path then nowhere else real

/-- Record the entry at a location, but nothing below it. -/
def recordEntry (location : Location) : IO Record := do
  let place := (← IO.currentDir) / location.toPath
  let metadata ← place.symlinkMetadata
  let node ←
    match metadata.type with
    | .dir => pure Node.directory
    | .file => Node.file <$> IO.FS.readBinFile place
    | .symlink => Node.link <$> linkTarget location.toPath
    | .other => pure Node.pipe
  return ⟨location, node, FileTime.toBinary64 metadata.modified.sec metadata.modified.nsec.toNat⟩

/-- Record an entry if there is one that can be read. -/
def recordIfPresent (location : Location) : IO (List Record) := do
  try
    return [← recordEntry location]
  catch _ =>
    return []

/-- Record what lies on the way to a path, and on the way to the place that it leads to in the
end. -/
def recordWay (path : String) : IO (List Record) := do
  let direct ← (locationOf path).way.mapM recordIfPresent
  let real ← (locationOf (← realPath path)).way.mapM recordIfPresent
  return direct.flatten ++ real.flatten

/-- Record what lies below a location, directories with certain names excepted. -/
partial def recordBelow (passedOver : List String) (location : Location) : IO (List Record) := do
  let children ← ((← IO.currentDir) / location.toPath).readDir
  let records ← children.toList.mapM fun child => do
    let location := location ++ [child.fileName]
    let entry ← recordIfPresent location
    match entry with
    | [⟨_, .link target, _⟩] => return entry ++ (← recordWay target)
    | [⟨_, .directory, _⟩] =>
      if passedOver.contains child.fileName then return entry
      else return entry ++ (← recordBelow passedOver location)
    | _ => return entry
  return records.flatten

/-- Record what lies on the way to a path and below it. -/
def recordPlace (passedOver : List String) (path : String) : IO (List Record) := do
  let path := Path.append (← IO.currentDir).toString path
  let real := (← IO.currentDir) / (← realPath path)
  let way ← recordWay path
  if ← real.isDir then return way ++ (← recordBelow passedOver (locationOf real.toString))
  else return way

/-- Take a snapshot of a scope, of the working directory and of the directory for temporary
files. -/
def takeSnapshot (scope : Scope) (workingDirectory : String) (now : Binary64) : IO FileSystem := do
  let fixed ← [workingDirectory, temporaryRoot].mapM recordWay
  let places ← scope.places.mapM (recordPlace scope.passedOver)
  return .ofRecords (locationOf workingDirectory) now (fixed.flatten ++ places.flatten)

/-- Remove an entry.  A directory is empty by the time it is removed. -/
def removeEntry (location : Location) : IO Unit := do
  let place := (← IO.currentDir) / location.toPath
  match (← place.symlinkMetadata).type with
  | .dir => IO.FS.removeDir place
  | _ => IO.FS.removeFile place

/-! ## The outside -/

/-- The environment of the running process: its bindings end in null characters. -/
def readEnvironment : IO Environment := do
  let content ← IO.FS.readFile "/proc/self/environ"
  return (Text.pieces '\x00' content).filterMap fun binding =>
    match Text.pieces '=' binding with
    | name :: value@(_ :: _) => some (name, Text.join '=' value)
    | _ => none

/-- The environment of the running process, with the settings file in the working directory as a
part of it if there is one that can be read. -/
def readSettings : IO (Except ExportFault Environment) := do
  let environment ← readEnvironment
  try
    return environment.withFile (← IO.FS.readFile ".env")
  catch _ =>
    return .ok environment

/-- The present time. -/
def presentTime : IO Binary64 := do
  let nanoseconds := (← Std.Time.Timestamp.now).toNanosecondsSinceUnixEpoch.toInt
  return FileTime.toBinary64 (nanoseconds / FileTime.perSecond)
    (nanoseconds % FileTime.perSecond).toNat

/-- What the outside contributes. -/
def observe : IO Outside := do
  return ⟨.own, ← readSettings, ← presentTime,
    JobId.ofRandom (← IO.getRandomBytes 16).toList⟩

/-- Print how a run ended.  Yields the exit code.  A server is announced, but starting it is left to
whoever reads the announcement. -/
def printEnding (ending : Ending) : IO UInt32 := do
  match ending with
  | .exit .help => IO.print usage
  | .exit .usage => IO.eprint usage
  | .finished report =>
    IO.print report.output
    IO.eprint report.errors
    for server in report.servers do
      IO.println (application ++ " on " ++ server.host ++ ":" ++ toString server.tcpPort)
  | .stopped fault => IO.eprintln fault.message
  return ending.code.toUInt32

/-- Run a command line on the files that it concerns.  Yields the exit code. -/
def runProgram (arguments : List String) : IO UInt32 := do
  let outside ← observe
  let workingDirectory := (← IO.currentDir).toString
  let scope := Scope.of outside workingDirectory arguments
  let before ← takeSnapshot scope workingDirectory outside.now
  let completion := run outside arguments before
  (before.vanished completion.files).forM removeEntry
  printEnding completion.ending

end SourceAtlas.CommandLine

/-- Run the command line. -/
def main (arguments : List String) : IO UInt32 :=
  SourceAtlas.CommandLine.runProgram arguments
