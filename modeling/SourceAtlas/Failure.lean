import SourceAtlas.Archive.Error
import SourceAtlas.Files.Operations
import SourceAtlas.Files.Resolution
import SourceAtlas.Text.Utf8

/-!
# Failures and actions

`Failure` collects what can stop a run that works on files.  An `Action` is such a run: it changes
the file system step by step and yields a result or a failure, and what it did before it failed
stays done.

Single steps come from `FileSystem` and are lifted by `Action.query`, which reads, and
`Action.change`, which writes.
-/

namespace SourceAtlas

/-- What can stop a run. -/
inductive Failure
  /-- The file system refuses a path. -/
  | file (error : FileError)
  /-- The directory to extract into exists. -/
  | occupied (path : String)
  /-- An entry or the whole archive is refused. -/
  | archive (error : ArchiveError)
  /-- The bytes of an archive are at fault. -/
  | unreadable (fault : ArchiveFault)
  /-- A decoder of another library refuses packed data. -/
  | undecoded (packing : Packing) (message : String)
  /-- Resolving a path ends in a loop of links. -/
  | linkLoop (path : String)
  /-- A name that claims to be UTF-8 is not. -/
  | undecodable (fault : Utf8.Fault)
  /-- An archive lists an entry without a name. -/
  | unnamedEntry
  /-- An archive places an entry at an offset that no file can have. -/
  | offsetTooLarge
deriving DecidableEq, Repr

/-- The wording of a failure. -/
def Failure.message : Failure → String
  | .file (.os code) => code.name
  | .file .nullByte => "embedded null byte"
  | .occupied path => path
  | .archive error => error.message
  | .unreadable fault => fault.message
  | .undecoded _ message => message
  | .linkLoop path => "Symlink loop from " ++ Text.quoted path
  | .undecodable fault => fault.message
  | .unnamedEntry => "string index out of range"
  | .offsetTooLarge => "cannot fit 'int' into an offset-sized integer"

/-- A run on a file system. -/
abbrev Action := ExceptT Failure (StateM FileSystem)

namespace Action

/-- Run an action on a file system. -/
def on {α : Type} (action : Action α) (fs : FileSystem) : Except Failure α × FileSystem :=
  action.run.run fs

/-- Read from the file system. -/
def query {α : Type} (read : FileSystem → Except FileError α) : Action α := do
  match read (← get) with
  | .ok value => pure value
  | .error e => throw (.file e)

/-- Change the file system, which a refusal leaves as it is. -/
def change (step : FileSystem → Except FileError FileSystem) : Action Unit := do
  match step (← get) with
  | .ok fs => set fs
  | .error e => throw (.file e)

/-- Change the file system and yield where. -/
def changeAt (step : FileSystem → Except FileError (Location × FileSystem)) :
    Action Location := do
  match step (← get) with
  | .ok (location, fs) =>
    set fs
    return location
  | .error e => throw (.file e)

/-- The resolved form of a path. -/
def resolve (path : String) : Action Location := do
  match (← get).resolve path with
  | .ok location => pure location
  | .error .nullByte => throw (.file .nullByte)
  | .error (.linkLoop path) => throw (.linkLoop path)

end Action

end SourceAtlas
