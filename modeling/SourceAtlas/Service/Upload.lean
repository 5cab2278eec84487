import SourceAtlas.Cleanup.Registry
import SourceAtlas.Service.Reply

/-!
# Uploads

An upload is stored under a name of its own and, if it is a zip archive, extracted and analysed.  In
the end it either leaves a stored file, perhaps an extracted directory, and a job in the registry,
or it leaves nothing but the two directories for such things.

An upload goes through three steps.

1. `Submission.accept` looks at the name: there must be a file with a name, and the extension must
   be one of an archive.  Nothing is written yet.
2. `prepareDirectories` makes the two directories unless they exist.  Then a fresh identifier is
   taken.
3. `receive` stores the content, portion by portion, in a file that must not exist yet, and analyses
   it.
-/

namespace SourceAtlas

/-- An uploaded file: the name the client gives it, if any, and its content. -/
structure Submission where
  filename : Option String
  content : ByteArray

/-- An upload whose name is in order: the last segment of the name, and its extension in lower
case. -/
structure Accepted where
  name : String
  extension : String
  content : ByteArray

/-- The extension of archives that are analysed. -/
def analyzedExtension : String := ".zip"

/-- The extensions of archives. -/
def archiveExtensions : List String := [analyzedExtension, ".rar", ".7z"]

/-- Look at the name of an upload. -/
def Submission.accept (submission : Option Submission) : Except Refusal Accepted :=
  match submission with
  | none => .error .noFile
  | some submission =>
    match submission.filename with
    | none => .error .noFile
    | some filename =>
      let name := Path.base (Path.slashed filename)
      let extension := Path.lowerExtension name
      if filename = "" then .error .noFile
      else if archiveExtensions.contains extension then .ok ⟨name, extension, submission.content⟩
      else .error .unknownExtension

/-- Make the directories for uploads and for extracted archives. -/
def prepareDirectories (config : Config) : Action Unit := do
  Action.makeAll config.uploadsDir
  Action.makeAll config.extractedDir

/-- How many bytes of an upload are read at a time. -/
def uploadPortion : Nat := Nat.pow 2 20

/-- Take in the portions of an upload as far as the limit admits them.  Yields the bytes taken in
and how many were counted; the portion that goes past the limit is counted, but not taken in.  An
empty portion is the end of the upload. -/
def takeUpload (limit : Int) : ByteArray → List ByteArray → ByteArray × Nat
  | taken, [] => (taken, taken.size)
  | taken, chunk :: chunks =>
    if chunk.size = 0 then (taken, taken.size)
    else if limit < taken.size + chunk.size then (taken, taken.size + chunk.size)
    else takeUpload limit (taken ++ chunk) chunks

/-- Store an upload, as it is read, in a file that must not exist yet.  Yields its size; an upload
that exceeds the limit is refused, and the file is removed again. -/
def storePortions (destination : String) (chunks : List ByteArray) (limit : Int) :
    Action (Except Refusal Nat) := do
  let place ← Action.changeAt fun fs => fs.createNew destination
  let (taken, counted) := takeUpload limit .empty chunks
  modify fun fs => fs.overwrite place taken
  if limit < counted then
    discard <| Action.removePath (some destination)
    return .error (.tooLarge limit)
  else return .ok counted

/-- Store a content in a file that must not exist yet. -/
def storeUpload (destination : String) (content : ByteArray) (limit : Int) :
    Action (Except Refusal Nat) :=
  storePortions destination (Stream.cut uploadPortion content) limit

/-- The name of the file for an upload: the time in whole milliseconds, the identifier and the name
that the client gave.  There is none at a time that is not finite. -/
def storedName? (clock : Binary64) (jobId name : String) : Option String :=
  (clock.scaleBy 1000).truncate?.map fun milliseconds =>
    toString milliseconds ++ "-" ++ jobId ++ "-" ++ name

/-- Analyse a stored archive.  If that fails, the stored archive is removed. -/
def analyzeStored (libraries : Libraries) (config : Config) (archive directory jobId : String) :
    Action Analysis :=
  tryCatch (analyzeArchive libraries config archive directory (some jobId)) fun failure => do
    discard <| Action.removePath (some archive)
    throw failure

/-- Store an upload and analyse it if it can be analysed.  Yields the receipt and the job. -/
def receive (libraries : Libraries) (config : Config) (clock : Binary64) (jobId : String)
    (upload : Accepted) : Action (Except Refusal (Receipt × CleanupJob)) := do
  match storedName? clock jobId upload.name with
  | none => return .error .unexpected
  | some storedAs => do
    let archive := Path.append config.uploadsDir storedAs
    match ← storeUpload archive upload.content config.maxUploadBytes with
    | .error refusal => return .error refusal
    | .ok size => do
      let receipt := Receipt.mk upload.name size storedAs upload.extension
      if upload.extension ≠ analyzedExtension then
        return .ok (receipt none, ⟨archive, none, clock⟩)
      else do
        let directory := Path.append config.extractedDir jobId
        let analysis ← analyzeStored libraries config archive directory jobId
        return .ok (receipt (some analysis), ⟨archive, some directory, clock⟩)

/-! ## The service -/

/-- A service: the libraries it uses, its configuration, its registry, and the identifiers for its
jobs, of which the first `issued` are taken. -/
structure Service where
  libraries : Libraries
  config : Config
  cleanup : Cleanup
  identifier : Nat → String
  issued : Nat

namespace Service

/-- A service without jobs. -/
def ofConfig (libraries : Libraries) (config : Config) (identifier : Nat → String) : Service :=
  ⟨libraries, config, .ofLifetime config.cleanupTtl, identifier, 0⟩

/-- Answer an upload at a time. -/
def upload (service : Service) (clock : Binary64) (submission : Option Submission)
    (files : FileSystem) : Reply × Service × FileSystem :=
  match Submission.accept submission with
  | .error refusal => (.refused refusal, service, files)
  | .ok accepted =>
    match (prepareDirectories service.config).on files with
    | (.error failure, files) => (.refused (.ofFailure failure), service, files)
    | (.ok (), files) =>
      let jobId := service.identifier service.issued
      let service := { service with issued := service.issued + 1 }
      match (receive service.libraries service.config clock jobId accepted).on files with
      | (.error failure, files) => (.refused (.ofFailure failure), service, files)
      | (.ok (.error refusal), files) => (.refused refusal, service, files)
      | (.ok (.ok (receipt, job)), files) =>
        (.received receipt, { service with cleanup := service.cleanup.register job }, files)

/-- Sweep the registry at a time. -/
def sweep (service : Service) (now : Binary64) (files : FileSystem) :
    Except Failure Nat × Service × FileSystem :=
  let (cleanup, action) := service.cleanup.sweep now
  let (result, files) := action.on files
  (result, { service with cleanup }, files)

end Service

end SourceAtlas
