import SourceAtlas.Cleanup.Directory
import SourceAtlas.CommandLine.Command
import SourceAtlas.Files.Temporary
import SourceAtlas.ProgramFault
import SourceAtlas.Report.Analysis

/-!
# Running a command line

`run` reads a command line, sets the log level and carries out the command.  Everything that the
outside contributes is an argument (`Outside`).

* `analyze` prints the report of a directory or of an archive, which is extracted into a temporary
  directory for this purpose; the directory is removed again in any case.
* `serve` hands the address of the server to the outside.
* `sweep` removes what is old enough among the extracted directories and then among the uploads.
-/

namespace SourceAtlas.CommandLine

/-- What the outside contributes to a run: libraries, the environment with what a settings file has
added to it, the time, and an identifier for a job. -/
structure Outside where
  libraries : Libraries
  environment : Except ExportFault Environment
  now : Binary64
  jobId : String

/-- The configuration of a run. -/
def Outside.config (outside : Outside) : Except SettingFault Config :=
  Config.load outside.environment

/-- What a command leaves: its exit code, what it prints, and the servers it starts. -/
structure Report where
  code : Nat
  output : String
  errors : String
  servers : List Server
deriving DecidableEq, Repr

namespace Report

/-- A command that succeeds and prints a text. -/
def printed (output : String) : Report := ⟨0, output, "", []⟩

/-- A command that ends with a code and an error line. -/
def refused (code : Nat) (error : String) : Report := ⟨code, "", "error: " ++ error ++ "\n", []⟩

end Report

/-- The name of the application that a server is started for. -/
def application : String := "api:app"

/-- The printed report of an analysis. -/
def printedAnalysis (analysis : Analysis) : Report :=
  .printed (analysis.document.render ++ "\n")

/-- Analyse an archive in a temporary directory. -/
def analyzeInTemporary (libraries : Libraries) (config : Config) (jobId path : String) :
    Action Report := do
  let directory ← Action.makeTemporary
  let result ← observing <|
    analyzeArchive libraries config path (Path.append directory jobId) (some jobId)
  discard <| Action.removePath (some directory)
  match result with
  | .ok analysis => return printedAnalysis analysis
  | .error (.archive error) =>
    return .refused 1 (error.summary ++ " (" ++ error.message ++ ")")
  | .error failure => throw failure

/-- Analyse what a path leads to. -/
def runAnalyze (libraries : Libraries) (config : Config) (jobId path : String) : Action Report := do
  let fs ← get
  let path := Path.absolute fs.workingDirectory.toPath path
  if fs.leadsToDirectory path then
    return printedAnalysis (← analyzeDirectory libraries.sortKey config path none)
  else if fs.leadsToFile path then analyzeInTemporary libraries config jobId path
  else return .refused 2 ("no such file or directory: " ++ path)

/-- Remove what is old enough. -/
def runSweep (config : Config) (now : Binary64) : Action Report := do
  let extracted ← sweepDirectory config.extractedDir config.cleanupTtl now
  let uploads ← sweepDirectory config.uploadsDir config.cleanupTtl now
  return .printed ("removed " ++ toString (extracted + uploads) ++ " expired entries\n")

/-- The action of a command; `serve` needs no configuration. -/
def Command.action (outside : Outside) : Command → Except SettingFault (Action Report)
  | .serve server => .ok (return ⟨0, "", "", [server]⟩)
  | .analyze path =>
    outside.config.map fun config => runAnalyze outside.libraries config outside.jobId path
  | .sweep => outside.config.map fun config => runSweep config outside.now

/-- How a program ends. -/
inductive Ending
  | exit (exit : Exit)
  | finished (report : Report)
  | stopped (fault : ProgramFault)

/-- The exit code.  A fault that nothing answers for ends the program with the code 1. -/
def Ending.code (ending : Ending) : Nat :=
  match ending with
  | .exit reason => reason.code
  | .finished report => report.code
  | .stopped _ => 1

/-- The end of a program, the log it leaves and the files. -/
structure Completion where
  ending : Ending
  log : Log.Root
  files : FileSystem

/-- The name of the log level: what the command line says, else what the configuration says. -/
def levelName (outside : Outside) (invocation : Invocation) : Except SettingFault String :=
  match invocation.logLevel with
  | some name => if name ≠ "" then .ok name else outside.config.map Config.logLevel
  | none => outside.config.map Config.logLevel

/-- Carry out an invocation under a log. -/
def runInvocation (outside : Outside) (invocation : Invocation) (log : Log.Root)
    (files : FileSystem) : Completion :=
  match levelName outside invocation with
  | .error fault => ⟨.stopped (.setting fault), log, files⟩
  | .ok name =>
    match log.configure name with
    | .error reserved => ⟨.stopped (.level reserved), log, files⟩
    | .ok log =>
      match invocation.command.action outside with
      | .error fault => ⟨.stopped (.setting fault), log, files⟩
      | .ok action =>
        match action.on files with
        | (.ok report, files) => ⟨.finished report, log, files⟩
        | (.error failure, files) => ⟨.stopped (.run failure), log, files⟩

/-- Run a command line. -/
def run (outside : Outside) (arguments : List String) (files : FileSystem) : Completion :=
  match Invocation.parse arguments with
  | .error exit => ⟨.exit exit, .initial, files⟩
  | .ok invocation => runInvocation outside invocation .initial files

end SourceAtlas.CommandLine
