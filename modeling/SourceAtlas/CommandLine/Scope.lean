import SourceAtlas.CommandLine.Run

/-!
# What a run looks at

`Scope.of` tells, before a command line is run, which part of the file system the run can look at:
the places it starts from, and the names of directories below them that it passes over.
-/

namespace SourceAtlas.CommandLine

/-- A part of a file system: everything at and below some places, except for what lies in
directories with certain names below them. -/
structure Scope where
  places : List String
  passedOver : List String
deriving DecidableEq, Repr

namespace Scope

/-- The scope of a run that looks at nothing. -/
def nothing : Scope := ⟨[], []⟩

/-- The scope of a command.  The extracted files of an archive are kept in a temporary directory. -/
def ofCommand (config : Config) (workingDirectory : String) : Command → Scope
  | .analyze path => ⟨[Path.absolute workingDirectory path], config.ignoredDirs⟩
  | .serve _ => nothing
  | .sweep => ⟨[config.extractedDir, config.uploadsDir], []⟩

/-- The scope of a command line.  A run that a mistake ends looks at nothing. -/
def of (outside : Outside) (workingDirectory : String) (arguments : List String) : Scope :=
  match Invocation.parse arguments, outside.config with
  | .ok invocation, .ok config => ofCommand config workingDirectory invocation.command
  | _, _ => nothing

end Scope

end SourceAtlas.CommandLine
