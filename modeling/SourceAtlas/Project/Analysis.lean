import SourceAtlas.Extraction.Basic
import SourceAtlas.Files.Removal
import SourceAtlas.Graph.Build
import SourceAtlas.Libraries
import SourceAtlas.Project.Scan
import SourceAtlas.Project.Stats
import SourceAtlas.Project.Tree

/-!
# Analysing a project

The analysis of a directory lists its files and derives the tree, the import graph and the numbers
from the list.  The analysis of an archive extracts it into a directory that must not exist yet and
analyses that directory; whatever goes wrong, the directory is removed again before the failure is
reported.
-/

namespace SourceAtlas

/-- The result of an analysis. -/
structure Analysis where
  jobId : Option String
  filesCount : Nat
  stats : Stats
  tree : Tree
  graph : Graph

/-- A project in one line. -/
def Analysis.summary (analysis : Analysis) : String :=
  analysis.stats.summary analysis.filesCount

/-- The name of the root of a file tree. -/
def rootName : String := "root"

/-- Analyse the directory of a project. -/
def analyzeDirectory (sortKey : String → List Nat) (config : Config) (root : String)
    (jobId : Option String) : Action Analysis := do
  let paths ← scan config.ignoredDirs root
  let graph ← Graph.ofProject root paths
  return {
    jobId
    filesCount := paths.length
    stats := .of paths graph.nodes graph.edges config.topDegree
    tree := .build sortKey rootName paths
    graph }

/-- Extract an archive into a new directory and analyse it. -/
def analyzeArchive (libraries : Libraries) (config : Config) (archive directory : String)
    (jobId : Option String) : Action Analysis := do
  if (← get).pathExists directory then throw (.occupied directory)
  tryCatch
    (do
      discard <| extractZip libraries.codecs config archive directory
      analyzeDirectory libraries.sortKey config directory jobId)
    fun failure => do
      discard <| Action.removePath (some directory)
      throw failure

end SourceAtlas
