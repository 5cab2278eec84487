import SourceAtlas.Project.Analysis
import SourceAtlas.Report.Document

/-!
# The report of an analysis

An analysis as a document.  A field that has no value is left out: the job of an analysis that
belongs to none, the path of a folder, the children of a file.
-/

namespace SourceAtlas

/-- Counts as a record, in their order. -/
def Counts.document (counts : Counts) : Document :=
  .record (counts.map fun (name, count) => (name, .number count))

/-- A ranking of nodes by degree. -/
def Counts.ranking (counts : Counts) : Document :=
  .list (counts.map fun (node, degree) =>
    .record [("id", .text node), ("degree", .number degree)])

/-- The numbers of a project as a document. -/
def Stats.document (stats : Stats) : Document :=
  .record [
    ("exts", stats.extensions.document),
    ("graph", .record [
      ("nodes", .number stats.nodes),
      ("edges", .number stats.edges),
      ("topDegree", stats.topDegree.ranking)])]

mutual

/-- A file tree as a document. -/
def Tree.document : Tree → Document
  | .file name path =>
    .record [("name", .text name), ("type", .text "file"), ("path", .text path)]
  | .folder name children =>
    .record [("name", .text name), ("type", .text "folder"),
      ("children", .list (Tree.documents children))]

/-- File trees as documents. -/
def Tree.documents : List Tree → List Document
  | [] => []
  | tree :: trees => tree.document :: Tree.documents trees

end

/-- An import graph as a document. -/
def Graph.document (graph : Graph) : Document :=
  .record [
    ("nodes", .list (graph.nodes.map fun node => .record [("id", .text node)])),
    ("edges", .list (graph.edges.map fun (source, target) =>
      .record [("source", .text source), ("target", .text target)]))]

/-- An analysis as a document. -/
def Analysis.document (analysis : Analysis) : Document :=
  .record (
    (analysis.jobId.map fun jobId => ("jobId", Document.text jobId)).toList ++ [
      ("filesCount", .number analysis.filesCount),
      ("stats", analysis.stats.document),
      ("tree", analysis.tree.document),
      ("graph", analysis.graph.document)])

end SourceAtlas
