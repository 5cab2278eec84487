import SourceAtlas.Graph.Basic
import SourceAtlas.Imports.Resolution
import SourceAtlas.Failure
import SourceAtlas.Text.Newlines

/-!
# The import graph of a project

The nodes are the code files among the paths of a project.  A file has an edge to every node that
one of its local specifiers refers to.  A file that cannot be read, or is not UTF-8, is a node
without edges of its own.
-/

namespace SourceAtlas

namespace FileSystem

/-- The text of a source file with unified line ends, if it can be read and decoded. -/
def source? (fs : FileSystem) (path : String) : Option (List Char) :=
  match fs.readFile path with
  | .error _ => none
  | .ok content =>
    match Utf8.decode content.toList with
    | .error _ => none
    | .ok text => some (Text.unifyNewlines text)

end FileSystem

namespace Graph

/-- The path of a project file in the file system. -/
def filePath (root path : String) : String :=
  (Path.segments path).foldl Path.append root

/-- Reading a file whose path holds a zero character is an error of the caller. -/
def sourceOf (root path : String) : Action (Option (List Char)) := do
  let place := filePath root path
  if '\x00' ∈ place.toList then throw (.file .nullByte)
  return (← get).source? place

/-- The files that the specifiers of a text refer to. -/
def targets (known : List String) (path : String) (text : List Char) : List String :=
  (Imports.localSpecifiers text).filterMap fun specifier => Imports.resolve? path specifier known

/-- Add an edge from a file to every file its specifiers refer to. -/
def addTargets (graph : Graph) (source : String) (targets : List String) : Graph :=
  targets.foldl (fun graph target => (graph.addEdge source target).1) graph

/-- Add the edges of files one after the other. -/
def addFiles (root : String) (known : List String) : Graph → List String → Action Graph
  | graph, [] => pure graph
  | graph, path :: paths => do
    match ← sourceOf root path with
    | none => addFiles root known graph paths
    | some text => addFiles root known (graph.addTargets path (targets known path text)) paths

/-- The import graph of the code files among the paths of a project. -/
def ofProject (root : String) (paths : List String) : Action Graph :=
  let code := paths.filter Imports.isCodeFile
  let graph := code.foldl addNode empty
  addFiles root graph.nodes graph code

end Graph

end SourceAtlas
