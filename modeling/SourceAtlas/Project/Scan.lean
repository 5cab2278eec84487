import SourceAtlas.Failure

/-!
# Listing the files of a project

The files of a project are the regular files below its root that are reached through real
directories whose names are not ignored.  Symbolic links are neither followed nor listed, except
that the root itself may be one.  A file counts only if the root, as it is given, and the names that
lead to the file make up a path text that can be followed.

`scan` lists them by their paths relative to the root: a directory's own files come first, in the
order of their names, then the files of its subdirectories, in the order of theirs.
-/

namespace SourceAtlas

/-- Texts in the order of their code points. -/
def sortTexts (texts : List String) : List String :=
  texts.mergeSort fun a b => decide (a ≤ b)

namespace FileSystem

/-- The names in a directory that hold a regular file, in order. -/
def fileNames (fs : FileSystem) (directory : Location) : List String :=
  sortTexts ((fs.names directory).filter fun name =>
    match fs.get? (directory ++ [name]) with
    | some (.file _) => true
    | _ => false)

/-- The names in a directory that hold a real directory and are not ignored, in order. -/
def openDirectories (fs : FileSystem) (ignored : List String) (directory : Location) :
    List String :=
  sortTexts ((fs.names directory).filter fun name =>
    decide (fs.isDirectory (directory ++ [name])) && !ignored.contains name)

/-- The files below a directory, as lists of names from there, down to a depth. -/
def filesBelow (fs : FileSystem) (ignored : List String) : Nat → Location → List Location
  | 0, _ => []
  | depth + 1, directory =>
    (fs.fileNames directory).map (fun name => [name]) ++
      (fs.openDirectories ignored directory).flatMap fun name =>
        (fs.filesBelow ignored depth (directory ++ [name])).map (name :: ·)

/-- The greatest depth of an entry. -/
def depth (fs : FileSystem) : Nat :=
  (fs.entries.map fun entry => entry.1.length).foldl max 0

/-- The files of the project at a location. -/
def projectFiles (fs : FileSystem) (ignored : List String) (root : Location) : List Location :=
  fs.filesBelow ignored fs.depth root

end FileSystem

/-- The relative paths of the files of a project.  A root that is missing or no directory has
none. -/
def scan (ignored : List String) (root : String) : Action (List String) := do
  let fs ← get
  match fs.locate true root with
  | .error .nullByte => throw (.file .nullByte)
  | .error (.os _) => return []
  | .ok location =>
    if fs.isDirectory location then
      return ((fs.projectFiles ignored location).map Path.ofSegments).filter fun path =>
        (Path.append root path).utf8ByteSize ≤ maxPathBytes
    else return []

end SourceAtlas
