import SourceAtlas.Path.Lexical

/-!
# The file tree of a project

A list of paths becomes a tree of folders and files.  A path is read as its non-empty segments; of
paths with the same segments the first one counts, and its spelling is kept in the file.

In every folder the folders come first and the files after them, both in the order of a sort key of
the name and, for names with one key, in the order of their code points.  Since a folder has at most
one folder and at most one file of a name, the order is strict.  The order in which the paths are
given shows in the spelling that a file keeps, and in nothing else.
-/

namespace SourceAtlas

/-- A folder with its children, or a file with its path in the project. -/
inductive Tree
  | file (name path : String)
  | folder (name : String) (children : List Tree)

namespace Tree

/-- The name of a folder or file. -/
def name : Tree → String
  | .file name _ => name
  | .folder name _ => name

/-- Whether a node is a folder. -/
def isFolder : Tree → Bool
  | .file _ _ => false
  | .folder _ _ => true

/-! ## The order of children -/

/-- What the children of a folder are sorted by. -/
structure Rank where
  isFile : Bool
  key : List Nat
  name : String

/-- The rank of a node, for a sort key of names. -/
def rank (key : String → List Nat) (tree : Tree) : Rank :=
  ⟨!tree.isFolder, key tree.name, tree.name⟩

/-- Whether a rank comes before another one or equals it. -/
def Rank.le (a b : Rank) : Bool :=
  if a.isFile ≠ b.isFile then b.isFile
  else if a.key ≠ b.key then decide (a.key < b.key)
  else decide (a.name ≤ b.name)

/-- Sort the children of a folder. -/
def sortChildren (key : String → List Nat) (children : List Tree) : List Tree :=
  ((children.map fun child => (child.rank key, child)).mergeSort fun a b => a.1.le b.1).map Prod.snd

/-! ## From paths to a tree -/

/-- A file on its way into the tree: the segments that are left, and its path. -/
abbrev Leaf := List String × String

/-- The non-empty segments of a path. -/
def normalForm (path : String) : List String :=
  (Path.segments path).filter (· ≠ "")

/-- The files among the leaves of a folder. -/
def filesOf (leaves : List Leaf) : List Tree :=
  leaves.filterMap fun leaf =>
    match leaf.1 with
    | [name] => some (.file name leaf.2)
    | _ => none

/-- The names of the folders in a folder, in the order of their first leaves. -/
def folderNames (leaves : List Leaf) : List String :=
  (leaves.filterMap fun leaf =>
    match leaf.1 with
    | name :: _ :: _ => some name
    | _ => none).eraseDups

/-- The leaves in a folder of a folder, from there. -/
def leavesIn (folder : String) (leaves : List Leaf) : List Leaf :=
  leaves.filterMap fun leaf =>
    match leaf.1 with
    | name :: next :: rest => if name = folder then some (next :: rest, leaf.2) else none
    | _ => none

/-- The children of a folder with the given leaves, down to a depth. -/
def childrenOf (key : String → List Nat) : Nat → List Leaf → List Tree
  | 0, _ => []
  | depth + 1, leaves =>
    sortChildren key
      ((folderNames leaves).map (fun name =>
        .folder name (childrenOf key depth (leavesIn name leaves))) ++ filesOf leaves)

/-- The leaves that paths stand for: one for each normal form, with the first spelling of it. -/
def leavesOf (paths : List String) : List Leaf :=
  ((paths.map fun path => (normalForm path, path)).filter fun leaf => leaf.1 ≠ []).eraseDupsBy
    fun a b => a.1 == b.1

/-- The greatest number of segments of a leaf. -/
def depthOf (leaves : List Leaf) : Nat :=
  (leaves.map fun leaf => leaf.1.length).foldl max 0

/-- The tree of paths, with names sorted by a key. -/
def build (key : String → List Nat) (rootName : String) (paths : List String) : Tree :=
  let leaves := leavesOf paths
  .folder rootName (childrenOf key (depthOf leaves) leaves)

end Tree

end SourceAtlas
