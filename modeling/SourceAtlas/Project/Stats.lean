import SourceAtlas.Path.Lexical

/-!
# Numbers about a project

How many files there are of each extension, and which modules of an import graph are connected most.

The degree of a node is the number of edge ends at it.  Counting goes over the nodes and then over
the edges, and what is counted first comes first; `rank` sorts by degree and keeps that order among
equal degrees.
-/

namespace SourceAtlas

/-- Counts of texts, in the order in which each was first counted. -/
abbrev Counts := List (String × Nat)

namespace Counts

/-- Add to the count of a text, which starts at zero. -/
def add (text : String) (amount : Nat) : Counts → Counts
  | [] => [(text, amount)]
  | (other, count) :: rest =>
    if other = text then (other, count + amount) :: rest else (other, count) :: add text amount rest

end Counts

/-- The name under which files without an extension are counted. -/
def noExtension : String := "(none)"

/-- The extension that a path is counted under. -/
def countedExtension (path : String) : String :=
  let extension := Path.lowerExtension path
  if extension = "" then noExtension else extension

/-- How many paths there are of each extension. -/
def countExtensions (paths : List String) : Counts :=
  paths.foldl (fun counts path => counts.add (countedExtension path) 1) []

/-- The number of edge ends at each node, nodes of the list first. -/
def degrees (nodes : List String) (edges : List (String × String)) : Counts :=
  edges.foldl (fun counts edge => (counts.add edge.1 1).add edge.2 1)
    (nodes.foldl (fun counts node => counts.add node 0) [])

/-- The first elements of a list; a negative number says how many to leave out at the end. -/
def takeSigned {α : Type} (count : Int) (xs : List α) : List α :=
  if 0 ≤ count then xs.take count.toNat else xs.take (xs.length - (-count).toNat)

/-- The nodes by descending degree, as many as are asked for. -/
def rankDegrees (nodes : List String) (edges : List (String × String)) (count : Int) : Counts :=
  takeSigned count ((degrees nodes edges).mergeSort fun a b => decide (b.2 ≤ a.2))

/-- How many nodes a ranking shows by default. -/
def defaultTopDegree : Int := 8

/-- Numbers about a project. -/
structure Stats where
  extensions : Counts
  nodes : Nat
  edges : Nat
  topDegree : Counts

/-- The numbers about the files and the import graph of a project. -/
def Stats.of (paths nodes : List String) (edges : List (String × String)) (top : Int) : Stats where
  extensions := countExtensions paths
  nodes := nodes.length
  edges := edges.length
  topDegree := rankDegrees nodes edges top

/-- A project in one line: how many files, modules and imports it has, and up to three of the
modules that are connected most. -/
def Stats.summary (stats : Stats) (files : Nat) : String :=
  let top := (stats.topDegree.take 3).map fun (node, degree) =>
    node ++ " (" ++ toString degree ++ ")"
  toString files ++ " files, " ++ toString stats.nodes ++ " modules, " ++ toString stats.edges ++
    " local imports; most connected: " ++
    if top.isEmpty then "none" else ", ".intercalate top

end SourceAtlas
