import Mathlib.Data.List.Basic
import SourceAtlas.Project.Analysis
import SourceAtlas.Proofs.Graph.Additions
import SourceAtlas.Proofs.Project.Reading

/-!
# What an analysis is made of

The import graph of a project is determined by what is read of its code files
(`Graph.ofSources`).  Its nodes are the code files, in the order of the paths
(`Graph.nodes_ofSources`): edges never add one.

So the analysis of a directory is a function of the files that are listed and of what is read of the
code files among them (`Analysis.ofSources`, `on_analyzeDirectory`).
-/

namespace SourceAtlas

open FileSystem SourceAtlas.Action

namespace Graph

variable {fs : FileSystem} {root : String} {known paths : List String}
  {text? text?' : String → Option (List Char)}

/-- Add the edges of a file, given what is read of each. -/
def linkFile (text? : String → Option (List Char)) (known : List String) (graph : Graph)
    (path : String) : Graph :=
  match text? path with
  | none => graph
  | some text => graph.addTargets path (targets known path text)

/-- The import graph of paths, given what is read of each. -/
def ofSources (text? : String → Option (List Char)) (paths : List String) : Graph :=
  let code := paths.filter Imports.isCodeFile
  let graph := code.foldl addNode empty
  code.foldl (linkFile text? graph.nodes) graph

/-! ## Reading the files -/

lemma on_addFiles (graph : Graph)
    (hz : ∀ path ∈ paths, '\x00' ∉ (filePath root path).toList) :
    (addFiles root known graph paths).on fs =
      (.ok (paths.foldl (linkFile (fun path => fs.source? (filePath root path)) known) graph),
        fs) := by
  induction paths generalizing graph with
  | nil => rfl
  | cons path paths ih =>
    have hrest := fun graph => ih graph fun path hp => hz path (List.mem_cons_of_mem _ hp)
    rw [addFiles, on_bind_ok (on_sourceOf (hz path (List.mem_cons_self ..))), List.foldl_cons,
      linkFile]
    cases fs.source? (filePath root path) with
    | none => exact hrest graph
    | some text => exact hrest (graph.addTargets path (targets known path text))

/-- The graph of a project is that of what is read of its files. -/
lemma on_ofProject (hz : ∀ path ∈ paths, '\x00' ∉ (filePath root path).toList) :
    (ofProject root paths).on fs =
      (.ok (ofSources (fun path => fs.source? (filePath root path)) paths), fs) := by
  rw [ofProject]
  exact on_addFiles _ fun path hp => hz path (List.mem_filter.1 hp).1

/-- Only what is read of code files counts. -/
theorem ofSources_congr
    (h : ∀ path ∈ paths, Imports.isCodeFile path = true → text? path = text?' path) :
    ofSources text? paths = ofSources text?' paths := by
  refine List.foldl_ext _ _ _ ?_
  intro graph path hm
  obtain ⟨hp, hcode⟩ := List.mem_filter.1 hm
  rw [linkFile, linkFile, h path hp hcode]

/-! ## Nodes -/

lemma nodes_addTargets (graph : Graph) (source : String) (targets : List String) :
    (graph.addTargets source targets).nodes = graph.nodes := by
  induction targets generalizing graph with
  | nil => rfl
  | cons target targets ih =>
    rw [addTargets, List.foldl_cons, ← addTargets, ih, nodes_addEdge]

lemma nodes_linkFile (text? : String → Option (List Char)) (known : List String) (graph : Graph)
    (path : String) : (graph.linkFile text? known path).nodes = graph.nodes := by
  rw [linkFile]
  split
  · rfl
  · exact nodes_addTargets _ _ _

lemma nodes_foldl_linkFile (text? : String → Option (List Char)) (known : List String)
    (graph : Graph) (paths : List String) :
    (paths.foldl (linkFile text? known) graph).nodes = graph.nodes := by
  induction paths generalizing graph with
  | nil => rfl
  | cons path paths ih => rw [List.foldl_cons, ih, nodes_linkFile]

lemma nodes_foldl_addNode_empty (paths : List String) :
    (paths.foldl addNode empty).nodes = paths.eraseDups := by
  have hrun : paths.foldl addNode empty = empty.after (paths.map .node) := by
    rw [after, List.foldl_map]
    rfl
  rw [hrun, nodes_after_empty, Addition.nodes_map_node]

/-- The nodes are the code files, in the order of their first occurrence. -/
lemma nodes_ofSources_eraseDups (text? : String → Option (List Char)) (paths : List String) :
    (ofSources text? paths).nodes = (paths.filter Imports.isCodeFile).eraseDups := by
  rw [ofSources, nodes_foldl_linkFile, nodes_foldl_addNode_empty]

/-- The nodes are the code files. -/
theorem nodes_ofSources (text? : String → Option (List Char)) (h : paths.Nodup) :
    (ofSources text? paths).nodes = paths.filter Imports.isCodeFile := by
  rw [nodes_ofSources_eraseDups, eraseDups_of_nodup (h.filter _)]

end Graph

/-! ## The analysis of a directory -/

/-- The analysis of paths, given what is read of each. -/
def Analysis.ofSources (sortKey : String → List Nat) (top : Int) (jobId : Option String)
    (text? : String → Option (List Char)) (paths : List String) : Analysis where
  jobId := jobId
  filesCount := paths.length
  stats := .of paths (Graph.ofSources text? paths).nodes (Graph.ofSources text? paths).edges top
  tree := .build sortKey rootName paths
  graph := .ofSources text? paths

/-- The analysis of a directory is that of the files that are listed. -/
theorem on_analyzeDirectory {fs : FileSystem} {root : String} {place : Location}
    (sortKey : String → List Nat) (h : fs.LeadsTo root place) (config : Config)
    (jobId : Option String) :
    (analyzeDirectory sortKey config root jobId).on fs =
      (.ok (.ofSources sortKey config.topDegree jobId
        (fun path => fs.source? (Graph.filePath root path))
        ((fs.listed config.ignoredDirs root place).map Path.ofSegments)), fs) := by
  have hz (path : String)
      (hp : path ∈ (fs.listed config.ignoredDirs root place).map Path.ofSegments) :
      '\x00' ∉ (Graph.filePath root path).toList := by
    obtain ⟨names, hn, rfl⟩ := List.mem_map.1 hp
    obtain ⟨content, hfile⟩ := ((mem_listed h.isDirectory).1 hn).1.1
    exact zero_notMem_filePath h hfile
  rw [analyzeDirectory, on_bind_ok (on_scan h config.ignoredDirs),
    on_bind_ok (Graph.on_ofProject hz)]
  rfl

/-- Where the same files are listed, with the same code in them, the analyses are the same.  Where
nothing is listed, the root need not be found by its path. -/
lemma Analysis.ofListed_congr {fs fs' : FileSystem} {ignored : List String} {root root' : String}
    {place place' : Location} (hd : fs.isDirectory place) (hd' : fs'.isDirectory place')
    (h : ∀ names, fs.Listed ignored root place names → fs.LeadsTo root place)
    (h' : ∀ names, fs'.Listed ignored root' place' names → fs'.LeadsTo root' place')
    (hfiles : ∀ names, fs.Listed ignored root place names ↔ fs'.Listed ignored root' place' names)
    (hcode : ∀ names, fs.Listed ignored root place names →
      Imports.isCodeFile (Path.ofSegments names) = true →
        fs.get? (place ++ names) = fs'.get? (place' ++ names))
    (sortKey : String → List Nat) (top : Int) (jobId : Option String) :
    ofSources sortKey top jobId (fun path => fs.source? (Graph.filePath root path))
        ((fs.listed ignored root place).map Path.ofSegments) =
      ofSources sortKey top jobId (fun path => fs'.source? (Graph.filePath root' path))
        ((fs'.listed ignored root' place').map Path.ofSegments) := by
  have hlisted : fs.listed ignored root place = fs'.listed ignored root' place' := by
    refine listed_eq_listed fun names => ?_
    rw [mem_listed hd, mem_listed hd']
    exact hfiles names
  have hgraph : Graph.ofSources (fun path => fs.source? (Graph.filePath root path))
        ((fs.listed ignored root place).map Path.ofSegments) =
      Graph.ofSources (fun path => fs'.source? (Graph.filePath root' path))
        ((fs.listed ignored root place).map Path.ofSegments) := by
    refine Graph.ofSources_congr fun path hp hc => ?_
    obtain ⟨names, hn, rfl⟩ := List.mem_map.1 hp
    have hfrom := (mem_listed hd).1 hn
    have hfrom' := (hfiles names).1 hfrom
    obtain ⟨content, hfile⟩ := hfrom.1.1
    have hfile' : fs'.get? (place' ++ names) = some (.file content) := hcode names hfrom hc ▸ hfile
    rw [source?_below (h names hfrom) hfile hfrom.2,
      source?_below (h' names hfrom') hfile' hfrom'.2]
  rw [Analysis.ofSources, Analysis.ofSources, hgraph, hlisted]

end SourceAtlas
