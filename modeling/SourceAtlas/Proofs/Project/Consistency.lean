import SourceAtlas.Proofs.Project.Counts
import SourceAtlas.Proofs.Project.Leaves
import SourceAtlas.Proofs.Project.Sources

/-!
# What agrees in an analysis

The parts of an analysis are derived from the list of files separately: the tree with its own
reading of paths, the graph with its own choice of files, the numbers by counting.  They agree
(`Analysis.Consistent`) whenever the paths differ in their segments
(`Analysis.consistent_ofSources`), as those that a scan lists do (`analyzeDirectory_consistent`).
-/

namespace SourceAtlas

open FileSystem SourceAtlas.Action Counts

/-- The tree, the graph and the numbers of an analysis agree. -/
structure Analysis.Consistent (analysis : Analysis) (top : Int) : Prop where
  /-- Every file is a leaf of the tree. -/
  files_eq_leaves : analysis.filesCount = analysis.tree.leafPaths.length
  /-- Every file is counted under one extension. -/
  files_eq_extensions : analysis.filesCount = analysis.stats.extensions.total
  extensions_nodup : analysis.stats.extensions.texts.Nodup
  nodes_nodup : analysis.graph.nodes.Nodup
  /-- The nodes are the leaves with the extension of a code file. -/
  nodes_perm : analysis.graph.nodes.Perm
    (analysis.tree.leafPaths.filter fun path =>
      Path.lowerExtension path ∈ [".js", ".jsx", ".ts", ".tsx"])
  nodes_eq : analysis.stats.nodes = analysis.graph.nodes.length
  nodes_eq_extensions : analysis.stats.nodes =
    analysis.stats.extensions.countOf ".js" + analysis.stats.extensions.countOf ".jsx" +
      analysis.stats.extensions.countOf ".ts" + analysis.stats.extensions.countOf ".tsx"
  edges_nodup : analysis.graph.edges.Nodup
  ends_mem : ∀ edge ∈ analysis.graph.edges,
    edge.1 ∈ analysis.graph.nodes ∧ edge.2 ∈ analysis.graph.nodes
  edges_eq : analysis.stats.edges = analysis.graph.edges.length
  /-- A degree that is shown is the number of edge ends at a node. -/
  degrees_eq : ∀ entry ∈ analysis.stats.topDegree,
    entry.1 ∈ analysis.graph.nodes ∧ entry.2 = degreeOf analysis.graph.edges entry.1
  /-- The degrees of all nodes are two for each edge. -/
  degrees_total : (analysis.graph.nodes.length : Int) ≤ top →
    analysis.stats.topDegree.total = 2 * analysis.graph.edges.length

/-! ## Code files among the extensions -/

/-- A path without an extension is counted under no extension of code. -/
lemma countedExtension_eq_iff {path extension : String} (h : extension ∈ Imports.codeExtensions) :
    countedExtension path = extension ↔ Path.lowerExtension path = extension := by
  have hcode : extension ≠ "" ∧ extension ≠ noExtension := by
    have hall : ∀ extension ∈ Imports.codeExtensions, extension ≠ "" ∧ extension ≠ noExtension := by
      decide
    exact hall extension h
  rw [countedExtension]
  split
  · rename_i hempty
    rw [hempty]
    exact ⟨fun he => absurd he.symm hcode.2, fun he => absurd he.symm hcode.1⟩
  · rfl

/-- The counts of the extensions of code add up to the number of code files. -/
lemma sum_code_extensions (paths : List String) :
    (Imports.codeExtensions.map (countExtensions paths).countOf).sum =
      (paths.filter Imports.isCodeFile).length := by
  have hkeys : Imports.codeExtensions.Nodup := by decide
  have hgroups := (flatMap_filter_perm Path.lowerExtension paths hkeys).length_eq
  have hcode : paths.filter Imports.isCodeFile =
      paths.filter fun path => Path.lowerExtension path ∈ Imports.codeExtensions := by
    refine List.filter_congr ?_
    intro path _
    rw [Imports.isCodeFile, List.contains_eq_mem]
  rw [hcode, ← hgroups, List.length_flatMap]
  refine congrArg List.sum (List.map_congr_left ?_)
  intro extension he
  rw [countOf_countExtensions, List.countP_eq_length_filter]
  refine congrArg List.length (List.filter_congr ?_)
  intro path _
  rw [decide_eq_decide]
  exact countedExtension_eq_iff he

/-! ## The analysis -/

variable {paths : List String}

/-- The analysis of paths that differ in their segments is consistent. -/
theorem Analysis.consistent_ofSources (sortKey : String → List Nat) (top : Int)
    (jobId : Option String) (text? : String → Option (List Char))
    (hne : ∀ path ∈ paths, Tree.normalForm path ≠ [])
    (h : paths.Pairwise fun a b => Tree.normalForm a ≠ Tree.normalForm b) :
    (ofSources sortKey top jobId text? paths).Consistent top := by
  have hnodup : paths.Nodup := h.imp fun hab he => hab (congrArg Tree.normalForm he)
  have hleaves := Tree.leafPaths_build_of_pairwise sortKey hne h rootName
  have hnodes := Graph.nodes_ofSources text? hnodup
  have hgraph := (Graph.ofSources text? paths).ends_mem
  constructor
  case files_eq_leaves => exact hleaves.length_eq.symm
  case files_eq_extensions => exact (total_countExtensions paths).symm
  case extensions_nodup => exact nodup_texts_countExtensions paths
  case nodes_nodup => exact (Graph.ofSources text? paths).nodes_nodup
  case nodes_perm =>
    show (Graph.ofSources text? paths).nodes.Perm _
    rw [hnodes]
    refine ((hleaves.filter _).trans (.of_eq (List.filter_congr ?_))).symm
    intro path _
    rw [Imports.isCodeFile, List.contains_eq_mem]
    rfl
  case nodes_eq => rfl
  case nodes_eq_extensions =>
    have hsum := sum_code_extensions paths
    rw [← hnodes] at hsum
    refine hsum.symm.trans ?_
    simp only [Imports.codeExtensions, List.map_cons, List.map_nil, List.sum_cons, List.sum_nil,
      Nat.add_zero, ← Nat.add_assoc]
    rfl
  case edges_nodup => exact (Graph.ofSources text? paths).edges_nodup
  case ends_mem => exact hgraph
  case edges_eq => rfl
  case degrees_eq => exact fun entry hm => mem_rankDegrees hgraph hm
  case degrees_total =>
    exact total_rankDegrees (Graph.ofSources text? paths).nodes_nodup hgraph

/-- The path that names make up has the names as its segments. -/
lemma normalForm_ofSegments {names : Location} (hne : names ≠ [])
    (h : ∀ name ∈ names, PlainName name) : Tree.normalForm (Path.ofSegments names) = names := by
  rw [Tree.normalForm, Path.segments_ofSegments hne fun name hn => (h name hn).2.2.2,
    List.filter_eq_self]
  intro name hn
  simpa using (h name hn).1

section Listed

variable {fs : FileSystem} {ignored : List String} {root : String} {place : Location}

lemma normalForm_of_mem_listed (hd : fs.isDirectory place) {names : Location}
    (hn : names ∈ fs.listed ignored root place) :
    Tree.normalForm (Path.ofSegments names) = names := by
  obtain ⟨content, hfile⟩ := ((mem_listed hd).1 hn).1.1
  refine normalForm_ofSegments (ne_nil_of_mem_listed hn) ?_
  intro name hm
  exact (validName_of_get? hfile (List.mem_append_right _ hm)).plain

/-- The analysis of the files that are listed is consistent. -/
lemma Analysis.consistent_ofListed (sortKey : String → List Nat) (hd : fs.isDirectory place)
    (top : Int) (jobId : Option String) (text? : String → Option (List Char)) :
    (ofSources sortKey top jobId text?
      ((fs.listed ignored root place).map Path.ofSegments)).Consistent top := by
  refine consistent_ofSources _ _ _ _ ?_ ?_
  · intro path hp
    obtain ⟨names, hn, rfl⟩ := List.mem_map.1 hp
    rw [normalForm_of_mem_listed hd hn]
    exact ne_nil_of_mem_listed hn
  · rw [List.pairwise_map]
    refine (nodup_listed fs ignored root place).imp_of_mem ?_
    intro first second hfirst hsecond hne
    rwa [normalForm_of_mem_listed hd hfirst, normalForm_of_mem_listed hd hsecond]

end Listed

/-- Whatever the file system holds, the analysis of a directory yields a consistent result. -/
theorem analyzeDirectory_consistent {fs : FileSystem} {root : String} {place : Location}
    (sortKey : String → List Nat) (h : fs.LeadsTo root place) (config : Config)
    (jobId : Option String) :
    ∃ analysis, (analyzeDirectory sortKey config root jobId).on fs = (.ok analysis, fs) ∧
      analysis.Consistent config.topDegree :=
  ⟨_, on_analyzeDirectory sortKey h config jobId,
    Analysis.consistent_ofListed sortKey h.isDirectory _ _ _⟩

/-- A project with a file that imports itself, a file of the same name that imports it from a
directory, and a file without an extension. -/
def entwined : FileSystem :=
  (((((FileSystem.empty [] ⟨0⟩).insert ["p"] .directory).insert ["p", "a.JS"]
    (.file "import './a.JS'".toUTF8)).insert ["p", "lib"] .directory).insert ["p", "lib", "a.JS"]
    (.file "import '../a.JS'".toUTF8)).insert ["p", ".profile"] (.file .empty)

theorem analyzeDirectory_consistent_entwined :
    entwined.LeadsTo "p" ["p"] ∧
    ∃ analysis, (analyzeDirectory Collation.sortKey {} "p" none).on entwined =
      (.ok analysis, entwined) ∧
      analysis.Consistent 8 := by
  have h : entwined.LeadsTo "p" ["p"] := leadsTo_iff_locate.2 (by decide +kernel)
  exact ⟨h, analyzeDirectory_consistent Collation.sortKey h {} none⟩

end SourceAtlas
