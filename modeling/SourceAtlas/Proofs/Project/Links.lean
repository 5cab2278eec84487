import SourceAtlas.Proofs.Project.Sources

/-!
# Which files a project links

The import graph of a list of paths is what the specifiers of its code files resolve to, no more and
no less (`Graph.Resolves`, `Graph.ofProject_resolves`).  Its nodes are the code files in the order
of their first occurrence, its edges are grouped by the file that they start from, and those of a
file come in the order of its specifiers.  Hence only the set of the code files matters for which
nodes and edges there are.

The nodes are added first, and then the edges between them.  So what comes of the additions is
`List.eraseDups` of all that was to be added (`Graph.nodes_foldl_addNode_empty`,
`Graph.edges_foldl_addPair`).
-/

namespace SourceAtlas

open FileSystem SourceAtlas.Action

namespace Graph

variable {fs : FileSystem} {graph : Graph} {root path source target : String}
  {known paths : List String} {text? : String → Option (List Char)}

/-! ## Building a graph -/

/-- The files that the specifiers of a file refer to, given what is read of it. -/
def links (text? : String → Option (List Char)) (known : List String) (path : String) :
    List String :=
  match text? path with
  | none => []
  | some text => targets known path text

/-- Add an edge that is given as a pair. -/
def addPair (graph : Graph) (pair : String × String) : Graph :=
  (graph.addEdge pair.1 pair.2).1

lemma linkFile_eq : graph.linkFile text? known path =
    ((links text? known path).map (Prod.mk path)).foldl addPair graph := by
  rw [linkFile, links, List.foldl_map]
  cases text? path with
  | none => rfl
  | some text => rfl

/-- Edges between nodes are all added, each where it occurs first. -/
lemma edges_foldl_addPair {pairs earlier : List (String × String)}
    (h : graph.edges = earlier.eraseDups)
    (hends : ∀ pair ∈ pairs, pair.1 ∈ graph.nodes ∧ pair.2 ∈ graph.nodes) :
    (pairs.foldl addPair graph).edges = (earlier ++ pairs).eraseDups := by
  have hnodes : graph.nodes = graph.nodes.eraseDups := (eraseDups_of_nodup graph.nodes_nodup).symm
  have hrun : pairs.foldl addPair graph = graph.after
      (pairs.map fun pair => .edge pair.1 pair.2) := by
    rw [after, List.foldl_map]
    rfl
  rw [hrun, edges_after hnodes h, Addition.grounded_map_edge hends]

/-! ## The graph of what is read -/

lemma mem_known_of_resolve? {specifier : String}
    (h : Imports.resolve? path specifier known = some target) :
    target ∈ known :=
  List.contains_iff_mem.1 (List.find?_some h)

lemma mem_links_iff : target ∈ links text? known source ↔
    ∃ text specifier, text? source = some text ∧
      specifier ∈ Imports.localSpecifiers text ∧
      Imports.resolve? source specifier known = some target := by
  rw [links]
  cases text? source with
  | none => simp
  | some text =>
    dsimp only
    rw [targets, List.mem_filterMap]
    simp

lemma mem_known_of_mem_links (h : target ∈ links text? known source) : target ∈ known := by
  obtain ⟨text, specifier, -, -, hresolve⟩ := mem_links_iff.1 h
  exact mem_known_of_resolve? hresolve

/-- What a file refers to depends on the set of known files alone. -/
lemma mem_links_congr {known' : List String} (h : ∀ path, path ∈ known' ↔ path ∈ known) :
    target ∈ links text? known' source ↔ target ∈ links text? known source := by
  have hcontains : (fun path => known'.contains path) = fun path => known.contains path := by
    funext path
    rw [Bool.eq_iff_iff, List.contains_iff_mem, List.contains_iff_mem, h]
  rw [mem_links_iff, mem_links_iff]
  simp only [Imports.resolve?, hcontains]

lemma edges_foldl_addNode (graph : Graph) (paths : List String) :
    (paths.foldl addNode graph).edges = graph.edges := by
  induction paths generalizing graph with
  | nil => rfl
  | cons path paths ih => rw [List.foldl_cons, ih, edges_addNode]

/-- The edges of a file come together, and in the order of its links. -/
lemma edges_ofSources (text? : String → Option (List Char)) (paths : List String) :
    (ofSources text? paths).edges = (ofSources text? paths).nodes.flatMap fun source =>
      (links text? (ofSources text? paths).nodes source).eraseDups.map (Prod.mk source) := by
  have hnodes := nodes_ofSources_eraseDups text? paths
  generalize hcode : paths.filter Imports.isCodeFile = code at hnodes
  have hbase := nodes_foldl_addNode_empty code
  have hadded : ofSources text? paths = (code.flatMap fun source =>
      (links text? code.eraseDups source).map (Prod.mk source)).foldl addPair
        (code.foldl addNode empty) := by
    rw [ofSources, hcode, hbase, List.foldl_flatMap]
    congr 1
    funext graph path
    exact linkFile_eq
  have hends : ∀ pair ∈ code.flatMap fun source =>
        (links text? code.eraseDups source).map (Prod.mk source),
      pair.1 ∈ (code.foldl addNode empty).nodes ∧ pair.2 ∈ (code.foldl addNode empty).nodes := by
    intro pair hp
    obtain ⟨source, hs, hp⟩ := List.mem_flatMap.1 hp
    obtain ⟨target, ht, rfl⟩ := List.mem_map.1 hp
    rw [hbase]
    exact ⟨List.mem_eraseDups.2 hs, mem_known_of_mem_links ht⟩
  -- Pairs of different files differ, so repetitions are those of one file.
  have hapart : ∀ source source' pair,
      pair ∈ (links text? code.eraseDups source).map (Prod.mk source) →
      pair ∈ (links text? code.eraseDups source').map (Prod.mk source') → source = source' := by
    intro source source' pair hp hp'
    obtain ⟨target, _, rfl⟩ := List.mem_map.1 hp
    obtain ⟨target', _, he⟩ := List.mem_map.1 hp'
    exact (Prod.mk.inj he).1.symm
  have hnone : (code.foldl addNode empty).edges = ([] : List (String × String)).eraseDups :=
    edges_foldl_addNode empty code
  rw [hnodes, hadded, edges_foldl_addPair hnone hends, List.nil_append, eraseDups_flatMap hapart]
  congr 1
  funext source
  exact eraseDups_map (Prod.mk_right_injective source) _

/-! ## The graph of a project -/

/-- The graph is what the specifiers of the code files among the paths resolve to.  A file of which
nothing can be read is a node like any other, but no edge starts from it.  That an edge is there
only once is part of the type of graphs. -/
structure Resolves (fs : FileSystem) (root : String) (paths : List String) (graph : Graph) :
    Prop where
  nodes : graph.nodes = (paths.filter Imports.isCodeFile).eraseDups
  mem_edges : ∀ source target, (source, target) ∈ graph.edges ↔ source ∈ graph.nodes ∧
    ∃ content text specifier, fs.readFile (filePath root source) = .ok content ∧
      Utf8.decode content.toList = .ok text ∧
      specifier ∈ Imports.localSpecifiers (Text.unifyNewlines text) ∧
      Imports.resolve? source specifier graph.nodes = some target
  edges : graph.edges = graph.nodes.flatMap fun source =>
    (links (fun path => fs.source? (filePath root path)) graph.nodes source).eraseDups.map
      (Prod.mk source)

/-- A graph is given, unless a zero character makes one of its files one that cannot be
asked for. -/
def answer (root : String) (graph : Graph) : Except Failure Graph :=
  if ∃ path ∈ graph.nodes, '\x00' ∈ root.toList ∨ '\x00' ∈ path.toList then .error (.file .nullByte)
  else .ok graph

lemma answer_eq_ok (hroot : '\x00' ∉ root.toList)
    (hnodes : ∀ path ∈ graph.nodes, '\x00' ∉ path.toList) :
    answer root graph = .ok graph := by
  rw [answer, if_neg]
  rintro ⟨path, hp, hz | hz⟩
  · exact hroot hz
  · exact hnodes path hp hz

lemma source?_eq_some_iff {text : List Char} : fs.source? path = some text ↔
    ∃ content decoded, fs.readFile path = .ok content ∧ Utf8.decode content.toList = .ok decoded ∧
      Text.unifyNewlines decoded = text := by
  rw [source?]
  cases fs.readFile path with
  | error e => simp
  | ok content =>
    dsimp only
    cases hdecode : Utf8.decode content.toList <;> simp [hdecode]

lemma mem_edges_ofSources : (source, target) ∈ (ofSources text? paths).edges ↔
    source ∈ (ofSources text? paths).nodes ∧
      target ∈ links text? (ofSources text? paths).nodes source := by
  rw [edges_ofSources, List.mem_flatMap]
  constructor
  · rintro ⟨other, hs, hm⟩
    obtain ⟨target', ht, he⟩ := List.mem_map.1 hm
    obtain ⟨rfl, rfl⟩ := Prod.mk.inj he
    exact ⟨hs, List.mem_eraseDups.1 ht⟩
  · rintro ⟨hs, ht⟩
    exact ⟨source, hs, List.mem_map.2 ⟨target, List.mem_eraseDups.2 ht, rfl⟩⟩

lemma resolves_ofSources (fs : FileSystem) (root : String) (paths : List String) :
    Resolves fs root paths (ofSources (fun path => fs.source? (filePath root path)) paths) := by
  refine ⟨nodes_ofSources_eraseDups _ paths, fun source target => ?_, edges_ofSources _ paths⟩
  rw [mem_edges_ofSources, mem_links_iff]
  refine and_congr_right fun _ => ?_
  constructor
  · rintro ⟨text, specifier, hread, hs, hr⟩
    obtain ⟨content, decoded, hcontent, hdecoded, rfl⟩ := source?_eq_some_iff.1 hread
    exact ⟨content, decoded, specifier, hcontent, hdecoded, hs, hr⟩
  · rintro ⟨content, text, specifier, hcontent, hdecoded, hs, hr⟩
    exact ⟨_, specifier, source?_eq_some_iff.2 ⟨content, text, hcontent, hdecoded, rfl⟩, hs, hr⟩

/-- The same code files make the same nodes and edges. -/
lemma perm_ofSources {paths' : List String}
    (h : ∀ path, Imports.isCodeFile path = true → (path ∈ paths' ↔ path ∈ paths)) :
    (ofSources text? paths').nodes.Perm (ofSources text? paths).nodes ∧
      (ofSources text? paths').edges.Perm (ofSources text? paths).edges := by
  have hnodes (path : String) :
      path ∈ (ofSources text? paths').nodes ↔ path ∈ (ofSources text? paths).nodes := by
    rw [nodes_ofSources_eraseDups, nodes_ofSources_eraseDups, List.mem_eraseDups,
      List.mem_eraseDups, List.mem_filter, List.mem_filter]
    exact and_congr_left fun hcode => h path hcode
  refine ⟨(List.perm_ext_iff_of_nodup (nodes_nodup _) (nodes_nodup _)).2 hnodes,
    (List.perm_ext_iff_of_nodup (edges_nodup _) (edges_nodup _)).2 ?_⟩
  rintro ⟨source, target⟩
  rw [mem_edges_ofSources, mem_edges_ofSources, hnodes, mem_links_congr hnodes]

/-! ## Running the builder -/

lemma on_addFiles_of_zero (graph : Graph)
    (hz : ∃ path ∈ paths, '\x00' ∈ (filePath root path).toList) :
    (addFiles root known graph paths).on fs = (.error (.file .nullByte), fs) := by
  induction paths generalizing graph with
  | nil => simp at hz
  | cons path paths ih =>
    by_cases hpath : '\x00' ∈ (filePath root path).toList
    · have hthrow : (sourceOf root path).on fs = (.error (.file .nullByte), fs) := by
        rw [sourceOf]
        dsimp only
        rw [if_pos hpath]
        rfl
      rw [addFiles, on_bind_error hthrow]
    · have hrest : ∃ path ∈ paths, '\x00' ∈ (filePath root path).toList := by
        obtain ⟨other, ho, hc⟩ := hz
        rcases List.mem_cons.1 ho with rfl | ho
        · exact absurd hc hpath
        · exact ⟨other, ho, hc⟩
      rw [addFiles, on_bind_ok (on_sourceOf hpath)]
      cases fs.source? (filePath root path) with
      | none => exact ih graph hrest
      | some text => exact ih _ hrest

lemma on_ofProject_answer (fs : FileSystem) (root : String) (paths : List String) :
    (ofProject root paths).on fs =
      (answer root (ofSources (fun path => fs.source? (filePath root path)) paths), fs) := by
  have hzero : (∃ path ∈ (ofSources (fun path => fs.source? (filePath root path)) paths).nodes,
      '\x00' ∈ root.toList ∨ '\x00' ∈ path.toList) ↔
        ∃ path ∈ paths.filter Imports.isCodeFile, '\x00' ∈ (filePath root path).toList := by
    rw [nodes_ofSources_eraseDups]
    simp only [List.mem_eraseDups, zero_mem_filePath]
  rw [answer, ofProject]
  split
  · rename_i hz
    exact on_addFiles_of_zero _ (hzero.1 hz)
  · rename_i hz
    exact on_addFiles _ fun path hp hc => hz (hzero.2 ⟨path, hp, hc⟩)

/-- The import graph of a project is what the specifiers of its code files resolve to, whatever
stands in the file system.  Which nodes and edges it has depends on the set of its code files alone:
not on their order, on how often a path is given, or on other files. -/
theorem ofProject_resolves (fs : FileSystem) (root : String) (paths : List String) :
    ∃ graph, Resolves fs root paths graph ∧ (ofProject root paths).on fs = (answer root graph, fs) ∧
      ∀ paths', (∀ path, Imports.isCodeFile path = true → (path ∈ paths' ↔ path ∈ paths)) →
        ∃ graph', (ofProject root paths').on fs = (answer root graph', fs) ∧
          graph'.nodes.Perm graph.nodes ∧ graph'.edges.Perm graph.edges :=
  ⟨_, resolves_ofSources fs root paths, on_ofProject_answer fs root paths,
    fun paths' h => ⟨_, on_ofProject_answer fs root paths', perm_ofSources h⟩⟩

/-- A file that refers to another one twice and to itself, and one that holds no text. -/
def twoFiles : FileSystem :=
  (((FileSystem.empty [] ⟨0⟩).insert ["p"] .directory).insert ["p", "a.js"]
    (.file "import './b'; require('./b.js'); import './a.js'; import './c'".toUTF8)).insert
    ["p", "b.js"] (.file ⟨#[0xff]⟩)

theorem ofProject_resolves_twoFiles : ∃ graph graph',
    (ofProject "p" ["a.js", "notes.txt", "b.js", "a.js"]).on twoFiles = (.ok graph, twoFiles) ∧
    (ofProject "p" ["b.js", "a.js"]).on twoFiles = (.ok graph', twoFiles) ∧
    graph.nodes = ["a.js", "b.js"] ∧ graph.edges = [("a.js", "b.js"), ("a.js", "a.js")] ∧
    graph'.nodes.Perm graph.nodes ∧ graph'.edges.Perm graph.edges := by
  obtain ⟨graph, hgraph, hrun, hsame⟩ :=
    ofProject_resolves twoFiles "p" ["a.js", "notes.txt", "b.js", "a.js"]
  have hnodes : graph.nodes = ["a.js", "b.js"] := hgraph.nodes.trans (by decide +kernel)
  have hedges : graph.edges = [("a.js", "b.js"), ("a.js", "a.js")] := by
    rw [hgraph.edges, hnodes]
    decide +kernel
  have hcode : ∀ path, Imports.isCodeFile path = true →
      (path ∈ ["b.js", "a.js"] ↔ path ∈ ["a.js", "notes.txt", "b.js", "a.js"]) := by
    intro path hc
    have hnotes : path ≠ "notes.txt" := by
      rintro rfl
      revert hc
      decide +kernel
    simp [hnotes, or_comm]
  obtain ⟨graph', hrun', hperm, hperm'⟩ := hsame ["b.js", "a.js"] hcode
  have hroot : '\x00' ∉ "p".toList := by decide
  have hzero : ∀ path ∈ graph.nodes, '\x00' ∉ path.toList := by
    rw [hnodes]
    decide
  have hzero' : ∀ path ∈ graph'.nodes, '\x00' ∉ path.toList :=
    fun path hp => hzero path (hperm.mem_iff.1 hp)
  rw [answer_eq_ok hroot hzero] at hrun
  rw [answer_eq_ok hroot hzero'] at hrun'
  exact ⟨graph, graph', hrun, hrun', hnodes, hedges, hperm, hperm'⟩

end Graph

end SourceAtlas
