import Mathlib.Data.List.Basic
import SourceAtlas.Graph.Basic
import SourceAtlas.Proofs.Lists.FirstOccurrences

/-!
# What additions make of a graph

A graph is built by additions of nodes and edges, in any order and under any names: a node can be
added again, and an edge can be asked for before its ends are there, with its ends exchanged, or
from a node to itself.

What becomes of a graph can be told from the additions alone.  Its nodes are the names that were
added (`nodes_after`), and its edges the pairs that were asked for when both ends had been added
already (`edges_after`), each where it occurs first.  So an edge that is asked for too early leaves
no trace, and can be added later.

`Graph.after_records` puts this together with what each single answer means.  That the nodes, the
list of edges and the set of edges stay in step is part of the type of graphs, hence it holds
between any two additions.
-/

namespace SourceAtlas

/-- An addition to a graph. -/
inductive Addition
  | node (id : String)
  | edge (source target : String)

namespace Addition

/-- The names that are added as nodes, with repetitions. -/
def nodes (additions : List Addition) : List String :=
  additions.filterMap fun
    | .node id => some id
    | .edge _ _ => none

/-- The edges that are asked for when both ends are known, with repetitions.  Known are the names
given, and all that are added on the way. -/
def grounded : List String → List Addition → List (String × String)
  | _, [] => []
  | known, .node id :: later => grounded (known ++ [id]) later
  | known, .edge source target :: later =>
    if source ∈ known ∧ target ∈ known then (source, target) :: grounded known later
    else grounded known later

lemma nodes_append (additions later : List Addition) :
    nodes (additions ++ later) = nodes additions ++ nodes later :=
  List.filterMap_append

lemma nodes_map_node (ids : List String) : nodes (ids.map node) = ids := by
  rw [nodes, List.filterMap_map]
  exact List.filterMap_some

lemma grounded_map_edge {known : List String} {pairs : List (String × String)}
    (h : ∀ pair ∈ pairs, pair.1 ∈ known ∧ pair.2 ∈ known) :
    grounded known (pairs.map fun pair => edge pair.1 pair.2) = pairs := by
  induction pairs with
  | nil => rfl
  | cons pair pairs ih =>
    rw [List.map_cons, grounded, if_pos (h pair (List.mem_cons_self ..)),
      ih fun other ho => h other (List.mem_cons_of_mem _ ho)]

end Addition

namespace Graph

variable {graph : Graph} {id source target : String} {known : List String}
  {earlier : List (String × String)}

/-- The graph after an addition. -/
def add (graph : Graph) : Addition → Graph
  | .node id => graph.addNode id
  | .edge source target => (graph.addEdge source target).1

/-- The graph after additions. -/
def after (graph : Graph) (additions : List Addition) : Graph :=
  additions.foldl add graph

/-- The answers to the edges among additions. -/
def answers : Graph → List Addition → List Bool
  | _, [] => []
  | graph, .node id :: later => answers (graph.addNode id) later
  | graph, .edge source target :: later =>
    (graph.addEdge source target).2 :: answers (graph.addEdge source target).1 later

/-! ## One addition -/

/-- The set of edges can be asked in place of the list. -/
lemma admits_iff : graph.Admits source target ↔
    source ∈ graph.nodes ∧ target ∈ graph.nodes ∧ (source, target) ∉ graph.edges := by
  rw [Admits, graph.mem_edgeSet]

lemma addEdge_of_admits (h : graph.Admits source target) :
    (graph.addEdge source target).1.nodes = graph.nodes ∧
      (graph.addEdge source target).1.edges = graph.edges ++ [(source, target)] ∧
      (graph.addEdge source target).1.edgeSet = graph.edgeSet.insert (source, target) ∧
      (graph.addEdge source target).2 = true := by
  rw [addEdge, dif_pos h]
  exact ⟨rfl, rfl, rfl, rfl⟩

lemma addEdge_of_not_admits (h : ¬ graph.Admits source target) :
    graph.addEdge source target = (graph, false) := by
  rw [addEdge, dif_neg h]

lemma addEdge_eq_true_iff :
    (graph.addEdge source target).2 = true ↔ graph.Admits source target := by
  constructor
  · intro ht
    by_contra hn
    rw [addEdge_of_not_admits hn] at ht
    cases ht
  · intro ha
    exact (addEdge_of_admits ha).2.2.2

lemma addEdge_of_false (h : (graph.addEdge source target).2 = false) :
    (graph.addEdge source target).1 = graph := by
  have hn : ¬ graph.Admits source target := by
    rw [← addEdge_eq_true_iff, h]
    exact Bool.false_ne_true
  rw [addEdge_of_not_admits hn]

lemma nodes_addEdge (graph : Graph) (source target : String) :
    (graph.addEdge source target).1.nodes = graph.nodes := by
  by_cases ha : graph.Admits source target
  · exact (addEdge_of_admits ha).1
  · rw [addEdge_of_not_admits ha]

lemma edges_addNode (graph : Graph) (id : String) : (graph.addNode id).edges = graph.edges := by
  rw [addNode]
  split
  · rfl
  · rfl

lemma nodes_addNode (h : graph.nodes = known.eraseDups) :
    (graph.addNode id).nodes = (known ++ [id]).eraseDups := by
  rw [eraseDups_concat, addNode]
  by_cases hm : id ∈ known
  · rw [dif_pos (h ▸ List.mem_eraseDups.2 hm), if_pos (List.elem_iff.2 hm), h]
  · rw [dif_neg fun hn => hm (List.mem_eraseDups.1 (h ▸ hn)),
      if_neg fun he => hm (List.elem_iff.1 he)]
    exact congrArg (· ++ [id]) h

lemma edges_addEdge (h : graph.edges = earlier.eraseDups)
    (hends : source ∈ graph.nodes ∧ target ∈ graph.nodes) :
    (graph.addEdge source target).1.edges = (earlier ++ [(source, target)]).eraseDups := by
  rw [eraseDups_concat]
  by_cases hm : (source, target) ∈ earlier
  · have hn : ¬ graph.Admits source target := fun ha =>
      (admits_iff.1 ha).2.2 (h ▸ List.mem_eraseDups.2 hm)
    rw [addEdge_of_not_admits hn, if_pos (List.elem_iff.2 hm), h]
  · have ha : graph.Admits source target :=
      admits_iff.2 ⟨hends.1, hends.2, fun he => hm (List.mem_eraseDups.1 (h ▸ he))⟩
    rw [(addEdge_of_admits ha).2.1, if_neg fun he => hm (List.elem_iff.1 he), h]

/-- Nothing is taken away or moved by an addition. -/
lemma prefix_add (graph : Graph) (addition : Addition) :
    graph.nodes <+: (graph.add addition).nodes ∧ graph.edges <+: (graph.add addition).edges := by
  cases addition with
  | node id =>
    rw [add, edges_addNode, addNode]
    refine ⟨?_, List.prefix_refl _⟩
    split
    · exact List.prefix_refl _
    · exact List.prefix_append _ _
  | edge source target =>
    rw [add, nodes_addEdge]
    refine ⟨List.prefix_refl _, ?_⟩
    by_cases ha : graph.Admits source target
    · rw [(addEdge_of_admits ha).2.1]
      exact List.prefix_append _ _
    · simp only [addEdge_of_not_admits ha, List.prefix_refl]

/-! ## Additions one after the other -/

lemma after_cons (graph : Graph) (addition : Addition) (later : List Addition) :
    graph.after (addition :: later) = (graph.add addition).after later := rfl

lemma nodes_after (h : graph.nodes = known.eraseDups) (additions : List Addition) :
    (graph.after additions).nodes = (known ++ Addition.nodes additions).eraseDups := by
  induction additions generalizing graph known with
  | nil => rw [after, List.foldl_nil, h, Addition.nodes, List.filterMap_nil, List.append_nil]
  | cons addition later ih =>
    cases addition with
    | node id =>
      rw [after_cons, add, ih (nodes_addNode h), List.append_assoc, List.singleton_append]
      rfl
    | edge source target =>
      rw [after_cons, add, ih ((nodes_addEdge graph source target).trans h)]
      rfl

/-- The edges that come about are those that are grounded, each where it occurs first. -/
lemma edges_after (hnodes : graph.nodes = known.eraseDups)
    (hedges : graph.edges = earlier.eraseDups) (additions : List Addition) :
    (graph.after additions).edges = (earlier ++ Addition.grounded known additions).eraseDups := by
  -- What has been added before stands in the two lists: the names in one, the edges in the other.
  induction additions generalizing graph known earlier with
  | nil => rw [after, List.foldl_nil, hedges, Addition.grounded, List.append_nil]
  | cons addition later ih =>
    cases addition with
    | node id =>
      rw [after_cons, add, ih (nodes_addNode hnodes) ((edges_addNode graph id).trans hedges),
        Addition.grounded]
    | edge source target =>
      have hknown : source ∈ known ∧ target ∈ known ↔
          source ∈ graph.nodes ∧ target ∈ graph.nodes := by
        rw [hnodes, List.mem_eraseDups, List.mem_eraseDups]
      have hnodes' := (nodes_addEdge graph source target).trans hnodes
      rw [after_cons, add, Addition.grounded]
      by_cases hends : source ∈ known ∧ target ∈ known
      · rw [ih hnodes' (edges_addEdge hedges (hknown.1 hends)), if_pos hends, List.append_assoc,
          List.singleton_append]
      · have hn : ¬ graph.Admits source target := fun ha => hends (hknown.2 ⟨ha.1, ha.2.1⟩)
        rw [addEdge_of_not_admits hn, ih hnodes hedges, if_neg hends]

lemma prefix_after (graph : Graph) (later : List Addition) :
    graph.nodes <+: (graph.after later).nodes ∧ graph.edges <+: (graph.after later).edges := by
  induction later generalizing graph with
  | nil => exact ⟨List.prefix_refl _, List.prefix_refl _⟩
  | cons addition later ih =>
    obtain ⟨hnodes, hedges⟩ := prefix_add graph addition
    obtain ⟨hnodes', hedges'⟩ := ih (graph.add addition)
    exact ⟨hnodes.trans hnodes', hedges.trans hedges'⟩

/-- There is one more edge for each answer that says so. -/
lemma length_edges_after (graph : Graph) (additions : List Addition) :
    (graph.after additions).edges.length =
      graph.edges.length + (graph.answers additions).count true := by
  induction additions generalizing graph with
  | nil => rfl
  | cons addition later ih =>
    cases addition with
    | node id => rw [after_cons, add, ih, edges_addNode, answers]
    | edge source target =>
      rw [after_cons, add, ih, answers]
      by_cases ha : graph.Admits source target
      · obtain ⟨-, hedges, -, hanswer⟩ := addEdge_of_admits ha
        rw [hedges, hanswer, List.length_append, List.length_singleton, List.count_cons_self]
        omega
      · rw [addEdge_of_not_admits ha, List.count_cons_of_ne Bool.false_ne_true]

/-! ## Any additions -/

/-- What a graph holds after additions, how it answers the next one, and what becomes of
it later. -/
structure Records (additions : List Addition) (graph : Graph) : Prop where
  /-- The nodes are the names that were added, each where it was added first. -/
  nodes : graph.nodes = (Addition.nodes additions).eraseDups
  /-- The edges are those that were asked for with both ends known, each where this was so first. -/
  edges : graph.edges = (Addition.grounded [] additions).eraseDups
  distinct : graph.nodes.Nodup ∧ graph.edges.Nodup
  ends : ∀ edge ∈ graph.edges, edge.1 ∈ graph.nodes ∧ edge.2 ∈ graph.nodes
  /-- The set holds what the list holds. -/
  edgeSet : ∀ edge, edge ∈ graph.edgeSet ↔ edge ∈ graph.edges
  /-- An edge is accepted if both its ends have been added and it is not there yet. -/
  accepted_iff : ∀ source target, (graph.addEdge source target).2 = true ↔
    source ∈ Addition.nodes additions ∧ target ∈ Addition.nodes additions ∧
      (source, target) ∉ graph.edges
  /-- Where an edge is accepted, it is put behind the others, and nothing else changes. -/
  accepted : ∀ source target, (graph.addEdge source target).2 = true →
    (graph.addEdge source target).1.nodes = graph.nodes ∧
      (graph.addEdge source target).1.edges = graph.edges ++ [(source, target)] ∧
      (graph.addEdge source target).1.edgeSet = graph.edgeSet.insert (source, target)
  /-- Where an edge is refused, nothing changes. -/
  refused : ∀ source target, (graph.addEdge source target).2 = false →
    (graph.addEdge source target).1 = graph
  /-- As many edges are there as have been accepted. -/
  counted : graph.edges.length = (empty.answers additions).count true
  /-- Whatever is added later comes behind what is there. -/
  kept : ∀ later, graph.nodes <+: (graph.after later).nodes ∧
    graph.edges <+: (graph.after later).edges
  /-- An edge that is refused because an end is unknown is accepted whenever both ends have been
  added, unless it has been accepted in the meantime. -/
  reconsidered : ∀ source target, ¬ (source ∈ graph.nodes ∧ target ∈ graph.nodes) →
    (graph.addEdge source target).2 = false ∧
      ∀ later, (((graph.addEdge source target).1.after later).addEdge source target).2 = true ↔
        source ∈ Addition.nodes (additions ++ later) ∧
        target ∈ Addition.nodes (additions ++ later) ∧
          (source, target) ∉ Addition.grounded (Addition.nodes additions) later

lemma nodes_after_empty (additions : List Addition) :
    (empty.after additions).nodes = (Addition.nodes additions).eraseDups := by
  have hnone : empty.nodes = ([] : List String).eraseDups := rfl
  rw [nodes_after hnone, List.nil_append]

lemma edges_after_empty (additions : List Addition) :
    (empty.after additions).edges = (Addition.grounded [] additions).eraseDups := by
  have hnodes : empty.nodes = ([] : List String).eraseDups := rfl
  have hedges : empty.edges = ([] : List (String × String)).eraseDups := rfl
  rw [edges_after hnodes hedges, List.nil_append]

lemma mem_nodes_after_empty {additions : List Addition} :
    id ∈ (empty.after additions).nodes ↔ id ∈ Addition.nodes additions := by
  rw [nodes_after_empty, List.mem_eraseDups]

/-- An edge between names that are not both known is not there, so later it counts what is asked
for later. -/
lemma addEdge_after_eq_true_iff {additions : List Addition}
    (hends : ¬ (source ∈ (empty.after additions).nodes ∧ target ∈ (empty.after additions).nodes))
    (later : List Addition) :
    (((empty.after additions).after later).addEdge source target).2 = true ↔
      source ∈ Addition.nodes (additions ++ later) ∧ target ∈ Addition.nodes (additions ++ later) ∧
        (source, target) ∉ Addition.grounded (Addition.nodes additions) later := by
  have habsent : (source, target) ∉ Addition.grounded [] additions := by
    rw [← List.mem_eraseDups, ← edges_after_empty]
    exact fun hm => hends ((empty.after additions).ends_mem _ hm)
  have hnodes := nodes_after (nodes_after_empty additions) later
  have hedges := edges_after (nodes_after_empty additions) (edges_after_empty additions) later
  rw [addEdge_eq_true_iff, admits_iff, hnodes, hedges, Addition.nodes_append, List.mem_eraseDups,
    List.mem_eraseDups, List.mem_eraseDups]
  simp only [List.mem_append, habsent, false_or]

/-- A graph that is built by additions keeps account of them. -/
theorem after_records (additions : List Addition) : Records additions (empty.after additions) where
  nodes := nodes_after_empty additions
  edges := edges_after_empty additions
  distinct := ⟨(empty.after additions).nodes_nodup, (empty.after additions).edges_nodup⟩
  ends := (empty.after additions).ends_mem
  edgeSet := (empty.after additions).mem_edgeSet
  accepted_iff source target := by
    rw [addEdge_eq_true_iff, admits_iff, mem_nodes_after_empty, mem_nodes_after_empty]
  accepted source target haccepted := by
    obtain ⟨hnodes, hedges, hset, -⟩ := addEdge_of_admits (addEdge_eq_true_iff.1 haccepted)
    exact ⟨hnodes, hedges, hset⟩
  refused source target := addEdge_of_false
  counted := by
    have hnone : empty.edges.length = 0 := rfl
    rw [length_edges_after, hnone, Nat.zero_add]
  kept := prefix_after (empty.after additions)
  reconsidered source target hends := by
    have hn : ¬ (empty.after additions).Admits source target := fun ha => hends ⟨ha.1, ha.2.1⟩
    rw [addEdge_of_not_admits hn]
    exact ⟨rfl, addEdge_after_eq_true_iff hends⟩

/-- An edge that is asked for before its ends are there, again when one of them is, and twice
when both are; then the same edge backwards, one from a node to itself, and one to a name that is
not added. -/
def entangledAdditions : List Addition :=
  [.edge "a" "b", .node "a", .edge "a" "b", .node "b", .edge "a" "b", .edge "a" "b", .edge "b" "a",
    .node "a", .edge "a" "a", .edge "a" "c"]

/-- The edge that is refused at last is accepted when its end has been added. -/
theorem after_records_entangled :
    (empty.after entangledAdditions).nodes = ["a", "b"] ∧
      (empty.after entangledAdditions).edges = [("a", "b"), ("b", "a"), ("a", "a")] ∧
      (empty.answers entangledAdditions).count true = 3 ∧
      ((empty.after entangledAdditions).addEdge "a" "c").2 = false ∧
      ((((empty.after entangledAdditions).addEdge "a" "c").1.after [.node "c"]).addEdge "a" "c").2 =
        true := by
  have hrecords := after_records entangledAdditions
  have hnodes : (empty.after entangledAdditions).nodes = ["a", "b"] :=
    hrecords.nodes.trans (by decide)
  have hedges : (empty.after entangledAdditions).edges = [("a", "b"), ("b", "a"), ("a", "a")] :=
    hrecords.edges.trans (by decide)
  have hcount : (empty.answers entangledAdditions).count true = 3 := by
    rw [← hrecords.counted, hedges]
    rfl
  have hends : ¬ ("a" ∈ (empty.after entangledAdditions).nodes ∧
      "c" ∈ (empty.after entangledAdditions).nodes) := by
    rw [hnodes]
    decide
  obtain ⟨hrefused, hlater⟩ := hrecords.reconsidered "a" "c" hends
  exact ⟨hnodes, hedges, hcount, hrefused, (hlater [.node "c"]).2 (by decide)⟩

end Graph

end SourceAtlas
