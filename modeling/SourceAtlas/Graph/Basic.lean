import Std.Data.HashSet.Lemmas

/-!
# Import graphs

An import graph has nodes in the order in which they were added and edges between them, each at most
once.  An edge is refused unless both its ends are nodes already.

The edges are kept twice: as a list, in the order in which they were added, and as a set that tells
whether an edge is there.  What is asked of the set alone is right because the type carries what
every graph keeps: nodes are distinct, edges are distinct, both ends of an edge are nodes, and the
set holds the edges of the list and no others.
-/

namespace SourceAtlas

/-- A directed graph over file paths, in order of insertion. -/
structure Graph where
  nodes : List String
  edges : List (String × String)
  /-- The edges once more, without their order. -/
  edgeSet : Std.HashSet (String × String)
  nodes_nodup : nodes.Nodup
  edges_nodup : edges.Nodup
  ends_mem : ∀ edge ∈ edges, edge.1 ∈ nodes ∧ edge.2 ∈ nodes
  mem_edgeSet : ∀ edge, edge ∈ edgeSet ↔ edge ∈ edges

namespace Graph

/-- The graph without nodes. -/
def empty : Graph := ⟨[], [], ∅, by simp, by simp, by simp, by simp⟩

theorem nodup_concat {α : Type} {xs : List α} {x : α} (nodup : xs.Nodup) (fresh : x ∉ xs) :
    (xs ++ [x]).Nodup := by
  rw [List.nodup_append]
  refine ⟨nodup, by simp, fun a ha b hb e => ?_⟩
  obtain rfl : b = x := by simpa using hb
  exact fresh (e ▸ ha)

/-- Add a node unless it is there already. -/
def addNode (graph : Graph) (node : String) : Graph :=
  if h : node ∈ graph.nodes then graph
  else
    { graph with
      nodes := graph.nodes ++ [node]
      nodes_nodup := nodup_concat graph.nodes_nodup h
      ends_mem := fun edge he =>
        ⟨List.mem_append_left _ (graph.ends_mem edge he).1,
          List.mem_append_left _ (graph.ends_mem edge he).2⟩ }

/-- Whether an edge can be added: both ends are nodes, and the set does not hold the edge. -/
def Admits (graph : Graph) (source target : String) : Prop :=
  source ∈ graph.nodes ∧ target ∈ graph.nodes ∧ (source, target) ∉ graph.edgeSet

instance (graph : Graph) (source target : String) : Decidable (graph.Admits source target) := by
  unfold Admits
  infer_instance

/-- Add an edge between nodes unless it is there already.  The answer tells whether it was added. -/
def addEdge (graph : Graph) (source target : String) : Graph × Bool :=
  if h : graph.Admits source target then
    ({ graph with
        edges := graph.edges ++ [(source, target)]
        edgeSet := graph.edgeSet.insert (source, target)
        edges_nodup := nodup_concat graph.edges_nodup fun he => h.2.2 ((graph.mem_edgeSet _).2 he)
        ends_mem := fun edge he => by
          rcases List.mem_append.1 he with he | he
          · exact graph.ends_mem edge he
          · obtain rfl := List.mem_singleton.1 he
            exact ⟨h.1, h.2.1⟩
        mem_edgeSet := fun edge => by
          rw [Std.HashSet.mem_insert, beq_iff_eq, graph.mem_edgeSet, List.mem_append,
            List.mem_singleton, or_comm, eq_comm] }, true)
  else (graph, false)

end Graph

end SourceAtlas
