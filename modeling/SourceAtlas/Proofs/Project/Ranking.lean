import SourceAtlas.Proofs.Lists.FirstOccurrences
import SourceAtlas.Proofs.Project.Counts

/-!
# The ranking of nodes

The texts that have been counted stand in the order of their first occurrence
(`Counts.texts_addAll`).  So the degrees are listed for the nodes first, and then for the ends of
edges that are no nodes (`texts_degrees`).  Sorting by degree keeps this order among equal degrees,
since the sort is stable (`filter_sortedDegrees`).

Of any two nodes one outranks the other: the one with the greater degree, or of equal degrees the
one that occurred first (`Outranks`).  So there is one ranking of all nodes (`IsRanking.unique`),
and what is asked for is a beginning of it (`rankDegrees_stable`).
-/

namespace SourceAtlas

open Counts

variable {nodes : List String} {edges : List (String × String)} {ranking other : Counts}

/-! ## The order of counting -/

namespace Counts

variable {counts : Counts} {amount : Nat}

/-- Texts stand in the order in which they occurred first. -/
lemma texts_addAll (h : counts.texts.Nodup) (list : List String) :
    (counts.addAll amount list).texts = (counts.texts ++ list).eraseDups := by
  induction list using List.reverseRecOn with
  | nil => rw [List.append_nil, eraseDups_of_nodup h, addAll, List.foldl_nil]
  | append_singleton list text ih =>
    have hstep : counts.addAll amount (list ++ [text]) =
        (counts.addAll amount list).add text amount :=
      List.foldl_concat ..
    rw [hstep, texts_add, ih, ← List.append_assoc, eraseDups_concat]
    simp only [List.mem_eraseDups, List.elem_eq_mem, decide_eq_true_eq]

end Counts

/-! ## Degrees in order -/

/-- The nodes of a graph and the ends of its edges, each where it occurs first. -/
def rankedNodes (nodes : List String) (edges : List (String × String)) : List String :=
  (nodes ++ edgeEnds edges).eraseDups

lemma texts_degrees (nodes : List String) (edges : List (String × String)) :
    (degrees nodes edges).texts = rankedNodes nodes edges := by
  have hnil : (texts []).Nodup := List.nodup_nil
  have hnodes : (addAll [] 0 nodes).texts = nodes.eraseDups := texts_addAll hnil nodes
  rw [degrees_eq, texts_addAll (nodup_texts_addAll hnil), hnodes, rankedNodes,
    List.eraseDups_append, List.eraseDups_append, eraseDups_of_nodup (nodup_eraseDups nodes)]
  have hsame : (edgeEnds edges).removeAll nodes.eraseDups = (edgeEnds edges).removeAll nodes := by
    simp only [List.removeAll, List.elem_eq_mem, List.mem_eraseDups]
  rw [hsame]

lemma nodup_rankedNodes (nodes : List String) (edges : List (String × String)) :
    (rankedNodes nodes edges).Nodup := nodup_eraseDups _

lemma snd_of_mem_degrees {entry : String × Nat} (hm : entry ∈ degrees nodes edges) :
    entry.2 = degreeOf edges entry.1 := by
  rw [← countOf_degrees nodes, countOf_of_mem (nodup_texts_degrees nodes edges) hm]

/-- Whether a node comes before another one: it has the greater degree, or the same degree and
occurred first. -/
def Outranks (nodes : List String) (edges : List (String × String)) (first second : String) :
    Prop :=
  degreeOf edges second < degreeOf edges first ∨
    degreeOf edges first = degreeOf edges second ∧
      (rankedNodes nodes edges).idxOf first < (rankedNodes nodes edges).idxOf second

lemma Outranks.asymm {first second : String} (h : Outranks nodes edges first second) :
    ¬ Outranks nodes edges second first := by
  rintro (h' | ⟨h', hidx'⟩) <;> rcases h with h | ⟨h, hidx⟩ <;> omega

/-- All nodes in order, each with its degree. -/
structure IsRanking (nodes : List String) (edges : List (String × String)) (ranking : Counts) :
    Prop where
  perm : ranking.texts.Perm (rankedNodes nodes edges)
  degree : ∀ entry ∈ ranking, entry.2 = degreeOf edges entry.1
  ordered : ranking.texts.Pairwise (Outranks nodes edges)

namespace IsRanking

lemma eq_map (h : IsRanking nodes edges ranking) :
    ranking = ranking.texts.map fun node => (node, degreeOf edges node) := by
  rw [texts, List.map_map]
  conv_lhs => rw [← List.map_id ranking]
  refine List.map_congr_left fun entry hm => ?_
  exact Prod.ext rfl (h.degree entry hm)

/-- There is one order. -/
lemma unique (h : IsRanking nodes edges ranking) (h' : IsRanking nodes edges other) :
    other = ranking := by
  have htexts : other.texts = ranking.texts :=
    List.Perm.eq_of_pairwise (fun _ _ _ _ hab hba => absurd hba hab.asymm) h'.ordered h.ordered
      (h'.perm.trans h.perm.symm)
  rw [h'.eq_map, htexts, ← h.eq_map]

/-- Any beginning of a ranking outranks the rest. -/
lemma outranks_of_take (h : IsRanking nodes edges ranking) {count : Nat} {entry : String × Nat}
    {node : String} (hm : entry ∈ ranking.take count) (hn : node ∈ rankedNodes nodes edges)
    (hout : node ∉ texts (ranking.take count)) : Outranks nodes edges entry.1 node := by
  have hsplit : ranking.texts = texts (ranking.take count) ++ texts (ranking.drop count) := by
    rw [texts, texts, texts, ← List.map_append, List.take_append_drop]
  have hordered := h.ordered
  have hnode := h.perm.mem_iff.2 hn
  rw [hsplit] at hordered hnode
  have hrest := (List.mem_append.1 hnode).resolve_left hout
  exact (List.pairwise_append.1 hordered).2.2 entry.1 (List.mem_map_of_mem hm) node hrest

end IsRanking

/-! ## The sort is stable -/

/-- The degrees, sorted. -/
def sortedDegrees (nodes : List String) (edges : List (String × String)) : Counts :=
  (degrees nodes edges).mergeSort fun a b => decide (b.2 ≤ a.2)

lemma perm_sortedDegrees (nodes : List String) (edges : List (String × String)) :
    (sortedDegrees nodes edges).Perm (degrees nodes edges) :=
  List.mergeSort_perm _ _

lemma descending_trans (a b c : String × Nat) (hab : decide (b.2 ≤ a.2) = true)
    (hbc : decide (c.2 ≤ b.2) = true) : decide (c.2 ≤ a.2) = true :=
  decide_eq_true ((of_decide_eq_true hbc).trans (of_decide_eq_true hab))

lemma descending_total (a b : String × Nat) :
    (decide (b.2 ≤ a.2) || decide (a.2 ≤ b.2)) = true := by
  rcases Nat.le_total b.2 a.2 with h | h
  · simp [h]
  · simp [h]

/-- What has one degree stands in the order of the degrees before sorting. -/
lemma filter_sortedDegrees (nodes : List String) (edges : List (String × String)) (degree : Nat) :
    (sortedDegrees nodes edges).filter (fun entry => entry.2 = degree) =
      (degrees nodes edges).filter fun entry => entry.2 = degree := by
  have hequal : ((degrees nodes edges).filter fun entry => entry.2 = degree).Pairwise
      fun a b => decide (b.2 ≤ a.2) = true := by
    refine List.pairwise_of_forall_mem_list fun a ha b hb => decide_eq_true ?_
    have ha' := of_decide_eq_true (List.mem_filter.1 ha).2
    have hb' := of_decide_eq_true (List.mem_filter.1 hb).2
    omega
  have hsub := List.sublist_mergeSort descending_trans descending_total hequal List.filter_sublist
  have hkept := hsub.filter fun entry => decide (entry.2 = degree)
  rw [List.filter_filter] at hkept
  simp only [Bool.and_self] at hkept
  exact (hkept.eq_of_length ((perm_sortedDegrees nodes edges).symm.filter _).length_eq).symm

/-- In a list without repetitions, what stands first has the smaller index. -/
lemma idxOf_lt_of_sublist {α : Type} [BEq α] [LawfulBEq α] {xs : List α} {a b : α} (h : xs.Nodup)
    (hs : [a, b].Sublist xs) : xs.idxOf a < xs.idxOf b := by
  have hordered : xs.Pairwise fun a b => xs.idxOf a < xs.idxOf b := by
    rw [List.pairwise_iff_getElem]
    intro i j hi hj hij
    rwa [h.idxOf_getElem, h.idxOf_getElem]
  have hpair := hordered.sublist hs
  exact List.rel_of_pairwise_cons hpair (List.mem_singleton_self b)

lemma isRanking_sortedDegrees (nodes : List String) (edges : List (String × String)) :
    IsRanking nodes edges (sortedDegrees nodes edges) := by
  have hdegree : ∀ entry ∈ sortedDegrees nodes edges, entry.2 = degreeOf edges entry.1 :=
    fun entry hm =>
    snd_of_mem_degrees ((perm_sortedDegrees nodes edges).mem_iff.1 hm)
  refine ⟨?_, hdegree, ?_⟩
  · rw [← texts_degrees]
    exact (perm_sortedDegrees nodes edges).map Prod.fst
  · refine List.pairwise_map.2 (List.pairwise_of_forall_sublist fun {a b} hs => ?_)
    have hpair :=
      (List.pairwise_mergeSort descending_trans descending_total (degrees nodes edges)).sublist hs
    have hle : b.2 ≤ a.2 :=
      of_decide_eq_true (List.rel_of_pairwise_cons hpair (List.mem_singleton_self b))
    have ha := hdegree a (hs.mem (by simp))
    have hb := hdegree b (hs.mem (by simp))
    rcases Nat.lt_or_eq_of_le hle with hlt | heq
    · exact .inl (by omega)
    · -- Two entries of one degree stand in the order of the degrees before sorting.
      have hfiltered := hs.filter fun entry => decide (entry.2 = a.2)
      rw [filter_sortedDegrees, List.filter_eq_self.2 (by simp [heq])] at hfiltered
      have htexts := (hfiltered.trans List.filter_sublist).map Prod.fst
      have hnodes : [a.1, b.1].Sublist (rankedNodes nodes edges) :=
        texts_degrees nodes edges ▸ htexts
      exact .inr ⟨by omega, idxOf_lt_of_sublist (nodup_rankedNodes nodes edges) hnodes⟩

/-! ## Rankings of any length -/

/-- How many elements of a list come before a limit.  A limit below zero counts from the end of
the list. -/
def sliceLength (limit : Int) (length : Nat) : Nat :=
  if limit < 0 then (length + limit).toNat else min limit.toNat length

lemma takeSigned_eq_take {α : Type} (limit : Int) (xs : List α) :
    takeSigned limit xs = xs.take (sliceLength limit xs.length) := by
  rw [takeSigned, sliceLength]
  by_cases hneg : limit < 0
  · rw [if_neg (by omega), if_pos hneg]
    congr 1
    omega
  · rw [if_pos (by omega), if_neg hneg, List.take_eq_take_min]

/-- There is one ranking of all nodes, and what is returned is a beginning of it.  So no node is
left out that outranks one that is returned.  The degrees of all nodes are two for each edge. -/
theorem rankDegrees_stable (nodes : List String) (edges : List (String × String)) :
    ∃ ranking, IsRanking nodes edges ranking ∧
    (∀ other, IsRanking nodes edges other → other = ranking) ∧
      (∀ limit, rankDegrees nodes edges limit = ranking.take (sliceLength limit ranking.length)) ∧
      (∀ limit, ∀ entry ∈ rankDegrees nodes edges limit, ∀ node ∈ rankedNodes nodes edges,
        node ∉ texts (rankDegrees nodes edges limit) →
          Outranks nodes edges entry.1 node ∧ ¬ Outranks nodes edges node entry.1) ∧
      ranking.total = 2 * edges.length := by
  have hranking := isRanking_sortedDegrees nodes edges
  have hslice (limit : Int) : rankDegrees nodes edges limit =
      (sortedDegrees nodes edges).take (sliceLength limit (sortedDegrees nodes edges).length) :=
    takeSigned_eq_take limit (sortedDegrees nodes edges)
  refine ⟨_, hranking, fun other hother => hranking.unique hother, hslice, ?_, ?_⟩
  · intro limit entry hm node hn hout
    rw [hslice] at hm hout
    have hbefore := hranking.outranks_of_take hm hn hout
    exact ⟨hbefore, hbefore.asymm⟩
  · rw [total, ((perm_sortedDegrees nodes edges).map Prod.snd).sum_eq, ← total, total_degrees]

end SourceAtlas
