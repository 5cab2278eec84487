import Mathlib.Algebra.BigOperators.Group.List.Basic
import Mathlib.Algebra.Ring.Nat
import Mathlib.Data.List.Nodup
import SourceAtlas.Project.Stats

/-!
# Counting

Counts hold each text once (`Counts.nodup_texts_addAll`), and counting texts adds to the count of
each as often as it is among them (`Counts.countOf_addAll`).  So the counts of extensions add up to
the number of paths (`total_countExtensions`), the degree of a node is the number of edge ends at it
(`countOf_degrees`), and all degrees together are two for each edge (`total_degrees`).
-/

namespace SourceAtlas

namespace Counts

variable {counts : Counts} {text other : String} {amount : Nat}

/-- The texts that were counted. -/
def texts (counts : Counts) : List String := counts.map Prod.fst

/-- The count of a text, which is zero if it was never counted. -/
def countOf (counts : Counts) (text : String) : Nat := (counts.lookup text).getD 0

/-- All counts together. -/
def total (counts : Counts) : Nat := (counts.map Prod.snd).sum

/-! ## Counting once -/

lemma countOf_cons (counts : Counts) (other : String) (count : Nat) (text : String) :
    countOf ((other, count) :: counts) text =
      if text = other then count else counts.countOf text := by
  rw [countOf, List.lookup_cons]
  by_cases he : text = other
  · simp [he]
  · rw [if_neg he, beq_false_of_ne he]
    rfl

lemma countOf_add : (counts.add text amount).countOf other =
    counts.countOf other + if other = text then amount else 0 := by
  induction counts with
  | nil =>
    rw [add, countOf_cons]
    simp [countOf]
  | cons entry rest ih =>
    obtain ⟨first, count⟩ := entry
    rw [add]
    by_cases hfirst : first = text
    · rw [if_pos hfirst, countOf_cons, countOf_cons, hfirst]
      split <;> omega
    · rw [if_neg hfirst, countOf_cons, countOf_cons, ih]
      by_cases ho : other = first
      · rw [if_pos ho, if_pos ho, if_neg (ho ▸ hfirst), Nat.add_zero]
      · rw [if_neg ho, if_neg ho]

lemma total_add : (counts.add text amount).total = counts.total + amount := by
  induction counts with
  | nil => simp [add, total]
  | cons entry rest ih =>
    obtain ⟨first, count⟩ := entry
    rw [add]
    unfold total at ih ⊢
    split
    · simp only [List.map_cons, List.sum_cons]
      omega
    · simp only [List.map_cons, List.sum_cons, ih]
      omega

/-- A text that is new comes last. -/
lemma texts_add : (counts.add text amount).texts =
    if text ∈ counts.texts then counts.texts else counts.texts ++ [text] := by
  induction counts with
  | nil => rfl
  | cons entry rest ih =>
    obtain ⟨first, count⟩ := entry
    have hcons (rest : Counts) (count : Nat) :
        texts ((first, count) :: rest) = first :: texts rest := rfl
    rw [add, hcons]
    by_cases hfirst : first = text
    · rw [if_pos hfirst, if_pos (by simp [hfirst]), hcons]
    · rw [if_neg hfirst, hcons, ih]
      by_cases hm : text ∈ texts rest
      · rw [if_pos hm, if_pos (List.mem_cons_of_mem _ hm)]
      · rw [if_neg hm, if_neg (by simp [hm, Ne.symm hfirst]), List.cons_append]

lemma mem_texts_add :
    other ∈ (counts.add text amount).texts ↔ other ∈ counts.texts ∨ other = text := by
  rw [texts_add]
  split
  · next hm => exact ⟨.inl, fun h => h.elim id fun he => he ▸ hm⟩
  · simp

lemma nodup_texts_add (h : counts.texts.Nodup) : (counts.add text amount).texts.Nodup := by
  rw [texts_add]
  split
  · exact h
  · next hm =>
    rw [← List.concat_eq_append]
    exact List.Nodup.concat hm h

/-- What is held for a text is its count. -/
lemma countOf_of_mem {count : Nat} (h : counts.texts.Nodup) (hm : (text, count) ∈ counts) :
    counts.countOf text = count := by
  induction counts with
  | nil => cases hm
  | cons entry rest ih =>
    obtain ⟨first, other⟩ := entry
    obtain ⟨hfresh, hrest⟩ := List.nodup_cons.1 h
    rw [countOf_cons]
    rcases List.mem_cons.1 hm with he | hrestm
    · obtain ⟨rfl, rfl⟩ := Prod.mk.inj he
      rw [if_pos rfl]
    · have hne : text ≠ first := by
        rintro rfl
        exact hfresh (List.mem_map.2 ⟨_, hrestm, rfl⟩)
      rw [if_neg hne, ih hrest hrestm]

/-! ## Counting a list -/

/-- Add to the count of each text of a list. -/
def addAll (counts : Counts) (amount : Nat) (texts : List String) : Counts :=
  texts.foldl (fun counts text => counts.add text amount) counts

variable {list : List String}

lemma countOf_addAll : (counts.addAll amount list).countOf text =
    counts.countOf text + amount * list.count text := by
  induction list generalizing counts with
  | nil => rfl
  | cons first rest ih =>
    rw [addAll, List.foldl_cons, ← addAll, ih, countOf_add, List.count_cons]
    by_cases he : text = first
    · simp only [he, if_pos, beq_self_eq_true, Nat.mul_add]
      omega
    · rw [if_neg he, if_neg (by simpa using Ne.symm he), Nat.add_zero, Nat.add_zero]

lemma total_addAll : (counts.addAll amount list).total = counts.total + amount * list.length := by
  induction list generalizing counts with
  | nil => rfl
  | cons first rest ih =>
    rw [addAll, List.foldl_cons, ← addAll, ih, total_add, List.length_cons, Nat.mul_add]
    omega

lemma mem_texts_addAll :
    text ∈ (counts.addAll amount list).texts ↔ text ∈ counts.texts ∨ text ∈ list := by
  induction list generalizing counts with
  | nil => simp [addAll]
  | cons first rest ih =>
    rw [addAll, List.foldl_cons, ← addAll, ih, mem_texts_add, List.mem_cons, or_assoc]

lemma nodup_texts_addAll (h : counts.texts.Nodup) : (counts.addAll amount list).texts.Nodup := by
  induction list generalizing counts with
  | nil => exact h
  | cons first rest ih =>
    rw [addAll, List.foldl_cons, ← addAll]
    exact ih (nodup_texts_add h)

end Counts

open Counts

/-! ## Extensions -/

lemma countExtensions_eq (paths : List String) :
    countExtensions paths = addAll [] 1 (paths.map countedExtension) := by
  rw [countExtensions, addAll, List.foldl_map]

lemma nodup_texts_countExtensions (paths : List String) : (countExtensions paths).texts.Nodup := by
  rw [countExtensions_eq]
  exact nodup_texts_addAll List.nodup_nil

/-- Every path is counted once. -/
theorem total_countExtensions (paths : List String) :
    (countExtensions paths).total = paths.length := by
  rw [countExtensions_eq, total_addAll, List.length_map, Nat.one_mul]
  simp [total]

theorem countOf_countExtensions (paths : List String) (extension : String) :
    (countExtensions paths).countOf extension =
      paths.countP fun path => countedExtension path = extension := by
  rw [countExtensions_eq, countOf_addAll, Nat.one_mul, List.count, List.countP_map]
  simp [countOf, Function.comp_def, beq_eq_decide]

/-! ## Degrees -/

variable {nodes : List String} {edges : List (String × String)} {node : String}

/-- The ends of edges. -/
def edgeEnds (edges : List (String × String)) : List String :=
  edges.flatMap fun edge => [edge.1, edge.2]

lemma length_edgeEnds (edges : List (String × String)) :
    (edgeEnds edges).length = 2 * edges.length := by
  induction edges with
  | nil => rfl
  | cons edge edges ih =>
    rw [edgeEnds, List.flatMap_cons, ← edgeEnds, List.length_append, ih, List.length_cons]
    simp only [List.length_cons, List.length_nil]
    omega

/-- The number of edge ends at a node; an edge from a node to itself has two there. -/
def degreeOf (edges : List (String × String)) (node : String) : Nat :=
  (edges.countP fun edge => edge.1 = node) + edges.countP fun edge => edge.2 = node

lemma count_edgeEnds (edges : List (String × String)) (node : String) :
    (edgeEnds edges).count node = degreeOf edges node := by
  induction edges with
  | nil => rfl
  | cons edge edges ih =>
    rw [edgeEnds, List.flatMap_cons, ← edgeEnds, List.count_append, ih]
    simp only [degreeOf, List.count_cons, List.count_nil, List.countP_cons, decide_eq_true_eq,
      beq_iff_eq]
    omega

lemma degrees_eq (nodes : List String) (edges : List (String × String)) :
    degrees nodes edges = addAll (addAll [] 0 nodes) 1 (edgeEnds edges) := by
  rw [degrees, addAll, addAll, edgeEnds, List.foldl_flatMap]
  rfl

lemma nodup_texts_degrees (nodes : List String) (edges : List (String × String)) :
    (degrees nodes edges).texts.Nodup := by
  rw [degrees_eq]
  exact nodup_texts_addAll (nodup_texts_addAll List.nodup_nil)

theorem countOf_degrees (nodes : List String) (edges : List (String × String)) (node : String) :
    (degrees nodes edges).countOf node = degreeOf edges node := by
  rw [degrees_eq, countOf_addAll, countOf_addAll, count_edgeEnds]
  simp [countOf]

/-- Every edge has two ends. -/
theorem total_degrees (nodes : List String) (edges : List (String × String)) :
    (degrees nodes edges).total = 2 * edges.length := by
  rw [degrees_eq, total_addAll, total_addAll, length_edgeEnds]
  simp [total]

/-- What has a degree is a node, if edges are between nodes. -/
lemma mem_texts_degrees (h : ∀ edge ∈ edges, edge.1 ∈ nodes ∧ edge.2 ∈ nodes) :
    node ∈ (degrees nodes edges).texts ↔ node ∈ nodes := by
  rw [degrees_eq, mem_texts_addAll, mem_texts_addAll]
  have hends (hm : node ∈ edgeEnds edges) : node ∈ nodes := by
    obtain ⟨edge, he, hm⟩ := List.mem_flatMap.1 hm
    rcases List.mem_cons.1 hm with rfl | hm
    · exact (h edge he).1
    · obtain rfl := List.mem_singleton.1 hm
      exact (h edge he).2
  have hnil : node ∉ texts [] := List.not_mem_nil
  tauto

lemma length_degrees (hn : nodes.Nodup) (h : ∀ edge ∈ edges, edge.1 ∈ nodes ∧ edge.2 ∈ nodes) :
    (degrees nodes edges).length = nodes.length := by
  have hperm : (degrees nodes edges).texts.Perm nodes :=
    (List.perm_ext_iff_of_nodup (nodup_texts_degrees nodes edges) hn).2 fun _ => mem_texts_degrees h
  rw [← hperm.length_eq, texts, List.length_map]

/-! ## The ranking -/

lemma takeSigned_sublist {α : Type} (count : Int) (xs : List α) :
    (takeSigned count xs).Sublist xs := by
  rw [takeSigned]
  split
  · exact List.take_sublist _ _
  · exact List.take_sublist _ _

lemma takeSigned_of_length_le {α : Type} {count : Int} {xs : List α}
    (h : (xs.length : Int) ≤ count) :
    takeSigned count xs = xs := by
  rw [takeSigned, if_pos (by omega), List.take_of_length_le (by omega)]

/-- A ranking shows nodes with their degrees. -/
theorem mem_rankDegrees {count : Int} {degree : Nat}
    (h : ∀ edge ∈ edges, edge.1 ∈ nodes ∧ edge.2 ∈ nodes)
    (hm : (node, degree) ∈ rankDegrees nodes edges count) :
    node ∈ nodes ∧ degree = degreeOf edges node := by
  have hdegrees : (node, degree) ∈ degrees nodes edges :=
    List.mem_mergeSort.1 ((takeSigned_sublist _ _).mem hm)
  constructor
  · exact (mem_texts_degrees h).1 (List.mem_map_of_mem hdegrees)
  · rw [← countOf_degrees nodes, countOf_of_mem (nodup_texts_degrees nodes edges) hdegrees]

/-- A ranking of all nodes shows two edge ends for each edge. -/
theorem total_rankDegrees {count : Int} (hn : nodes.Nodup)
    (h : ∀ edge ∈ edges, edge.1 ∈ nodes ∧ edge.2 ∈ nodes) (hc : (nodes.length : Int) ≤ count) :
    (rankDegrees nodes edges count).total = 2 * edges.length := by
  rw [rankDegrees, takeSigned_of_length_le (by rwa [List.length_mergeSort, length_degrees hn h]),
    total, ((List.mergeSort_perm _ _).map Prod.snd).sum_eq, ← total, total_degrees]

end SourceAtlas
