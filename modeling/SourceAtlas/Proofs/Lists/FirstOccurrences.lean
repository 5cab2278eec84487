import Mathlib.Data.List.Basic
import Mathlib.Data.List.Induction

/-!
# First occurrences

Where a list holds an element more than once, `List.eraseDups` keeps the first occurrence, and
`List.eraseDupsBy` the first of all that count as the same.  What stays keeps its order.

For a list that is put together from groups without common elements, each group can be dealt with on
its own (`eraseDups_flatMap`).
-/

namespace SourceAtlas

lemma eraseDupsBy_sublist {α : Type} (same : α → α → Bool) (xs : List α) :
    (xs.eraseDupsBy same).Sublist xs := by
  match xs with
  | [] => exact .slnil
  | first :: rest =>
    rw [List.eraseDupsBy_cons]
    exact ((eraseDupsBy_sublist same _).trans (List.filter_sublist ..)).cons_cons first
termination_by xs.length
decreasing_by exact Nat.lt_succ_of_le (List.length_filter_le _ _)

lemma eraseDupsBy_of_pairwise {α : Type} {same : α → α → Bool} {xs : List α}
    (h : xs.Pairwise fun a b => same b a = false) : xs.eraseDupsBy same = xs := by
  induction xs with
  | nil => rfl
  | cons first rest ih =>
    obtain ⟨hfirst, hrest⟩ := List.pairwise_cons.1 h
    rw [List.eraseDupsBy_cons, List.filter_eq_self.2 fun x hx => by simp [hfirst x hx], ih hrest]

section ByKey

variable {α κ : Type} [BEq κ] [LawfulBEq κ] (key : α → κ)

/-- Of elements with one key, the first one stays. -/
lemma mem_eraseDupsBy_key {xs : List α} {x : α} :
    x ∈ xs.eraseDupsBy (fun a b => key a == key b) ↔
      xs.find? (fun y => key y == key x) = some x := by
  match xs with
  | [] => simp
  | first :: rest =>
    rw [List.eraseDupsBy_cons, List.mem_cons, mem_eraseDupsBy_key, List.find?_cons]
    by_cases hkey : key first = key x
    · have hnone : (rest.filter fun y => decide ((key y == key first) = false)).find?
          (fun y => key y == key x) = none := by
        simp [hkey]
      rw [hnone, beq_iff_eq.2 hkey]
      simp [eq_comm]
    · have hothers : (rest.filter fun y => decide ((key y == key first) = false)).find?
          (fun y => key y == key x) = rest.find? fun y => key y == key x := by
        rw [List.find?_filter]
        congr 1
        funext y
        by_cases hy : key y = key x
        · simp [hy, Ne.symm hkey]
        · simp [hy]
      have hne : x ≠ first := fun he => hkey (congrArg key he.symm)
      rw [hothers, beq_eq_false_iff_ne.2 hkey]
      simp [hne]
termination_by xs.length
decreasing_by exact Nat.lt_succ_of_le (List.length_filter_le _ _)

lemma nodup_eraseDupsBy_key (xs : List α) :
    ((xs.eraseDupsBy fun a b => key a == key b).map key).Nodup := by
  match xs with
  | [] => exact .nil
  | first :: rest =>
    rw [List.eraseDupsBy_cons, List.map_cons, List.nodup_cons]
    refine ⟨?_, nodup_eraseDupsBy_key _⟩
    rw [List.mem_map]
    rintro ⟨x, hx, he⟩
    have hkept := (List.mem_filter.1 ((eraseDupsBy_sublist _ _).mem hx)).2
    simp [he] at hkept
termination_by xs.length
decreasing_by exact Nat.lt_succ_of_le (List.length_filter_le _ _)

end ByKey

lemma nodup_eraseDups {α : Type} [BEq α] [LawfulBEq α] (xs : List α) : xs.eraseDups.Nodup := by
  have h := nodup_eraseDupsBy_key id xs
  rwa [List.map_id] at h

lemma eraseDups_of_nodup {α : Type} [BEq α] [LawfulBEq α] {xs : List α} (h : xs.Nodup) :
    xs.eraseDups = xs :=
  eraseDupsBy_of_pairwise (h.imp fun hne => beq_eq_false_iff_ne.2 (Ne.symm hne))

section

variable {α β : Type} [BEq α] [LawfulBEq α] [BEq β] [LawfulBEq β] {f : α → List β}

/-- One more element stays if it has not occurred yet. -/
lemma eraseDups_concat (xs : List α) (x : α) :
    (xs ++ [x]).eraseDups = if xs.elem x then xs.eraseDups else xs.eraseDups ++ [x] := by
  rw [List.eraseDups_append, List.removeAll]
  by_cases hx : xs.elem x = true
  · rw [List.filter_cons_of_neg (by simpa using hx), if_pos hx, List.filter_nil, List.eraseDups_nil,
      List.append_nil]
  · rw [List.filter_cons_of_pos (by simpa using hx), if_neg hx, List.filter_nil,
      List.eraseDups_cons, List.filter_nil, List.eraseDups_nil]

lemma eraseDups_map {f : α → β} (hf : Function.Injective f) (xs : List α) :
    (xs.map f).eraseDups = xs.eraseDups.map f := by
  induction xs using List.reverseRecOn with
  | nil => rfl
  | append_singleton xs x ih =>
    have hmem : (xs.map f).elem (f x) = xs.elem x := by
      rw [Bool.eq_iff_iff, List.elem_iff, List.elem_iff, List.mem_map_of_injective hf]
    rw [List.map_append, List.map_singleton, eraseDups_concat, eraseDups_concat, hmem, ih]
    split
    · rfl
    · rw [List.map_append, List.map_singleton]

/-- Groups without common elements keep their order, and so do the elements of each. -/
lemma eraseDups_flatMap (hf : ∀ a b x, x ∈ f a → x ∈ f b → a = b) (xs : List α) :
    (xs.flatMap f).eraseDups = xs.eraseDups.flatMap fun a => (f a).eraseDups := by
  induction xs using List.reverseRecOn with
  | nil => rfl
  | append_singleton xs a ih =>
    rw [List.flatMap_append, List.flatMap_singleton, List.eraseDups_append, ih, eraseDups_concat,
      List.removeAll]
    by_cases ha : xs.elem a = true
    · have hnone : (f a).filter (fun x => !(xs.flatMap f).elem x) = [] := by
        rw [List.filter_eq_nil_iff]
        intro x hx
        have hm : x ∈ xs.flatMap f := List.mem_flatMap.2 ⟨a, List.elem_iff.1 ha, hx⟩
        simpa using hm
      rw [hnone, if_pos ha, List.eraseDups_nil, List.append_nil]
    · have hall : (f a).filter (fun x => !(xs.flatMap f).elem x) = f a := by
        rw [List.filter_eq_self]
        intro x hx
        have hm : x ∉ xs.flatMap f := by
          intro hm
          obtain ⟨b, hb, hxb⟩ := List.mem_flatMap.1 hm
          exact ha (List.elem_iff.2 (hf a b x hx hxb ▸ hb))
        simpa using hm
      rw [hall, if_neg ha, List.flatMap_append, List.flatMap_singleton]

end

end SourceAtlas
