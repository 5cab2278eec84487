import Mathlib.Data.List.Fold
import Mathlib.Data.List.MinMax
import Mathlib.Data.List.Nodup
import Mathlib.Data.List.Perm.Basic
import Mathlib.Order.Nat
import SourceAtlas.Project.Tree
import SourceAtlas.Proofs.Lists.FirstOccurrences

/-!
# The leaves of a file tree

A tree holds a file for every leaf that its paths stand for, in some order, and holds it where the
segments of the leaf lead (`Tree.located_build`).  If the paths differ in their segments, the paths
of the files are the given paths themselves (`Tree.leafPaths_build_of_pairwise`).

A folder's leaves are those of its folders, grouped by name, and its files.
-/

namespace SourceAtlas

/-! ## Groups -/

/-- Elements that are grouped by key are those that have one of the keys. -/
lemma flatMap_filter_perm {α κ : Type} [DecidableEq κ] (key : α → κ) (xs : List α) {keys : List κ}
    (h : keys.Nodup) : (keys.flatMap fun k => xs.filter fun x => key x = k).Perm
      (xs.filter fun x => key x ∈ keys) := by
  induction keys with
  | nil => simp
  | cons first rest ih =>
    obtain ⟨hfresh, hrest⟩ := List.nodup_cons.1 h
    have hfirst : (xs.filter fun x => key x ∈ first :: rest).filter (fun x => key x = first) =
        xs.filter fun x => key x = first := by
      rw [List.filter_filter]
      refine List.filter_congr ?_
      intro x _
      simp only [List.mem_cons, ← Bool.decide_and, decide_eq_decide]
      tauto
    have hothers : (xs.filter fun x => key x ∈ first :: rest).filter
          (fun x => !decide (key x = first)) =
        xs.filter fun x => key x ∈ rest := by
      rw [List.filter_filter]
      refine List.filter_congr ?_
      intro x _
      simp only [List.mem_cons, ← decide_not, ← Bool.decide_and, decide_eq_decide]
      constructor
      · rintro ⟨hne, he | hm⟩
        · exact absurd he hne
        · exact hm
      · intro hm
        exact ⟨fun he => hfresh (he ▸ hm), .inr hm⟩
    rw [List.flatMap_cons]
    refine ((ih hrest).append_left _).trans ?_
    rw [← hfirst, ← hothers]
    exact List.filter_append_perm _ _

namespace Tree

/-- What holds of files, and of folders with children of which it holds, holds of every tree. -/
@[elab_as_elim]
theorem induction {motive : Tree → Prop} (file : ∀ name path, motive (.file name path))
    (folder : ∀ name children, (∀ child ∈ children, motive child) →
      motive (.folder name children)) :
    ∀ tree, motive tree
  | .file name path => file name path
  | .folder name children => folder name children fun child _ => induction file folder child

/-! ## Leaves -/

/-- A leaf of a folder, seen from the folder that this one is in. -/
def under (name : String) (leaf : Leaf) : Leaf := (name :: leaf.1, leaf.2)

mutual

/-- The files in a tree, each with the names that lead to it from there. -/
def located : Tree → List Leaf
  | .file _ path => [([], path)]
  | .folder _ children => locatedInAll children

/-- The files in trees, each with the names that lead to it. -/
def locatedInAll : List Tree → List Leaf
  | [] => []
  | tree :: trees => (located tree).map (under tree.name) ++ locatedInAll trees

end

/-- The files in a tree, seen from the folder that the tree is in. -/
def locatedAt (tree : Tree) : List Leaf := tree.located.map (under tree.name)

lemma located_folder (name : String) (children : List Tree) :
    (folder name children).located = children.flatMap locatedAt := by
  rw [located]
  induction children with
  | nil => rfl
  | cons child children ih => rw [locatedInAll, ih, List.flatMap_cons, locatedAt]

lemma locatedAt_file (name path : String) : (file name path).locatedAt = [([name], path)] := by
  rw [locatedAt, located]
  rfl

mutual

/-- The paths of the files in a tree. -/
def leafPaths : Tree → List String
  | .file _ path => [path]
  | .folder _ children => leafPathsOfAll children

/-- The paths of the files in trees. -/
def leafPathsOfAll : List Tree → List String
  | [] => []
  | tree :: trees => leafPaths tree ++ leafPathsOfAll trees

end

lemma leafPathsOfAll_eq (trees : List Tree) : leafPathsOfAll trees = trees.flatMap leafPaths := by
  induction trees with
  | nil => rfl
  | cons tree trees ih => rw [leafPathsOfAll, ih, List.flatMap_cons]

lemma leafPaths_eq_map (tree : Tree) : tree.leafPaths = tree.located.map Prod.snd := by
  induction tree using induction with
  | file name path => rw [leafPaths, located, List.map_singleton]
  | folder name children ih =>
    rw [leafPaths, leafPathsOfAll_eq, located_folder, List.map_flatMap]
    refine List.flatMap_congr ?_
    intro child hm
    rw [ih child hm, locatedAt, List.map_map]
    rfl

lemma sortChildren_perm (key : String → List Nat) (children : List Tree) :
    (sortChildren key children).Perm children := by
  rw [sortChildren]
  refine ((List.mergeSort_perm _ _).map Prod.snd).trans ?_
  rw [List.map_map]
  exact .of_eq (List.map_id' children)

/-! ## The leaves of a folder -/

variable {leaves : List Leaf} {depth : Nat}

/-- The folder that a leaf is in, unless it is a file of the folder at hand. -/
def folderOf : Leaf → Option String
  | (name :: _ :: _, _) => some name
  | _ => none

lemma folderNames_eq (leaves : List Leaf) :
    folderNames leaves = (leaves.filterMap folderOf).eraseDups := by
  rw [folderNames]
  congr 2
  funext leaf
  obtain ⟨_ | ⟨name, _ | ⟨next, rest⟩⟩, path⟩ := leaf <;> rfl

lemma nodup_folderNames (leaves : List Leaf) : (folderNames leaves).Nodup := by
  rw [folderNames_eq]
  exact nodup_eraseDups _

lemma mem_folderNames {folder : String} :
    folder ∈ folderNames leaves ↔ ∃ leaf ∈ leaves, folderOf leaf = some folder := by
  rw [folderNames_eq, List.mem_eraseDups, List.mem_filterMap]

/-- The leaves in a folder of a folder are those of the folder that are in it. -/
lemma map_leavesIn (folder : String) (leaves : List Leaf) :
    (leavesIn folder leaves).map (under folder) =
      leaves.filter fun leaf => folderOf leaf = some folder := by
  induction leaves with
  | nil => rfl
  | cons leaf leaves ih =>
    rw [leavesIn, List.filterMap_cons, ← leavesIn, List.filter_cons]
    obtain ⟨_ | ⟨name, _ | ⟨next, rest⟩⟩, path⟩ := leaf
    · simpa [folderOf] using ih
    · simpa [folderOf] using ih
    · by_cases he : name = folder
      · simpa [folderOf, he, under] using ih
      · simpa [folderOf, he] using ih

lemma locatedAt_filesOf (h : ∀ leaf ∈ leaves, leaf.1 ≠ []) :
    (filesOf leaves).flatMap locatedAt = leaves.filter fun leaf => folderOf leaf = none := by
  induction leaves with
  | nil => rfl
  | cons leaf leaves ih =>
    have ih := ih fun leaf hm => h leaf (List.mem_cons_of_mem _ hm)
    have hne := h leaf (List.mem_cons_self ..)
    rw [filesOf, List.filterMap_cons, ← filesOf, List.filter_cons]
    obtain ⟨_ | ⟨name, _ | ⟨next, rest⟩⟩, path⟩ := leaf
    · exact absurd rfl hne
    · simpa [folderOf, locatedAt_file] using ih
    · simpa [folderOf] using ih

/-- In a folder of a folder, a leaf has one segment less. -/
lemma mem_leavesIn {folder : String} {leaf : Leaf} (h : leaf ∈ leavesIn folder leaves) :
    leaf.1 ≠ [] ∧ under folder leaf ∈ leaves := by
  have hunder : under folder leaf ∈ leaves.filter fun leaf => folderOf leaf = some folder := by
    rw [← map_leavesIn]
    exact List.mem_map_of_mem h
  obtain ⟨hm, hfolder⟩ := List.mem_filter.1 hunder
  refine ⟨?_, hm⟩
  rintro hnil
  simp [under, hnil, folderOf] at hfolder

/-- The leaves of a folder are those in its folders and its files. -/
lemma grouped_perm (h : ∀ leaf ∈ leaves, leaf.1 ≠ []) :
    ((folderNames leaves).flatMap (fun name => (leavesIn name leaves).map (under name)) ++
      (filesOf leaves).flatMap locatedAt).Perm leaves := by
  have hkeys : ((folderNames leaves).map some).Nodup :=
    (nodup_folderNames leaves).map fun _ _ => Option.some.inj
  have hmem (leaf : Leaf) (hm : leaf ∈ leaves) :
      folderOf leaf ∈ (folderNames leaves).map some ↔ ¬ folderOf leaf = none := by
    rw [List.mem_map]
    constructor
    · rintro ⟨name, -, he⟩ hnone
      rw [hnone] at he
      cases he
    · intro hne
      obtain ⟨name, hname⟩ := Option.ne_none_iff_exists'.1 hne
      exact ⟨name, mem_folderNames.2 ⟨leaf, hm, hname⟩, hname.symm⟩
  have hfolders :
      ((folderNames leaves).flatMap fun name => (leavesIn name leaves).map (under name)).Perm
        (leaves.filter fun leaf => !decide (folderOf leaf = none)) := by
    have hgroups := flatMap_filter_perm folderOf leaves hkeys
    rw [List.flatMap_map] at hgroups
    simp only [map_leavesIn]
    refine hgroups.trans (.of_eq (List.filter_congr ?_))
    intro leaf hm
    rw [← decide_not, decide_eq_decide]
    exact hmem leaf hm
  rw [locatedAt_filesOf h]
  refine (hfolders.append_right _).trans (List.perm_append_comm.trans ?_)
  exact List.filter_append_perm _ _

lemma located_childrenOf (key : String → List Nat) (h : ∀ leaf ∈ leaves, leaf.1 ≠ [])
    (hd : ∀ leaf ∈ leaves, leaf.1.length ≤ depth) :
    ((childrenOf key depth leaves).flatMap locatedAt).Perm leaves := by
  induction depth generalizing leaves with
  | zero =>
    match leaves with
    | [] => exact .nil
    | leaf :: _ =>
      have hlength := hd leaf (List.mem_cons_self ..)
      exact absurd (List.length_eq_zero_iff.1 (Nat.le_zero.1 hlength))
        (h leaf (List.mem_cons_self ..))
  | succ depth ih =>
    rw [childrenOf]
    refine ((sortChildren_perm key _).flatMap_right _).trans ?_
    rw [List.flatMap_append, List.flatMap_map]
    refine (List.Perm.append_right _ (List.Perm.flatMap_left _ ?_)).trans (grouped_perm h)
    intro name _
    rw [locatedAt, located_folder]
    refine (ih (fun leaf hm => (mem_leavesIn hm).1) ?_).map _
    intro leaf hm
    have hlength := hd _ (mem_leavesIn hm).2
    rw [under, List.length_cons] at hlength
    omega

/-! ## The leaves of a tree -/

lemma length_le_depthOf {leaf : Leaf} (h : leaf ∈ leaves) : leaf.1.length ≤ depthOf leaves := by
  have hm : leaf.1.length ∈ leaves.map fun leaf => leaf.1.length := List.mem_map_of_mem h
  rw [depthOf, List.foldl_eq_foldr]
  exact List.le_max_of_le hm le_rfl

lemma ne_nil_of_mem_leavesOf {paths : List String} {leaf : Leaf} (h : leaf ∈ leavesOf paths) :
    leaf.1 ≠ [] := by
  simpa using (List.mem_filter.1 ((eraseDupsBy_sublist _ _).mem h)).2

/-- A tree holds the leaves that its paths stand for, where their segments lead. -/
theorem located_build (key : String → List Nat) (rootName : String) (paths : List String) :
    (build key rootName paths).located.Perm (leavesOf paths) := by
  rw [build, located_folder]
  exact located_childrenOf key (fun _ => ne_nil_of_mem_leavesOf) fun _ => length_le_depthOf

/-- A tree holds the paths of the leaves that its paths stand for. -/
theorem leafPaths_build (key : String → List Nat) (rootName : String) (paths : List String) :
    (build key rootName paths).leafPaths.Perm ((leavesOf paths).map Prod.snd) := by
  rw [leafPaths_eq_map]
  exact (located_build key rootName paths).map Prod.snd

/-- A tree holds no path but the given ones. -/
lemma mem_of_mem_leafPaths {key : String → List Nat} {paths : List String} {rootName path : String}
    (h : path ∈ (build key rootName paths).leafPaths) : path ∈ paths := by
  obtain ⟨leaf, hm, rfl⟩ := List.mem_map.1 ((leafPaths_build key rootName paths).mem_iff.1 h)
  have hkept := (List.mem_filter.1 ((eraseDupsBy_sublist _ _).mem hm)).1
  obtain ⟨path, hp, rfl⟩ := List.mem_map.1 hkept
  exact hp

/-- Paths that have segments, and not the same ones, are kept as they are. -/
lemma leavesOf_eq_map {paths : List String} (hne : ∀ path ∈ paths, normalForm path ≠ [])
    (h : paths.Pairwise fun a b => normalForm a ≠ normalForm b) :
    leavesOf paths = paths.map fun path => (normalForm path, path) := by
  have hkept : (paths.map fun path => (normalForm path, path)).filter (fun leaf => leaf.1 ≠ []) =
      paths.map fun path => (normalForm path, path) := by
    rw [List.filter_eq_self]
    intro leaf hm
    obtain ⟨path, hp, rfl⟩ := List.mem_map.1 hm
    simpa using hne path hp
  rw [leavesOf, hkept]
  refine eraseDupsBy_of_pairwise (List.pairwise_map.2 (h.imp ?_))
  intro a b hab
  simpa using Ne.symm hab

theorem leafPaths_build_of_pairwise (key : String → List Nat) {paths : List String}
    (hne : ∀ path ∈ paths, normalForm path ≠ [])
    (h : paths.Pairwise fun a b => normalForm a ≠ normalForm b) (rootName : String) :
    (build key rootName paths).leafPaths.Perm paths := by
  refine (leafPaths_build key rootName paths).trans (.of_eq ?_)
  rw [leavesOf_eq_map hne h, List.map_map]
  exact List.map_id' paths

end Tree

end SourceAtlas
