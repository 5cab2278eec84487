import Mathlib.Data.Prod.Lex
import Mathlib.Data.String.Basic
import SourceAtlas.Proofs.Project.Spelling

/-!
# The shape of a file tree

A tree of paths is in canonical shape (`Tree.Canonical`): the children of every folder are in a
strict order, in which a folder and a file may share a name but no two folders and no two files, and
there is no empty folder in a folder.  A tree in this shape is determined by its files and where
they are (`Tree.Canonical.eq_of_located`).

So a tree is known once it is known what it holds, which is told by the paths alone
(`Tree.build_isTreeOf`).  In particular it is built again from the paths that it holds, in whatever
order they are given and however often.
-/

namespace SourceAtlas.Tree

variable {key : String → List Nat} {name rootName : String} {paths : List String}
  {leaves : List Leaf} {children : List Tree} {tree tree' : Tree} {depth : ℕ}

/-! ## The order of the children -/

/-- The order of the children of a folder: folders before files, then by the key of the name, then
by the name. -/
def Precedes (key : String → List Nat) (a b : Tree) : Prop :=
  a.isFolder = true ∧ b.isFolder = false ∨ a.isFolder = b.isFolder ∧
    (key a.name < key b.name ∨ key a.name = key b.name ∧ a.name < b.name)

/-- What a child is known by in its folder. -/
def label (tree : Tree) : Bool × String := (tree.isFolder, tree.name)

/-- A rank as an element of a linear order. -/
def Rank.place (rank : Rank) : Bool ×ₗ List ℕ ×ₗ String :=
  toLex (rank.isFile, toLex (rank.key, rank.name))

lemma Rank.le_iff {a b : Rank} : a.le b = true ↔ a.place ≤ b.place := by
  rw [place, place, Prod.Lex.toLex_le_toLex, Prod.Lex.toLex_le_toLex, le]
  split
  · rename_i hkind
    cases ha : a.isFile <;> cases hb : b.isFile <;> simp_all
  · rename_i hkind
    rw [not_not] at hkind
    split
    · rename_i hkey
      simp [hkind, hkey]
    · rename_i hkey
      rw [not_not] at hkey
      simp [hkind, hkey]

lemma precedes_iff {a b : Tree} : Precedes key a b ↔ (a.rank key).place < (b.rank key).place := by
  rw [Rank.place, Rank.place, Prod.Lex.toLex_lt_toLex, Prod.Lex.toLex_lt_toLex, Precedes, rank,
    rank]
  cases a.isFolder <;> cases b.isFolder <;> simp

lemma Precedes.asymm {a b : Tree} (h : Precedes key a b) : ¬ Precedes key b a :=
  fun h' => lt_asymm (precedes_iff.1 h) (precedes_iff.1 h')

lemma Precedes.label_ne {a b : Tree} (h : Precedes key a b) : a.label ≠ b.label := by
  intro he
  obtain ⟨hkind, hname⟩ := Prod.mk.inj he
  rw [precedes_iff, rank, rank, hkind, hname] at h
  exact lt_irrefl _ h

/-- Children that are known by different labels are sorted strictly. -/
lemma pairwise_sortChildren (key : String → List Nat) (h : (children.map label).Nodup) :
    (sortChildren key children).Pairwise (Precedes key) := by
  have hlabels : (sortChildren key children).Pairwise fun a b => a.label ≠ b.label :=
    List.pairwise_map.1 (((sortChildren_perm key children).map label).nodup_iff.2 h)
  have hle : (sortChildren key children).Pairwise fun a b =>
      (a.rank key).place ≤ (b.rank key).place := by
    rw [sortChildren, List.pairwise_map]
    refine .imp_of_mem ?_ (List.pairwise_mergeSort ?_ ?_ _)
    · intro a b ha hb hab
      obtain ⟨child, -, rfl⟩ := List.mem_map.1 (List.mem_mergeSort.1 ha)
      obtain ⟨child', -, rfl⟩ := List.mem_map.1 (List.mem_mergeSort.1 hb)
      exact Rank.le_iff.1 hab
    · intro a b c hab hbc
      exact Rank.le_iff.2 ((Rank.le_iff.1 hab).trans (Rank.le_iff.1 hbc))
    · intro a b
      rw [Bool.or_eq_true, Rank.le_iff, Rank.le_iff]
      exact le_total _ _
  refine (hle.and hlabels).imp ?_
  rintro a b ⟨hplace, hlabel⟩
  refine precedes_iff.2 (lt_of_le_of_ne hplace fun he => hlabel ?_)
  obtain ⟨hkind, hrest⟩ := Prod.mk.inj (toLex.injective he)
  have hname := (Prod.mk.inj (toLex.injective hrest)).2
  exact Prod.ext (by simpa [rank, label] using hkind) hname

/-! ## Trees in canonical shape -/

/-- A node of a tree, or the tree itself. -/
inductive Within (node : Tree) : Tree → Prop
  | self : Within node node
  | child {name : String} {children : List Tree} {child : Tree} (hm : child ∈ children)
      (h : Within node child) : Within node (.folder name children)

/-- In every folder of a tree the children are strictly sorted, and each of them is or holds
a file. -/
structure Canonical (key : String → List Nat) (tree : Tree) : Prop where
  increasing : ∀ name children, Within (.folder name children) tree →
    children.Pairwise (Precedes key)
  inhabited : ∀ name children, Within (.folder name children) tree →
    ∀ child ∈ children, child.located ≠ []

lemma canonical_file (key : String → List Nat) (name path : String) :
    Canonical key (file name path) := by
  constructor
  · intro folderName children h
    cases h
  · intro folderName children h
    cases h

lemma canonical_folder_iff :
    Canonical key (folder name children) ↔ children.Pairwise (Precedes key) ∧
      ∀ child ∈ children, child.located ≠ [] ∧ Canonical key child := by
  constructor
  · intro h
    refine ⟨h.increasing _ _ .self, fun child hm => ⟨h.inhabited _ _ .self child hm, ?_, ?_⟩⟩
    · exact fun folderName others hw => h.increasing folderName others (.child hm hw)
    · exact fun folderName others hw => h.inhabited folderName others (.child hm hw)
  · rintro ⟨hsorted, hchildren⟩
    constructor
    · intro folderName others hw
      cases hw with
      | self => exact hsorted
      | child hm hw => exact (hchildren _ hm).2.increasing folderName others hw
    · intro folderName others hw
      cases hw with
      | self => exact fun child hm => (hchildren child hm).1
      | child hm hw => exact (hchildren _ hm).2.inhabited folderName others hw

lemma nodup_labels (h : children.Pairwise (Precedes key)) : (children.map label).Nodup :=
  List.pairwise_map.2 (h.imp Precedes.label_ne)

lemma eq_of_label (h : children.Pairwise (Precedes key)) {child child' : Tree}
    (hm : child ∈ children) (hm' : child' ∈ children) (hl : child.label = child'.label) :
    child = child' :=
  List.inj_on_of_nodup_map (nodup_labels h) hm hm' hl

/-! ## A tree is determined by what it holds -/

lemma mem_located_folder {leaf : Leaf} : leaf ∈ (folder name children).located ↔
    ∃ child ∈ children, ∃ inner ∈ child.located, under child.name inner = leaf := by
  simp only [located_folder, List.mem_flatMap, locatedAt, List.mem_map]

/-- A file is where it is, and what a folder holds is further down. -/
lemma isFolder_of_mem_located {leaf : Leaf} (h : leaf ∈ tree.located) :
    tree.isFolder = decide (leaf.1 ≠ []) := by
  cases tree with
  | file name path =>
    rw [located, List.mem_singleton] at h
    rw [h]
    rfl
  | folder name children =>
    obtain ⟨child, -, inner, -, rfl⟩ := mem_located_folder.1 h
    simp [isFolder, under]

/-- A child has a counterpart in a folder that holds the same files. -/
lemma exists_counterpart {children' : List Tree} {name' : String}
    (h : Canonical key (folder name children)) (h' : Canonical key (folder name' children'))
    (hl : ∀ leaf, leaf ∈ (folder name children).located ↔ leaf ∈ (folder name' children').located)
    {child : Tree} (hm : child ∈ children) : ∃ child' ∈ children', child'.label = child.label ∧
      ∀ leaf, leaf ∈ child.located ↔ leaf ∈ child'.located := by
  have across {children children' : List Tree} {name name' : String} {child : Tree} {leaf : Leaf}
      (hl : ∀ leaf, leaf ∈ (folder name children).located → leaf ∈ (folder name' children').located)
      (hm : child ∈ children) (hleaf : leaf ∈ child.located) :
      ∃ child' ∈ children', child'.label = child.label ∧ leaf ∈ child'.located := by
    obtain ⟨child', hm', inner, hinner, he⟩ :=
      mem_located_folder.1 (hl _ (mem_located_folder.2 ⟨child, hm, leaf, hleaf, rfl⟩))
    obtain ⟨hnames, hpath⟩ := Prod.mk.inj he
    obtain ⟨hname, hrest⟩ := List.cons.inj hnames
    obtain rfl : inner = leaf := Prod.ext hrest hpath
    refine ⟨child', hm', Prod.ext ?_ hname, hinner⟩
    exact (isFolder_of_mem_located hinner).trans (isFolder_of_mem_located hleaf).symm
  have hsorted := (canonical_folder_iff.1 h).1
  have hsorted' := (canonical_folder_iff.1 h').1
  obtain ⟨leaf, hleaf⟩ := List.exists_mem_of_ne_nil _ ((canonical_folder_iff.1 h).2 child hm).1
  obtain ⟨child', hm', hlabel, -⟩ := across (fun leaf => (hl leaf).1) hm hleaf
  refine ⟨child', hm', hlabel, fun other => ⟨fun ho => ?_, fun ho => ?_⟩⟩
  · obtain ⟨found, hfound, hsame, hother⟩ := across (fun leaf => (hl leaf).1) hm ho
    rwa [eq_of_label hsorted' hm' hfound (hlabel.trans hsame.symm)]
  · obtain ⟨found, hfound, hsame, hother⟩ := across (fun leaf => (hl leaf).2) hm' ho
    rwa [eq_of_label hsorted hm hfound (hlabel.symm.trans hsame.symm)]

/-- Trees in canonical shape that hold the same files at the same places are the same. -/
theorem Canonical.eq_of_located (h : Canonical key tree) (h' : Canonical key tree')
    (hlabel : tree.label = tree'.label) (hl : ∀ leaf, leaf ∈ tree.located ↔ leaf ∈ tree'.located) :
    tree = tree' := by
  induction tree using induction generalizing tree' with
  | file name path =>
    obtain ⟨hkind, hname⟩ := Prod.mk.inj hlabel
    cases tree' with
    | folder name' children' => cases hkind
    | file name' path' =>
      have hleaf := (hl ([], path)).1 (by rw [located]; exact List.mem_singleton_self _)
      rw [located, List.mem_singleton] at hleaf
      rw [(Prod.mk.inj hleaf).2]
      exact congrArg (file · path') hname
  | folder name children ih =>
    obtain ⟨hkind, hname⟩ := Prod.mk.inj hlabel
    cases tree' with
    | file name' path' => cases hkind
    | folder name' children' =>
      obtain rfl : name = name' := hname
      obtain ⟨hsorted, hbelow⟩ := canonical_folder_iff.1 h
      obtain ⟨hsorted', hbelow'⟩ := canonical_folder_iff.1 h'
      have hmem (child : Tree) : child ∈ children ↔ child ∈ children' := by
        constructor
        · intro hm
          obtain ⟨child', hm', hsame, hheld⟩ := exists_counterpart h h' hl hm
          rwa [ih child hm (hbelow child hm).2 (hbelow' child' hm').2 hsame.symm hheld]
        · intro hm'
          obtain ⟨child, hm, hsame, hheld⟩ :=
            exists_counterpart h' h (fun leaf => (hl leaf).symm) hm'
          rwa [← ih child hm (hbelow child hm).2 (hbelow' _ hm').2 hsame fun leaf =>
            (hheld leaf).symm]
      have hperm : children.Perm children' :=
        (List.perm_ext_iff_of_nodup (nodup_labels hsorted).of_map (nodup_labels hsorted').of_map).2
          hmem
      rw [hperm.eq_of_pairwise (fun a b _ _ hab hba => absurd hba hab.asymm) hsorted hsorted']

/-! ## Trees of paths are in canonical shape -/

/-- The children of a folder with the given leaves as they are found, before they are sorted. -/
def childrenFound (key : String → List Nat) (depth : ℕ) (leaves : List Leaf) : List Tree :=
  (folderNames leaves).map
    (fun name => .folder name (childrenOf key depth (leavesIn name leaves))) ++ filesOf leaves

lemma childrenOf_succ (key : String → List Nat) (depth : ℕ) (leaves : List Leaf) :
    childrenOf key (depth + 1) leaves = sortChildren key (childrenFound key depth leaves) := rfl

lemma mem_childrenFound : tree ∈ childrenFound key depth leaves ↔
    (∃ name ∈ folderNames leaves,
      folder name (childrenOf key depth (leavesIn name leaves)) = tree) ∨
      ∃ leaf ∈ leaves, ∃ name, leaf.1 = [name] ∧ file name leaf.2 = tree := by
  rw [childrenFound, List.mem_append, List.mem_map, filesOf, List.mem_filterMap]
  refine or_congr_right (exists_congr fun leaf => and_congr_right fun _ => ?_)
  obtain ⟨_ | ⟨name, _ | ⟨next, rest⟩⟩, path⟩ := leaf <;> simp

/-- The name that a leaf has as a file of the folder at hand. -/
def fileName? : List String → Option String
  | [name] => some name
  | _ => none

lemma label_filesOf (leaves : List Leaf) :
    (filesOf leaves).map label =
      ((leaves.map Prod.fst).filterMap fileName?).map (Prod.mk false) := by
  induction leaves with
  | nil => rfl
  | cons leaf leaves ih =>
    rw [filesOf, List.filterMap_cons, ← filesOf, List.map_cons, List.filterMap_cons]
    obtain ⟨_ | ⟨name, _ | ⟨next, rest⟩⟩, path⟩ := leaf
    · exact ih
    · exact congrArg (List.cons (false, name)) ih
    · exact ih

/-- A folder has one folder and one file of a name at most. -/
lemma nodup_labels_childrenFound (key : String → List Nat) (depth : ℕ)
    (h : (leaves.map Prod.fst).Nodup) : ((childrenFound key depth leaves).map label).Nodup := by
  have hfolders : ((folderNames leaves).map fun name =>
      (folder name (childrenOf key depth (leavesIn name leaves))).label) =
        (folderNames leaves).map (Prod.mk true) := rfl
  have hfiles : ((leaves.map Prod.fst).filterMap fileName?).Nodup := by
    refine h.filterMap ?_
    intro names names' name hname hname'
    match names, names' with
    | [_], [_] => rw [Option.some.inj hname, Option.some.inj hname']
  rw [childrenFound, List.map_append, List.map_map, Function.comp_def, hfolders, label_filesOf,
    List.nodup_append]
  refine ⟨(nodup_folderNames leaves).map (Prod.mk_right_injective true),
    hfiles.map (Prod.mk_right_injective false), ?_⟩
  intro first hfirst second hsecond he
  obtain ⟨name, -, rfl⟩ := List.mem_map.1 hfirst
  obtain ⟨other, -, rfl⟩ := List.mem_map.1 hsecond
  cases he

/-- In a folder of a folder, leaves differ in their names as they did before. -/
lemma nodup_leavesIn (folder : String) (h : (leaves.map Prod.fst).Nodup) :
    ((leavesIn folder leaves).map Prod.fst).Nodup := by
  have hunder : (((leavesIn folder leaves).map (under folder)).map Prod.fst).Nodup := by
    rw [map_leavesIn]
    exact (List.filter_sublist.map Prod.fst).nodup h
  have hnames : ((leavesIn folder leaves).map (under folder)).map Prod.fst =
      ((leavesIn folder leaves).map Prod.fst).map (List.cons folder) := by
    rw [List.map_map, List.map_map]
    rfl
  rw [hnames] at hunder
  exact hunder.of_map

lemma leavesIn_ne_nil {folder : String} (h : folder ∈ folderNames leaves) :
    leavesIn folder leaves ≠ [] := by
  obtain ⟨leaf, hm, hfolder⟩ := mem_folderNames.1 h
  have hunder : leaf ∈ (leavesIn folder leaves).map (under folder) := by
    rw [map_leavesIn]
    exact List.mem_filter.2 ⟨hm, decide_eq_true hfolder⟩
  intro hnil
  rw [hnil] at hunder
  cases hunder

/-- A folder that is built from leaves is in canonical shape. -/
lemma canonical_childrenOf (key : String → List Nat) (name : String)
    (hne : ∀ leaf ∈ leaves, leaf.1 ≠ []) (hn : (leaves.map Prod.fst).Nodup)
    (hd : ∀ leaf ∈ leaves, leaf.1.length ≤ depth) :
    Canonical key (folder name (childrenOf key depth leaves)) := by
  induction depth generalizing leaves name with
  | zero =>
    rw [canonical_folder_iff, childrenOf]
    exact ⟨.nil, by simp⟩
  | succ depth ih =>
    rw [canonical_folder_iff, childrenOf_succ]
    refine ⟨pairwise_sortChildren key (nodup_labels_childrenFound key depth hn), ?_⟩
    intro child hm
    rcases mem_childrenFound.1 ((sortChildren_perm key _).mem_iff.1 hm) with
      ⟨inner, hi, rfl⟩ | hfile
    · have hne' (leaf : Leaf) (hl : leaf ∈ leavesIn inner leaves) : leaf.1 ≠ [] :=
        (mem_leavesIn hl).1
      have hd' (leaf : Leaf) (hl : leaf ∈ leavesIn inner leaves) : leaf.1.length ≤ depth := by
        have hlength := hd _ (mem_leavesIn hl).2
        rw [under, List.length_cons] at hlength
        omega
      refine ⟨?_, ih inner hne' (nodup_leavesIn inner hn) hd'⟩
      intro hnil
      rw [located_folder] at hnil
      have hperm := located_childrenOf key hne' hd'
      rw [hnil, List.nil_perm] at hperm
      exact leavesIn_ne_nil hi hperm
    · obtain ⟨leaf, -, fileName, -, rfl⟩ := hfile
      exact ⟨by simp [located], canonical_file key fileName leaf.2⟩

/-- Trees of paths are in canonical shape. -/
theorem canonical_build (key : String → List Nat) (rootName : String) (paths : List String) :
    Canonical key (build key rootName paths) :=
  canonical_childrenOf key rootName (fun _ => ne_nil_of_mem_leavesOf) (nodup_leavesOf paths)
    fun _ => length_le_depthOf

/-- Trees of paths are the same if the paths stand for the same files, and only then. -/
theorem build_eq_build_iff {paths' : List String} :
    build key rootName paths = build key rootName paths' ↔
    ∀ form ≠ [], firstSpelling paths form = firstSpelling paths' form := by
  constructor
  · intro he form hne
    refine Option.ext fun spelling => ?_
    have hheld : (form, spelling) ∈ (build key rootName paths).located ↔
        (form, spelling) ∈ (build key rootName paths').located := by rw [he]
    rw [mem_located_build, mem_located_build] at hheld
    simpa [hne] using hheld
  · intro h
    refine (canonical_build key rootName paths).eq_of_located
      (canonical_build key rootName paths') rfl ?_
    intro leaf
    rw [mem_located_build, mem_located_build]
    exact and_congr_right fun hne => by rw [h leaf.1 hne]

/-- What a tree of paths is. -/
structure IsTreeOf (key : String → List Nat) (rootName : String) (paths : List String)
    (tree : Tree) : Prop extends Canonical key tree where
  root : ∃ children, tree = folder rootName children
  /-- For each list of segments that a path has, other than the empty one, the tree holds a file
  where the segments lead, with the first spelling of the path; and it holds no other file. -/
  mem_located : ∀ form spelling, (form, spelling) ∈ tree.located ↔
    form ≠ [] ∧ firstSpelling paths form = some spelling
  /-- No two files have the same segments. -/
  once : (tree.located.map Prod.fst).Nodup
  /-- No two folders and no two files of a folder share a name. -/
  labels : ∀ name children, Within (.folder name children) tree → (children.map label).Nodup
  /-- The tree is built again from the paths that it holds, in any order and with
  any repetitions. -/
  rebuilt : ∀ paths', (∀ path, path ∈ paths' ↔ path ∈ tree.leafPaths) →
    build key rootName paths' = tree

/-- A tree built from paths holds them, each once, in canonical shape. -/
theorem build_isTreeOf (key : String → List Nat) (rootName : String) (paths : List String) :
    IsTreeOf key rootName paths (build key rootName paths) where
  toCanonical := canonical_build key rootName paths
  root := ⟨_, rfl⟩
  mem_located _ _ := mem_located_build
  once := nodup_located_build key rootName paths
  labels name children h :=
    nodup_labels ((canonical_build key rootName paths).increasing name children h)
  rebuilt paths' h := by
    rw [build_eq_build_iff]
    intro form hne
    cases hfirst : firstSpelling paths form with
    | none =>
      rw [firstSpelling_eq_none_iff] at hfirst ⊢
      intro path hm
      exact hfirst path (mem_of_firstSpelling (mem_leafPaths_build.1 ((h path).1 hm)).2)
    | some spelling =>
      have hform := normalForm_of_firstSpelling hfirst
      refine firstSpelling_of_unique ((h spelling).2 (mem_leafPaths_build.2 ?_)) hform ?_
      · rw [hform]
        exact ⟨hne, hfirst⟩
      · intro other hm ho
        have hcounts := (mem_leafPaths_build.1 ((h other).1 hm)).2
        rw [ho, hfirst] at hcounts
        exact (Option.some.inj hcounts).symm

end SourceAtlas.Tree
