import SourceAtlas.Proofs.Project.Canonical

/-!
# The order of the paths

The order in which paths are given does not show in the folders and files of their tree, nor in
the order of these (`Tree.shape_build_of_perm`).  It does show in the spelling that a file
keeps, if its path is given in more than one: that is the first one.  So a list of paths has
one tree in every order if no file is spelled in two ways, and if one is, two orders give
different trees (`Tree.build_perm_iff`).
-/

namespace SourceAtlas.Tree

variable {key : String → List Nat} {name rootName : String} {paths paths' : List String}
  {children : List Tree} {tree : Tree}

/-! ## What is left without the spelling -/

mutual

/-- A tree without the spelling of the paths. -/
def shape : Tree → Tree
  | .file name _ => .file name ""
  | .folder name children => .folder name (shapes children)

/-- Trees without the spelling of the paths. -/
def shapes : List Tree → List Tree
  | [] => []
  | tree :: trees => shape tree :: shapes trees

end

lemma shape_folder (name : String) (children : List Tree) :
    (folder name children).shape = folder name (children.map shape) := by
  rw [shape]
  congr 1
  induction children with
  | nil => rfl
  | cons child children ih => rw [shapes, ih, List.map_cons]

lemma label_shape (tree : Tree) : tree.shape.label = tree.label := by
  cases tree with
  | file name path => rfl
  | folder name children => rw [shape_folder]; rfl

lemma located_shape (tree : Tree) :
    tree.shape.located = tree.located.map fun leaf => (leaf.1, "") := by
  induction tree using induction with
  | file name path => rw [shape, located, located, List.map_singleton]
  | folder name children ih =>
    rw [shape_folder, located_folder, located_folder, List.flatMap_map, List.map_flatMap]
    refine List.flatMap_congr ?_
    intro child hm
    have hname : child.shape.name = child.name := congrArg Prod.snd (label_shape child)
    rw [locatedAt, ih child hm, hname, locatedAt, List.map_map, List.map_map]
    rfl

lemma precedes_shape {a b : Tree} : Precedes key a.shape b.shape ↔ Precedes key a b := by
  obtain ⟨hkind, hname⟩ := Prod.mk.inj (label_shape a)
  obtain ⟨hkind', hname'⟩ := Prod.mk.inj (label_shape b)
  rw [Precedes, Precedes, hkind, hname, hkind', hname']

lemma Canonical.shape (h : Canonical key tree) : Canonical key tree.shape := by
  induction tree using induction with
  | file name path => exact canonical_file key name ""
  | folder name children ih =>
    obtain ⟨hsorted, hbelow⟩ := canonical_folder_iff.1 h
    rw [shape_folder, canonical_folder_iff, List.pairwise_map]
    refine ⟨hsorted.imp precedes_shape.2, ?_⟩
    intro child' hm'
    obtain ⟨child, hm, rfl⟩ := List.mem_map.1 hm'
    obtain ⟨hheld, hcanonical⟩ := hbelow child hm
    refine ⟨?_, ih child hm hcanonical⟩
    rw [located_shape]
    simpa using hheld

lemma mem_located_shape {form : List String} {path : String} :
    (form, path) ∈ (build key rootName paths).shape.located ↔
      path = "" ∧ form ≠ [] ∧ ∃ spelling ∈ paths, normalForm spelling = form := by
  rw [located_shape, List.mem_map]
  constructor
  · rintro ⟨leaf, hm, he⟩
    obtain ⟨rfl, rfl⟩ := Prod.mk.inj he
    obtain ⟨hne, hfirst⟩ := mem_located_build.1 hm
    exact ⟨rfl, hne, leaf.2, mem_of_firstSpelling hfirst, normalForm_of_firstSpelling hfirst⟩
  · rintro ⟨rfl, hne, hspelled⟩
    obtain ⟨first, hfirst⟩ : ∃ first, firstSpelling paths form = some first := by
      refine Option.ne_none_iff_exists'.1 fun hnone => ?_
      obtain ⟨spelling, hm, hform⟩ := hspelled
      exact firstSpelling_eq_none_iff.1 hnone spelling hm hform
    exact ⟨(form, first), mem_located_build.2 ⟨hne, hfirst⟩, rfl⟩

/-- Folders and files, and their order, depend on the segments of the paths alone. -/
theorem shape_build_of_perm (h : paths.Perm paths') :
    (build key rootName paths').shape = (build key rootName paths).shape := by
  refine (canonical_build key rootName paths').shape.eq_of_located
    (canonical_build key rootName paths).shape ?_ ?_
  · rw [label_shape, label_shape]
    rfl
  · rintro ⟨form, path⟩
    simp only [mem_located_shape, h.mem_iff]

/-! ## When the order does not matter at all -/

/-- No file is spelled in two ways. -/
def SpelledOnce (paths : List String) : Prop :=
  ∀ path ∈ paths, ∀ other ∈ paths,
    normalForm path = normalForm other → normalForm path ≠ [] → path = other

lemma SpelledOnce.firstSpelling_perm (h : SpelledOnce paths) (hp : paths.Perm paths')
    {form : List String} (hne : form ≠ []) :
    firstSpelling paths' form = firstSpelling paths form := by
  cases hfirst : firstSpelling paths form with
  | none =>
    rw [firstSpelling_eq_none_iff] at hfirst ⊢
    exact fun path hm => hfirst path (hp.mem_iff.2 hm)
  | some spelling =>
    have hm := mem_of_firstSpelling hfirst
    have hform := normalForm_of_firstSpelling hfirst
    refine firstSpelling_of_unique (hp.mem_iff.1 hm) hform ?_
    intro other ho he
    exact h other (hp.mem_iff.2 ho) spelling hm (he.trans hform.symm) (he ▸ hne)

/-- A path that is put in front counts for its segments. -/
lemma firstSpelling_cons_self (path : String) (paths : List String) :
    firstSpelling (path :: paths) (normalForm path) = some path := by
  rw [firstSpelling, List.find?_cons_of_pos (by simp)]

/-- The order of the paths shows in the spelling of a path alone, and there only if a file is
spelled in two ways. -/
theorem build_perm_iff (key : String → List Nat) (rootName : String) (paths : List String) :
    (∀ paths', paths.Perm paths' →
      (build key rootName paths').shape = (build key rootName paths).shape) ∧
    ((∀ paths', paths.Perm paths' → build key rootName paths' = build key rootName paths) ↔
      SpelledOnce paths) := by
  refine ⟨fun paths' => shape_build_of_perm, fun h => ?_, fun h paths' hp => ?_⟩
  · -- Each of two spellings can be put in front, and counts then.
    intro path hm other ho hform hne
    have hfront := h _ (List.perm_cons_erase hm)
    have hfront' := h _ (List.perm_cons_erase ho)
    have hsame := build_eq_build_iff.1 (hfront.trans hfront'.symm) _ hne
    rw [firstSpelling_cons_self, hform, firstSpelling_cons_self] at hsame
    exact Option.some.inj hsame
  · exact build_eq_build_iff.2 fun form hne => h.firstSpelling_perm hp hne

/-- A file that is spelled in two ways keeps the spelling that comes first. -/
theorem spelling_follows_order (key : String → List Nat) (rootName : String) :
    (build key rootName ["a//b.js", "a/b.js", "a/b.js"]).leafPaths = ["a//b.js"] ∧
      (build key rootName ["a/b.js", "a//b.js", "a/b.js"]).leafPaths = ["a/b.js"] := by
  constructor
  · exact List.perm_singleton.1
      ((leafPaths_build key rootName _).trans (.of_eq (by decide +kernel)))
  · exact List.perm_singleton.1
      ((leafPaths_build key rootName _).trans (.of_eq (by decide +kernel)))

end SourceAtlas.Tree
