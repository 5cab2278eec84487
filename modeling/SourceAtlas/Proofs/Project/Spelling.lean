import SourceAtlas.Proofs.Project.Leaves

/-!
# The spelling that counts

Paths with the same segments stand for one file.  Of their spellings the first one counts
(`Tree.firstSpelling`):  a tree holds a file for each list of segments that a path has, with
that spelling, and no other file (`Tree.mem_located_build`); and no two files of it have the
same segments (`Tree.nodup_located_build`).
-/

namespace SourceAtlas.Tree

variable {paths : List String} {form : List String} {path : String}

/-- The first of the paths that have given segments. -/
def firstSpelling (paths : List String) (form : List String) : Option String :=
  paths.find? fun path => normalForm path = form

lemma normalForm_of_firstSpelling (h : firstSpelling paths form = some path) :
    normalForm path = form := by
  simpa using List.find?_some h

lemma mem_of_firstSpelling (h : firstSpelling paths form = some path) : path ∈ paths :=
  List.mem_of_find?_eq_some h

lemma firstSpelling_eq_none_iff :
    firstSpelling paths form = none ↔ ∀ path ∈ paths, normalForm path ≠ form := by
  simp [firstSpelling]

/-- A path that is the only one with its segments is the first one. -/
lemma firstSpelling_of_unique (hm : path ∈ paths) (hf : normalForm path = form)
    (h : ∀ other ∈ paths, normalForm other = form → other = path) :
    firstSpelling paths form = some path := by
  cases hs : firstSpelling paths form with
  | none => exact absurd hf (firstSpelling_eq_none_iff.1 hs path hm)
  | some other => rw [h other (mem_of_firstSpelling hs) (normalForm_of_firstSpelling hs)]

/-- Paths stand for the segments that they have, in their first spelling. -/
lemma mem_leavesOf {leaf : Leaf} :
    leaf ∈ leavesOf paths ↔ leaf.1 ≠ [] ∧ firstSpelling paths leaf.1 = some leaf.2 := by
  obtain ⟨form, spelling⟩ := leaf
  rw [leavesOf, mem_eraseDupsBy_key Prod.fst, List.find?_filter, List.find?_map,
    Option.map_eq_some_iff]
  constructor
  · rintro ⟨path, hfind, he⟩
    obtain ⟨rfl, rfl⟩ := Prod.mk.inj he
    have hboth := List.find?_some hfind
    have hne : normalForm path ≠ [] := by simpa using hboth
    refine ⟨hne, ?_⟩
    rw [← hfind, firstSpelling]
    congr 1
    funext other
    by_cases ho : normalForm other = normalForm path
    · simp [ho, hne]
    · simp [ho]
  · rintro ⟨hne, hfirst⟩
    have hform := normalForm_of_firstSpelling hfirst
    refine ⟨spelling, ?_, by rw [hform]⟩
    rw [← hfirst, firstSpelling]
    congr 1
    funext other
    by_cases ho : normalForm other = form
    · simpa [ho] using hne
    · simp [ho]

lemma nodup_leavesOf (paths : List String) : ((leavesOf paths).map Prod.fst).Nodup := by
  rw [leavesOf]
  exact nodup_eraseDupsBy_key Prod.fst _

variable {key : String → List Nat} {rootName : String}

/-- The files of a tree are the segments that the paths have, in their first spelling. -/
theorem mem_located_build {leaf : Leaf} : leaf ∈ (build key rootName paths).located ↔
    leaf.1 ≠ [] ∧ firstSpelling paths leaf.1 = some leaf.2 :=
  (located_build key rootName paths).mem_iff.trans mem_leavesOf

theorem nodup_located_build (key : String → List Nat) (rootName : String) (paths : List String) :
    ((build key rootName paths).located.map Prod.fst).Nodup :=
  ((located_build key rootName paths).map Prod.fst).nodup_iff.2 (nodup_leavesOf paths)

/-- The path of a file counts for its segments. -/
lemma mem_leafPaths_build : path ∈ (build key rootName paths).leafPaths ↔
    normalForm path ≠ [] ∧ firstSpelling paths (normalForm path) = some path := by
  rw [leafPaths_eq_map, List.mem_map]
  constructor
  · rintro ⟨leaf, hm, rfl⟩
    obtain ⟨hne, hfirst⟩ := mem_located_build.1 hm
    rw [normalForm_of_firstSpelling hfirst]
    exact ⟨hne, hfirst⟩
  · rintro ⟨hne, hfirst⟩
    exact ⟨(normalForm path, path), mem_located_build.2 ⟨hne, hfirst⟩, rfl⟩

end SourceAtlas.Tree
