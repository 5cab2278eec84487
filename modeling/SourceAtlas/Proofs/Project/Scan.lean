import Mathlib.Data.List.Fold
import Mathlib.Data.List.MinMax
import Mathlib.Data.String.Basic
import Mathlib.Order.Nat
import SourceAtlas.Project.Scan
import SourceAtlas.Proofs.Files.Standing

/-!
# What a scan lists

A file is visible from a root if it is a regular file and none of the directories that lead to it
from there is ignored (`FileSystem.Visible`).  Since only directories hold entries, no link lies on
the way.  A scan lists the visible files whose paths can be looked up from the root as it is given,
and nothing else (`FileSystem.mem_listed`, `on_scan`).

It lists them in a strict order (`Earlier`), so the list is determined by what is in it
(`FileSystem.listed_eq_listed`).
-/

namespace SourceAtlas

open FileSystem SourceAtlas.Action

/-! ## Names in order -/

lemma mem_sortTexts {texts : List String} {text : String} :
    text ∈ sortTexts texts ↔ text ∈ texts := by
  rw [sortTexts, List.mem_mergeSort]

/-- What is in order already stays as it is. -/
lemma sortTexts_of_pairwise {texts : List String} (h : texts.Pairwise (· ≤ ·)) :
    sortTexts texts = texts :=
  List.mergeSort_of_pairwise (h.imp decide_eq_true)

lemma pairwise_sortTexts {texts : List String} (h : texts.Nodup) :
    (sortTexts texts).Pairwise (· < ·) := by
  have hle : (sortTexts texts).Pairwise (· ≤ ·) := by
    refine (List.pairwise_mergeSort ?_ ?_ texts).imp of_decide_eq_true
    · intro a b c hab hbc
      exact decide_eq_true ((of_decide_eq_true hab).trans (of_decide_eq_true hbc))
    · intro a b
      rcases le_total a b with hab | hba
      · simp [hab]
      · simp [hba]
  have hne : (sortTexts texts).Nodup := (List.mergeSort_perm _ _).nodup_iff.2 h
  exact (hle.and hne).imp fun h => lt_of_le_of_ne h.1 h.2

/-- The order in which files are listed: those of a directory first, then those in
its directories. -/
inductive Earlier : Location → Location → Prop
  | files {a b : String} (h : a < b) : Earlier [a] [b]
  | fileFirst (a b next : String) (rest : Location) : Earlier [a] (b :: next :: rest)
  | directories {a b : String} (h : a < b) (next next' : String) (rest rest' : Location) :
      Earlier (a :: next :: rest) (b :: next' :: rest')
  | within (a : String) {rest rest' : Location} (h : Earlier rest rest') :
      Earlier (a :: rest) (a :: rest')

lemma Earlier.asymm {first second : Location} (h : Earlier first second) :
    ¬ Earlier second first := by
  induction h with
  | files h =>
    intro h'
    cases h' with
    | files h' => exact lt_asymm h h'
    | within _ h' => cases h'
  | fileFirst a b next rest =>
    intro h'
    cases h' with
    | within _ h' => cases h'
  | directories h =>
    intro h'
    cases h' with
    | directories h' => exact lt_asymm h h'
    | within _ h' => exact lt_irrefl _ h
  | within a h ih =>
    intro h'
    cases h' with
    | files h' => exact lt_irrefl _ h'
    | fileFirst => cases h
    | directories h' => exact lt_irrefl _ h'
    | within _ h' => exact ih h'

namespace FileSystem

variable {fs fs' : FileSystem} {ignored : List String} {place place' names : Location}
  {name root root' : String} {depth : Nat}

/-! ## Visible files -/

/-- A regular file below a place, none of whose directories from there is ignored. -/
def Visible (fs : FileSystem) (ignored : List String) (place names : Location) : Prop :=
  (∃ content, fs.get? (place ++ names) = some (.file content)) ∧
    ∀ name ∈ names.dropLast, name ∉ ignored

lemma mem_fileNames :
    name ∈ fs.fileNames place ↔ ∃ content, fs.get? (place ++ [name]) = some (.file content) := by
  rw [fileNames, mem_sortTexts, List.mem_filter, mem_names_iff]
  constructor
  · rintro ⟨⟨node, hn⟩, hfile⟩
    rw [hn] at hfile
    cases node with
    | file content => exact ⟨content, hn⟩
    | _ => cases hfile
  · rintro ⟨content, hn⟩
    exact ⟨⟨_, hn⟩, by rw [hn]⟩

lemma mem_openDirectories :
    name ∈ fs.openDirectories ignored place ↔
      fs.isDirectory (place ++ [name]) ∧ name ∉ ignored := by
  rw [openDirectories, mem_sortTexts, List.mem_filter, mem_names_iff]
  simp only [Bool.and_eq_true, decide_eq_true_eq, Bool.not_eq_true', List.contains_eq_mem,
    decide_eq_false_iff_not]
  constructor
  · rintro ⟨-, h⟩
    exact h
  · rintro ⟨hd, hi⟩
    exact ⟨⟨_, hd⟩, hd, hi⟩

/-- Down to a depth, exactly the visible files are found. -/
lemma mem_filesBelow : names ∈ fs.filesBelow ignored depth place ↔
    names ≠ [] ∧ names.length ≤ depth ∧ fs.Visible ignored place names := by
  induction depth generalizing place names with
  | zero =>
    rw [filesBelow]
    constructor
    · intro h
      cases h
    · rintro ⟨hne, hlength, -⟩
      exact absurd (List.length_eq_zero_iff.1 (Nat.le_zero.1 hlength)) hne
  | succ depth ih =>
    rw [filesBelow, List.mem_append, List.mem_map, List.mem_flatMap]
    constructor
    · rintro (⟨name, hn, rfl⟩ | ⟨name, hn, hm⟩)
      · exact ⟨by simp, by simp, mem_fileNames.1 hn, by simp⟩
      · obtain ⟨rest, hrest, rfl⟩ := List.mem_map.1 hm
        obtain ⟨hne, hlength, ⟨content, hfile⟩, hopen⟩ := ih.1 hrest
        rw [List.append_assoc, List.singleton_append] at hfile
        refine ⟨by simp, by simpa using hlength, ⟨content, hfile⟩, ?_⟩
        intro other ho
        rw [List.dropLast_cons_of_ne_nil hne] at ho
        rcases List.mem_cons.1 ho with rfl | ho
        · exact (mem_openDirectories.1 hn).2
        · exact hopen other ho
    · rintro ⟨hne, hlength, ⟨content, hfile⟩, hopen⟩
      match names with
      | [name] => exact .inl ⟨name, mem_fileNames.2 ⟨content, hfile⟩, rfl⟩
      | name :: next :: rest =>
        have hfile' : fs.get? (place ++ [name] ++ next :: rest) = some (.file content) := by
          rw [List.append_assoc, List.singleton_append]
          exact hfile
        have hd : fs.isDirectory (place ++ [name]) :=
          isDirectory_of_above hfile' (List.prefix_append _ _) (by simp)
        refine .inr ⟨name, mem_openDirectories.2 ⟨hd, hopen name (by simp)⟩,
          List.mem_map.2
            ⟨next :: rest, ih.2 ⟨by simp, by simpa using hlength, ⟨content, hfile'⟩, ?_⟩, rfl⟩⟩
        intro other ho
        exact hopen other (by simp [ho])

lemma pairwise_fileNames (fs : FileSystem) (place : Location) :
    (fs.fileNames place).Pairwise (· < ·) :=
  pairwise_sortTexts ((nodup_names fs place).filter _)

lemma pairwise_openDirectories (fs : FileSystem) (ignored : List String) (place : Location) :
    (fs.openDirectories ignored place).Pairwise (· < ·) :=
  pairwise_sortTexts ((nodup_names fs place).filter _)

lemma pairwise_filesBelow (fs : FileSystem) (ignored : List String) (depth : Nat)
    (place : Location) :
    (fs.filesBelow ignored depth place).Pairwise Earlier := by
  induction depth generalizing place with
  | zero => exact .nil
  | succ depth ih =>
    rw [filesBelow, List.pairwise_append]
    refine ⟨?_, ?_, ?_⟩
    · rw [List.pairwise_map]
      exact (pairwise_fileNames fs place).imp .files
    · rw [List.pairwise_flatMap]
      constructor
      · intro name _
        rw [List.pairwise_map]
        exact (ih (place ++ [name])).imp (.within name)
      · refine (pairwise_openDirectories fs ignored place).imp ?_
        intro a b hab first hfirst second hsecond
        obtain ⟨rest, hrest, rfl⟩ := List.mem_map.1 hfirst
        obtain ⟨rest', hrest', rfl⟩ := List.mem_map.1 hsecond
        obtain ⟨next, rest, rfl⟩ := List.exists_cons_of_ne_nil (mem_filesBelow.1 hrest).1
        obtain ⟨next', rest', rfl⟩ := List.exists_cons_of_ne_nil (mem_filesBelow.1 hrest').1
        exact .directories hab next next' rest rest'
    · intro first hfirst second hsecond
      obtain ⟨a, -, rfl⟩ := List.mem_map.1 hfirst
      obtain ⟨b, -, hm⟩ := List.mem_flatMap.1 hsecond
      obtain ⟨rest, hrest, rfl⟩ := List.mem_map.1 hm
      obtain ⟨next, rest, rfl⟩ := List.exists_cons_of_ne_nil (mem_filesBelow.1 hrest).1
      exact .fileFirst a b next rest

/-! ## The list of a scan -/

/-- A visible file whose path, from the root as it is given, can be looked up. -/
def Listed (fs : FileSystem) (ignored : List String) (root : String) (place names : Location) :
    Prop :=
  fs.Visible ignored place names ∧
    (Path.append root (Path.ofSegments names)).utf8ByteSize ≤ maxPathBytes

/-- The files that a scan lists. -/
def listed (fs : FileSystem) (ignored : List String) (root : String) (place : Location) :
    List Location :=
  (fs.projectFiles ignored place).filter fun names =>
    (Path.append root (Path.ofSegments names)).utf8ByteSize ≤ maxPathBytes

/-- No entry is deeper than the depth. -/
lemma length_le_depth {location : Location} {node : Node} (h : fs.get? location = some node) :
    location.length ≤ fs.depth := by
  by_cases hne : location = []
  · simp [hne]
  · have hm : location.length ∈ fs.entries.map fun entry => entry.1.length :=
      List.mem_map.2 ⟨_, (get?_eq_some_iff hne).1 h, rfl⟩
    rw [depth, List.foldl_eq_foldr]
    exact List.le_max_of_le hm le_rfl

lemma mem_listed (hd : fs.isDirectory place) :
    names ∈ fs.listed ignored root place ↔ fs.Listed ignored root place names := by
  rw [listed, List.mem_filter, decide_eq_true_eq, projectFiles, mem_filesBelow, Listed]
  constructor
  · rintro ⟨⟨-, -, hv⟩, hs⟩
    exact ⟨hv, hs⟩
  · rintro ⟨hv, hs⟩
    obtain ⟨content, hfile⟩ := hv.1
    refine ⟨⟨?_, ?_, hv⟩, hs⟩
    · rintro rfl
      have hd' : fs.get? place = some .directory := hd
      rw [List.append_nil, hd'] at hfile
      cases hfile
    · have hlength := length_le_depth hfile
      rw [List.length_append] at hlength
      omega

lemma ne_nil_of_mem_listed (h : names ∈ fs.listed ignored root place) : names ≠ [] :=
  (mem_filesBelow.1 (List.mem_filter.1 h).1).1

lemma pairwise_listed (fs : FileSystem) (ignored : List String) (root : String) (place : Location) :
    (fs.listed ignored root place).Pairwise Earlier :=
  (pairwise_filesBelow fs ignored fs.depth place).filter _

lemma nodup_listed (fs : FileSystem) (ignored : List String) (root : String) (place : Location) :
    (fs.listed ignored root place).Nodup := by
  refine (pairwise_listed fs ignored root place).imp ?_
  rintro first _ h rfl
  exact h.asymm h

instance : Decidable (fs.Visible ignored place names) :=
  decidable_of_iff
    ((match fs.get? (place ++ names) with
      | some (.file _) => true
      | _ => false) = true ∧ ∀ name ∈ names.dropLast, name ∉ ignored)
    (and_congr_left fun _ => by split <;> simp_all)

instance : Decidable (fs.Listed ignored root place names) :=
  inferInstanceAs (Decidable (_ ∧ _))

/-- What holds of the listed files is decided on the entries below the place. -/
lemma forall_listed_iff {p : Location → Prop} (hd : fs.isDirectory place) :
    (∀ names, fs.Listed ignored root place names → p names) ↔
      ∀ entry ∈ fs.below place, fs.Listed ignored root place entry.1 → p entry.1 := by
  constructor
  · intro h entry _ hl
    exact h entry.1 hl
  · intro h names hl
    obtain ⟨content, hfile⟩ := hl.1.1
    have hlisted := (mem_listed hd).2 hl
    have hne : names ≠ [] := ne_nil_of_mem_listed hlisted
    have hentry := (get?_eq_some_iff (by simp [hne])).1 hfile
    refine h (names, .file content) (List.mem_filterMap.2 ⟨_, hentry, ?_⟩) hl
    have hlength : 0 < names.length := List.length_pos_of_ne_nil hne
    simp [hlength]

/-- What is listed determines the list. -/
theorem listed_eq_listed (h : ∀ names, names ∈ fs.listed ignored root place ↔
    names ∈ fs'.listed ignored root' place') :
    fs.listed ignored root place = fs'.listed ignored root' place' := by
  have hperm : (fs.listed ignored root place).Perm (fs'.listed ignored root' place') :=
    (List.perm_ext_iff_of_nodup (nodup_listed fs ignored root place)
      (nodup_listed fs' ignored root' place')).2 h
  refine hperm.eq_of_pairwise ?_ (pairwise_listed fs ignored root place)
    (pairwise_listed fs' ignored root' place')
  intro first second _ _ hfirst hsecond
  exact absurd hsecond hfirst.asymm

end FileSystem

/-- A scan of a directory lists its files and changes nothing. -/
lemma on_scan {fs : FileSystem} {root : String} {place : Location} (h : fs.LeadsTo root place)
    (ignored : List String) : (scan ignored root).on fs =
      (.ok ((fs.listed ignored root place).map Path.ofSegments), fs) := by
  rw [scan, on_bind_ok on_get, (leadsTo_iff_locate.1 h).1]
  dsimp only
  rw [if_pos h.isDirectory, on_pure, listed, List.filter_map]
  rfl

end SourceAtlas
