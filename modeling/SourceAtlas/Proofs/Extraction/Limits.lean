import Mathlib.Algebra.Order.BigOperators.Group.List
import Mathlib.Algebra.Order.Group.Nat
import Mathlib.Data.List.Nodup
import Mathlib.Data.List.Perm.Subperm
import SourceAtlas.Proofs.Extraction.Confinement

/-!
# The limits hold for what is on disk

The declared sizes of an archive decide nothing about what it takes up in the end.  Whatever sizes
are declared, and wherever an extraction stops, the regular files below the root that it has made
are within the limits on their number, their sizes and the sum of their sizes (`extract_limits`).

The ledger of the extraction carries the proof: each file on disk holds what the latest of its
entries in the ledger says, so the files are some of the entries of the ledger, each taken once.
-/

namespace SourceAtlas

namespace FileSystem

variable {fs : FileSystem} {top rest : Location} {content : ByteArray}

/-- The regular files below a location, with the names that lead to them from there. -/
def contentsBelow (fs : FileSystem) (top : Location) : List (Location × ByteArray) :=
  (fs.below top).filterMap fun entry =>
    match entry.2 with
    | .file content => some (entry.1, content)
    | _ => none

lemma mem_below {node : Node} :
    (rest, node) ∈ fs.below top ↔ rest ≠ [] ∧ fs.get? (top ++ rest) = some node := by
  rw [below, List.mem_filterMap]
  constructor
  · rintro ⟨⟨location, found⟩, hm, he⟩
    split at he
    · rename_i hp
      rw [Bool.and_eq_true, List.isPrefixOf_iff_prefix, decide_eq_true_eq] at hp
      obtain ⟨⟨other, rfl⟩, hlt⟩ := hp
      obtain ⟨rfl, rfl⟩ : other = rest ∧ found = node := by simpa using he
      have hne : other ≠ [] := by
        rintro rfl
        simp at hlt
      exact ⟨hne, (get?_eq_some_iff (by simp [hne])).2 hm⟩
    · cases he
  · rintro ⟨hne, hn⟩
    refine ⟨(top ++ rest, node), (get?_eq_some_iff (by simp [hne])).1 hn, ?_⟩
    simp [hne]

lemma mem_contentsBelow :
    (rest, content) ∈ fs.contentsBelow top ↔
      rest ≠ [] ∧ fs.get? (top ++ rest) = some (.file content) := by
  rw [← mem_below, contentsBelow, List.mem_filterMap]
  constructor
  · rintro ⟨⟨other, node⟩, hm, he⟩
    cases node with
    | file found =>
      obtain ⟨rfl, rfl⟩ : other = rest ∧ found = content := by simpa using he
      exact hm
    | _ => cases he
  · exact fun hm => ⟨_, hm, rfl⟩

lemma nodup_contentsBelow (fs : FileSystem) (top : Location) : (fs.contentsBelow top).Nodup := by
  have hbelow : (fs.below top).Nodup := by
    refine List.Nodup.filterMap ?_ (List.Nodup.of_map _ fs.distinct)
    rintro ⟨location, node⟩ ⟨location', node'⟩ entry he he'
    rw [Option.mem_def, Option.ite_none_right_eq_some, Bool.and_eq_true,
      List.isPrefixOf_iff_prefix] at he he'
    obtain ⟨⟨⟨rest, rfl⟩, -⟩, he⟩ := he
    obtain ⟨⟨⟨rest', rfl⟩, -⟩, he'⟩ := he'
    rw [← he'] at he
    simpa using he
  refine List.Nodup.filterMap ?_ hbelow
  rintro ⟨rest, node⟩ ⟨rest', node'⟩ entry he he'
  cases node <;> cases node' <;> simp at he he'
  rw [← he'] at he
  simpa using he

end FileSystem

namespace Extraction

open FileSystem

variable {config : Config} {top : Location} {ledger : List (Location × ByteArray)}
  {after : FileSystem}

/-- Files that a ledger accounts for are within the limits that the ledger keeps. -/
lemma Admitted.contentsBelow (h : Admitted config ledger)
    (hl : ∀ rest content, after.get? (top ++ rest) = some (.file content) →
      ledger.lookup rest = some content) :
    (∀ file ∈ after.contentsBelow top, (file.2.size : Int) ≤ max 0 config.maxFileBytes) ∧
      (written (after.contentsBelow top) : Int) ≤ max 0 config.maxTotalBytes ∧
      ((after.contentsBelow top).length : Int) ≤ max 0 config.maxFiles := by
  have hsub : after.contentsBelow top ⊆ ledger := by
    rintro ⟨rest, content⟩ hm
    obtain ⟨front, back, he, -⟩ :=
      List.lookup_eq_some_iff.1 (hl rest content (mem_contentsBelow.1 hm).2)
    rw [he]
    exact List.mem_append_right _ (List.mem_cons_self)
  have hperm := (after.nodup_contentsBelow top).subperm hsub
  refine ⟨fun file hf => h.each file (hsub hf), ?_, ?_⟩
  · have hle : written (after.contentsBelow top) ≤ written ledger := by
      obtain ⟨same, hp, hs⟩ := hperm
      rw [written, ← (hp.map _).sum_nat]
      exact (hs.map _).sum_le_sum fun _ _ => Nat.zero_le _
    have htotal := h.total
    omega
  · have hcount := h.count
    have hle := hperm.length_le
    omega

end Extraction

open FileSystem Extraction

/-- The regular files below a root that an extraction has made are within the limits, each, together
and in number, whatever the archive declares and wherever the extraction stops. -/
theorem extract_limits (config : Config) (listing : Listing) (root : String) (fs : FileSystem)
    (top : Location) (hnew : fs.get? top = none)
    (hroot : ((extract config listing root).on fs).2.locate false
      (PurePath.ofString root).toString = .ok top) :
    (∀ file ∈ ((extract config listing root).on fs).2.contentsBelow top,
        (file.2.size : Int) ≤ max 0 config.maxFileBytes) ∧
      (written (((extract config listing root).on fs).2.contentsBelow top) : Int) ≤
        max 0 config.maxTotalBytes ∧
      ((((extract config listing root).on fs).2.contentsBelow top).length : Int) ≤
        max 0 config.maxFiles := by
  obtain ⟨fs₁, hadds, he | ⟨top', ledger, hv, hb, hadm, hh⟩⟩ := extract_keeps config listing root fs
  · rw [he]
    refine (Admitted.nil config).contentsBelow ?_
    intro rest content hf
    rcases hadds.get? (top ++ rest) with hsame | ⟨-, hdir, -⟩
    · rw [hsame, get?_eq_none_of_above hnew (List.prefix_append top rest)] at hf
      cases hf
    · rw [hdir] at hf
      cases hf
  · have hfound := locate_root_eq_iff.2 (hb.arrives.of_grows (hh.grows hb))
    rw [hfound] at hroot
    obtain rfl := Except.ok.inj hroot
    refine hadm.contentsBelow ?_
    intro rest content hf
    rcases hh.inside rest _ hf with he | ⟨found, he, hlook⟩
    · cases he
    · obtain rfl := Node.file.inj he
      exact hlook

/-- An entry that declares less than it holds, with its content in two portions. -/
def understated : Listing where
  entries := [⟨"a/b", some (-1), false, fun _ => .ok ⟨[⟨#[1, 2]⟩, ⟨#[3, 4]⟩], none⟩⟩]
  failure := none

theorem extract_limits_understated :
    (∀ file ∈ ((extract { maxFileBytes := 3 } understated "r").on (.empty [] ⟨0⟩)).2.contentsBelow
        ["r"], (file.2.size : Int) ≤ max 0 3) ∧
      (written (((extract { maxFileBytes := 3 } understated "r").on
        (.empty [] ⟨0⟩)).2.contentsBelow ["r"]) : Int) ≤ max 0 (1500 * mebibyte) ∧
      ((((extract { maxFileBytes := 3 } understated "r").on
        (.empty [] ⟨0⟩)).2.contentsBelow ["r"]).length : Int) ≤ max 0 15000 :=
  extract_limits { maxFileBytes := 3 } understated "r" (.empty [] ⟨0⟩) ["r"] rfl rfl

end SourceAtlas
