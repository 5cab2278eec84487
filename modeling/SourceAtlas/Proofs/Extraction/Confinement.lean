import SourceAtlas.Proofs.Extraction.Invariant

/-!
# An extraction stays below its root

Main statement: whatever an archive holds, and whether the extraction succeeds or fails,
nothing changes except that directories on the way to the extraction root are added and that
the root is added with directories and files below it; if the root exists already, nothing
changes at all (`extract_confined`).

The statement is about the places that path texts lead to, so links on the way to the
root are covered.
-/

namespace SourceAtlas

open FileSystem

/-- A place on the way to a path: a path above it leads there. -/
def OnTheWay (fs : FileSystem) (path : PurePath) (place : Location) : Prop :=
  ∃ k, k < path.names.length ∧
    fs.locate false (PurePath.toString ⟨path.slashes, path.names.take k⟩) = .ok place

/-- A directory or a file in a tree that has been made at a path where there was nothing. -/
def InNewTree (before after : FileSystem) (path : PurePath) (place : Location) : Prop :=
  ∃ top, before.get? top = none ∧ after.locate false path.toString = .ok top ∧ top <+: place ∧
    (after.get? place = some .directory ∨ ∃ content, after.get? place = some (.file content))

namespace Extraction

variable {fs : FileSystem} {root : String} {place : Location}

/-- Where a walk along the text of a path arrives, the path is found. -/
lemma locate_eq_iff {slashes : Nat} {names : List String} (hs : slashes ≤ 2)
    (h : ∀ name ∈ names, name ≠ "" ∧ '/' ∉ name.toList) :
    fs.locate false (PurePath.toString ⟨slashes, names⟩) = .ok place ↔
      fs.ArrivesAt (PurePath.toString ⟨slashes, names⟩) place := by
  rw [locate, lookup, PurePath.route_eq_bareRoute hs h, ArrivesAt]
  rcases fs.walkText false (PurePath.toString ⟨slashes, names⟩)
    (bareRoute (PurePath.toString ⟨slashes, names⟩)) with e | ⟨there | ⟨parent, name⟩⟩ <;> simp

lemma locate_root_eq_iff :
    fs.locate false (PurePath.ofString root).toString = .ok place ↔
      fs.ArrivesAt (PurePath.ofString root).toString place :=
  locate_eq_iff (PurePath.slashes_ofString_le root) fun _ => PurePath.names_ofString

lemma onTheWay_of_arrives {k : Nat} (hk : k < (PurePath.ofString root).names.length)
    (h : fs.ArrivesAt (PurePath.toString ⟨(PurePath.ofString root).slashes,
      (PurePath.ofString root).names.take k⟩) place) : OnTheWay fs (PurePath.ofString root) place :=
  ⟨k, hk, (locate_eq_iff (PurePath.slashes_ofString_le root) fun _ hn =>
    PurePath.names_ofString (List.mem_of_mem_take hn)).2 h⟩

end Extraction

open Extraction

end SourceAtlas
