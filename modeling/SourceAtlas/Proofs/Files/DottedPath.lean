import SourceAtlas.Proofs.Files.Standing

/-!
# Paths with segments that mean nothing

A path may be as long as it likes and still lead to a name: `./` in front of it means nothing.  The
path that leads to `e` with `count` such segments is `dottedPath count`.  The file system looks it
up unless it is too long; a path that is read for its names alone never is.

The path is `Narrow` if it can be looked up itself, but not with the name of a job behind it.
-/

namespace SourceAtlas

open FileSystem

/-- A path that leads to `e`. -/
def dottedPath : Nat → String
  | 0 => "e"
  | count + 1 => "./" ++ dottedPath count

lemma size_dottedPath (count : Nat) : (dottedPath count).utf8ByteSize = 2 * count + 1 := by
  induction count with
  | zero => rfl
  | succ count ih =>
    have hdot : "./".utf8ByteSize = 2 := rfl
    rw [dottedPath, String.utf8ByteSize_append, ih, hdot]
    omega

lemma dottedPath_ne_empty (count : Nat) : dottedPath count ≠ "" := by
  intro he
  have hsize := size_dottedPath count
  rw [he, String.utf8ByteSize_empty] at hsize
  omega

lemma getLast?_dottedPath (count : Nat) : (dottedPath count).toList.getLast? = some 'e' := by
  induction count with
  | zero => rfl
  | succ count ih =>
    rw [dottedPath, String.toList_append, List.getLast?_append, ih]
    rfl

lemma size_append_dottedPath {relative : String} (h : Path.isAbsolute relative = false)
    (count : Nat) :
    (Path.append (dottedPath count) relative).utf8ByteSize =
      2 * count + 2 + relative.utf8ByteSize := by
  have hslash : "/".utf8ByteSize = 1 := rfl
  rw [Path.append_of_relative (dottedPath_ne_empty count) h, getLast?_dottedPath,
    if_neg (by decide), String.utf8ByteSize_append, String.utf8ByteSize_append, size_dottedPath,
    hslash]

lemma zero_notMem_dottedPath (count : Nat) : '\x00' ∉ (dottedPath count).toList := by
  induction count with
  | zero => decide
  | succ count ih =>
    rw [dottedPath, String.toList_append]
    simp [ih]

lemma bareRoute_dottedPath (count : Nat) :
    bareRoute (dottedPath count) = List.replicate count "." ++ ["e"] := by
  induction count with
  | zero => rfl
  | succ count ih =>
    have htext : (dottedPath (count + 1)).toList = ['.'] ++ '/' :: (dottedPath count).toList := by
      rw [dottedPath, String.toList_append]
      rfl
    rw [bareRoute_eq, htext, namesIn_append, ← bareRoute_eq, ih]
    rfl

lemma isAbsolute_dottedPath (count : Nat) : Path.isAbsolute (dottedPath count) = false := by
  cases count with
  | zero => rfl
  | succ count =>
    rw [Path.isAbsolute_eq, dottedPath, String.toList_append]
    rfl

variable {fs : FileSystem} {count : Nat}

lemma leadsTo_dottedPath (hs : 2 * count + 1 ≤ maxPathBytes) (hw : fs.workingDirectory = [])
    (hd : fs.isDirectory ["e"]) : fs.LeadsTo (dottedPath count) ["e"] := by
  refine ⟨?_, ?_, hd⟩
  · rw [checkText_eq_ok_iff, size_dottedPath]
    exact ⟨zero_notMem_dottedPath count, dottedPath_ne_empty count, hs⟩
  · have hdown : fs.Descends [] "e" := ⟨fs.get?_nil, by decide, by decide, by decide⟩
    have hn : fs.get? ([] ++ ["e"]) = some .directory := hd
    rw [bareRoute_dottedPath, origin, isAbsolute_dottedPath, if_neg (by simp), hw]
    refine walk_of_arrived ?_
    rw [advance_dots fs.get?_nil, hdown.advance_down hn (by simp), advance, List.nil_append]

/-- Without the segments that mean nothing the path is short. -/
lemma ofString_dottedPath {name : String} (hn : PlainName name) :
    PurePath.ofString (Path.append (dottedPath count) name) = ⟨0, ["e", name]⟩ := by
  have hne := dottedPath_ne_empty count
  have hnames : (PurePath.ofString (Path.append (dottedPath count) name)).names = ["e", name] := by
    rw [PurePath.names_eq_filter, Path.bareRoute_append hne hn.1 hn.2.2.2, bareRoute_dottedPath,
      List.filter_append, List.filter_append, List.filter_replicate]
    simp [hn.2.1]
  have hslashes : (PurePath.ofString (Path.append (dottedPath count) name)).slashes = 0 := by
    have habsolute := Path.isAbsolute_append hne hn.2.2.2
    rw [isAbsolute_dottedPath, Path.isAbsolute_eq, decide_eq_false_iff_not] at habsolute
    exact Path.leadingSlashes_eq_zero_iff.2 habsolute
  rw [← hnames, ← hslashes]

/-! ## A name behind the path -/

/-- The name of a job. -/
def jobName : String := "00000000-0000-4000-8000-000000000001"

lemma validName_jobName : ValidName jobName := by decide

/-- The path can be looked up, but not with the name of a job behind it. -/
def Narrow (count : Nat) : Prop :=
  2 * count + 1 ≤ maxPathBytes ∧ maxPathBytes < 2 * count + 1 + jobName.utf8ByteSize

instance (count : Nat) : Decidable (Narrow count) := by
  unfold Narrow
  infer_instance

/-- The path of a tree. -/
def treePath (count : Nat) : String := Path.append (dottedPath count) jobName

lemma checkText_treePath (h : Narrow count) (hd : checkText (dottedPath count) = .ok ()) :
    checkText (treePath count) = .error (.os .nameTooLong) := by
  have hlong := h.2
  have ht := entryText_append (dottedPath_ne_empty count) validName_jobName.plain
  rw [treePath, checkText_named ht.toNamedText hd validName_jobName, if_pos]
  rw [Path.append_eq (dottedPath_ne_empty count) validName_jobName.2.2.2.1,
    String.utf8ByteSize_append]
  split
  · rw [size_dottedPath]
    omega
  · rw [String.utf8ByteSize_append, size_dottedPath]
    omega

end SourceAtlas
