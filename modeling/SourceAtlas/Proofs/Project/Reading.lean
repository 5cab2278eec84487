import SourceAtlas.Graph.Build
import SourceAtlas.Proofs.Path.Canonical
import SourceAtlas.Proofs.Project.Scan

/-!
# Reading the files of a project

The files that a scan lists are read by their paths from the root.  Such a path leads to the
file that was listed (`FileSystem.readFile_below`), so what is read of it depends on its
content alone (`FileSystem.source?_below`).
-/

namespace SourceAtlas

open FileSystem SourceAtlas.Action

variable {fs : FileSystem} {ignored : List String} {root dir : String} {place names : Location}
  {content : ByteArray}

namespace Path

/-- Names can be appended one by one or together. -/
lemma foldl_append {first : String} {rest : List String} (hd : dir ≠ "")
    (hp : ∀ name ∈ first :: rest, PlainName name) :
    (first :: rest).foldl append dir = append dir (ofSegments (first :: rest)) := by
  induction rest generalizing dir first with
  | nil => simp [ofSegments, Text.join, Text.joinWith]
  | cons next rest ih =>
    have hfirst := hp first (by simp)
    have hnext : ∀ name ∈ next :: rest, PlainName name := fun name hn => hp name (by simp [hn])
    have hrelative : isAbsolute (ofSegments (next :: rest)) = false :=
      isAbsolute_ofSegments (hnext next (by simp)).1 (hnext next (by simp)).2.2.2
    have hrelative' : isAbsolute (ofSegments (first :: next :: rest)) = false :=
      isAbsolute_ofSegments hfirst.1 hfirst.2.2.2
    have hslash := getLast?_append hd hfirst.1 hfirst.2.2.2
    have hne := (entryText_append hd hfirst).ne_empty
    have htext : ofSegments (first :: next :: rest) =
        first ++ "/" ++ ofSegments (next :: rest) := by
      rw [← String.toList_inj]
      simp [ofSegments, Text.join, Text.joinWith]
    calc (first :: next :: rest).foldl append dir
        = (next :: rest).foldl append (append dir first) := rfl
      _ = append (append dir first) (ofSegments (next :: rest)) := ih hne hnext
      _ = append dir first ++ "/" ++ ofSegments (next :: rest) := by
          rw [append_of_relative hne hrelative, if_neg hslash]
      _ = append dir (ofSegments (first :: next :: rest)) := by
          rw [append_of_relative hd hrelative', append_eq hd hfirst.2.2.2, htext]
          simp only [String.append_assoc]

/-- A walk along a text that was put together goes through the directory and then through
the names. -/
lemma foldl_append_names (hd : dir ≠ "") (hp : ∀ name ∈ names, PlainName name) :
    names.foldl append dir ≠ "" ∧ bareRoute (names.foldl append dir) = bareRoute dir ++ names ∧
      isAbsolute (names.foldl append dir) = isAbsolute dir := by
  induction names generalizing dir with
  | nil => exact ⟨hd, by simp, rfl⟩
  | cons name names ih =>
    have hname := hp name (by simp)
    obtain ⟨hne, hbare, habsolute⟩ := ih (entryText_append hd hname).ne_empty
      fun other ho => hp other (List.mem_cons_of_mem _ ho)
    refine ⟨hne, ?_, ?_⟩
    · rw [List.foldl_cons, hbare, bareRoute_append hd hname.1 hname.2.2.2, List.append_assoc,
        List.singleton_append]
    · rw [List.foldl_cons, habsolute, isAbsolute_append hd hname.2.2.2]

/-- A text that was put together ends in the last of the names. -/
lemma getLast?_foldl_append (hd : dir ≠ "") (hne : names ≠ [])
    (hp : ∀ name ∈ names, PlainName name) :
    (names.foldl append dir).toList.getLast? ≠ some '/' := by
  rcases List.eq_nil_or_concat names with rfl | ⟨above, name, rfl⟩
  · exact absurd rfl hne
  · rw [List.concat_eq_append] at hp ⊢
    have hname := hp name (by simp)
    obtain ⟨habove, -⟩ := foldl_append_names hd fun other ho => hp other (List.mem_append_left _ ho)
    rw [List.foldl_append, List.foldl_cons, List.foldl_nil]
    exact getLast?_append habove hname.1 hname.2.2.2

lemma zero_mem_append {other : String} (ho : isAbsolute other = false) :
    '\x00' ∈ (append root other).toList ↔ '\x00' ∈ root.toList ∨ '\x00' ∈ other.toList := by
  by_cases hr : root = ""
  · rw [hr, append_empty]
    simp
  · rw [append_of_relative hr ho]
    split
    · rw [String.toList_append, List.mem_append]
    · rw [String.toList_append, String.toList_append, List.mem_append, List.mem_append]
      simp

lemma zero_mem_foldl_append (hs : ∀ name ∈ names, '/' ∉ name.toList) :
    '\x00' ∈ (names.foldl append root).toList ↔
      '\x00' ∈ root.toList ∨ ∃ name ∈ names, '\x00' ∈ name.toList := by
  induction names generalizing root with
  | nil => simp
  | cons name names ih =>
    have hname := isAbsolute_of_notMem (hs name (List.mem_cons_self ..))
    rw [List.foldl_cons, ih fun other ho => hs other (List.mem_cons_of_mem _ ho),
      zero_mem_append hname, or_assoc]
    simp only [List.mem_cons, exists_eq_or_imp]

end Path

/-- The path of a file of a project, in one piece. -/
lemma Graph.filePath_ofSegments (hd : root ≠ "") (hne : names ≠ [])
    (hp : ∀ name ∈ names, PlainName name) :
    filePath root (Path.ofSegments names) = Path.append root (Path.ofSegments names) := by
  rw [filePath, Path.segments_ofSegments hne fun name hn => (hp name hn).2.2.2]
  obtain ⟨first, rest, rfl⟩ := List.exists_cons_of_ne_nil hne
  exact Path.foldl_append hd hp

/-- No zero character comes up in a path that is put together. -/
lemma Graph.zero_mem_filePath {path : String} :
    '\x00' ∈ (filePath root path).toList ↔ '\x00' ∈ root.toList ∨ '\x00' ∈ path.toList := by
  have hpath : '\x00' ∈ path.toList ↔ ∃ name ∈ Path.segments path, '\x00' ∈ name.toList := by
    conv_lhs =>
      rw [← Path.ofSegments_segments path, Path.toList_ofSegments, Text.mem_joinWith (by decide)]
    simp
  rw [filePath, Path.zero_mem_foldl_append fun name hn => Path.slash_notMem_of_mem_segments hn,
    hpath]

namespace FileSystem

/-- What stands below a place, but not at it, stands at names that lead down from there. -/
lemma ne_nil_of_file (hd : fs.isDirectory place)
    (hf : fs.get? (place ++ names) = some (.file content)) : names ≠ [] := by
  rintro rfl
  have hd' : fs.get? place = some .directory := hd
  rw [List.append_nil, hd'] at hf
  cases hf

lemma straight_of_file {location : Location} (hf : fs.get? location = some (.file content)) :
    fs.Straight location := by
  intro above target hp hl
  by_cases he : above = location
  · rw [he, hf] at hl
    cases hl
  · have hd : fs.get? above = some .directory := isDirectory_of_above hf hp he
    rw [hd] at hl
    cases hl

variable (h : fs.LeadsTo root place) (hf : fs.get? (place ++ names) = some (.file content))

include h hf

/-- The path of a file below the root holds no zero character. -/
lemma zero_notMem_filePath :
    '\x00' ∉ (Graph.filePath root (Path.ofSegments names)).toList := by
  rw [Graph.zero_mem_filePath, not_or]
  refine ⟨(checkText_eq_ok_iff.1 h.text).1, ?_⟩
  rw [Path.toList_ofSegments, Text.mem_joinWith (by decide)]
  rintro ⟨part, hpart, hz⟩
  obtain ⟨name, hn, rfl⟩ := List.mem_map.1 hpart
  exact (validName_of_get? hf (List.mem_append_right _ hn)).zero_notMem hz

/-- A file below the root is read by its path, unless the path is too long. -/
theorem readFile_below
    (hs : (Path.append root (Path.ofSegments names)).utf8ByteSize ≤ maxPathBytes) :
    fs.readFile (Graph.filePath root (Path.ofSegments names)) = .ok content := by
  have hplain (name : String) (hn : name ∈ names) : PlainName name :=
    (validName_of_get? hf (List.mem_append_right _ hn)).plain
  have hne := ne_nil_of_file h.isDirectory hf
  have hpath : Graph.filePath root (Path.ofSegments names) = names.foldl Path.append root := by
    rw [Graph.filePath, Path.segments_ofSegments hne fun name hn => (hplain name hn).2.2.2]
  obtain ⟨hempty, hbare, habsolute⟩ := Path.foldl_append_names h.ne_empty hplain
  have hcheck : checkText (Graph.filePath root (Path.ofSegments names)) = .ok () := by
    rw [← Graph.filePath_ofSegments h.ne_empty hne hplain] at hs
    exact checkText_eq_ok_iff.2 ⟨zero_notMem_filePath h hf, hpath ▸ hempty, hs⟩
  have hlast : (Graph.filePath root (Path.ofSegments names)).toList.getLast? ≠ some '/' := by
    rw [hpath]
    exact Path.getLast?_foldl_append h.ne_empty hne hplain
  -- The walk gets to the root and goes down to the file from there.
  obtain ⟨left, hwalk⟩ := walk_append true h.walk hne
  have hdown : fs.advance true place names = .arrived (.entry (place ++ names)) := by
    have hthrough := @advance_through fs _ names [] true place (straight_of_file hf) hf
    rw [List.append_nil] at hthrough
    rw [hthrough, advance]
  have hlocate : fs.locate true (Graph.filePath root (Path.ofSegments names)) =
      .ok (place ++ names) := by
    rw [locate, lookup, route_eq_of_last hlast, walkText, hcheck, origin, hpath, hbare, habsolute,
      ← origin, hwalk, walk_of_arrived hdown]
  rw [readFile, hlocate]
  dsimp only
  rw [hf]

end FileSystem

/-- The text that a content holds, if it holds one. -/
def sourceText? (content : ByteArray) : Option (List Char) :=
  match Utf8.decode content.toList with
  | .error _ => none
  | .ok text => some (Text.unifyNewlines text)

/-- What is read of a file below the root is the text that its content holds. -/
lemma FileSystem.source?_below (h : fs.LeadsTo root place)
    (hf : fs.get? (place ++ names) = some (.file content))
    (hs : (Path.append root (Path.ofSegments names)).utf8ByteSize ≤ maxPathBytes) :
    fs.source? (Graph.filePath root (Path.ofSegments names)) = sourceText? content := by
  rw [source?, readFile_below h hf hs]
  rfl

/-- Reading a source file changes nothing. -/
lemma Graph.on_sourceOf {path : String} (hz : '\x00' ∉ (filePath root path).toList) :
    (sourceOf root path).on fs = (.ok (fs.source? (filePath root path)), fs) := by
  rw [sourceOf]
  dsimp only
  rw [if_neg hz]
  rfl

end SourceAtlas
