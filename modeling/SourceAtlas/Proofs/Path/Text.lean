import Mathlib.Algebra.Ring.Nat
import Mathlib.Data.List.Basic
import SourceAtlas.Files.Directories

/-!
# Path texts and the names in them

A location becomes a path text (`Location.toPath`), a path text is cut into names again
(`Path.segments`, `FileSystem.bareRoute`, `FileSystem.route`).  The statements about files rest on
the fact that this loses nothing as long as no name holds a slash: a walk along `location.toPath`
goes through the names of `location`.

`PlainName` is what a walk needs for going down: neither empty nor `.` nor `..`, and without a
slash.  A name that a directory can hold (`ValidName`) is plain, holds no zero character and is
not too long.
-/

namespace SourceAtlas

/-- A name with which a walk goes down one directory. -/
def PlainName (name : String) : Prop :=
  name ≠ "" ∧ name ≠ "." ∧ name ≠ ".." ∧ '/' ∉ name.toList

lemma ValidName.plain {name : String} (h : ValidName name) : PlainName name :=
  ⟨h.1, h.2.1, h.2.2.1, h.2.2.2.1⟩

lemma ValidName.zero_notMem {name : String} (h : ValidName name) : '\x00' ∉ name.toList :=
  h.2.2.2.2.1

lemma ValidName.size_le {name : String} (h : ValidName name) : name.utf8ByteSize ≤ maxNameBytes :=
  h.2.2.2.2.2

lemma PlainName.valid {name : String} (h : PlainName name) (hz : '\x00' ∉ name.toList)
    (hs : name.utf8ByteSize ≤ maxNameBytes) : ValidName name :=
  ⟨h.1, h.2.1, h.2.2.1, h.2.2.2, hz, hs⟩

/-! ## Cutting a text and putting it together -/

namespace Text

lemma splitOn_of_notMem {separator : Char} {text : List Char} (h : separator ∉ text) :
    splitOn separator text = [text] := by
  induction text with
  | nil => rfl
  | cons c rest ih =>
    obtain ⟨hc, hrest⟩ := not_or.1 (fun hm => h (List.mem_cons.2 hm))
    rw [splitOn, if_neg (Ne.symm hc), ih hrest]

lemma splitOn_append_cons {separator : Char} {piece : List Char} (rest : List Char)
    (h : separator ∉ piece) :
    splitOn separator (piece ++ separator :: rest) = piece :: splitOn separator rest := by
  induction piece with
  | nil => simp [splitOn]
  | cons c piece ih =>
    obtain ⟨hc, hpiece⟩ := not_or.1 (fun hm => h (List.mem_cons.2 hm))
    rw [List.cons_append, splitOn, if_neg (Ne.symm hc), ih hpiece]

/-- Cutting undoes putting together, unless there is nothing to put together. -/
lemma splitOn_joinWith {separator : Char} {parts : List (List Char)} (hne : parts ≠ [])
    (h : ∀ part ∈ parts, separator ∉ part) :
    splitOn separator (joinWith separator parts) = parts := by
  induction parts with
  | nil => exact absurd rfl hne
  | cons part rest ih =>
    have hpart : separator ∉ part := h part (by simp)
    cases rest with
    | nil => rw [joinWith, splitOn_of_notMem hpart]
    | cons next rest =>
      rw [joinWith, splitOn_append_cons _ hpart,
        ih (by simp) fun other ho => h other (List.mem_cons_of_mem _ ho)]

lemma joinWith_append {separator : Char} {parts others : List (List Char)} (hp : parts ≠ [])
    (ho : others ≠ []) :
    joinWith separator (parts ++ others) =
      joinWith separator parts ++ separator :: joinWith separator others := by
  induction parts with
  | nil => exact absurd rfl hp
  | cons part rest ih =>
    cases rest with
    | nil =>
      obtain ⟨other, others, rfl⟩ := List.exists_cons_of_ne_nil ho
      rfl
    | cons next rest =>
      have := ih (by simp)
      rw [List.cons_append] at this
      rw [List.cons_append, List.cons_append, joinWith, this, joinWith]
      simp

lemma mem_joinWith {separator c : Char} {parts : List (List Char)} (hc : c ≠ separator) :
    c ∈ joinWith separator parts ↔ ∃ part ∈ parts, c ∈ part := by
  induction parts with
  | nil => simp [joinWith]
  | cons part rest ih =>
    cases rest with
    | nil => simp [joinWith]
    | cons next rest =>
      rw [joinWith, List.mem_append, List.mem_cons, ih]
      constructor
      · rintro (h | h | ⟨other, ho, h⟩)
        · exact ⟨part, by simp, h⟩
        · exact absurd h hc
        · exact ⟨other, List.mem_cons_of_mem _ ho, h⟩
      · rintro ⟨other, ho, h⟩
        rcases List.mem_cons.1 ho with rfl | ho
        · exact .inl h
        · exact .inr (.inr ⟨other, ho, h⟩)

end Text

namespace Path

lemma segments_ofSegments {names : List String} (hne : names ≠ [])
    (h : ∀ name ∈ names, '/' ∉ name.toList) : segments (ofSegments names) = names := by
  have hparts : ∀ part ∈ names.map String.toList, '/' ∉ part := by
    simpa using h
  rw [segments, ofSegments, Text.pieces, Text.join, String.toList_ofList,
    Text.splitOn_joinWith (by simpa using hne) hparts, List.map_map]
  simp [Function.comp_def]

lemma slash_notMem_of_mem_segments {path name : String} (h : name ∈ segments path) :
    '/' ∉ name.toList := by
  obtain ⟨piece, hp, rfl⟩ := List.mem_map.1 h
  rw [String.toList_ofList]
  exact Text.separator_notMem_of_mem_splitOn hp

/-- A character of a segment is a character of the path. -/
lemma mem_of_mem_segments {path name : String} {c : Char} (h : name ∈ segments path)
    (hc : c ∈ name.toList) : c ∈ path.toList := by
  have hne : c ≠ '/' := fun he => slash_notMem_of_mem_segments h (he ▸ hc)
  rw [← Text.joinWith_splitOn '/' path.toList, Text.mem_joinWith hne]
  obtain ⟨piece, hp, rfl⟩ := List.mem_map.1 h
  exact ⟨piece, hp, by simpa using hc⟩

end Path

/-! ## The text of a path without dots

The two lemmas on `PurePath` serve the texts of locations as well, since `location.toPath` is the
text of a path with one slash in front. -/

namespace PurePath

lemma toList_toString {slashes : Nat} {names : List String} (hne : names ≠ []) :
    (toString ⟨slashes, names⟩).toList =
      List.replicate slashes '/' ++ Text.joinWith '/' (names.map String.toList) := by
  simp [toString, hne, Path.ofSegments, Text.join]

lemma segments_toString {slashes : Nat} {names : List String} (hne : names ≠ [])
    (h : ∀ name ∈ names, '/' ∉ name.toList) :
    Path.segments (toString ⟨slashes, names⟩) = List.replicate slashes "" ++ names := by
  have hparts : ∀ part ∈ names.map String.toList, '/' ∉ part := by
    simpa using h
  rw [Path.segments, Text.pieces, toList_toString hne]
  induction slashes with
  | zero =>
    rw [List.replicate_zero, List.nil_append, Text.splitOn_joinWith (by simpa using hne) hparts]
    simp [Function.comp_def]
  | succ slashes ih =>
    rw [List.replicate_succ, List.cons_append, Text.splitOn, if_pos rfl, List.map_cons, ih]
    rfl

/-- The last character is that of the last name. -/
lemma getLast?_toString {slashes : Nat} {names : List String} (hne : names ≠ [])
    (h : ∀ name ∈ names, name ≠ "" ∧ '/' ∉ name.toList) :
    (toString ⟨slashes, names⟩).toList.getLast? ≠ some '/' := by
  obtain ⟨above, name, rfl⟩ : ∃ above name, names = above ++ [name] :=
    ⟨_, _, (List.dropLast_concat_getLast hne).symm⟩
  obtain ⟨hn, hs⟩ := h name (by simp)
  have hlast : ∃ front, Text.joinWith '/' ((above ++ [name]).map String.toList) =
      front ++ name.toList := by
    by_cases ha : above = []
    · exact ⟨[], by simp [ha, Text.joinWith]⟩
    · rw [List.map_append, Text.joinWith_append (by simpa using ha) (by simp)]
      exact ⟨Text.joinWith '/' (above.map String.toList) ++ ['/'], by simp [Text.joinWith]⟩
  obtain ⟨front, hf⟩ := hlast
  have hn : name.toList ≠ [] := by simpa using hn
  rw [toList_toString hne, hf, ← List.append_assoc, List.getLast?_append,
    List.getLast?_eq_some_getLast hn, Option.some_or]
  exact fun he => hs (Option.some.inj he ▸ List.getLast_mem hn)

/-- The names of a path are the names of its text. -/
lemma bareRoute_toString {slashes : Nat} {names : List String} (hne : names ≠ [])
    (h : ∀ name ∈ names, name ≠ "" ∧ '/' ∉ name.toList) :
    FileSystem.bareRoute (toString ⟨slashes, names⟩) = names := by
  have hfilter : names.filter (fun name => decide (name ≠ "")) = names := by
    rw [List.filter_eq_self]
    exact fun name hn => decide_eq_true (h name hn).1
  rw [FileSystem.bareRoute, segments_toString hne fun name hn => (h name hn).2, List.filter_append,
    hfilter, List.filter_replicate]
  rfl

lemma route_toString {slashes : Nat} {names : List String} (hne : names ≠ [])
    (h : ∀ name ∈ names, name ≠ "" ∧ '/' ∉ name.toList) :
    FileSystem.route (toString ⟨slashes, names⟩) = names := by
  have hbare := @bareRoute_toString slashes names hne h
  rw [FileSystem.bareRoute] at hbare
  rw [FileSystem.route, hbare, if_neg fun hc => getLast?_toString hne h hc.2]

/-- Of a path text as it is taken apart, only names that mean something are left. -/
lemma names_ofString {path name : String} (h : name ∈ (ofString path).names) :
    name ≠ "" ∧ '/' ∉ name.toList := by
  rw [ofString, List.mem_filter, decide_eq_true_eq] at h
  exact ⟨h.2.1, Path.slash_notMem_of_mem_segments h.1⟩

lemma slashes_ofString_le (path : String) : (ofString path).slashes ≤ 2 := by
  unfold ofString
  dsimp only
  unfold Path.leadingSlashes
  split <;> decide

/-- The text of a path has no trailing slash, except that of a root. -/
lemma route_eq_bareRoute {slashes : Nat} {names : List String} (hs : slashes ≤ 2)
    (h : ∀ name ∈ names, name ≠ "" ∧ '/' ∉ name.toList) :
    FileSystem.route (toString ⟨slashes, names⟩) =
      FileSystem.bareRoute (toString ⟨slashes, names⟩) := by
  by_cases hne : names = []
  · subst hne
    obtain rfl | rfl | rfl : slashes = 0 ∨ slashes = 1 ∨ slashes = 2 := by omega
    · rfl
    · rfl
    · rfl
  · rw [route_toString hne h, bareRoute_toString hne h]

end PurePath

/-! ## The text of a location -/

namespace Location

lemma toPath_eq_toString (location : Location) :
    location.toPath = PurePath.toString ⟨1, location⟩ := by
  rw [toPath, PurePath.toString, if_neg (by simp)]
  rfl

lemma toList_toPath (location : Location) :
    location.toPath.toList = '/' :: Text.joinWith '/' (location.map String.toList) := by
  simp [toPath, Path.ofSegments, Text.join]

@[simp] lemma isAbsolute_toPath (location : Location) : Path.isAbsolute location.toPath = true := by
  unfold Path.isAbsolute
  rw [toList_toPath]
  rfl

lemma bareRoute_toPath {location : Location} (h : ∀ name ∈ location, PlainName name) :
    FileSystem.bareRoute location.toPath = location := by
  by_cases hne : location = []
  · subst hne
    rfl
  · rw [toPath_eq_toString]
    exact PurePath.bareRoute_toString hne fun name hn => ⟨(h name hn).1, (h name hn).2.2.2⟩

lemma route_toPath {location : Location} (h : ∀ name ∈ location, PlainName name) :
    FileSystem.route location.toPath = location := by
  by_cases hne : location = []
  · subst hne
    rfl
  · rw [toPath_eq_toString]
    exact PurePath.route_toString hne fun name hn => ⟨(h name hn).1, (h name hn).2.2.2⟩

lemma hasTrailingSlash_toPath {location : Location} (hne : location ≠ [])
    (h : ∀ name ∈ location, PlainName name) :
    FileSystem.hasTrailingSlash location.toPath = false := by
  have hlast : location.toPath.toList.getLast? ≠ some '/' := by
    rw [toPath_eq_toString]
    exact PurePath.getLast?_toString hne fun name hn => ⟨(h name hn).1, (h name hn).2.2.2⟩
  rw [FileSystem.hasTrailingSlash, decide_eq_false_iff_not]
  exact fun hc => hlast hc.2

lemma relativeSegments_toPath {location : Location} (hne : location ≠ [])
    (h : ∀ name ∈ location, PlainName name) :
    FileSystem.relativeSegments location.toPath = location := by
  rw [FileSystem.relativeSegments, if_pos (isAbsolute_toPath location), toPath_eq_toString,
    PurePath.segments_toString hne fun name hn => (h name hn).2.2.2]
  rfl

lemma zero_mem_toPath {location : Location} :
    '\x00' ∈ location.toPath.toList ↔ ∃ name ∈ location, '\x00' ∈ name.toList := by
  rw [toList_toPath, List.mem_cons, Text.mem_joinWith (by decide)]
  simp only [Char.reduceEq, false_or, List.mem_map, exists_exists_and_eq_and]

lemma toPath_ne_empty (location : Location) : location.toPath ≠ "" := by
  intro h
  have := toList_toPath location
  rw [h] at this
  exact absurd this (by simp)

/-- A location above another one has no longer text. -/
lemma size_toPath_le {above location : Location} (h : above <+: location) :
    above.toPath.utf8ByteSize ≤ location.toPath.utf8ByteSize := by
  obtain ⟨rest, rfl⟩ := h
  have key : ∃ tail : List Char, (above ++ rest : Location).toPath =
      above.toPath ++ String.ofList tail := by
    by_cases ha : above = []
    · exact ⟨Text.joinWith '/' (rest.map String.toList), by
        simp [ha, toPath, Path.ofSegments, Text.join, Text.joinWith]⟩
    by_cases hr : rest = []
    · exact ⟨[], by simp [hr]⟩
    · refine ⟨'/' :: Text.joinWith '/' (rest.map String.toList), ?_⟩
      rw [toPath, toPath, Path.ofSegments, Path.ofSegments, Text.join, Text.join, List.map_append,
        Text.joinWith_append (by simpa using ha) (by simpa using hr), String.ofList_append,
        String.append_assoc]
  obtain ⟨tail, ht⟩ := key
  rw [ht, String.utf8ByteSize_append]
  omega

/-- The text of a location has room for its names. -/
lemma sum_size_le_toPath (location : Location) :
    (location.map String.utf8ByteSize).sum ≤ location.toPath.utf8ByteSize := by
  have hjoin (names : List String) :
      (names.map String.utf8ByteSize).sum ≤ (Path.ofSegments names).utf8ByteSize := by
    induction names with
    | nil => simp
    | cons name names ih =>
      cases names with
      | nil => simp [Path.ofSegments, Text.join, Text.joinWith]
      | cons next names =>
        have htext : Path.ofSegments (name :: next :: names) =
            name ++ ("/" ++ Path.ofSegments (next :: names)) := by
          rw [← String.toList_inj]
          simp [Path.ofSegments, Text.join, Text.joinWith]
        rw [htext, String.utf8ByteSize_append, String.utf8ByteSize_append, List.map_cons,
          List.sum_cons]
        omega
  have := hjoin location
  rw [toPath, String.utf8ByteSize_append]
  omega

end Location

/-! ## Names with numerals in them -/

lemma slash_notMem_toDigits (n : Nat) : '/' ∉ Nat.toDigits 10 n := by
  intro hm
  have hdigit := Nat.isDigit_of_mem_toDigits (by decide) (by decide) hm
  simp [Char.isDigit] at hdigit

lemma slash_notMem_repr (z : Int) : '/' ∉ z.repr.toList := by
  rw [Int.repr_eq_if]
  split
  · rw [Nat.toList_repr]
    exact slash_notMem_toDigits _
  · rw [String.toList_append, Nat.toList_repr]
    simp [slash_notMem_toDigits]

/-- A name is plain if it holds something else than dots, and no slash. -/
lemma plainName_of_mem {name : String} {c : Char} (hm : c ∈ name.toList) (hc : c ≠ '.')
    (hs : '/' ∉ name.toList) : PlainName name := by
  refine ⟨?_, ?_, ?_, hs⟩
  · rintro rfl
    simp at hm
  · rintro rfl
    exact hc (by simpa using hm)
  · rintro rfl
    exact hc (by simpa using hm)

end SourceAtlas
