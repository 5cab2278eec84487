import Mathlib.Data.List.TakeWhile
import SourceAtlas.Proofs.Path.Text

/-!
# Paths put together and taken apart

`Path.append` puts a name behind the path of a directory, `Path.directory` and `Path.base` split the
last name off, and `PurePath.ofString` drops the segments that mean nothing.  What matters of each
is the list of names that a walk goes through (`FileSystem.bareRoute`) and whether the walk starts
at the root.
-/

namespace SourceAtlas

namespace Text

lemma splitOn_append_separator (separator : Char) (front back : List Char) :
    splitOn separator (front ++ separator :: back) =
      splitOn separator front ++ splitOn separator back := by
  induction front with
  | nil => simp [splitOn]
  | cons c front ih =>
    obtain ⟨piece, pieces, hp⟩ := List.exists_cons_of_ne_nil (splitOn_ne_nil separator front)
    rw [List.cons_append, splitOn, splitOn]
    split
    · rw [ih, List.cons_append]
    · rw [ih, hp]
      rfl

end Text

namespace FileSystem

/-- The names that are cut out of a text, empty ones left out. -/
def namesIn (text : List Char) : List String :=
  ((Text.splitOn '/' text).map String.ofList).filter fun name => decide (name ≠ "")

lemma bareRoute_eq (path : String) : bareRoute path = namesIn path.toList := rfl

lemma namesIn_append (front back : List Char) :
    namesIn (front ++ '/' :: back) = namesIn front ++ namesIn back := by
  rw [namesIn, Text.splitOn_append_separator, List.map_append, List.filter_append]
  rfl

lemma namesIn_nil : namesIn [] = [] := rfl

/-- A slash at the end changes nothing. -/
lemma namesIn_slash (front : List Char) : namesIn (front ++ ['/']) = namesIn front := by
  rw [namesIn_append, namesIn_nil, List.append_nil]

lemma namesIn_slashes (front : List Char) (count : Nat) :
    namesIn (front ++ List.replicate count '/') = namesIn front := by
  induction count with
  | zero => rw [List.replicate_zero, List.append_nil]
  | succ count ih => rw [List.replicate_succ', ← List.append_assoc, namesIn_slash, ih]

lemma namesIn_name {name : List Char} (hne : name ≠ []) (hs : '/' ∉ name) :
    namesIn name = [String.ofList name] := by
  rw [namesIn, Text.splitOn_of_notMem hs]
  simp [hne]

/-- A character other than a slash stands in one of the names. -/
lemma mem_iff_mem_bareRoute {path : String} {c : Char} (hc : c ≠ '/') :
    c ∈ path.toList ↔ ∃ name ∈ bareRoute path, c ∈ name.toList := by
  constructor
  · intro hm
    rw [← Text.joinWith_splitOn '/' path.toList, Text.mem_joinWith hc] at hm
    obtain ⟨piece, hp, hm⟩ := hm
    have hname : String.ofList piece ∈ Path.segments path := List.mem_map_of_mem hp
    refine ⟨String.ofList piece, List.mem_filter.2 ⟨hname, ?_⟩, by simpa using hm⟩
    have hne : piece ≠ [] := List.ne_nil_of_mem hm
    simpa using hne
  · rintro ⟨name, hn, hm⟩
    exact Path.mem_of_mem_segments (List.mem_filter.1 hn).1 hm

/-- A path that does not end in a slash is walked along its names. -/
lemma route_eq_of_last {path : String} (h : path.toList.getLast? ≠ some '/') :
    route path = bareRoute path := by
  rw [route, bareRoute, if_neg fun hc => h hc.2]

end FileSystem

namespace Path

open FileSystem

variable {dir name : String}

/-- A text that starts at the root. -/
lemma isAbsolute_eq (path : String) : isAbsolute path = decide (path.toList.head? = some '/') := by
  unfold isAbsolute
  split
  · rename_i he
    simp [he]
  · rename_i hne
    cases hp : path.toList with
    | nil => simp
    | cons c cs =>
      have hc : c ≠ '/' := fun he => hne cs (by rw [hp, he])
      simp [hc]

lemma leadingSlashes_eq_zero_iff {path : List Char} :
    leadingSlashes path = 0 ↔ path.head? ≠ some '/' := by
  unfold leadingSlashes
  split
  · simp
  · simp
  · simp
  · rename_i h1 h2 h3
    cases path with
    | nil => simp
    | cons c rest =>
      have hc : c ≠ '/' := fun he => h3 rest (by rw [he])
      simp [hc]

lemma isAbsolute_ofSegments {first : String} {rest : List String} (hne : first ≠ "")
    (hs : '/' ∉ first.toList) : isAbsolute (ofSegments (first :: rest)) = false := by
  obtain ⟨c, cs, hc⟩ : ∃ c cs, first.toList = c :: cs :=
    List.exists_cons_of_ne_nil (by simpa using hne)
  have hslash : c ≠ '/' := fun he => hs (by simp [hc, he])
  have htext : (ofSegments (first :: rest)).toList.head? = some c := by
    rw [ofSegments, Text.join, String.toList_ofList, List.map_cons]
    cases rest with
    | nil => rw [List.map_nil, Text.joinWith, hc, List.head?_cons]
    | cons next rest => rw [List.map_cons, Text.joinWith, hc, List.cons_append, List.head?_cons]
  rw [isAbsolute_eq, htext]
  simp [hslash]

/-! ## A name behind a directory -/

lemma isAbsolute_of_notMem (h : '/' ∉ name.toList) : isAbsolute name = false := by
  rw [isAbsolute_eq, decide_eq_false_iff_not]
  exact fun he => h (List.mem_of_mem_head? he)

/-- A path that does not start at the root goes behind a slash. -/
lemma append_of_relative {other : String} (hd : dir ≠ "") (hr : isAbsolute other = false) :
    append dir other = (if dir.toList.getLast? = some '/' then dir else dir ++ "/") ++ other := by
  rw [append, if_neg (by simp [hr]), if_neg hd]
  split <;> rfl

lemma append_eq (hd : dir ≠ "") (hs : '/' ∉ name.toList) :
    append dir name = (if dir.toList.getLast? = some '/' then dir else dir ++ "/") ++ name :=
  append_of_relative hd (isAbsolute_of_notMem hs)

/-- The directory is a beginning of the text. -/
lemma toList_append_starts (hd : dir ≠ "") (hs : '/' ∉ name.toList) :
    ∃ rest, (append dir name).toList = dir.toList ++ rest := by
  rw [append_eq hd hs]
  split
  · exact ⟨name.toList, String.toList_append⟩
  · exact ⟨'/' :: name.toList, by simp⟩

lemma isAbsolute_append (hd : dir ≠ "") (hs : '/' ∉ name.toList) :
    isAbsolute (append dir name) = isAbsolute dir := by
  obtain ⟨rest, hr⟩ := toList_append_starts hd hs
  obtain ⟨c, cs, hc⟩ : ∃ c cs, dir.toList = c :: cs :=
    List.exists_cons_of_ne_nil (by simpa using hd)
  rw [isAbsolute_eq, isAbsolute_eq, hr, hc, List.cons_append, List.head?_cons, List.head?_cons]

lemma size_le_append_of_relative {other : String} (hd : dir ≠ "") (hr : isAbsolute other = false) :
    dir.utf8ByteSize ≤ (append dir other).utf8ByteSize := by
  rw [append_of_relative hd hr]
  split
  · rw [String.utf8ByteSize_append]
    omega
  · rw [String.utf8ByteSize_append, String.utf8ByteSize_append]
    omega

lemma size_le_append (hd : dir ≠ "") (hs : '/' ∉ name.toList) :
    dir.utf8ByteSize ≤ (append dir name).utf8ByteSize :=
  size_le_append_of_relative hd (isAbsolute_of_notMem hs)

lemma size_append_le (hd : dir ≠ "") (hs : '/' ∉ name.toList) :
    (append dir name).utf8ByteSize ≤ dir.utf8ByteSize + 1 + name.utf8ByteSize := by
  have hslash : "/".utf8ByteSize = 1 := rfl
  rw [append_of_relative hd (isAbsolute_of_notMem hs)]
  split
  · rw [String.utf8ByteSize_append]
    omega
  · rw [String.utf8ByteSize_append, String.utf8ByteSize_append]
    omega

/-- A name put behind a directory stands behind a slash. -/
lemma toList_append (hd : dir ≠ "") (hs : '/' ∉ name.toList) :
    ∃ front, (append dir name).toList = front ++ '/' :: name.toList ∧
      namesIn front = bareRoute dir := by
  rw [append_eq hd hs]
  split
  · rename_i hlast
    obtain ⟨front, hf⟩ := List.getLast?_eq_some_iff.1 hlast
    refine ⟨front, by simp [hf], ?_⟩
    rw [bareRoute_eq, hf, namesIn_slash]
  · exact ⟨dir.toList, by simp, rfl⟩

lemma bareRoute_append (hd : dir ≠ "") (hne : name ≠ "") (hs : '/' ∉ name.toList) :
    bareRoute (append dir name) = bareRoute dir ++ [name] := by
  obtain ⟨front, ht, hf⟩ := toList_append hd hs
  rw [bareRoute_eq, ht, namesIn_append, hf, namesIn_name (by simpa using hne) hs,
    String.ofList_toList]

lemma getLast?_append (hd : dir ≠ "") (hne : name ≠ "") (hs : '/' ∉ name.toList) :
    (append dir name).toList.getLast? ≠ some '/' := by
  obtain ⟨front, ht, -⟩ := toList_append hd hs
  have hn : name.toList ≠ [] := by simpa using hne
  rw [ht, List.getLast?_append_of_ne_nil _ (by simp), List.getLast?_cons_of_ne_nil hn]
  exact fun he => hs (List.mem_of_getLast? he)

/-- Different names stand for different entries. -/
lemma append_left_cancel {name' : String} (hd : dir ≠ "") (hs : '/' ∉ name.toList)
    (hs' : '/' ∉ name'.toList) (h : append dir name = append dir name') : name = name' := by
  rw [append_eq hd hs, append_eq hd hs'] at h
  exact (String.append_right_inj _).1 h

/-! ## The directory of a path -/

lemma splitLast_append (path : String) :
    (splitLast path).1 ++ (splitLast path).2 = path.toList := by
  rw [splitLast, ← List.reverse_append, List.takeWhile_append_dropWhile, List.reverse_reverse]

/-- What stands before the last name is nothing or ends in a slash. -/
lemma splitLast_head (path : String) :
    (splitLast path).1 = [] ∨ ∃ front, (splitLast path).1 = front ++ ['/'] := by
  unfold splitLast
  dsimp only
  cases hrest : path.toList.reverse.dropWhile (· ≠ '/') with
  | nil => exact .inl rfl
  | cons c rest =>
    have hc : c = '/' := by
      have hhead := List.head?_dropWhile_not (fun c => decide (c ≠ '/')) path.toList.reverse
      rw [hrest] at hhead
      simpa using hhead
    exact .inr ⟨rest.reverse, by rw [List.reverse_cons, hc]⟩

lemma trimHead_append (head : List Char) :
    ∃ count, head = trimHead head ++ List.replicate count '/' := by
  unfold trimHead
  split
  · exact ⟨0, by simp⟩
  · have hslashes : (head.reverse.takeWhile (· = '/')).reverse =
        List.replicate (head.reverse.takeWhile (· = '/')).length '/' := by
      rw [List.eq_replicate_iff]
      constructor
      · exact by simp
      · intro c hc
        have hall :=
          List.all_eq_true.1 (List.all_takeWhile (p := (· = '/'))) c (List.mem_reverse.1 hc)
        simpa using hall
    refine ⟨(head.reverse.takeWhile (· = '/')).length, ?_⟩
    rw [← hslashes, ← List.reverse_append, List.takeWhile_append_dropWhile, List.reverse_reverse]

lemma namesIn_trimHead (head : List Char) : namesIn (trimHead head) = namesIn head := by
  obtain ⟨count, h⟩ := trimHead_append head
  conv_rhs => rw [h]
  rw [namesIn_slashes]

/-- The names of a path are those of its directory and the last one, if there is one. -/
lemma bareRoute_directory (path : String) :
    bareRoute path = bareRoute (directory path) ++ namesIn (splitLast path).2 := by
  rw [bareRoute_eq, bareRoute_eq, directory, String.toList_ofList, namesIn_trimHead,
    ← splitLast_append path]
  rcases splitLast_head path with hnil | ⟨front, hfront⟩
  · rw [hnil]
    rfl
  · rw [hfront, List.append_assoc, List.singleton_append, namesIn_append, namesIn_slash]

lemma notMem_base (path : String) : '/' ∉ (base path).toList := by
  rw [base, String.toList_ofList, splitLast, List.mem_reverse]
  intro hm
  have hall := List.all_eq_true.1 (List.all_takeWhile (p := fun c => decide (c ≠ '/'))) '/' hm
  simp at hall

/-- A path that ends in a name does not end in a slash. -/
lemma getLast?_of_base {path : String} (h : base path ≠ "") : path.toList.getLast? ≠ some '/' := by
  have hsplit : path.toList = (splitLast path).1 ++ (base path).toList := by
    rw [base, String.toList_ofList, splitLast_append]
  have hne : (base path).toList ≠ [] := by simpa using h
  rw [hsplit, List.getLast?_append_of_ne_nil _ hne]
  exact fun hlast => notMem_base path (List.mem_of_getLast? hlast)

/-- A path that does not end in a slash ends in a name. -/
lemma base_ne_empty {path : String} (hne : path ≠ "") (h : path.toList.getLast? ≠ some '/') :
    base path ≠ "" := by
  intro he
  have hnil : path.toList.reverse.takeWhile (· ≠ '/') = [] := by
    rw [← List.reverse_eq_nil_iff, ← String.toList_ofList (l := List.reverse _)]
    rw [base, splitLast] at he
    rw [he, String.toList_empty]
  cases hlast : path.toList.reverse with
  | nil => exact hne (by simpa using hlast)
  | cons c rest =>
    rw [hlast, List.takeWhile_cons] at hnil
    rw [← List.head?_reverse, hlast, List.head?_cons] at h
    split at hnil
    · cases hnil
    · next hc => exact h (by simpa using hc)

lemma bareRoute_of_base {path : String} (h : base path ≠ "") :
    bareRoute path = bareRoute (directory path) ++ [base path] := by
  have hne : (splitLast path).2 ≠ [] := fun he => h (by rw [base, he, String.ofList_nil])
  have hs : '/' ∉ (splitLast path).2 := by
    have := notMem_base path
    rwa [base, String.toList_ofList] at this
  rw [bareRoute_directory, namesIn_name hne hs, base]

lemma bareRoute_of_base_empty {path : String} (h : base path = "") :
    bareRoute path = bareRoute (directory path) := by
  have hnil : (splitLast path).2 = [] := by
    rw [← String.toList_ofList (l := (splitLast path).2), ← base, h, String.toList_empty]
  rw [bareRoute_directory, hnil, namesIn_nil, List.append_nil]

/-- The directory is a beginning of the path. -/
lemma directory_starts (path : String) : ∃ rest, path.toList = (directory path).toList ++ rest := by
  obtain ⟨count, h⟩ := trimHead_append (splitLast path).1
  refine ⟨List.replicate count '/' ++ (splitLast path).2, ?_⟩
  rw [directory, String.toList_ofList, ← List.append_assoc, ← h, splitLast_append]

/-- The directory of a path starts where the path starts. -/
lemma isAbsolute_directory (path : String) : isAbsolute (directory path) = isAbsolute path := by
  obtain ⟨rest, hrest⟩ := directory_starts path
  cases hd : (directory path).toList with
  | cons c cs =>
    rw [isAbsolute_eq, isAbsolute_eq, hrest, hd, List.cons_append, List.head?_cons, List.head?_cons]
  | nil =>
    -- Nothing is left of the directory, so there are no slashes that could have been taken off.
    rw [directory, String.toList_ofList, trimHead] at hd
    have hhead : (splitLast path).1 = [] := by
      split at hd
      · exact hd
      · rename_i hall
        have hnone : (splitLast path).1.reverse.dropWhile (· = '/') = [] := by simpa using hd
        have hslashes := List.dropWhile_eq_nil_iff.1 hnone
        refine absurd (List.all_eq_true.2 fun c hc => ?_) hall
        exact hslashes c (List.mem_reverse.2 hc)
    have hname : path.toList = (base path).toList := by
      rw [← splitLast_append path, hhead, List.nil_append, base, String.toList_ofList]
    have hrelative : isAbsolute path = false := by
      refine isAbsolute_of_notMem ?_
      rw [hname]
      exact notMem_base path
    have hempty : directory path = "" := by
      rw [← String.toList_inj, directory, String.toList_ofList, trimHead, hhead]
      rfl
    rw [hrelative, hempty]
    rfl

/-- What is left of a text without its slashes at the end consists of slashes or does not end
in one. -/
lemma trimHead_cases (head : List Char) :
    namesIn (trimHead head) = [] ∨ (trimHead head).getLast? ≠ some '/' := by
  unfold trimHead
  split
  · rename_i hall
    refine .inl ?_
    have hslashes : head = [] ++ List.replicate head.length '/' := by
      rw [List.nil_append, List.eq_replicate_iff]
      exact ⟨rfl, fun c hc => by simpa using List.all_eq_true.1 hall c hc⟩
    rw [hslashes, namesIn_slashes, namesIn_nil]
  · refine .inr ?_
    intro hlast
    rw [List.getLast?_reverse] at hlast
    have hhead := List.head?_dropWhile_not (fun c => decide (c = '/')) head.reverse
    rw [hlast] at hhead
    simp at hhead

/-- The directory of a path is walked along its names. -/
lemma route_directory (path : String) : route (directory path) = bareRoute (directory path) := by
  rcases trimHead_cases (splitLast path).1 with hnil | hlast
  · have hbare : bareRoute (directory path) = [] := by
      rw [bareRoute_eq, directory, String.toList_ofList, hnil]
    rw [hbare, route, ← bareRoute, hbare]
    simp
  · refine route_eq_of_last ?_
    rw [directory, String.toList_ofList]
    exact hlast

end Path

end SourceAtlas
