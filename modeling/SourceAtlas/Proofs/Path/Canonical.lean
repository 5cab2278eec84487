import SourceAtlas.Proofs.Path.Acceptance

/-!
# Canonical paths

The files of a project are named by paths whose segments all lead down (`Path.IsCanonical`).  Such a
path is its segments put together, nothing of it is lost on the way through `Path.directory` and
`Path.append`, and its normal form is the path itself.

A file below a root has the same relative path however the root is written
(`Path.relative?_append`): both the path of the root and that of the file are made absolute and
normal first, and the segments below the root survive that.
-/

namespace SourceAtlas

lemma PlainName.proper {name : String} (h : PlainName name) : name ≠ "" ∧ '/' ∉ name.toList :=
  ⟨h.1, h.2.2.2⟩

namespace Path

open FileSystem EntryPath

/-- A relative path all of whose segments lead down. -/
def IsCanonical (path : String) : Prop :=
  ∀ segment ∈ segments path, segment ≠ "" ∧ segment ≠ "." ∧ segment ≠ ".."

instance (path : String) : Decidable (IsCanonical path) :=
  inferInstanceAs (Decidable (∀ segment ∈ segments path, _))

variable {path root other : String} {names : List String} {name : String}

lemma ofSegments_segments (path : String) : ofSegments (segments path) = path :=
  Text.join_pieces '/' path

lemma IsCanonical.plain (h : IsCanonical path) : ∀ name ∈ segments path, PlainName name :=
  fun name hn => ⟨(h name hn).1, (h name hn).2.1, (h name hn).2.2, slash_notMem_of_mem_segments hn⟩

lemma isCanonical_ofSegments (hne : names ≠ []) (hp : ∀ name ∈ names, PlainName name) :
    IsCanonical (ofSegments names) := by
  intro segment hs
  rw [segments_ofSegments hne fun name hn => (hp name hn).2.2.2] at hs
  exact ⟨(hp segment hs).1, (hp segment hs).2.1, (hp segment hs).2.2.1⟩

lemma toList_ofSegments (names : List String) :
    (ofSegments names).toList = Text.joinWith '/' (names.map String.toList) := by
  rw [ofSegments, Text.join, String.toList_ofList]

lemma isAbsolute_ofSegments_proper (hp : ∀ name ∈ names, name ≠ "" ∧ '/' ∉ name.toList) :
    isAbsolute (ofSegments names) = false := by
  cases names with
  | nil => rfl
  | cons first rest => exact isAbsolute_ofSegments (hp first (by simp)).1 (hp first (by simp)).2

lemma getLast?_ofSegments (hp : ∀ name ∈ names, name ≠ "" ∧ '/' ∉ name.toList) :
    (ofSegments names).toList.getLast? ≠ some '/' := by
  by_cases hne : names = []
  · rw [hne]
    decide
  · have h := @PurePath.getLast?_toString 0 names hne hp
    rwa [PurePath.toList_toString hne, List.replicate_zero, List.nil_append,
      ← toList_ofSegments] at h

/-! ## The directory of a path -/

lemma splitLast_of_slash {front last : List Char} (h : path.toList = front ++ '/' :: last)
    (hs : '/' ∉ last) : splitLast path = (front ++ ['/'], last) := by
  have hlast : ∀ c ∈ last.reverse, decide (c ≠ '/') = true := by
    intro c hc
    exact decide_eq_true fun he => hs (he ▸ List.mem_reverse.1 hc)
  have hreversed : path.toList.reverse = last.reverse ++ '/' :: front.reverse := by
    simp [h]
  rw [splitLast, hreversed, List.dropWhile_append_of_pos hlast, List.takeWhile_append_of_pos hlast]
  simp

lemma splitLast_of_notMem (hs : '/' ∉ path.toList) : splitLast path = ([], path.toList) := by
  have hall : ∀ c ∈ path.toList.reverse, decide (c ≠ '/') = true := by
    intro c hc
    exact decide_eq_true fun he => hs (he ▸ List.mem_reverse.1 hc)
  rw [splitLast, List.dropWhile_eq_nil_iff.2 hall, List.takeWhile_eq_self_iff.2 hall,
    List.reverse_nil, List.reverse_reverse]

lemma trimHead_slash {front : List Char} (hne : front ≠ []) (hlast : front.getLast? ≠ some '/') :
    trimHead (front ++ ['/']) = front := by
  obtain ⟨init, c, rfl⟩ : ∃ init c, front = init ++ [c] :=
    ⟨_, _, (List.dropLast_concat_getLast hne).symm⟩
  have hc : c ≠ '/' := fun he => hlast (by simp [he])
  simp [trimHead, hc]

/-- The directory of a path is made up of the segments before the last one. -/
lemma directory_ofSegments (hp : ∀ name ∈ names, name ≠ "" ∧ '/' ∉ name.toList) :
    directory (ofSegments names) = ofSegments names.dropLast := by
  rcases List.eq_nil_or_concat names with rfl | ⟨above, last, rfl⟩
  · rfl
  rw [List.concat_eq_append] at hp ⊢
  have hlast : '/' ∉ last.toList := (hp last (by simp)).2
  have habove : ∀ name ∈ above, name ≠ "" ∧ '/' ∉ name.toList :=
    fun name hn => hp name (List.mem_append_left _ hn)
  rw [List.dropLast_concat]
  by_cases hne : above = []
  · have htext : ofSegments [last] = last := by
      rw [ofSegments, Text.join, List.map_singleton, Text.joinWith, String.ofList_toList]
    rw [hne, List.nil_append, htext, directory, splitLast_of_notMem hlast]
    rfl
  · have htext : (ofSegments (above ++ [last])).toList =
        (ofSegments above).toList ++ '/' :: last.toList := by
      rw [toList_ofSegments, toList_ofSegments, List.map_append,
        Text.joinWith_append (by simpa using hne) (by simp)]
      rfl
    obtain ⟨first, rest, rfl⟩ := List.exists_cons_of_ne_nil hne
    have hempty : (ofSegments (first :: rest)).toList ≠ [] := by
      simpa using ofSegments_ne_empty (habove first (by simp)).1
    rw [directory, splitLast_of_slash htext hlast,
      trimHead_slash hempty (getLast?_ofSegments habove), String.ofList_toList]

/-! ## A path behind a path -/

lemma segments_slash (front back : String) :
    segments (front ++ "/" ++ back) = segments front ++ segments back := by
  have htext : (front ++ "/" ++ back).toList = front.toList ++ '/' :: back.toList := by simp
  rw [segments, Text.pieces, htext, Text.splitOn_append_separator, List.map_append]
  rfl

lemma append_empty (other : String) : append "" other = other := by
  rw [append]
  split <;> rfl

/-- A path that does not start at the root starts where the path before it starts. -/
lemma isAbsolute_append_of_relative (hr : root ≠ "") (ho : isAbsolute other = false) :
    isAbsolute (append root other) = isAbsolute root := by
  obtain ⟨c, cs, hc⟩ : ∃ c cs, root.toList = c :: cs :=
    List.exists_cons_of_ne_nil (by simpa using hr)
  rw [isAbsolute_eq, isAbsolute_eq, append_of_relative hr ho]
  split <;> simp [hc]

lemma append_ne_empty (hr : root ≠ "") (ho : isAbsolute other = false) :
    append root other ≠ "" := by
  intro hempty
  have hsize := size_le_append_of_relative hr ho
  rw [hempty] at hsize
  exact hr (String.utf8ByteSize_eq_zero_iff.1 (Nat.le_zero.1 hsize))

/-- Behind a canonical path, or behind nothing, a relative path goes on from its last segment. -/
lemma segments_append (hp : ∀ name ∈ names, name ≠ "" ∧ '/' ∉ name.toList)
    (hr : isAbsolute other = false) :
    segments (append (ofSegments names) other) = names ++ segments other := by
  cases names with
  | nil => exact congrArg segments (append_empty other)
  | cons first rest =>
    rw [append_of_relative (ofSegments_ne_empty (hp first (by simp)).1) hr,
      if_neg (getLast?_ofSegments hp), segments_slash,
      segments_ofSegments (by simp) fun name hn => (hp name hn).2]

lemma isAbsolute_append_ofSegments (hp : ∀ name ∈ names, name ≠ "" ∧ '/' ∉ name.toList)
    (ho : isAbsolute other = false) :
    isAbsolute (append (ofSegments names) other) = false := by
  cases names with
  | nil => exact (congrArg isAbsolute (append_empty other)).trans ho
  | cons first rest =>
    rw [isAbsolute_append_of_relative (ofSegments_ne_empty (hp first (by simp)).1) ho,
      isAbsolute_ofSegments_proper hp]

/-- Paths can be put behind each other in any order. -/
lemma append_append {base : String} (hr : root ≠ "") (ho : isAbsolute other = false) :
    append base (append root other) = append (append base root) other := by
  have habsolute := isAbsolute_append_of_relative hr ho
  by_cases hroot : isAbsolute root = true
  · rw [append.eq_def base (append root other), habsolute, if_pos hroot, append.eq_def base root,
      if_pos hroot]
  by_cases hbase : base = ""
  · rw [hbase, append_empty, append_empty]
  rw [Bool.not_eq_true] at hroot
  have hlast : (append base root).toList.getLast? = root.toList.getLast? := by
    rw [append_of_relative hbase hroot, String.toList_append,
      List.getLast?_append_of_ne_nil _ (by simpa using hr)]
  rw [append_of_relative hbase (habsolute.trans hroot), append_of_relative hr ho,
    append_of_relative (append_ne_empty hbase hroot) ho, hlast, append_of_relative hbase hroot]
  split <;> split <;> simp only [String.append_assoc]

/-! ## The path of a file from its root -/

/-- What is left of segments is not empty and holds no slash, though it may lead up. -/
lemma proper_of_mem_collapse {rooted : Bool} (hs : ∀ segment ∈ names, '/' ∉ segment.toList) :
    ∀ name ∈ collapse rooted names, name ≠ "" ∧ '/' ∉ name.toList := by
  intro name hn
  rcases mem_collapse hn with rfl | ⟨hm, hne, -⟩
  · decide
  · exact ⟨hne, hs name hm⟩

/-- The names of a normal form that starts at the root are what is left of the segments. -/
lemma bareRoute_normalize (h : isAbsolute path = true) :
    bareRoute (normalize path) = collapse true (segments path) := by
  have hslashes : leadingSlashes path.toList ≠ 0 := by
    rw [Ne, leadingSlashes_eq_zero_iff, not_not]
    rwa [isAbsolute_eq, decide_eq_true_eq] at h
  have hproper : ∀ name ∈ collapse true (segments path), name ≠ "" ∧ '/' ∉ name.toList :=
    proper_of_mem_collapse fun segment hm => slash_notMem_of_mem_segments hm
  have htext : normalize path =
      String.ofList (List.replicate (leadingSlashes path.toList) '/') ++
        ofSegments (collapse true (segments path)) := by
    have hrooted : (leadingSlashes path.toList != 0) = true := by simpa using hslashes
    have hne : String.ofList (List.replicate (leadingSlashes path.toList) '/') ++
        ofSegments (collapse true (segments path)) ≠ "" := by
      intro hempty
      have := congrArg String.toList hempty
      simp [hslashes] at this
    rw [normalize, hrooted]
    exact if_neg hne
  by_cases hnil : collapse true (segments path) = []
  · have hnone := namesIn_slashes [] (leadingSlashes path.toList)
    rw [List.nil_append, namesIn_nil] at hnone
    rw [htext, hnil, bareRoute_eq, String.toList_append, String.toList_ofList,
      show (ofSegments []).toList = [] from rfl, List.append_nil]
    exact hnone
  · have hstring : PurePath.toString ⟨leadingSlashes path.toList, collapse true (segments path)⟩ =
        normalize path := by
      rw [htext, PurePath.toString, if_neg fun hc => hslashes hc.1]
    rw [← hstring]
    exact PurePath.bareRoute_toString hnil hproper

/-- Behind a path, plain names are what they are in the normal form. -/
lemma collapse_append {base : String} (hb : base ≠ "") (hne : names ≠ [])
    (hp : ∀ name ∈ names, PlainName name) (rooted : Bool) :
    collapse rooted (segments (append base (ofSegments names))) =
      collapse rooted (segments base) ++ names := by
  have hnames : segments (ofSegments names) = names :=
    segments_ofSegments hne fun name hn => (hp name hn).2.2.2
  have hrun : (segments (append base (ofSegments names))).foldl (push rooted) [] =
      names.foldl (push rooted) ((segments base).foldl (push rooted) []) := by
    rw [append_of_relative hb (isAbsolute_ofSegments_proper fun name hn => (hp name hn).proper)]
    split
    · -- The slash at the end of the base leaves an empty segment there, which means nothing.
      rename_i hlast
      obtain ⟨front, hfront⟩ := List.getLast?_eq_some_iff.1 hlast
      have hbase : base = String.ofList front ++ "/" ++ "" := by
        rw [← String.toList_inj, hfront]
        simp
      have hempty : segments "" = [""] := rfl
      rw [show base ++ ofSegments names = String.ofList front ++ "/" ++ ofSegments names by
        rw [hbase, String.append_empty], segments_slash, hnames, List.foldl_append, hbase,
        segments_slash, hempty, List.foldl_append]
      rfl
    · rw [segments_slash, hnames, List.foldl_append]
  rw [collapse, collapse, hrun, foldl_push_plain hp, List.reverse_append, List.reverse_reverse]

lemma sharedLength_append (start rest : List String) :
    sharedLength start (start ++ rest) = start.length := by
  induction start with
  | nil => cases rest <;> rfl
  | cons first start ih => rw [List.cons_append, sharedLength, if_pos rfl, ih, List.length_cons]

/-- From a root, however it is written, a file below it has the path that is made up of the names
that lead down to it. -/
theorem relative?_append {workingDirectory : String} (hw : isAbsolute workingDirectory = true)
    (hr : root ≠ "") (hne : names ≠ []) (hp : ∀ name ∈ names, PlainName name) :
    relative? workingDirectory root (append root (ofSegments names)) = some (ofSegments names) := by
  have ho := isAbsolute_ofSegments_proper fun name hn => (hp name hn).proper
  have hstart : isAbsolute (append workingDirectory root) = true := by
    by_cases hroot : isAbsolute root = true
    · rw [append, if_pos hroot, hroot]
    · have hwork : workingDirectory ≠ "" := by
        rintro rfl
        cases hw
      rw [isAbsolute_append_of_relative hwork (by simpa using hroot), hw]
  have hbase : append workingDirectory root ≠ "" := by
    intro hempty
    rw [hempty] at hstart
    cases hstart
  have hgoal : isAbsolute (append workingDirectory (append root (ofSegments names))) = true := by
    rw [append_append hr ho, isAbsolute_append_of_relative hbase ho, hstart]
  have hnames (path : String) : (segments path).filter (fun name => decide (name ≠ "")) =
      bareRoute path :=
    rfl
  have hgoalNames :
    bareRoute (normalize (append workingDirectory (append root (ofSegments names)))) =
      collapse true (segments (append workingDirectory root)) ++ names := by
    rw [bareRoute_normalize hgoal, append_append hr ho, collapse_append hbase hne hp]
  rw [relative?, if_neg (append_ne_empty hr ho)]
  simp only [hnames, absolute, hgoalNames, bareRoute_normalize hstart, sharedLength_append,
    Nat.sub_self, List.replicate_zero, List.nil_append, List.drop_left, List.isEmpty_iff,
    if_neg hne]

end Path

end SourceAtlas
