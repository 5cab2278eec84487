import SourceAtlas.Imports.Resolution
import SourceAtlas.Proofs.Path.Canonical

/-!
# What a local specifier refers to

A specifier is looked up by texts: the directory of the importing file, put together with the
specifier, in normal form, with extensions appended.  Main statement: for a local specifier this is
a walk along segments with a stack, first down to the directory of the importing file and then along
the specifier (`resolve?_eq_walk`).  If the walk breaks off, because a `..` has nothing to take off,
the specifier refers to nothing, also if it came back to the project by name later on.  Otherwise it
refers to the first known file among those that belong to the place where the walk ends (`filesAt`).

Two shapes of the text need an argument that does not follow the walk.  The normal form of a path to
the project itself is `.`, so appending extensions to it yields names such as `..js`; and a walk
that breaks off at its very end leaves `..`, which yields `...js`.  Neither is the name of a code
file, because a dot that begins a name begins no extension (`isCodeFile_of_dots`).
-/

namespace SourceAtlas

namespace Imports

open SourceAtlas.Path EntryPath

/-- The files that a specifier may refer to if it leads to the given names: the file of this
name, the file with an extension of code, and the index file of the directory.  The project
itself is no file. -/
def filesAt (names : List String) : List String :=
  (if names = [] then []
    else ofSegments names :: codeExtensions.map fun extension => ofSegments names ++ extension) ++
    codeExtensions.map fun extension => ofSegments (names ++ ["index" ++ extension])

variable {importer specifier path extension : String} {known parts names : List String}

/-! ## Walks that break off -/

/-- A `..` at the start of a normal form stays there. -/
lemma getLast?_push {stack : List String} {segment : String} (h : stack.getLast? = some "..") :
    (push false stack segment).getLast? = some ".." := by
  unfold push
  split
  · exact h
  split
  · cases stack with
    | nil => cases h
    | cons latest earlier =>
      dsimp only
      split
      · rw [List.getLast?_cons_cons]
        exact h
      · rename_i hlatest
        cases earlier with
        | nil => exact absurd (by simpa using h) hlatest
        | cons next earlier => rwa [List.getLast?_cons_cons] at h
  · cases stack with
    | nil => cases h
    | cons latest earlier =>
      rw [List.getLast?_cons_cons]
      exact h

lemma getLast?_foldl_push {stack : List String} (h : stack.getLast? = some "..") :
    (parts.foldl (push false) stack).getLast? = some ".." := by
  induction parts generalizing stack with
  | nil => exact h
  | cons segment parts ih => exact ih (getLast?_push h)

/-- Where the walk breaks off, the normal form starts with a `..`. -/
lemma getLast?_of_walk?_eq_none {stack : List String} (hstack : ".." ∉ stack)
    (h : walk? stack parts = none) : (parts.foldl (push false) stack).getLast? = some ".." := by
  induction parts generalizing stack with
  | nil => cases h
  | cons segment parts ih =>
    rw [walk?] at h
    rw [List.foldl_cons]
    have hpush := @push_eq_step? stack segment hstack
    cases hstep : step? stack segment with
    | some stack' =>
      rw [hstep] at h hpush
      rw [hpush.1]
      exact ih hpush.2 h
    | none =>
      refine getLast?_foldl_push ?_
      unfold step? at hstep
      split at hstep
      · cases hstep
      rename_i hmeans
      split at hstep
      · rename_i hup
        cases stack with
        | nil => simp [push, hup]
        | cons latest earlier => cases hstep
      · cases hstep

lemma collapse_of_walk?_eq_none (h : walk? [] parts = none) :
    ∃ rest, collapse false parts = ".." :: rest := by
  have hlast := getLast?_of_walk?_eq_none List.not_mem_nil h
  rw [← List.head?_reverse, ← collapse] at hlast
  exact List.head?_eq_some_iff.1 hlast

/-! ## Names that are no code files -/

/-- A name that consists of dots and one more word has no extension. -/
lemma isCodeFile_of_dots {count : Nat} {word : List Char} (hword : ∀ c ∈ word, c ≠ '.' ∧ c ≠ '/') :
    isCodeFile (String.ofList (List.replicate count '.' ++ word)) = false := by
  have hslash : '/' ∉ (String.ofList (List.replicate count '.' ++ word)).toList := by
    rw [String.toList_ofList, List.mem_append]
    rintro (hm | hm)
    · exact absurd (List.eq_of_mem_replicate hm) (by decide)
    · exact (hword '/' hm).2 rfl
  have hstem : (List.replicate count '.' ++ word).dropWhile (fun c => decide (c = '.')) = word := by
    rw [List.dropWhile_append_of_pos fun c hc => decide_eq_true (List.eq_of_mem_replicate hc)]
    cases word with
    | nil => rfl
    | cons c word => rw [List.dropWhile_cons_of_neg (by simpa using (hword c (by simp)).1)]
  have hnone : extension (String.ofList (List.replicate count '.' ++ word)) = "" := by
    have hdot : '.' ∉ word := fun hm => (hword '.' hm).1 rfl
    rw [Path.extension, splitLast_of_notMem hslash, String.toList_ofList]
    simp only [hstem]
    rw [if_neg (by simpa using hdot)]
  rw [isCodeFile, lowerExtension, hnone]
  decide +kernel

/-- An extension of code behind dots. -/
lemma isCodeFile_dots_extension (count : Nat) (he : extension ∈ codeExtensions) :
    isCodeFile (String.ofList (List.replicate count '.') ++ extension) = false := by
  have hshape : ∀ extension ∈ codeExtensions, ∃ word : List Char,
      extension.toList = '.' :: word ∧ ∀ c ∈ word, c ≠ '.' ∧ c ≠ '/' := by
    simp [codeExtensions]
  obtain ⟨word, htext, hword⟩ := hshape extension he
  have hdots : String.ofList (List.replicate count '.') ++ extension =
      String.ofList (List.replicate (count + 1) '.' ++ word) := by
    rw [← String.toList_inj, String.toList_append, htext]
    simp [List.replicate_succ']
  rw [hdots]
  exact isCodeFile_of_dots hword

lemma slash_notMem_extension (he : extension ∈ codeExtensions) : '/' ∉ extension.toList := by
  revert extension
  simp [codeExtensions]

/-! ## The candidates as names -/

/-- An extension is appended to the last name. -/
lemma ofSegments_append_extension {above : List String} {last : String} (extension : String) :
    ofSegments (above ++ [last]) ++ extension = ofSegments (above ++ [last ++ extension]) := by
  rw [← String.toList_inj, String.toList_append, toList_ofSegments, toList_ofSegments]
  cases above with
  | nil => simp [Text.joinWith]
  | cons first rest =>
    rw [List.map_append, List.map_append, Text.joinWith_append (by simp) (by simp),
      Text.joinWith_append (by simp) (by simp)]
    simp [Text.joinWith]

lemma index_plain (he : extension ∈ codeExtensions) : PlainName ("index" ++ extension) := by
  refine @plainName_of_mem _ 'i' (by simp) (by decide) ?_
  rw [String.toList_append, List.mem_append, not_or]
  exact ⟨by decide, slash_notMem_extension he⟩

lemma not_isCanonical_of_up (hup : ".." ∈ names) (hs : ∀ name ∈ names, '/' ∉ name.toList) :
    ¬ IsCanonical (ofSegments names) := by
  intro h
  have hne : names ≠ [] := List.ne_nil_of_mem hup
  rw [IsCanonical, segments_ofSegments hne hs] at h
  exact (h ".." hup).2.2 rfl

/-- The normal form of the text that is looked up, by the segments that lead to it. -/
lemma basePath_eq (himporter : IsCanonical importer) (hb : '\\' ∉ importer.toList)
    (hr : isAbsolute (slashed specifier) = false) :
    basePath importer specifier =
      if ofSegments
        (collapse false ((segments importer).dropLast ++ segments (slashed specifier))) = ""
      then "."
      else ofSegments
        (collapse false ((segments importer).dropLast ++ segments (slashed specifier))) := by
  have hproper : ∀ name ∈ (segments importer).dropLast, name ≠ "" ∧ '/' ∉ name.toList :=
    fun name hn =>
    (himporter.plain name (List.dropLast_subset _ hn)).proper
  have hdirectory : directory (slashed importer) = ofSegments (segments importer).dropLast := by
    conv_lhs =>
      rw [slashed_of_notMem hb, ← ofSegments_segments importer,
        directory_ofSegments fun name hn => (himporter.plain name hn).proper]
  rw [basePath, hdirectory, normalize_relative (isAbsolute_append_ofSegments hproper hr),
    segments_append hproper hr]

/-- Where the walk ends at the project itself, only its index files can be meant. -/
lemma find?_candidates_nil (hknown : ∀ path ∈ known, IsCanonical path ∧ isCodeFile path = true)
    (hbase : basePath importer specifier = ".") :
    (candidates importer specifier).find? (fun path => known.contains path) =
      (filesAt []).find? fun path => known.contains path := by
  have hdot : "." ∉ known := by
    intro hm
    exact absurd (hknown "." hm).1 (by decide +kernel)
  have hdots : (codeExtensions.map fun extension => "." ++ extension).find?
      (fun path => known.contains path) = none := by
    rw [List.find?_eq_none]
    intro path hm hp
    obtain ⟨extension, he, rfl⟩ := List.mem_map.1 hm
    have hcode := (hknown _ (by simpa using hp)).2
    have hnone := isCodeFile_dots_extension 1 he
    rw [show String.ofList (List.replicate 1 '.') = "." from rfl, hcode] at hnone
    cases hnone
  have hindex :
      (codeExtensions.map fun extension => normalize (append "." ("index" ++ extension))) =
        codeExtensions.map fun extension => ofSegments ["index" ++ extension] := by
    decide +kernel
  rw [candidates, hbase]
  rw [List.cons_append, List.find?_cons_of_neg (by simpa using hdot), List.find?_append, hdots,
    Option.none_or, hindex, filesAt, if_pos rfl, List.nil_append]
  rfl

/-- The segments of an index file in normal form. -/
lemma normalize_index (hp : ∀ name ∈ names, name ≠ "" ∧ '/' ∉ name.toList)
    (he : extension ∈ codeExtensions) :
    normalize (append (ofSegments names) ("index" ++ extension)) =
      if ofSegments (collapse false (names ++ ["index" ++ extension])) = "" then "."
      else ofSegments (collapse false (names ++ ["index" ++ extension])) := by
  have hslash := (index_plain he).2.2.2
  have hr := isAbsolute_of_notMem hslash
  have hname : segments ("index" ++ extension) = ["index" ++ extension] := by
    rw [segments, Text.pieces, Text.splitOn_of_notMem hslash, List.map_singleton,
      String.ofList_toList]
  rw [normalize_relative (isAbsolute_append_ofSegments hp hr), segments_append hp hr, hname]

/-- Where the walk ends at a name, the candidates are the files that belong to it. -/
lemma candidates_of_plain (hne : names ≠ []) (hp : ∀ name ∈ names, PlainName name)
    (hbase : basePath importer specifier = ofSegments names) :
    candidates importer specifier = filesAt names := by
  have hindex (extension : String) (he : extension ∈ codeExtensions) :
      normalize (append (ofSegments names) ("index" ++ extension)) =
        ofSegments (names ++ ["index" ++ extension]) := by
    have hplain : ∀ name ∈ names ++ ["index" ++ extension], PlainName name := by
      intro name hn
      rcases List.mem_append.1 hn with hn | hn
      · exact hp name hn
      · exact List.mem_singleton.1 hn ▸ index_plain he
    obtain ⟨first, rest, rfl⟩ := List.exists_cons_of_ne_nil hne
    rw [normalize_index (fun name hn => (hp name hn).proper) he, collapse_plain hplain]
    exact if_neg (ofSegments_ne_empty (hp first (by simp)).1)
  rw [candidates, hbase, filesAt, if_neg hne]
  exact congrArg _ (List.map_congr_left hindex)

/-- Where the walk breaks off, no candidate is a known file. -/
lemma find?_candidates_up (hknown : ∀ path ∈ known, IsCanonical path ∧ isCodeFile path = true)
    {rest : List String} (hp : ∀ name ∈ ".." :: rest, name ≠ "" ∧ '/' ∉ name.toList)
    (hbase : basePath importer specifier = ofSegments (".." :: rest)) :
    (candidates importer specifier).find? (fun path => known.contains path) = none := by
  rw [List.find?_eq_none]
  intro path hm hc
  obtain ⟨hcanonical, hcode⟩ := hknown path (by simpa using hc)
  rw [candidates, hbase] at hm
  rw [List.cons_append, List.mem_cons, List.mem_append, List.mem_map, List.mem_map] at hm
  rcases hm with rfl | ⟨extension, he, rfl⟩ | ⟨extension, he, rfl⟩
  · exact not_isCanonical_of_up (List.mem_cons_self ..) (fun name hn => (hp name hn).2) hcanonical
  · rcases List.eq_nil_or_concat rest with rfl | ⟨above, last, rfl⟩
    · -- The extension makes a name of the `..`, but not the name of a code file.
      have hnone := isCodeFile_dots_extension 2 he
      rw [show String.ofList (List.replicate 2 '.') = ofSegments [".."] from rfl, hcode] at hnone
      cases hnone
    · rw [List.concat_eq_append, ← List.cons_append] at hp hcanonical
      rw [ofSegments_append_extension] at hcanonical
      refine not_isCanonical_of_up (by simp) (fun name hn => ?_) hcanonical
      rcases List.mem_append.1 hn with hn | hn
      · exact (hp name (List.mem_append_left _ hn)).2
      · rw [List.mem_singleton.1 hn, String.toList_append, List.mem_append, not_or]
        exact ⟨(hp last (by simp)).2, slash_notMem_extension he⟩
  · -- The `..` stays in front of what is behind it.
    have hup : ".." ∈ collapse false (".." :: rest ++ ["index" ++ extension]) := by
      have hpush : push false [] ".." = [".."] := by simp [push]
      rw [collapse, List.mem_reverse, List.cons_append, List.foldl_cons, hpush]
      exact up_mem_foldl_push (List.mem_cons_self ..)
    obtain ⟨first, names, hnames⟩ := List.exists_cons_of_ne_nil (List.ne_nil_of_mem hup)
    have hproper : ∀ name ∈ first :: names, name ≠ "" ∧ '/' ∉ name.toList := by
      rw [← hnames]
      refine proper_of_mem_collapse fun segment hm => ?_
      rcases List.mem_append.1 hm with hm | hm
      · exact (hp segment hm).2
      · exact List.mem_singleton.1 hm ▸ (index_plain he).2.2.2
    rw [normalize_index hp he, hnames,
      if_neg (ofSegments_ne_empty (hproper first (by simp)).1)] at hcanonical
    exact not_isCanonical_of_up (hnames ▸ hup) (fun name hn => (hproper name hn).2) hcanonical

lemma isAbsolute_of_isLocal (h : isLocal specifier = true) : isAbsolute specifier = false := by
  rw [isLocal, Bool.or_eq_true, List.isPrefixOf_iff_prefix, List.isPrefixOf_iff_prefix] at h
  rw [isAbsolute_eq, decide_eq_false_iff_not]
  rcases h with ⟨rest, h⟩ | ⟨rest, h⟩
  · simp [← h]
  · simp [← h]

/-- A local specifier refers to the first known file among those that belong to the place to
which its segments lead from the directory of the importing file, and to nothing if they lead out
of the project. -/
theorem resolve?_eq_walk (hknown : ∀ path ∈ known, IsCanonical path ∧ isCodeFile path = true)
    (himporter : IsCanonical importer) (hb : '\\' ∉ importer.toList)
    (hlocal : isLocal (slashed specifier) = true) :
    resolve? importer specifier known =
      match walk? [] ((segments importer).dropLast ++ segments (slashed specifier)) with
      | none => none
      | some names => (filesAt names).find? fun path => known.contains path := by
  have hbase := basePath_eq himporter hb (isAbsolute_of_isLocal hlocal)
  have hproper :
      ∀ name ∈ collapse false ((segments importer).dropLast ++ segments (slashed specifier)),
        name ≠ "" ∧ '/' ∉ name.toList := by
    refine proper_of_mem_collapse fun segment hm => ?_
    rcases List.mem_append.1 hm with hm | hm
    · exact slash_notMem_of_mem_segments (List.dropLast_subset _ hm)
    · exact slash_notMem_of_mem_segments hm
  rw [resolve?]
  cases hw : walk? [] ((segments importer).dropLast ++ segments (slashed specifier)) with
  | none =>
    obtain ⟨rest, hup⟩ := collapse_of_walk?_eq_none hw
    rw [hup] at hbase hproper
    rw [if_neg (ofSegments_ne_empty (by decide))] at hbase
    exact find?_candidates_up hknown hproper hbase
  | some names =>
    obtain ⟨hnames, hup⟩ := walk?_eq_some_iff.1 hw
    rw [hnames] at hbase hproper
    by_cases hne : names = []
    · rw [hne] at hbase ⊢
      exact find?_candidates_nil hknown hbase
    · have hplain : ∀ name ∈ names, PlainName name := by
        intro name hn
        rcases mem_collapse (hnames ▸ hn) with he | ⟨-, -, hdot⟩
        · exact absurd hn (he ▸ hup)
        · exact ⟨(hproper name hn).1, hdot, fun he => hup (he ▸ hn), (hproper name hn).2⟩
      obtain ⟨first, rest, rfl⟩ := List.exists_cons_of_ne_nil hne
      rw [if_neg (ofSegments_ne_empty (hproper first (by simp)).1)] at hbase
      exact congrArg _ (candidates_of_plain hne hplain hbase)

/-- A specifier with backslashes leads up, leaves out what means nothing, and finds an index file;
one that leaves the project and comes back by its name finds nothing. -/
theorem resolve?_eq_walk_backslashes :
    (∀ path ∈ ["src/app/main.ts", "src/lib/index.tsx"], IsCanonical path ∧ isCodeFile path = true) ∧
    IsCanonical "src/app/main.ts" ∧ '\\' ∉ "src/app/main.ts".toList ∧
    isLocal (slashed "..\\.//lib") = true ∧ isLocal (slashed "../../../src/lib/index.tsx") = true ∧
    resolve? "src/app/main.ts" "..\\.//lib" ["src/app/main.ts", "src/lib/index.tsx"] =
      some "src/lib/index.tsx" ∧
    resolve? "src/app/main.ts" "../../../src/lib/index.tsx"
      ["src/app/main.ts", "src/lib/index.tsx"] = none := by
  have hknown : ∀ path ∈ ["src/app/main.ts", "src/lib/index.tsx"],
      IsCanonical path ∧ isCodeFile path = true := by
    decide +kernel
  have himporter : IsCanonical "src/app/main.ts" := by decide +kernel
  have hb : '\\' ∉ "src/app/main.ts".toList := by decide +kernel
  have hback : isLocal (slashed "..\\.//lib") = true := by decide +kernel
  have hout : isLocal (slashed "../../../src/lib/index.tsx") = true := by decide +kernel
  exact ⟨hknown, himporter, hb, hback, hout,
    (resolve?_eq_walk hknown himporter hb hback).trans (by decide +kernel),
    (resolve?_eq_walk hknown himporter hb hout).trans (by decide +kernel)⟩

end Imports

end SourceAtlas
