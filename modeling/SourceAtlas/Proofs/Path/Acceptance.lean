import SourceAtlas.Extraction.Destination
import SourceAtlas.Proofs.Files.Runs
import SourceAtlas.Proofs.Path.Entry

/-!
# Which entry names are accepted

`EntryPath.ofRaw` judges a name by its normal form, in which a `..` that has nothing to take off
stays where it is.  Main statement: a name is accepted exactly if its segments can be walked with a
stack that is never popped when it is empty and ends with a name on it, if it does not start at the
root and not with a drive; what is handed on is the stack (`ofRaw_iff_describes`).

`EntryPath.walk?` is that walk.  It agrees with the normal form as long as it goes on, and where it
breaks off the normal form holds a `..` for good (`foldl_push_walk`).  That the tests can be made on
the text of the normal form just as well is `ofRaw_ok_iff_normalForm`.
-/

namespace SourceAtlas

namespace EntryPath

open SourceAtlas.Path

/-- Walk one segment with a stack, latest first: a name is put on it and `..` takes the latest one
off.  There is nowhere to go if nothing is left to take off. -/
def step? (stack : List String) (segment : String) : Option (List String) :=
  if segment = "" ∨ segment = "." then some stack
  else if segment = ".." then
    match stack with
    | [] => none
    | _ :: earlier => some earlier
  else some (segment :: stack)

/-- Walk segments one after the other, unless the walk breaks off. -/
def walk? : List String → List String → Option (List String)
  | stack, [] => some stack.reverse
  | stack, segment :: rest =>
    match step? stack segment with
    | some stack => walk? stack rest
    | none => none

/-- What an entry name has to be like to describe a place below a directory, and the names that lead
there. -/
structure Describes (raw : String) (names : List String) : Prop where
  relative : isAbsolute (slashed raw) = false
  walk : walk? [] (segments (slashed raw)) = some names
  ne_nil : names ≠ []
  noDrive : ∀ first letter more, names.head? = some first → first.toList = letter :: ':' :: more →
    letter.isAlpha = false

variable {raw : String} {names stack parts : List String} {segment : String}

/-! ## The walk and the normal form -/

/-- A `..` that has nothing to take off stays. -/
lemma up_mem_push (h : ".." ∈ stack) : ".." ∈ push false stack segment := by
  unfold push
  split
  · exact h
  split
  · cases stack with
    | nil => cases h
    | cons latest earlier =>
      dsimp only
      split
      · exact List.mem_cons_self ..
      · rename_i hlatest
        exact (List.mem_cons.1 h).resolve_left (Ne.symm hlatest)
  · exact List.mem_cons_of_mem _ h

lemma up_mem_foldl_push (h : ".." ∈ stack) : ".." ∈ parts.foldl (push false) stack := by
  induction parts generalizing stack with
  | nil => exact h
  | cons segment parts ih => exact ih (up_mem_push h)

/-- A segment of a walk that has not broken off does to the normal form what it does to the walk; if
it breaks the walk off, a `..` stays in the normal form. -/
lemma push_eq_step? (hstack : ".." ∉ stack) :
    match step? stack segment with
    | some stack' => push false stack segment = stack' ∧ ".." ∉ stack'
    | none => ".." ∈ push false stack segment := by
  unfold step? push
  by_cases hskip : segment = "" ∨ segment = "."
  · rw [if_pos hskip, if_pos hskip]
    exact ⟨rfl, hstack⟩
  rw [if_neg hskip, if_neg hskip]
  by_cases hup : segment = ".."
  · rw [if_pos hup, if_pos hup]
    cases stack with
    | nil => exact List.mem_singleton_self _
    | cons latest earlier =>
      obtain ⟨hlatest, hearlier⟩ := not_or.1 fun hm => hstack (List.mem_cons.2 hm)
      exact ⟨if_neg (Ne.symm hlatest), hearlier⟩
  · rw [if_neg hup, if_neg hup]
    exact ⟨rfl, fun hm => (List.mem_cons.1 hm).elim (fun he => hup he.symm) hstack⟩

/-- The stack of the normal form is that of the walk, unless the walk breaks off. -/
lemma foldl_push_walk (hstack : ".." ∉ stack) :
    match walk? stack parts with
    | some names => parts.foldl (push false) stack = names.reverse ∧ ".." ∉ names
    | none => ".." ∈ parts.foldl (push false) stack := by
  induction parts generalizing stack with
  | nil => exact ⟨(List.reverse_reverse stack).symm, by simpa using hstack⟩
  | cons segment parts ih =>
    rw [walk?, List.foldl_cons]
    have hpush := @push_eq_step? stack segment hstack
    cases hstep : step? stack segment with
    | none =>
      rw [hstep] at hpush
      exact up_mem_foldl_push hpush
    | some stack' =>
      rw [hstep] at hpush
      rw [hpush.1]
      exact ih hpush.2

/-- The walk yields the names of the normal form exactly if no `..` is left in them. -/
lemma walk?_eq_some_iff :
    walk? [] parts = some names ↔ collapse false parts = names ∧ ".." ∉ names := by
  have hwalk := @foldl_push_walk [] parts (List.not_mem_nil)
  cases hw : walk? [] parts with
  | some found =>
    rw [hw] at hwalk
    obtain ⟨hfold, hup⟩ := hwalk
    have hcollapse : collapse false parts = found := by
      rw [collapse, hfold, List.reverse_reverse]
    rw [hcollapse, Option.some_inj]
    constructor
    · rintro rfl
      exact ⟨rfl, hup⟩
    · exact And.left
  | none =>
    rw [hw] at hwalk
    constructor
    · intro h
      cases h
    · rintro ⟨rfl, hup⟩
      exact absurd (List.mem_reverse.2 hwalk) hup

/-! ## Drives -/

lemma startsWithDrive_eq_false_iff {name : String} : startsWithDrive name = false ↔
    ∀ letter more, name.toList = letter :: ':' :: more → letter.isAlpha = false := by
  unfold startsWithDrive
  split
  · rename_i letter more he
    constructor
    · intro h letter' more' he'
      rw [he] at he'
      rwa [← (List.cons.inj he').1]
    · intro h
      exact h letter more he
  · rename_i hno
    exact ⟨fun _ letter more he => absurd he (hno letter more), fun _ => rfl⟩

/-- Whether a text starts with a drive is decided by its first segment. -/
lemma startsWithDrive_ofSegments {first : String} {rest : List String} (hfirst : first ≠ "") :
    startsWithDrive (ofSegments (first :: rest)) = startsWithDrive first := by
  obtain ⟨c, cs, hc⟩ : ∃ c cs, first.toList = c :: cs :=
    List.exists_cons_of_ne_nil (by simpa using hfirst)
  cases rest with
  | nil =>
    have htext : ofSegments [first] = first := by
      rw [ofSegments, Text.join, List.map_singleton, Text.joinWith, String.ofList_toList]
    rw [htext]
  | cons second rest =>
    have htext : (ofSegments (first :: second :: rest)).toList =
        c :: (cs ++ '/' :: Text.joinWith '/' ((second :: rest).map String.toList)) := by
      rw [ofSegments, Text.join, String.toList_ofList, List.map_cons, List.map_cons, Text.joinWith,
        hc]
      rfl
    rw [startsWithDrive, startsWithDrive, htext, hc]
    cases cs with
    | nil => rfl
    | cons c' cs => by_cases hcolon : c' = ':' <;> simp [hcolon]

/-! ## Acceptance -/

/-- The verdict on a name is passed on its normal form. -/
lemma ofRaw_eq_ok_iff : ofRaw raw = .ok names ↔ isAbsolute (slashed raw) = false ∧
    collapse false (segments (slashed raw)) = names ∧ names ≠ [] ∧ ".." ∉ names ∧
    ∀ first, names.head? = some first → startsWithDrive first = false := by
  constructor
  · intro h
    obtain ⟨hnames, hne, hup⟩ := ofRaw_eq_ok h
    have hrelative : isAbsolute (slashed raw) = false := by
      rw [ofRaw] at h
      split at h
      · cases h
      · rename_i habs
        exact Bool.not_eq_true _ ▸ habs
    refine ⟨hrelative, hnames.symm, hne, hup, fun first hfirst => ?_⟩
    obtain ⟨rest, rfl⟩ := List.head?_eq_some_iff.1 hfirst
    exact startsWithDrive_of_ofRaw h
  · rintro ⟨hrelative, hnames, hne, hup, hdrive⟩
    obtain ⟨first, rest, rfl⟩ := List.exists_cons_of_ne_nil hne
    rw [ofRaw, hrelative, hnames]
    simp [hdrive first rfl, hup]

/-- A name is accepted exactly if it describes a place below a directory. -/
lemma ofRaw_eq_ok_iff_describes : ofRaw raw = .ok names ↔ Describes raw names := by
  rw [ofRaw_eq_ok_iff]
  constructor
  · rintro ⟨hrelative, hnames, hne, hup, hdrive⟩
    exact ⟨hrelative, walk?_eq_some_iff.2 ⟨hnames, hup⟩, hne, fun first letter more hfirst =>
      startsWithDrive_eq_false_iff.1 (hdrive first hfirst) letter more⟩
  · intro h
    obtain ⟨hnames, hup⟩ := walk?_eq_some_iff.1 h.walk
    exact ⟨h.relative, hnames, h.ne_nil, hup, fun first hfirst =>
      startsWithDrive_eq_false_iff.2 fun letter more => h.noDrive first letter more hfirst⟩

/-! ## The text of the normal form -/

/-- The normal form of a relative path is its names put together. -/
lemma normalize_relative {path : String} (h : isAbsolute path = false) :
    Path.normalize path = if ofSegments (collapse false (segments path)) = "" then "."
      else ofSegments (collapse false (segments path)) := by
  have hslashes : leadingSlashes path.toList = 0 := by
    rw [leadingSlashes_eq_zero_iff]
    rwa [isAbsolute_eq, decide_eq_false_iff_not] at h
  simp [Path.normalize, hslashes]

/-- The normal form of an absolute path is absolute. -/
lemma isAbsolute_normalize {path : String} (h : isAbsolute path = true) :
    isAbsolute (Path.normalize path) = true := by
  have hslashes : leadingSlashes path.toList ≠ 0 := by
    rw [Ne, leadingSlashes_eq_zero_iff, not_not]
    rwa [isAbsolute_eq, decide_eq_true_eq] at h
  obtain ⟨count, hcount⟩ := Nat.exists_eq_succ_of_ne_zero hslashes
  have hhead : (String.ofList (List.replicate (leadingSlashes path.toList) '/') ++
      ofSegments (collapse (leadingSlashes path.toList != 0) (segments path))).toList.head? =
        some '/' := by
    rw [String.toList_append, String.toList_ofList, hcount, List.replicate_succ]
    rfl
  have hne : String.ofList (List.replicate (leadingSlashes path.toList) '/') ++
      ofSegments (collapse (leadingSlashes path.toList != 0) (segments path)) ≠ "" := by
    intro hempty
    rw [hempty] at hhead
    cases hhead
  rw [Path.normalize, isAbsolute_eq, decide_eq_true_eq, if_neg hne, hhead]

lemma ofSegments_ne_empty {first : String} {rest : List String} (h : first ≠ "") :
    ofSegments (first :: rest) ≠ "" := by
  intro hempty
  have htext : (ofSegments (first :: rest)).toList = [] := by
    rw [hempty, String.toList_empty]
  obtain ⟨c, cs, hc⟩ : ∃ c cs, first.toList = c :: cs :=
    List.exists_cons_of_ne_nil (by simpa using h)
  rw [ofSegments, Text.join, String.toList_ofList, List.map_cons, hc] at htext
  cases rest <;> simp [Text.joinWith] at htext

/-- The normal form of a name that describes a place is the text that is handed on. -/
lemma Describes.normalize_eq (h : Describes raw names) :
    Path.normalize (slashed raw) = ofSegments names := by
  obtain ⟨first, rest, rfl⟩ := List.exists_cons_of_ne_nil h.ne_nil
  have hfirst : PlainName first := (ofRaw_plain (ofRaw_eq_ok_iff_describes.2 h)).2 first (by simp)
  rw [normalize_relative h.relative, (walk?_eq_some_iff.1 h.walk).1,
    if_neg (ofSegments_ne_empty hfirst.1)]

/-- The segments of a normal form hold no slash. -/
lemma slash_notMem_of_mem_collapse {path name : String}
    (h : name ∈ collapse false (segments path)) :
    name ≠ "" ∧ '/' ∉ name.toList := by
  rcases mem_collapse h with rfl | ⟨hmem, hne, -⟩
  · decide
  · exact ⟨hne, slash_notMem_of_mem_segments hmem⟩

/-- The tests can be made on the text of the normal form: it must hold a name, be relative, not
start with a drive and not climb. -/
theorem ofRaw_ok_iff_normalForm (raw : String) :
    (∃ names, ofRaw raw = .ok names) ↔
      Path.normalize (slashed raw) ∉ ["", "."] ∧ isAbsolute (Path.normalize (slashed raw)) = false ∧
        startsWithDrive (Path.normalize (slashed raw)) = false ∧
        ".." ∉ segments (Path.normalize (slashed raw)) := by
  constructor
  · rintro ⟨names, h⟩
    have hplain := (ofRaw_plain h).2
    have htext := (ofRaw_eq_ok_iff_describes.1 h).normalize_eq
    obtain ⟨-, -, hne, hup, hdrive⟩ := ofRaw_eq_ok_iff.1 h
    have hsegments : segments (ofSegments names) = names :=
      segments_ofSegments hne fun name hn => (hplain name hn).2.2.2
    obtain ⟨first, rest, rfl⟩ := List.exists_cons_of_ne_nil hne
    have hfirst := hplain first (by simp)
    rw [htext, hsegments, startsWithDrive_ofSegments hfirst.1]
    refine ⟨fun hm => ?_, isAbsolute_ofSegments hfirst.1 hfirst.2.2.2, hdrive first rfl, hup⟩
    rcases List.mem_cons.1 hm with hempty | hdot
    · exact ofSegments_ne_empty hfirst.1 hempty
    · rw [List.mem_singleton.1 hdot] at hsegments
      exact hfirst.2.1 (List.cons.inj hsegments).1.symm
  · rintro ⟨hnamed, hrelative, hdrive, hup⟩
    have hraw : isAbsolute (slashed raw) = false := by
      by_contra habs
      rw [isAbsolute_normalize (by simpa using habs)] at hrelative
      cases hrelative
    have htext : Path.normalize (slashed raw) =
        ofSegments (collapse false (segments (slashed raw))) := by
      have hform := normalize_relative hraw
      by_cases hempty : ofSegments (collapse false (segments (slashed raw))) = ""
      · rw [if_pos hempty] at hform
        exact absurd (by simp [hform]) hnamed
      · rwa [if_neg hempty] at hform
    have hproper : ∀ name ∈ collapse false (segments (slashed raw)),
        name ≠ "" ∧ '/' ∉ name.toList :=
      fun _ => slash_notMem_of_mem_collapse
    have hne : collapse false (segments (slashed raw)) ≠ [] := by
      intro hnil
      rw [htext, hnil] at hnamed
      exact hnamed (List.mem_cons_self ..)
    rw [htext, segments_ofSegments hne fun name hn => (hproper name hn).2] at hup
    refine ⟨_, ofRaw_eq_ok_iff.2 ⟨hraw, rfl, hne, hup, fun first hfirst => ?_⟩⟩
    obtain ⟨rest, hnames⟩ := List.head?_eq_some_iff.1 hfirst
    rw [htext, hnames, startsWithDrive_ofSegments
      (hproper first (List.mem_of_mem_head? hfirst)).1] at hdrive
    exact hdrive

/-- An entry name is accepted exactly if its segments, walked with a stack, describe a place below a
directory.  The text that is handed on is the normal form; its segments are plain names without
backslashes, and it is accepted again as it stands.  Every other name is refused as unsafe, whatever
the file system. -/
theorem ofRaw_iff_describes (raw : String) :
    (∀ names, ofRaw raw = .ok names ↔ Describes raw names) ∧
      (∀ names, ofRaw raw = .ok names →
        Path.normalize (slashed raw) = ofSegments names ∧ segments (ofSegments names) = names ∧
          (∀ name ∈ names, PlainName name) ∧ '\\' ∉ (ofSegments names).toList ∧
          ofRaw (ofSegments names) = .ok names) ∧
      ((¬ ∃ names, Describes raw names) → ∃ reason, ∀ root fs,
        (resolveDestination root raw).on fs =
          (.error (.archive ⟨.unsafePath, raw, reason⟩), fs)) := by
  refine ⟨fun names => ofRaw_eq_ok_iff_describes, fun names h => ?_, fun hnone => ?_⟩
  · obtain ⟨hne, hplain⟩ := ofRaw_plain h
    have htext := (ofRaw_eq_ok_iff_describes.1 h).normalize_eq
    exact ⟨htext, segments_ofSegments hne fun name hn => (hplain name hn).2.2.2, hplain,
      backslash_notMem_ofSegments (backslash_notMem_of_ofRaw h), ofRaw_again h⟩
  · cases hraw : ofRaw raw with
    | ok names => exact absurd ⟨names, ofRaw_eq_ok_iff_describes.1 hraw⟩ hnone
    | error fault =>
      refine ⟨(UnsafeReason.name fault).message, fun root fs => ?_⟩
      rw [resolveDestination, hraw]
      rfl

example : ofRaw "a\\..\\C:/./x" = .error .absolute ∧ ofRaw "x/../../y" = .error .climbs ∧
    ofRaw "a//b/../c/" = .ok ["a", "c"] := by decide +kernel

end EntryPath

end SourceAtlas
