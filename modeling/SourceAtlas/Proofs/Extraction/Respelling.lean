import Mathlib.Data.List.Forall2
import SourceAtlas.Proofs.Extraction.Archive

/-!
# Archives that spell their paths with backslashes

A backslash separates the segments of an entry name like a slash (`EntryPath.ofRaw`), so an
archive that spells its paths with backslashes is extracted like the one that spells them with
slashes: the same entries are refused, for reasons that differ in their wording only, and the same
is written (`extractZip_respelled`).

This is so as long as no member is a directory.  Whether a member is one is decided by a slash at
the end of its name, before backslashes are replaced.  So a directory whose name ends in a
backslash is taken for a file: the respelled archive is extracted as if the directories of the
other one were files (`extract_respelled`), and it counts more files by the number of directories
where both are extracted (`count_respelled`).

`Action.EndsAlike` compares two runs: they leave the same files, and both yield the same
or both fail.
-/

namespace SourceAtlas

open FileSystem

/-! ## Names -/

namespace Path

/-- A path with backslashes in place of slashes. -/
def backslashed (path : String) : String :=
  String.ofList (path.toList.map fun c => if c = '/' then '\\' else c)

variable {path : String}

lemma slashed_backslashed (h : '\\' ∉ path.toList) : slashed (backslashed path) = path := by
  have hsame : ∀ c ∈ path.toList,
      ((fun c => if c = '\\' then '/' else c) ∘ fun c => if c = '/' then '\\' else c) c = id c := by
    intro c hc
    have hne : c ≠ '\\' := fun he => h (he ▸ hc)
    by_cases hs : c = '/'
    · simp [hs]
    · simp [hs, hne]
  rw [slashed, backslashed, String.toList_ofList, List.map_map, List.map_congr_left hsame,
    List.map_id, String.ofList_toList]

lemma slash_notMem_backslashed (path : String) : '/' ∉ (backslashed path).toList := by
  rw [backslashed, String.toList_ofList, List.mem_map]
  rintro ⟨c, -, hc⟩
  split at hc
  · cases hc
  · next hne => exact hne hc

lemma backslashed_eq_empty : backslashed path = "" ↔ path = "" := by
  rw [← String.toList_inj, ← String.toList_inj, backslashed, String.toList_ofList]
  simp

end Path

/-- A name is accepted or refused as it is with backslashes for slashes. -/
lemma EntryPath.ofRaw_backslashed {raw : String} (h : '\\' ∉ raw.toList) :
    ofRaw (Path.backslashed raw) = ofRaw raw := by
  rw [ofRaw, ofRaw, Path.slashed_backslashed h, Path.slashed_of_notMem h]

/-! ## Runs that end alike -/

namespace Action

variable {α β : Type}

/-- Two runs yield the same unless both fail, and leave the same files in any case. -/
def EndsAlike (first second : Action α) : Prop :=
  ∀ fs, (first.on fs).1.toOption = (second.on fs).1.toOption ∧ (first.on fs).2 = (second.on fs).2

namespace EndsAlike

variable {first second : Action α}

lemma refl (action : Action α) : EndsAlike action action := fun _ => ⟨rfl, rfl⟩

/-- Failures that differ make no difference. -/
lemma throw (failure failure' : Failure) :
    EndsAlike (throw failure : Action α) (MonadExcept.throw failure') := fun _ => ⟨rfl, rfl⟩

lemma bind {next next' : α → Action β} (h : EndsAlike first second)
    (hn : ∀ value, EndsAlike (next value) (next' value)) :
    EndsAlike (first >>= next) (second >>= next') := by
  intro fs
  obtain ⟨hvalue, hfiles⟩ := h fs
  rw [on_bind, on_bind]
  rcases hfirst : first.on fs with ⟨failure | value, fs₁⟩ <;>
    rcases hsecond : second.on fs with ⟨failure' | value', fs₂⟩ <;>
    rw [hfirst, hsecond] at hvalue hfiles
  · exact ⟨rfl, hfiles⟩
  · cases hvalue
  · cases hvalue
  · obtain rfl : value = value' := Option.some.inj hvalue
    obtain rfl : fs₁ = fs₂ := hfiles
    exact hn value fs₁

end EndsAlike

end Action

/-! ## Entries that are alike -/

/-- Two contents are read alike if the same portions are handed out and both fail or
neither does. -/
def ReadsAlike : Except Failure Stream → Except Failure Stream → Prop
  | .ok stream, .ok stream' =>
    stream.chunks = stream'.chunks ∧ stream.failure.isSome = stream'.failure.isSome
  | .error _, .error _ => True
  | _, _ => False

/-- Two entries differ at most in the spelling of their paths and the wording of their failures. -/
structure ArchiveEntry.Alike (entry entry' : ArchiveEntry) : Prop where
  names : EntryPath.ofRaw entry'.path = EntryPath.ofRaw entry.path
  declared : entry'.declaredSize = entry.declaredSize
  isDirectory : entry'.isDirectory = entry.isDirectory
  content : ReadsAlike (entry.content ()) (entry'.content ())

namespace Extraction

open SourceAtlas.Action

variable {config : Config} {root : String} {tally : Tally} {entry entry' : ArchiveEntry}
  {entries entries' : List ArchiveEntry}

lemma resolveDestination_alike (h : entry.Alike entry') :
    EndsAlike (resolveDestination root entry.path) (resolveDestination root entry'.path) := by
  rw [resolveDestination, resolveDestination, h.names]
  cases EntryPath.ofRaw entry.path with
  | error fault => exact .throw _ _
  | ok names =>
    refine .bind (.refl _) fun base => .bind (.refl _) fun destination => ?_
    split
    · exact .refl _
    · exact .throw _ _

/-- What is taken in of a content does not depend on the wording of failures. -/
lemma takeIn_alike (config : Config) (path path' : String) (before : Int)
    {failure failure' : Option Failure} (taken : ByteArray) (chunks : List ByteArray)
    (h : failure.isSome = failure'.isSome) :
    (takeIn config path before failure taken chunks).1 =
        (takeIn config path' before failure' taken chunks).1 ∧
      (takeIn config path before failure taken chunks).2.isSome =
        (takeIn config path' before failure' taken chunks).2.isSome := by
  induction chunks generalizing taken with
  | nil => exact ⟨rfl, h⟩
  | cons chunk chunks ih =>
    rw [takeIn, takeIn]
    split
    · exact ⟨rfl, rfl⟩
    · split
      · exact ⟨rfl, rfl⟩
      · exact ih _

lemma writeEntry_alike (h : entry.Alike entry') (destination : Location) (before : Int) :
    EndsAlike (writeEntry config entry destination before)
      (writeEntry config entry' destination before) := by
  rw [writeEntry, writeEntry]
  have hcontent := h.content
  cases hc : entry.content () with
  | error failure =>
    cases hc' : entry'.content () with
    | error failure' => exact .throw _ _
    | ok stream' =>
      rw [hc, hc'] at hcontent
      cases hcontent
  | ok stream =>
    cases hc' : entry'.content () with
    | error failure' =>
      rw [hc, hc'] at hcontent
      cases hcontent
    | ok stream' =>
      rw [hc, hc'] at hcontent
      obtain ⟨hchunks, hfailure⟩ := hcontent
      refine .bind (.refl _) fun place => ?_
      have htaken := takeIn_alike config entry.path entry'.path before .empty stream.chunks hfailure
      rw [← hchunks]
      generalize
        takeIn config entry.path before stream.failure .empty stream.chunks = taken at htaken
      generalize takeIn config entry'.path before stream'.failure .empty stream.chunks = taken'
        at htaken
      obtain ⟨content, stop⟩ := taken
      obtain ⟨content', stop'⟩ := taken'
      obtain ⟨rfl, hstop⟩ := htaken
      refine .bind (.refl _) fun _ => ?_
      cases stop <;> cases stop'
      · exact .refl _
      · cases hstop
      · cases hstop
      · exact .throw _ _

lemma extractEntry_alike (h : entry.Alike entry') :
    EndsAlike (extractEntry config root tally entry) (extractEntry config root tally entry') := by
  have hdeclared : checkDeclared config tally entry' = checkDeclared config tally entry := by
    rw [checkDeclared, checkDeclared, h.declared]
  rw [extractEntry, extractEntry, hdeclared]
  cases checkDeclared config tally entry with
  | error limit => exact .throw _ _
  | ok declared =>
    exact .bind (resolveDestination_alike h) fun destination => .bind (.refl _) fun _ =>
      .bind (writeEntry_alike h destination _) fun _ => .refl _

/-- Entries that are alike one by one are extracted alike. -/
lemma extractEntries_alike (h : List.Forall₂ ArchiveEntry.Alike entries entries') (tally : Tally) :
    EndsAlike (extractEntries config root tally entries)
      (extractEntries config root tally entries') := by
  induction h generalizing tally with
  | nil => exact .refl _
  | @cons entry entry' entries entries' hentry _ ih =>
    rw [extractEntries, extractEntries, hentry.isDirectory]
    split
    · exact ih tally
    · exact .bind (extractEntry_alike hentry) ih

end Extraction

open Extraction SourceAtlas.Action

/-- Two listings are alike entry by entry, and both are complete or neither is. -/
structure Listing.Alike (listing listing' : Listing) : Prop where
  entries : List.Forall₂ ArchiveEntry.Alike listing.entries listing'.entries
  failure : listing.failure.isSome = listing'.failure.isSome

lemma extract_alike {listing listing' : Listing} (h : listing.Alike listing') (config : Config)
    (root : String) : EndsAlike (extract config listing root) (extract config listing' root) := by
  refine .bind (.refl _) fun _ => .bind (extractEntries_alike h.entries _) fun tally => ?_
  have hfailure := h.failure
  cases hf : listing.failure <;> cases hf' : listing'.failure <;> rw [hf, hf'] at hfailure
  · exact .refl _
  · cases hfailure
  · cases hfailure
  · exact .throw _ _

/-! ## Respelled archives -/

/-- A member whose name holds no backslash, and its counterpart in an archive that spells its paths
with backslashes. -/
structure PlacedMember.Respelled (codecs : Codecs) (bytes bytes' : ByteArray)
    (placed placed' : PlacedMember) : Prop where
  slashes : '\\' ∉ placed.member.name.toList
  name : placed'.member.name = Path.backslashed placed.member.name
  size : placed'.member.size = placed.member.size
  content : ReadsAlike (placed.read codecs bytes) (placed'.read codecs bytes')

/-- An archive whose names hold no backslash, and the one in which they are spelled
with backslashes. -/
structure Respelled (codecs : Codecs) (bytes bytes' : ByteArray)
    (members members' : List PlacedMember) : Prop where
  read : Directory.read bytes = .ok members
  read' : Directory.read bytes' = .ok members'
  pairs : List.Forall₂ (PlacedMember.Respelled codecs bytes bytes') members members'

/-- An entry as a file, even if it is a directory. -/
def ArchiveEntry.asFile (entry : ArchiveEntry) : ArchiveEntry :=
  { entry with isDirectory := false }

/-- A listing with its directories taken for files. -/
def Listing.asFiles (listing : Listing) : Listing :=
  { listing with entries := listing.entries.map ArchiveEntry.asFile }

/-- Whether a member is a directory. -/
def PlacedMember.isDirectory (placed : PlacedMember) : Bool :=
  placed.member.name.toList.getLast? == some '/'

variable {codecs : Codecs} {bytes bytes' : ByteArray} {members members' : List PlacedMember}

/-- The entry of a respelled member is like that of the member, but never a directory. -/
lemma PlacedMember.Respelled.alike {placed placed' : PlacedMember}
    (h : placed.Respelled codecs bytes bytes' placed') :
    (ArchiveEntry.ofMember codecs bytes placed).asFile.Alike
      (ArchiveEntry.ofMember codecs bytes' placed') where
  names := by
    show EntryPath.ofRaw placed'.member.name = EntryPath.ofRaw placed.member.name
    rw [h.name, EntryPath.ofRaw_backslashed h.slashes]
  declared := congrArg (fun size : ℕ => some (size : Int)) h.size
  isDirectory := by
    show (placed'.member.name.toList.getLast? == some '/') = false
    rw [h.name, beq_eq_false_iff_ne]
    exact fun hl => Path.slash_notMem_backslashed _ (List.mem_of_getLast? hl)
  content := h.content

/-- The members up to the first one without a name correspond to each other. -/
lemma forall₂_named
    (h : List.Forall₂ (PlacedMember.Respelled codecs bytes bytes') members members') :
    List.Forall₂ (PlacedMember.Respelled codecs bytes bytes')
      (members.takeWhile fun placed => placed.member.name ≠ "")
      (members'.takeWhile fun placed => placed.member.name ≠ "") := by
  induction h with
  | nil => exact .nil
  | @cons placed placed' members members' hp _ ih =>
    have hnamed : (placed'.member.name ≠ "") = (placed.member.name ≠ "") := by
      rw [hp.name, ne_eq, Path.backslashed_eq_empty]
    rw [List.takeWhile_cons, List.takeWhile_cons]
    simp only [hnamed]
    split
    · exact .cons hp ih
    · exact .nil

/-- A respelled archive is listed like the other one with directories taken for files. -/
lemma Respelled.alike (h : Respelled codecs bytes bytes' members members') :
    (Listing.ofMembers codecs bytes members).asFiles.Alike
      (Listing.ofMembers codecs bytes' members') := by
  have hnamed := forall₂_named h.pairs
  constructor
  · show List.Forall₂ _ (((members.takeWhile _).map _).map _) ((members'.takeWhile _).map _)
    rw [List.map_map, List.forall₂_map_left_iff, List.forall₂_map_right_iff]
    exact hnamed.imp fun placed placed' hp => hp.alike
  · show Option.isSome (ite _ _ _) = Option.isSome (ite _ _ _)
    rw [hnamed.length_eq, h.pairs.length_eq]

variable {fs : FileSystem} {config : Config} {archive archive' root : String}

/-- A respelled archive is extracted as if the directories of the other one were files. -/
theorem extract_respelled (h : Respelled codecs bytes bytes' members members') (config : Config)
    (root : String) :
    EndsAlike (extract config (Listing.ofMembers codecs bytes members).asFiles root)
      (extract config (.ofMembers codecs bytes' members') root) :=
  extract_alike h.alike config root

/-- Without directories nothing is taken for a file. -/
lemma asFiles_ofMembers (hd : ∀ placed ∈ members, placed.isDirectory = false) :
    (Listing.ofMembers codecs bytes members).asFiles = Listing.ofMembers codecs bytes members := by
  rw [Listing.asFiles, Listing.ofMembers, List.map_map]
  congr 1
  refine List.map_congr_left fun placed hm => ?_
  have hfile := hd placed ((List.takeWhile_prefix _).subset hm)
  show ArchiveEntry.mk _ _ false _ = ArchiveEntry.mk _ _ placed.isDirectory _
  rw [hfile]
  rfl

/-- An archive without directories is extracted alike however its paths are spelled: on the same
files, with the same configuration and below the same root, with the same result and the same files
in the end. -/
theorem extractZip_respelled
    (hread : fs.readFile (PurePath.ofString archive).toString = .ok bytes)
    (hread' : fs.readFile (PurePath.ofString archive').toString = .ok bytes')
    (h : Respelled codecs bytes bytes' members members')
    (hd : ∀ placed ∈ members, placed.isDirectory = false) :
    ((extractZip codecs config archive' root).on fs).1.toOption =
        ((extractZip codecs config archive root).on fs).1.toOption ∧
      ((extractZip codecs config archive' root).on fs).2 =
        ((extractZip codecs config archive root).on fs).2 := by
  obtain ⟨hvalue, hfiles⟩ := extract_respelled h config root fs
  rw [asFiles_ofMembers hd] at hvalue hfiles
  rw [toOption_extractZip root hread h.read, toOption_extractZip root hread' h.read',
    on_extractZip root hread h.read, on_extractZip root hread' h.read']
  exact ⟨hvalue.symm, hfiles.symm⟩

/-- An archive with the file `a/b`, under a name in which a byte of choice stands for the slash. -/
def nestedArchive (separator : UInt8) : ByteArray :=
  ⟨#[80, 75, 3, 4, 20, 0, 0, 0, 0, 0, 0, 0, 33, 0, 131, 22, 220, 140, 1, 0, 0, 0, 1, 0, 0, 0, 3, 0,
    0, 0, 97, separator, 98, 120, 80, 75, 1, 2, 20, 3, 20, 0, 0, 0, 0, 0, 0, 0, 33, 0, 131, 22,
    220, 140, 1, 0, 0, 0, 1, 0, 0, 0, 3, 0, 0, 0, 0, 0, 0, 0, 0, 0, 0, 0, 128, 1, 0, 0, 0, 0, 97,
    separator, 98, 80, 75, 5, 6, 0, 0, 0, 0, 1, 0, 1, 0, 49, 0, 0, 0, 34, 0, 0, 0, 0, 0]⟩

/-- The only member of such an archive. -/
def nestedMember (name : String) : PlacedMember :=
  ⟨⟨name, 0, 0, 2363233923, 1, 1, 25165824, 0⟩, 34⟩

/-- An archive with the file `a/b`, spelled with a slash and with a backslash. -/
theorem extractZip_respelled_nested :
    let fs := ((FileSystem.empty [] ⟨0⟩).insert ["s"] (.file (nestedArchive 0x2F))).insert ["b"]
      (.file (nestedArchive 0x5C))
    fs.readFile (PurePath.ofString "s").toString = .ok (nestedArchive 0x2F) ∧
    fs.readFile (PurePath.ofString "b").toString = .ok (nestedArchive 0x5C) ∧
    Respelled .absent (nestedArchive 0x2F) (nestedArchive 0x5C) [nestedMember "a/b"]
      [nestedMember "a\\b"] ∧
    (∀ placed ∈ [nestedMember "a/b"], placed.isDirectory = false) ∧
    ((extractZip .absent {} "b" "x").on fs).1.toOption =
      ((extractZip .absent {} "s" "x").on fs).1.toOption ∧
    ((extractZip .absent {} "b" "x").on fs).2 = ((extractZip .absent {} "s" "x").on fs).2 := by
  intro fs
  have hfiles : fs.readFile (PurePath.ofString "s").toString = .ok (nestedArchive 0x2F) ∧
      fs.readFile (PurePath.ofString "b").toString = .ok (nestedArchive 0x5C) ∧
      ∀ placed ∈ [nestedMember "a/b"], placed.isDirectory = false := by
    decide +kernel
  obtain ⟨hread, hread', hd⟩ := hfiles
  have hfacts : Directory.read (nestedArchive 0x2F) = .ok [nestedMember "a/b"] ∧
      Directory.read (nestedArchive 0x5C) = .ok [nestedMember "a\\b"] ∧
      '\\' ∉ (nestedMember "a/b").member.name.toList ∧
      (nestedMember "a\\b").member.name = Path.backslashed (nestedMember "a/b").member.name ∧
      (nestedMember "a/b").read .absent (nestedArchive 0x2F) = .ok ⟨[⟨#[120]⟩], none⟩ ∧
      (nestedMember "a\\b").read .absent (nestedArchive 0x5C) = .ok ⟨[⟨#[120]⟩], none⟩ := by
    decide +kernel
  obtain ⟨hlist, hlist', hslashes, hname, hcontent, hcontent'⟩ := hfacts
  have hpair : PlacedMember.Respelled .absent (nestedArchive 0x2F) (nestedArchive 0x5C)
      (nestedMember "a/b") (nestedMember "a\\b") := by
    refine ⟨hslashes, hname, rfl, ?_⟩
    rw [hcontent, hcontent']
    exact ⟨rfl, rfl⟩
  have hrespelled : Respelled .absent (nestedArchive 0x2F) (nestedArchive 0x5C) [nestedMember "a/b"]
      [nestedMember "a\\b"] := ⟨hlist, hlist', .cons hpair .nil⟩
  exact ⟨hread, hread', hrespelled, hd, extractZip_respelled hread hread' hrespelled hd⟩

/-! ## Directories that are taken for files -/

/-- A complete listing has as many files as there are members that are not directories. -/
lemma length_files_ofMembers (h : (Listing.ofMembers codecs bytes members).failure = none) :
    (Listing.ofMembers codecs bytes members).files.length =
      (members.filter fun placed => !placed.isDirectory).length := by
  rw [Listing.files_ofMembers h, memberFiles, List.filter_map, List.length_map]
  rfl

/-- No respelled member is a directory. -/
lemma not_isDirectory_of_respelled
    (h : List.Forall₂ (PlacedMember.Respelled codecs bytes bytes') members members') :
    ∀ placed' ∈ members', placed'.isDirectory = false := by
  induction h with
  | nil => simp
  | cons hp _ ih => exact List.forall_mem_cons.2 ⟨hp.alike.isDirectory, ih⟩

/-- Where both archives are extracted, the respelled one counts its directories as well. -/
theorem count_respelled {count count' : Int} {after after' : FileSystem}
    (h : Respelled codecs bytes bytes' members members')
    (hrun : (extract config (.ofMembers codecs bytes members) root).on fs = (.ok count, after))
    (hrun' : (extract config (.ofMembers codecs bytes' members') root).on fs =
      (.ok count', after')) :
    count' = count + (members.filter PlacedMember.isDirectory).length := by
  obtain ⟨hfailure, rfl⟩ := count_of_extract hrun
  obtain ⟨hfailure', rfl⟩ := count_of_extract hrun'
  have hparts : members.length = (members.filter PlacedMember.isDirectory).length +
      (members.filter fun placed => !placed.isDirectory).length :=
    List.length_eq_length_filter_add _
  have hfiles : members'.filter (fun placed => !placed.isDirectory) = members' :=
    List.filter_eq_self.2 fun placed' hm => by
      rw [not_isDirectory_of_respelled h.pairs placed' hm, Bool.not_false]
  rw [length_files_ofMembers hfailure, length_files_ofMembers hfailure', hfiles,
    ← h.pairs.length_eq]
  omega

end SourceAtlas
