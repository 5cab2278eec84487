import SourceAtlas.Proofs.Extraction.Outcome

/-!
# Extracting an archive by its listing

Once the bytes of an archive and its directory have been read, extracting it is extracting a listing
(`on_extractZip`); until then nothing happens to the files (`extractZip_cases`).

The content of a member is handed out in portions none of which is empty
(`PlacedMember.portions_of_read`), so an extraction that succeeds has read every content to its end
(`readable_of_extractEntries`).  It has extracted the whole listing, and so every member of the
archive that is not a directory (`count_of_extract`, `Listing.files_ofMembers`).
-/

namespace SourceAtlas

open FileSystem SourceAtlas.Action Extraction

deriving instance DecidableEq for PlacedMember, Stream

variable {codecs : Codecs} {fs fs' : FileSystem} {config : Config} {archive : String}

section MapError

variable {ε ε' α : Type} {f : ε → ε'} {result : Except ε α}

/-- A result stays what it is however errors are reported. -/
lemma ok_of_mapError {value : α} (h : result.mapError f = .ok value) : result = .ok value := by
  cases result with
  | error e => cases h
  | ok value' => exact congrArg Except.ok (Except.ok.inj h)

/-- An error is the report of an error. -/
lemma error_of_mapError {e' : ε'} (h : result.mapError f = .error e') :
    ∃ e, result = .error e ∧ e' = f e := by
  cases result with
  | error e => exact ⟨e, rfl, (Except.error.inj h).symm⟩
  | ok value => cases h

end MapError

/-! ## From the bytes to the listing -/

/-- An archive that can be read is extracted by what its directory lists. -/
lemma on_extractZip {bytes : ByteArray} {members : List PlacedMember} (text : String)
    (hread : fs.readFile (PurePath.ofString archive).toString = .ok bytes)
    (hmembers : Directory.read bytes = .ok members) :
    (extractZip codecs config archive text).on fs =
      (Except.mapError (fun failure => failure.ofArchive (PurePath.ofString archive).toString)
        ((extract config (.ofMembers codecs bytes members) text).on fs).1,
        ((extract config (.ofMembers codecs bytes members) text).on fs).2) := by
  rw [extractZip, on_tryCatch, on_bind, on_query, hread]
  dsimp only
  rw [hmembers]
  dsimp only
  rcases (extract config (.ofMembers codecs bytes members) text).on fs with ⟨failure | count, fs'⟩
  · rfl
  · rfl

/-- An archive is extracted by some listing, or nothing happens. -/
lemma extractZip_cases (codecs : Codecs) (config : Config) (archive text : String)
    (fs : FileSystem) :
    (∃ failure, (extractZip codecs config archive text).on fs = (.error failure, fs)) ∨
      ∃ listing, (extractZip codecs config archive text).on fs =
        (Except.mapError (fun failure => failure.ofArchive (PurePath.ofString archive).toString)
          ((extract config listing text).on fs).1, ((extract config listing text).on fs).2) := by
  cases hread : fs.readFile (PurePath.ofString archive).toString with
  | error e =>
    rw [extractZip, on_tryCatch, on_bind, on_query, hread]
    exact .inl ⟨_, rfl⟩
  | ok bytes =>
    cases hmembers : Directory.read bytes with
    | error failure =>
      rw [extractZip, on_tryCatch, on_bind, on_query, hread]
      dsimp only
      rw [hmembers]
      exact .inl ⟨_, rfl⟩
    | ok members => exact .inr ⟨_, on_extractZip text hread hmembers⟩

/-- What was wrong with an archive makes no difference to what is yielded. -/
lemma toOption_extractZip {bytes : ByteArray} {members : List PlacedMember} (text : String)
    (hread : fs.readFile (PurePath.ofString archive).toString = .ok bytes)
    (hmembers : Directory.read bytes = .ok members) :
    ((extractZip codecs config archive text).on fs).1.toOption =
      ((extract config (.ofMembers codecs bytes members) text).on fs).1.toOption := by
  rw [on_extractZip text hread hmembers]
  cases ((extract config (.ofMembers codecs bytes members) text).on fs).1 <;> rfl

/-! ## Portions -/

lemma Member.portions_finish (member : Member) (progress : Progress) (data : ByteArray) :
    ∀ chunk ∈ (member.finish progress data).chunks, chunk.size ≠ 0 := by
  rw [finish]
  split
  · exact fun chunk hm => Stream.size_ne_zero_of_mem_cutFrom (by decide) hm
  · exact fun chunk hm => absurd hm List.not_mem_nil

/-- Stored data are handed out in portions that are not empty. -/
lemma Member.portions_stored (member : Member) (packed : ByteArray) (fuel : Nat)
    (progress : Progress) (position : Nat) :
    ∀ chunk ∈ (member.stored packed fuel progress position).chunks, chunk.size ≠ 0 := by
  induction fuel generalizing progress position with
  | zero => exact fun chunk hm => absurd hm List.not_mem_nil
  | succ fuel ih =>
    rw [stored]
    split_ifs with hmissing hend hshort
    · exact fun chunk hm => absurd hm List.not_mem_nil
    · exact member.portions_finish progress _
    · exact fun chunk hm => absurd hm List.not_mem_nil
    · -- A portion that neither ends the content nor comes up short is as long as was asked for.
      refine List.forall_mem_cons.2 ⟨?_, ih _ _⟩
      rw [not_or, not_le, not_le] at hend
      rw [ByteArray.size_extract] at hend ⊢
      have hbytes : 0 < chunkBytes := by decide
      omega

/-- Packed data are handed out in portions that are not empty, whatever decodes them. -/
lemma Inflow.portions_stream {Decoder : Type}
    (pull : Nat → Inflow Decoder → Except Failure (Inflow Decoder)) (steps fuel : Nat)
    (inflow : Inflow Decoder) :
    ∀ chunk ∈ (stream pull steps fuel inflow).chunks, chunk.size ≠ 0 := by
  induction fuel generalizing inflow with
  | zero => exact fun chunk hm => absurd hm List.not_mem_nil
  | succ fuel ih =>
    rw [stream]
    split
    · exact fun chunk hm => absurd hm List.not_mem_nil
    · split
      · exact fun chunk hm => absurd hm List.not_mem_nil
      · next hne =>
        refine List.forall_mem_cons.2 ⟨?_, ih _⟩
        simpa [ByteArray.isEmpty] using hne

/-- What a library decodes is read through its decoder. -/
lemma Member.decoded_eq_ok {packing : Packing} {member : Member} {packed : ByteArray}
    {stream : Stream} (h : member.decoded codecs packing packed = .ok stream) :
    ∃ codec, codecs packing = some codec ∧
      stream = Inflow.stream (codec.pull packing member packed) (packed.size + 2)
        (member.size / chunkBytes + 2) (.start member []) := by
  rw [decoded] at h
  split at h
  · cases h
  · next codec hc => exact ⟨codec, hc, (Except.ok.inj h).symm⟩

/-- A content is handed out in portions that are not empty. -/
lemma Member.portions_of_content {member : Member} {bytes : ByteArray} {place : Nat}
    {stream : Stream} (h : member.content codecs bytes place = .ok stream) :
    ∀ chunk ∈ stream.chunks, chunk.size ≠ 0 := by
  rw [content] at h
  split at h
  · obtain rfl := Except.ok.inj h
    exact member.portions_stored _ _ _ _
  · obtain rfl := Except.ok.inj h
    exact Inflow.portions_stream _ _ _ _
  · obtain ⟨codec, -, rfl⟩ := decoded_eq_ok h
    exact Inflow.portions_stream _ _ _ _
  · obtain ⟨codec, -, rfl⟩ := decoded_eq_ok h
    exact Inflow.portions_stream _ _ _ _
  · cases h

/-- What is read of a member, if reading it begins, is its content. -/
lemma PlacedMember.read_eq_ok {bytes : ByteArray} {placed : PlacedMember} {stream : Stream}
    (h : placed.read codecs bytes = .ok stream) :
    ∃ place, placed.member.content codecs bytes place = .ok stream := by
  rw [read] at h
  dsimp only at h
  -- One case for each thing that can be wrong with a local header, and the last one if nothing is.
  repeat' split at h
  all_goals first
    | exact ⟨_, ok_of_mapError h⟩
    | cases h

/-- The content of a member is handed out in portions that are not empty. -/
lemma PlacedMember.portions_of_read {bytes : ByteArray} {placed : PlacedMember} {stream : Stream}
    (h : placed.read codecs bytes = .ok stream) : ∀ chunk ∈ stream.chunks, chunk.size ≠ 0 := by
  obtain ⟨place, hcontent⟩ := read_eq_ok h
  exact Member.portions_of_content hcontent

/-- A content that is taken in to its end does not fail. -/
lemma Extraction.failure_of_takeIn {path : String} {before : Int} {failure : Option Failure}
    {taken : ByteArray} {chunks : List ByteArray} (hc : ∀ chunk ∈ chunks, chunk.size ≠ 0)
    (h : (takeIn config path before failure taken chunks).2 = none) : failure = none := by
  induction chunks generalizing taken with
  | nil => exact h
  | cons chunk chunks ih =>
    rw [takeIn, if_neg (hc chunk (List.mem_cons_self ..))] at h
    split at h
    · cases h
    · exact ih (fun other ho => hc other (List.mem_cons_of_mem _ ho)) h

/-- Whatever is read of an entry is handed out in portions that are not empty. -/
def ArchiveEntry.Portioned (entry : ArchiveEntry) : Prop :=
  ∀ stream, entry.content () = .ok stream → ∀ chunk ∈ stream.chunks, chunk.size ≠ 0

lemma Listing.portioned_ofMembers (codecs : Codecs) (bytes : ByteArray)
    (members : List PlacedMember) :
    ∀ entry ∈ (Listing.ofMembers codecs bytes members).entries, entry.Portioned := by
  intro entry hm
  obtain ⟨placed, -, rfl⟩ := List.mem_map.1 hm
  exact fun stream hs => placed.portions_of_read hs

namespace Extraction

variable {root : String} {tally tally' : Tally} {entry : ArchiveEntry} {entries : List ArchiveEntry}

/-- An entry that is extracted has been read to its end, and its name has been accepted. -/
lemma readable_of_extractEntry (hp : entry.Portioned)
    (h : (extractEntry config root tally entry).on fs = (.ok tally', fs')) :
    entry.Readable ∧ ∃ names, entry.names? = some names := by
  rw [extractEntry] at h
  split at h
  · cases h
  obtain ⟨destination, fs₁, hresolve, h⟩ := ok_of_on_bind h
  obtain ⟨-, fs₂, -, h⟩ := ok_of_on_bind h
  obtain ⟨size, fs₃, hwrite, -⟩ := ok_of_on_bind h
  constructor
  · rw [writeEntry] at hwrite
    split at hwrite
    · cases hwrite
    · next stream hstream =>
      obtain ⟨place, fs₄, -, hwrite⟩ := ok_of_on_bind hwrite
      dsimp only at hwrite
      obtain ⟨-, fs₅, -, hwrite⟩ := ok_of_on_bind hwrite
      split at hwrite
      · cases hwrite
      · next hnone =>
        exact ⟨stream, hstream, failure_of_takeIn (hp stream hstream) hnone, hp stream hstream⟩
  · rw [resolveDestination] at hresolve
    split at hresolve
    · cases hresolve
    · next names hnames => exact ⟨names, ArchiveEntry.names?_eq_some.2 hnames⟩

/-- Entries that are extracted have been read to their ends, unless they are directories. -/
lemma readable_of_extractEntries (hp : ∀ entry ∈ entries, entry.Portioned)
    (h : (extractEntries config root tally entries).on fs = (.ok tally', fs')) :
    ∀ entry ∈ entries, entry.isDirectory = false →
      entry.Readable ∧ ∃ names, entry.names? = some names := by
  induction entries generalizing tally fs with
  | nil => exact fun entry hm => absurd hm List.not_mem_nil
  | cons entry entries ih =>
    obtain ⟨hentry, hentries⟩ := List.forall_mem_cons.1 hp
    rw [extractEntries] at h
    split at h
    · next hd => exact List.forall_mem_cons.2 ⟨fun hf => by simp [hd] at hf, ih hentries h⟩
    · obtain ⟨tally₁, fs₁, hfirst, h⟩ := ok_of_on_bind h
      exact List.forall_mem_cons.2 ⟨fun _ => readable_of_extractEntry hentry hfirst, ih hentries h⟩

end Extraction

/-! ## Everything is extracted -/

namespace Extraction

variable {fs fs' : FileSystem} {config : Config} {root : String} {tally tally' : Tally}
  {entry : ArchiveEntry}

/-- An entry that is extracted is counted with its declared size. -/
lemma extractEntry_eq_ok (h : (extractEntry config root tally entry).on fs = (.ok tally', fs')) :
    ∃ size, tally' = ⟨tally.files + 1, tally.declared + entry.declared, tally.written + size⟩ := by
  rw [extractEntry] at h
  cases hd : checkDeclared config tally entry with
  | error limit =>
    rw [hd] at h
    cases h
  | ok declared =>
    rw [hd] at h
    obtain ⟨destination, fs₁, -, h⟩ := ok_of_on_bind h
    obtain ⟨-, fs₂, -, h⟩ := ok_of_on_bind h
    obtain ⟨size, fs₃, -, h⟩ := ok_of_on_bind h
    cases h
    exact ⟨size, by rw [(checkDeclared_eq_ok.1 hd).2.2.2]⟩

/-- Entries that are extracted are counted with their declared sizes, unless they
are directories. -/
lemma counts_of_extractEntries (entries : List ArchiveEntry)
    (h : (extractEntries config root tally entries).on fs = (.ok tally', fs')) :
    tally'.files = tally.files + (entries.filter fun entry => !entry.isDirectory).length ∧
      tally'.declared =
        tally.declared + declaredSum (entries.filter fun entry => !entry.isDirectory) := by
  induction entries generalizing tally fs with
  | nil =>
    cases h
    simp [declaredSum]
  | cons entry entries ih =>
    rw [extractEntries] at h
    rw [List.filter_cons]
    cases hd : entry.isDirectory with
    | true =>
      rw [hd, if_pos rfl] at h
      simpa using ih h
    | false =>
      rw [hd, if_neg (by simp)] at h
      obtain ⟨tally₁, fs₁, hentry, h⟩ := ok_of_on_bind h
      obtain ⟨size, rfl⟩ := extractEntry_eq_ok hentry
      obtain ⟨hfiles, hdeclared⟩ := ih h
      rw [hfiles, hdeclared, Bool.not_false, if_pos rfl, List.length_cons, declaredSum, declaredSum,
        List.map_cons, List.sum_cons]
      dsimp only
      constructor
      · omega
      · omega

end Extraction

/-- A listing is extracted only as a whole, and its files are counted. -/
lemma count_of_extract {fs fs' : FileSystem} {config : Config} {listing : Listing} {root : String}
    {count : Int} (h : (extract config listing root).on fs = (.ok count, fs')) :
    listing.failure = none ∧ count = listing.files.length := by
  rw [extract] at h
  obtain ⟨-, fs₁, -, h⟩ := ok_of_on_bind h
  obtain ⟨tally, fs₂, hentries, h⟩ := ok_of_on_bind h
  cases hf : listing.failure with
  | some failure =>
    rw [hf] at h
    cases h
  | none =>
    rw [hf] at h
    cases h
    refine ⟨rfl, ?_⟩
    rw [(counts_of_extractEntries listing.entries hentries).1]
    exact Int.zero_add _

/-- The members of an archive that are not directories. -/
def memberFiles (codecs : Codecs) (bytes : ByteArray) (members : List PlacedMember) :
    List ArchiveEntry :=
  (members.map (ArchiveEntry.ofMember codecs bytes)).filter fun entry => !entry.isDirectory

/-- A listing without a failure has all members of the archive. -/
lemma Listing.files_ofMembers {bytes : ByteArray} {members : List PlacedMember}
    (h : (Listing.ofMembers codecs bytes members).failure = none) :
    (Listing.ofMembers codecs bytes members).files = memberFiles codecs bytes members := by
  have hall : members.takeWhile (fun placed => placed.member.name ≠ "") = members := by
    refine (List.takeWhile_prefix _).eq_of_length_le ?_
    by_contra hlt
    rw [Listing.ofMembers, if_pos (by omega)] at h
    cases h
  rw [Listing.files, Listing.ofMembers, hall, memberFiles]

/-! ## An archive with one file -/

/-- An archive with the file `a.js`, whose path is written `x/../a.js`. -/
def detourArchive : ByteArray :=
  ⟨#[80, 75, 3, 4, 20, 0, 0, 0, 0, 0, 0, 0, 33, 0, 183, 239, 220, 131, 1, 0, 0, 0, 1, 0, 0, 0, 9, 0,
    0, 0, 120, 47, 46, 46, 47, 97, 46, 106, 115, 49, 80, 75, 1, 2, 20, 3, 20, 0, 0, 0, 0, 0, 0, 0,
    33, 0, 183, 239, 220, 131, 1, 0, 0, 0, 1, 0, 0, 0, 9, 0, 0, 0, 0, 0, 0, 0, 0, 0, 0, 0, 128, 1,
    0, 0, 0, 0, 120, 47, 46, 46, 47, 97, 46, 106, 115, 80, 75, 5, 6, 0, 0, 0, 0, 1, 0, 1, 0, 55, 0,
    0, 0, 40, 0, 0, 0, 0, 0]⟩

/-- The only member of the archive. -/
def detourMember : PlacedMember :=
  ⟨{ listedName := "x/../a.js", flags := 0, method := 0, checksum := 2212294583,
     compressedSize := 1, size := 1, attributes := 25165824, headerOffset := 0 }, 40⟩

lemma read_detourArchive : Directory.read detourArchive = .ok [detourMember] := by
  decide +kernel

end SourceAtlas
