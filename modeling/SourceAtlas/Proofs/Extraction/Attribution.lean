import SourceAtlas.Proofs.Extraction.Archive

/-!
# What an extraction fails on

A failure is put down to the archive if a limit is breached, if the path of an entry is unsafe, or
if the bytes cannot be read (`Failure.Attributable`): then it is reported as an error of the archive
(`Failure.IsArchiveError`).  The extraction of a regular archive (`RegularArchive`) below a
directory that can be made fails on nothing else (`extractZip_attributable`).

In an archive that is not regular,

* a name claims to be UTF-8 and is not, or there is no name, or an offset is one that not every file
  system seeks to;
* a decoder of another library refuses what a member is packed in (`Failure.OnPacking`);
* a name or a path is longer than the file system admits, or a file is another one's directory.

Failures of these kinds are handed on as they are.
-/

namespace SourceAtlas

open FileSystem Extraction

/-! ## Errors of an archive -/

/-- An error that says that an archive is unsafe, too large or unreadable. -/
def Failure.IsArchiveError (failure : Failure) : Prop :=
  ∃ error, failure = .archive error ∧ error.kind ∈ [.unsafePath, .limitExceeded, .invalid]

/-- A failure that is reported as an error of the archive. -/
def Failure.Attributable (failure : Failure) : Prop :=
  ∀ archive, (failure.ofArchive archive).IsArchiveError

namespace Failure

lemma attributable_limit (entry : String) (limit : Limit) :
    (Failure.archive (.ofLimit entry limit)).Attributable :=
  fun _ => ⟨.ofLimit entry limit, rfl, by simp [ArchiveError.ofLimit]⟩

lemma attributable_unsafe (entry : String) (reason : UnsafeReason) :
    (Failure.archive (.ofUnsafe entry reason)).Attributable :=
  fun _ => ⟨.ofUnsafe entry reason, rfl, by simp [ArchiveError.ofUnsafe]⟩

lemma attributable_unreadable (fault : ArchiveFault) : (Failure.unreadable fault).Attributable :=
  fun archive => ⟨.unreadable archive fault.message, rfl, by simp [ArchiveError.unreadable]⟩

end Failure

/-! ## What is wrong with bytes -/

variable {codecs : Codecs} {bytes : ByteArray} {failure : Failure}

lemma Member.decodeName_eq_error {flags : Nat} {name : List UInt8}
    (h : decodeName flags name = .error failure) :
    ∃ fault, failure = .undecodable fault := by
  rw [decodeName] at h
  split at h
  · split at h
    · cases h
    · exact ⟨_, (Except.error.inj h).symm⟩
  · cases h

/-- A record that cannot be read is at fault, or the name in it is. -/
lemma Member.ofRecord_eq_error {place : Nat} (h : ofRecord bytes place = .error failure) :
    (∃ fault, failure = .unreadable fault) ∨ ∃ fault, failure = .undecodable fault := by
  rw [ofRecord] at h
  dsimp only at h
  split at h
  · exact .inl ⟨_, (Except.error.inj h).symm⟩
  split at h
  · exact .inl ⟨_, (Except.error.inj h).symm⟩
  split at h
  · next hname =>
    obtain rfl := Except.error.inj h
    exact .inr (decodeName_eq_error hname)
  split at h
  · exact .inl ⟨_, (Except.error.inj h).symm⟩
  split at h
  · exact .inl ⟨_, (Except.error.inj h).symm⟩
  · cases h

lemma Directory.readRecords_eq_error {size fuel place : Nat}
    (h : readRecords bytes size fuel place = .error failure) :
    (∃ fault, failure = .unreadable fault) ∨ ∃ fault, failure = .undecodable fault := by
  induction fuel generalizing place with
  | zero => cases h
  | succ fuel ih =>
    rw [readRecords] at h
    split at h
    · cases h
    split at h
    · next hrecord =>
      obtain rfl := Except.error.inj h
      exact Member.ofRecord_eq_error hrecord
    · next member used _ =>
      cases hrest : readRecords bytes size fuel (place + used) with
      | error failure' =>
        rw [hrest] at h
        obtain rfl : failure' = failure := Except.error.inj h
        exact ih hrest
      | ok members =>
        rw [hrest] at h
        cases h

/-- A directory that cannot be read is at fault, or a name in it is. -/
lemma Directory.read_eq_error (h : read bytes = .error failure) :
    (∃ fault, failure = .unreadable fault) ∨ ∃ fault, failure = .undecodable fault := by
  rw [read] at h
  split at h
  · exact .inl ⟨_, (Except.error.inj h).symm⟩
  split at h
  · exact .inl ⟨_, (Except.error.inj h).symm⟩
  dsimp only at h
  split at h
  · next hrecords =>
    obtain rfl := Except.error.inj h
    exact readRecords_eq_error hrecords
  · cases h

/-- An offset to which every file system seeks in a file with given bytes: it lies in the file, or
four bytes hold it. -/
structure Seekable (bytes : ByteArray) (offset : Int) : Prop where
  nonneg : 0 ≤ offset
  lt_offsetBound : offset < PlacedMember.offsetBound
  near : offset < bytes.size ∨ offset < 2 ^ 32

/-- A member that cannot be opened is at fault, or the name in its header is. -/
lemma PlacedMember.read_eq_error {placed : PlacedMember}
    (ho : Seekable bytes placed.member.headerOffset)
    (h : placed.read codecs bytes = .error failure) :
    (∃ fault, failure = .unreadable fault) ∨ ∃ fault, failure = .undecodable fault := by
  obtain ⟨hnonneg, hbound, -⟩ := ho
  rw [read] at h
  dsimp only at h
  rw [if_neg (by omega), if_neg (by omega)] at h
  split at h
  · exact .inl ⟨_, (Except.error.inj h).symm⟩
  split at h
  · exact .inl ⟨_, (Except.error.inj h).symm⟩
  split at h
  · exact .inl ⟨_, (Except.error.inj h).symm⟩
  split at h
  · exact .inl ⟨_, (Except.error.inj h).symm⟩
  split at h
  · next hname =>
    obtain rfl := Except.error.inj h
    exact .inr (Member.decodeName_eq_error hname)
  split at h
  · exact .inl ⟨_, (Except.error.inj h).symm⟩
  split at h
  · exact .inl ⟨_, (Except.error.inj h).symm⟩
  split at h
  · exact .inl ⟨_, (Except.error.inj h).symm⟩
  · obtain ⟨fault, -, rfl⟩ := error_of_mapError h
    exact .inl ⟨fault, rfl⟩

/-! ## Contents -/

/-- A failure on bytes that are read. -/
def Failure.OnBytes (failure : Failure) : Prop :=
  ∃ fault, failure = .unreadable fault

/-- A failure of a decoder. -/
def Failure.OnPacking (failure : Failure) : Prop :=
  ∃ packing message, failure = .undecoded packing message

/-- A stream that fails, if it does, for a reason. -/
def Stream.FailsOnly (reason : Failure → Prop) (stream : Stream) : Prop :=
  ∀ failure, stream.failure = some failure → reason failure

lemma Stream.failsOnly_failing {reason : Failure → Prop} (h : reason failure) :
    (failing failure).FailsOnly reason :=
  fun _ hf => Option.some.inj hf ▸ h

lemma Stream.failsOnly_of_none (reason : Failure → Prop) (chunks : List ByteArray) :
    FailsOnly reason ⟨chunks, none⟩ :=
  fun _ h => by cases h

lemma Stream.FailsOnly.mono {reason reason' : Failure → Prop} {stream : Stream}
    (h : stream.FailsOnly reason) (hr : ∀ failure, reason failure → reason' failure) :
    stream.FailsOnly reason' :=
  fun failure hf => hr failure (h failure hf)

lemma Member.failsOnly_finish (member : Member) (progress : Progress) (data : ByteArray) :
    (member.finish progress data).FailsOnly Failure.OnBytes := by
  rw [finish]
  split
  · exact Stream.failsOnly_of_none _ _
  · exact Stream.failsOnly_failing ⟨_, rfl⟩

/-- Stored data fail on bytes only. -/
lemma Member.failsOnly_stored (member : Member) (packed : ByteArray) (fuel : Nat)
    (progress : Progress) (position : Nat) :
    (member.stored packed fuel progress position).FailsOnly Failure.OnBytes := by
  induction fuel generalizing progress position with
  | zero => exact Stream.failsOnly_of_none _ _
  | succ fuel ih =>
    rw [stored]
    split_ifs
    · exact Stream.failsOnly_failing ⟨_, rfl⟩
    · exact member.failsOnly_finish progress _
    · exact Stream.failsOnly_failing ⟨_, rfl⟩
    · exact ih _ _

namespace Inflow

variable {Decoder : Type} {reason : Failure → Prop} {member : Member} {packed : ByteArray}
  {pull : Nat → Inflow Decoder → Except Failure (Inflow Decoder)}

lemma supply_eq_error {requested taken : Nat} (h : supply packed requested taken = .error failure) :
    failure.OnBytes := by
  rw [supply] at h
  split at h
  · exact ⟨_, (Except.error.inj h).symm⟩
  · cases h

lemma proceed_eq_error {progress : Progress} {taken : Nat} {decoder : Decoder} {output : ByteArray}
    {exhausted : Bool}
    (h : proceed member progress taken decoder output exhausted = .error failure) :
    failure.OnBytes := by
  rw [proceed] at h
  split at h
  · exact ⟨_, (Except.error.inj h).symm⟩
  · cases h

/-- A portion that cannot be filled fails for the reason of one of its steps. -/
lemma fill_eq_error
    (hp : ∀ wanted inflow failure, pull wanted inflow = .error failure → reason failure)
    (steps : Nat) {wanted : Nat} {portion : ByteArray} {inflow : Inflow Decoder}
    (h : fill pull steps wanted portion inflow = .error failure) : reason failure := by
  induction steps generalizing wanted portion inflow with
  | zero => cases h
  | succ steps ih =>
    rw [fill] at h
    dsimp only at h
    split at h
    · cases h
    split at h
    · cases h
    split at h
    · next hpull =>
      obtain rfl := Except.error.inj h
      exact hp _ _ _ hpull
    · exact ih h

/-- Packed data fail for the reasons for which a step fails. -/
lemma failsOnly_stream
    (hp : ∀ wanted inflow failure, pull wanted inflow = .error failure → reason failure)
    (steps fuel : Nat) (inflow : Inflow Decoder) :
    (stream pull steps fuel inflow).FailsOnly reason := by
  induction fuel generalizing inflow with
  | zero => exact Stream.failsOnly_of_none _ _
  | succ fuel ih =>
    rw [stream]
    split
    · next hfill => exact Stream.failsOnly_failing (fill_eq_error hp steps hfill)
    split
    · exact Stream.failsOnly_of_none _ _
    · exact ih _

end Inflow

lemma Inflater.pull_eq_error {member : Member} {packed : ByteArray} {wanted : Nat}
    {inflow : Inflow Inflater} (h : pull member packed wanted inflow = .error failure) :
    failure.OnBytes := by
  rw [pull] at h
  dsimp only at h
  split at h
  · next hsupply =>
    obtain rfl := Except.error.inj h
    exact Inflow.supply_eq_error hsupply
  split at h
  · exact ⟨_, (Except.error.inj h).symm⟩
  · exact Inflow.proceed_eq_error h

lemma Codec.pull_eq_error {packing : Packing} {codec : Codec} {member : Member}
    {packed : ByteArray} {wanted : Nat} {inflow : Inflow (List ByteArray)}
    (h : pull packing codec member packed wanted inflow = .error failure) :
    failure.OnBytes ∨ failure.OnPacking := by
  rw [pull] at h
  dsimp only at h
  split at h
  · next hsupply =>
    obtain rfl := Except.error.inj h
    exact .inl (Inflow.supply_eq_error hsupply)
  split at h
  · exact .inr ⟨packing, _, (Except.error.inj h).symm⟩
  · exact .inl (Inflow.proceed_eq_error h)

/-- Data that a library decodes fail on bytes, or in the decoder. -/
lemma Member.failsOnly_decoded {packing : Packing} {member : Member} {packed : ByteArray}
    {stream : Stream} (h : member.decoded codecs packing packed = .ok stream) :
    stream.FailsOnly fun failure => failure.OnBytes ∨ failure.OnPacking := by
  obtain ⟨codec, -, rfl⟩ := decoded_eq_ok h
  exact Inflow.failsOnly_stream (fun _ _ _ => Codec.pull_eq_error) _ _ _

/-- The content of a member that no library decodes fails on bytes only. -/
lemma Member.failsOnly_content_of_method {member : Member} {place : Nat} {stream : Stream}
    (hbzip2 : member.method ≠ 12) (hlzma : member.method ≠ 14)
    (h : member.content codecs bytes place = .ok stream) : stream.FailsOnly Failure.OnBytes := by
  rw [content] at h
  split at h
  · obtain rfl := Except.ok.inj h
    exact member.failsOnly_stored _ _ _ _
  · obtain rfl := Except.ok.inj h
    exact Inflow.failsOnly_stream (fun _ _ _ => Inflater.pull_eq_error) _ _ _
  · next hm => exact absurd hm hbzip2
  · next hm => exact absurd hm hlzma
  · cases h

/-- The content of a member fails on bytes, or in a decoder. -/
lemma Member.failsOnly_content {member : Member} {place : Nat} {stream : Stream}
    (h : member.content codecs bytes place = .ok stream) :
    stream.FailsOnly fun failure => failure.OnBytes ∨ failure.OnPacking := by
  by_cases hbzip2 : member.method = 12
  · rw [content, hbzip2] at h
    exact failsOnly_decoded h
  by_cases hlzma : member.method = 14
  · rw [content, hlzma] at h
    exact failsOnly_decoded h
  · exact (failsOnly_content_of_method hbzip2 hlzma h).mono fun _ => .inl

/-! ## Names -/

/-- The name of a member ends before the first zero character. -/
lemma Member.zero_notMem_name (member : Member) : '\x00' ∉ member.name.toList := by
  rw [name, String.toList_ofList]
  intro hm
  simpa using List.mem_takeWhile_imp hm

lemma EntryPath.zero_notMem_of_ofRaw {raw name : String} {names : List String}
    (hraw : '\x00' ∉ raw.toList) (h : ofRaw raw = .ok names) (hn : name ∈ names) :
    '\x00' ∉ name.toList := by
  intro hz
  have hslashed := mem_slashed_of_ofRaw h hn hz
  rw [Path.slashed, String.toList_ofList, List.mem_map] at hslashed
  obtain ⟨c, hc, he⟩ := hslashed
  split at he
  · exact absurd he (by decide)
  · exact hraw (he ▸ hc)

/-- An entry whose content fails only on its bytes, with a name that holds no zero character. -/
structure ArchiveEntry.Regular (entry : ArchiveEntry) : Prop where
  zero_notMem : '\x00' ∉ entry.path.toList
  opens : ∀ failure, entry.content () = .error failure → failure.OnBytes
  failsOnly : ∀ stream, entry.content () = .ok stream → stream.FailsOnly Failure.OnBytes
  portioned : entry.Portioned

/-! ## Step and run -/

namespace Extraction

variable {config : Config} {base fs : FileSystem} {root : String} {top names : Location}
  {done : List ArchiveEntry} {entry : ArchiveEntry} {tally : Tally}

/-- Entries that a file system can hold below a place: no name and no path is too long, and no entry
is the directory of another one. -/
structure Placeable (top : Location) (entries : List ArchiveEntry) : Prop where
  short : ∀ entry ∈ entries, ∀ names, entry.names? = some names →
    ∀ name ∈ names, name.utf8ByteSize ≤ maxNameBytes
  fits : ∀ entry ∈ entries, ∀ names, entry.names? = some names →
    (Location.toPath (top ++ names)).utf8ByteSize ≤ maxPathBytes
  apart : ∀ entry ∈ entries, ∀ other ∈ entries, ∀ names names', entry.names? = some names →
    other.names? = some names' → names <+: names' → names = names'

lemma Placeable.of_front {front entries : List ArchiveEntry} (h : Placeable top entries)
    (hp : front <+: entries) : Placeable top front where
  short := fun entry he => h.short entry (hp.subset he)
  fits := fun entry he => h.fits entry (hp.subset he)
  apart := fun entry he other ho => h.apart entry (hp.subset he) other (hp.subset ho)

/-- The last of the entries is apart from those before it. -/
lemma Placeable.apart_last (h : Placeable top (done ++ [entry])) (hn : entry.names? = some names) :
    ∀ other ∈ done, ∀ names', other.names? = some names' →
      (names <+: names' → names = names') ∧ (names' <+: names → names' = names) := by
  intro other ho names' hn'
  have hself : entry ∈ done ++ [entry] := by simp
  have hother : other ∈ done ++ [entry] := by simp [ho]
  exact ⟨h.apart entry hself other hother names names' hn hn',
    h.apart other hother entry hself names' names hn' hn⟩

/-- What stops the content of a regular entry from being read and taken in is put down to the
archive. -/
lemma contentResult_attributable {declared : Int} (hr : entry.Regular)
    (h : contentResult config tally declared entry = .error failure) : failure.Attributable := by
  rw [contentResult] at h
  split at h
  · next hc =>
    obtain rfl := Except.error.inj h
    obtain ⟨fault, rfl⟩ := hr.opens _ hc
    exact Failure.attributable_unreadable fault
  · next stream hc =>
    dsimp only at h
    cases hstop :
      (takeIn config entry.path tally.written stream.failure .empty stream.chunks).2 with
    | none =>
      rw [hstop] at h
      cases h
    | some failure' =>
      rw [hstop] at h
      obtain rfl := Except.error.inj h
      rcases takeIn_stopped hstop with ⟨limit, -, rfl⟩ | hfails
      · exact Failure.attributable_limit _ _
      · obtain ⟨fault, rfl⟩ := hr.failsOnly stream hc _ hfails
        exact Failure.attributable_unreadable fault

/-- What a regular entry fails on is put down to the archive. -/
lemma extractEntry_attributable (hb : Base base root top) (hu : Unpacked base top done tally fs)
    (hadm : Extractable config top done) (hr : entry.Regular) (hp : Placeable top (done ++ [entry]))
    (h : ((extractEntry config root tally entry).on fs).1 = .error failure) :
    failure.Attributable := by
  cases hd : checkDeclared config tally entry with
  | error limit =>
    rw [extractEntry, hd] at h
    obtain rfl := Except.error.inj h
    exact Failure.attributable_limit _ _
  | ok declared =>
    cases hn : EntryPath.ofRaw entry.path with
    | error fault =>
      rw [extractEntry, hd, resolveDestination, hn] at h
      obtain rfl := Except.error.inj h
      exact Failure.attributable_unsafe _ _
    | ok names =>
      obtain ⟨ledger, hholds⟩ := hu.holds
      obtain ⟨hne, hplain⟩ := EntryPath.ofRaw_plain hn
      have hnames : entry.names? = some names := ArchiveEntry.names?_eq_some.2 hn
      have hself : entry ∈ done ++ [entry] := by simp
      have hvalid : ∀ name ∈ names, ValidName name := by
        intro name hm
        obtain ⟨h1, h2, h3, h4⟩ := hplain name hm
        exact ⟨h1, h2, h3, h4, EntryPath.zero_notMem_of_ofRaw hr.zero_notMem hn hm,
          hp.short entry hself names hnames name hm⟩
      obtain ⟨huttered, hclear, hroom⟩ :=
        hu.room hadm hne hvalid (hp.fits entry hself names hnames) (hp.apart_last hnames)
      rw [on_extractEntry_clear hholds hb hd hn huttered hvalid hclear hroom] at h
      exact contentResult_attributable hr h

/-- What regular entries fail on is put down to the archive. -/
theorem extractEntries_attributable (rest : List ArchiveEntry) (hb : Base base root top)
    (hu : Unpacked base top done tally fs) (hadm : Extractable config top done)
    (hr : ∀ entry ∈ rest, entry.Regular) (hd : ∀ entry ∈ rest, entry.isDirectory = false)
    (hp : Placeable top (done ++ rest))
    (h : ((extractEntries config root tally rest).on fs).1 = .error failure) :
    failure.Attributable := by
  induction rest generalizing done tally fs with
  | nil => cases h
  | cons entry rest ih =>
    obtain ⟨hentry, hrest⟩ := List.forall_mem_cons.1 hr
    have happ : done ++ entry :: rest = (done ++ [entry]) ++ rest := by simp
    rw [happ] at hp
    rw [extractEntries, if_neg (by simp [hd entry]), Action.on_bind] at h
    rcases hrun : (extractEntry config root tally entry).on fs with ⟨failure' | tally₁, fs₁⟩
    · rw [hrun] at h
      obtain rfl := Except.error.inj h
      exact extractEntry_attributable hb hu hadm hentry (hp.of_front (List.prefix_append _ _))
        (by rw [hrun])
    · -- An entry that is extracted has been read, so it was admitted after those before it.
      rw [hrun] at h
      obtain ⟨hreadable, -⟩ := readable_of_extractEntry hentry.portioned hrun
      obtain ⟨hadmits, hu₁⟩ := extractEntry_ok hb hu hadm hreadable hrun
      exact ih hu₁ (Extractable.snoc.2 ⟨hadm, hadmits⟩) hrest
        (fun other ho => hd other (List.mem_cons_of_mem _ ho)) hp h

end Extraction

/-! ## Archives -/

/-- A member that can be read, or is itself at fault if it cannot. -/
structure PlacedMember.Regular (codecs : Codecs) (bytes : ByteArray) (placed : PlacedMember) :
    Prop where
  offset : Seekable bytes placed.member.headerOffset
  /-- A name in the header that claims to be UTF-8 is. -/
  decodable : ∀ fault, placed.read codecs bytes ≠ .error (.undecodable fault)
  /-- No decoder of another library refuses the content. -/
  decoded : ∀ stream, placed.read codecs bytes = .ok stream →
    ∀ packing message, stream.failure ≠ some (.undecoded packing message)

/-- An archive that can be extracted below a place, or is itself at fault if it cannot. -/
structure RegularArchive (codecs : Codecs) (bytes : ByteArray) (top : Location) : Prop where
  /-- Names in the directory that claim to be UTF-8 are. -/
  decodable : ∀ fault, Directory.read bytes ≠ .error (.undecodable fault)
  named : ∀ members, Directory.read bytes = .ok members →
    ∀ placed ∈ members, placed.member.name ≠ ""
  members : ∀ members, Directory.read bytes = .ok members → ∀ placed ∈ members,
    (ArchiveEntry.ofMember codecs bytes placed).isDirectory = false → placed.Regular codecs bytes
  placeable : ∀ members, Directory.read bytes = .ok members →
    Placeable top (memberFiles codecs bytes members)

variable {fs base : FileSystem} {config : Config} {archive text : String} {top : Location}

/-- No decoder of another library refuses a member that none decodes. -/
lemma PlacedMember.failure_ne_undecoded {placed : PlacedMember} {stream : Stream}
    (hbzip2 : placed.member.method ≠ 12) (hlzma : placed.member.method ≠ 14)
    (h : placed.read codecs bytes = .ok stream) (packing : Packing) (message : String) :
    stream.failure ≠ some (.undecoded packing message) := by
  intro hf
  obtain ⟨place, hcontent⟩ := read_eq_ok h
  obtain ⟨fault, he⟩ := Member.failsOnly_content_of_method hbzip2 hlzma hcontent _ hf
  cases he

lemma PlacedMember.Regular.entry {placed : PlacedMember} (h : placed.Regular codecs bytes) :
    (ArchiveEntry.ofMember codecs bytes placed).Regular where
  zero_notMem := placed.member.zero_notMem_name
  opens := fun _ he => (read_eq_error h.offset he).resolve_right fun ⟨fault, hf⟩ =>
    h.decodable fault (hf ▸ he)
  failsOnly := by
    intro stream hs failure hf
    obtain ⟨place, hcontent⟩ := read_eq_ok hs
    rcases Member.failsOnly_content hcontent failure hf with hbytes | ⟨packing, message, rfl⟩
    · exact hbytes
    · exact absurd hf (h.decoded stream hs packing message)
  portioned := fun _ hs => placed.portions_of_read hs

/-- A listing is complete if every member has a name. -/
lemma Listing.failure_ofMembers {members : List PlacedMember}
    (h : ∀ placed ∈ members, placed.member.name ≠ "") :
    (ofMembers codecs bytes members).failure = none := by
  have hall : members.takeWhile (fun placed => placed.member.name ≠ "") = members :=
    List.takeWhile_eq_self_iff.2 fun placed hm => by simpa using h placed hm
  rw [ofMembers, hall, if_neg (Nat.lt_irrefl _)]

/-- The extraction of a regular archive below a directory that can be made fails only with an error
of the archive. -/
theorem extractZip_attributable
    (hread : fs.readFile (PurePath.ofString archive).toString = .ok bytes)
    (hmade : (Action.makePath false (PurePath.ofString text)).on fs = (.ok (), base))
    (hb : Base base (PurePath.ofString text).toString top) (hr : RegularArchive codecs bytes top)
    (h : ((extractZip codecs config archive text).on fs).1 = .error failure) :
    failure.IsArchiveError := by
  cases hmembers : Directory.read bytes with
  | error failure' =>
    rw [extractZip, Action.on_tryCatch, Action.on_bind, Action.on_query, hread] at h
    dsimp only at h
    rw [hmembers] at h
    obtain rfl := Except.error.inj h
    rcases Directory.read_eq_error hmembers with ⟨fault, rfl⟩ | ⟨fault, rfl⟩
    · exact Failure.attributable_unreadable fault _
    · exact absurd hmembers (hr.decodable fault)
  | ok members =>
    have hlist : (Listing.ofMembers codecs bytes members).failure = none :=
      Listing.failure_ofMembers (hr.named members hmembers)
    have hfiles := Listing.files_ofMembers hlist
    rw [on_extractZip text hread hmembers, on_extract_of_made config _ hmade, extractEntries_files,
      ← Listing.files, hfiles, hlist] at h
    rcases hrun : (extractEntries config (PurePath.ofString text).toString .zero
      (memberFiles codecs bytes members)).on base with ⟨failure' | tally, fs'⟩
    · rw [hrun] at h
      obtain rfl := Except.error.inj h
      have hregular : ∀ entry ∈ memberFiles codecs bytes members, entry.Regular := by
        intro entry hm
        obtain ⟨hm, hfile⟩ := List.mem_filter.1 hm
        obtain ⟨placed, hplaced, rfl⟩ := List.mem_map.1 hm
        exact (hr.members members hmembers placed hplaced (by simpa using hfile)).entry
      exact extractEntries_attributable (memberFiles codecs bytes members) hb (.start hb)
        (.nil config top) hregular (fun entry hm => by simpa using (List.mem_filter.1 hm).2)
        (hr.placeable members hmembers) (by rw [hrun]) _
    · rw [hrun] at h
      cases h

end SourceAtlas
