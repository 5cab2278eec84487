import SourceAtlas.Archive.BitReader
import SourceAtlas.Failure
import SourceAtlas.Text.CodePage

/-!
# The directory of a zip archive

A zip archive ends in a record that says where its directory is.  The directory is a sequence of
records, one for each member, with its name, its sizes, its check sum and the offset of its local
header.  Offsets count from where the archive starts, which need not be the start of the file:
anything may stand in front, and the end record tells by how much everything is displaced.

* `EndRecord.find` finds the end record, and the wide one in front of it if there is one.
* `Member.ofRecord` reads one record.
* `Directory.read` reads them all, and gives each member the offset at which the next one starts.

The number of entries and the disk numbers in the end record are not used: records are read until
they fill the size that the end record claims.
-/

namespace SourceAtlas

/-- Bytes from a start on, as many as there are up to a count. -/
def slice (bytes : ByteArray) (start count : Nat) : List UInt8 :=
  (bytes.extract start (start + count)).toList

/-! ## The end record -/

/-- Where the directory is: the place of the end record in the file, the claimed size and offset of
the directory, and how many bytes the wide end record takes up. -/
structure EndRecord where
  location : Nat
  size : Nat
  offset : Nat
  wideBytes : Nat

namespace EndRecord

/-- Four bytes that start with `PK` and mark a record. -/
def isSignature (bytes : ByteArray) (start : Nat) (third fourth : UInt8) : Bool :=
  slice bytes start 4 == [0x50, 0x4B, third, fourth]

/-- The size of the end record without its comment. -/
def recordBytes : Nat := 22

/-- The last place at or above `least` where the signature of an end record stands. -/
def lastSignature? (bytes : ByteArray) (least : Nat) : Nat → Option Nat
  | 0 => none
  | count + 1 =>
    if isSignature bytes (least + count) 5 6 then some (least + count)
    else lastSignature? bytes least count

/-- The place of the end record: at the very end if there is no comment, else wherever the
signature stands last within the reach of a comment. -/
def place? (bytes : ByteArray) : Option Nat :=
  if bytes.size < recordBytes then none
  else
    let atEnd := bytes.size - recordBytes
    if isSignature bytes atEnd 5 6 && littleEndian bytes (atEnd + 20) 2 == 0 then some atEnd
    else
      let least := bytes.size - Nat.pow 2 16 - recordBytes
      match lastSignature? bytes least (bytes.size - least) with
      | some place => if bytes.size < place + recordBytes then none else some place
      | none => none

/-- The end record at a place, with size and offset taken from the wide end record if a locator
points to one. -/
def atPlace (bytes : ByteArray) (place : Nat) : Except ArchiveFault EndRecord :=
  let narrow : EndRecord :=
    ⟨place, littleEndian bytes (place + 12) 4, littleEndian bytes (place + 16) 4, 0⟩
  if place < 20 ∨ !isSignature bytes (place - 20) 6 7 then .ok narrow
  else if littleEndian bytes (place - 16) 4 ≠ 0 ∨ 1 < littleEndian bytes (place - 4) 4 then
    .error .severalDisks
  else if place < 76 then .error .notAnArchive
  else if !isSignature bytes (place - 76) 6 6 then .ok narrow
  else
    .ok ⟨place, littleEndian bytes (place - 36) 8, littleEndian bytes (place - 28) 8, 76⟩

/-- The end record of an archive. -/
def find (bytes : ByteArray) : Except ArchiveFault EndRecord :=
  match place? bytes with
  | none => .error .notAnArchive
  | some place => atPlace bytes place

/-- By how much the offsets of the archive are displaced in the file. -/
def displacement (record : EndRecord) : Int :=
  (record.location : Int) - record.size - record.offset - record.wideBytes

/-- Where the directory starts in the file. -/
def directoryStart (record : EndRecord) : Int :=
  record.offset + record.displacement

end EndRecord

/-! ## Members -/

/-- What the directory says of a member.  The name ends at the first zero character of the listed
one. -/
structure Member where
  listedName : String
  flags : Nat
  method : Nat
  checksum : Nat
  compressedSize : Nat
  size : Nat
  attributes : Nat
  headerOffset : Int
deriving DecidableEq, Repr

namespace Member

/-- The name of a member. -/
def name (member : Member) : String :=
  String.ofList (member.listedName.toList.takeWhile (· ≠ '\x00'))

/-- Whether a flag bit is set. -/
def hasFlag (flags bit : Nat) : Bool :=
  flags / Nat.pow 2 bit % 2 == 1

/-- The name that bytes write, in UTF-8 if flag bit 11 says so. -/
def decodeName (flags : Nat) (bytes : List UInt8) : Except Failure String :=
  if hasFlag flags 11 then
    match Utf8.decode bytes with
    | .ok text => .ok (String.ofList text)
    | .error fault => .error (.undecodable fault)
  else .ok (String.ofList (Text.decodeCodePage bytes))

/-- The number in the first eight bytes of an extra field, and the bytes after them. -/
def takeWide (field : WideField) (data : List UInt8) : Except ArchiveFault (Nat × List UInt8) :=
  if data.length < 8 then .error (.wideField field)
  else .ok ((data.take 8).foldr (fun byte value => byte.toNat + 256 * value) 0, data.drop 8)

/-- A field whose value stands in the extra data if the record holds a placeholder for it. -/
def widen (field : WideField) (placeholder : Bool) (value : Nat) (data : List UInt8) :
    Except ArchiveFault (Nat × List UInt8) :=
  if placeholder then takeWide field data else .ok (value, data)

/-- Replace the placeholders among sizes and offset by the values of a wide extra field. -/
def withWideFields (member : Member) (data : List UInt8) : Except ArchiveFault Member := do
  let limit := Nat.pow 2 32 - 1
  let (size, data) ←
    widen .fileSize (member.size == limit || member.size == Nat.pow 2 64 - 1) member.size data
  let (compressedSize, data) ←
    widen .compressedSize (member.compressedSize == limit) member.compressedSize data
  let (offset, _) ←
    widen .headerOffset (member.headerOffset == limit) member.headerOffset.toNat data
  return { member with size, compressedSize, headerOffset := offset }

/-- Go through the extra fields.  Each takes at least four bytes, so `fuel` fields are enough if it
is at least the number of bytes. -/
def withExtraFields : Nat → Member → List UInt8 → Except ArchiveFault Member
  | fuel + 1, member, id₀ :: id₁ :: size₀ :: size₁ :: data =>
    let identifier := id₀.toNat + 256 * id₁.toNat
    let size := size₀.toNat + 256 * size₁.toNat
    if data.length < size then .error (.extraField identifier size)
    else if identifier = 1 then
      match member.withWideFields (data.take size) with
      | .error fault => .error fault
      | .ok member => withExtraFields fuel member (data.drop size)
    else withExtraFields fuel member (data.drop size)
  | _, member, _ => .ok member

/-- The greatest version of the format that is understood, in tenths. -/
def maxVersion : Nat := 63

/-- The size of a directory record without name, extra fields and comment. -/
def recordBytes : Nat := 46

/-- Read the directory record at a place.  Yields the member and the size of the record. -/
def ofRecord (bytes : ByteArray) (place : Nat) : Except Failure (Member × Nat) :=
  let field := fun offset count => littleEndian bytes (place + offset) count
  if bytes.size < place + recordBytes then .error (.unreadable .directoryTruncated)
  else if !EndRecord.isSignature bytes place 1 2 then .error (.unreadable .directorySignature)
  else
    match decodeName (field 8 2) (slice bytes (place + recordBytes) (field 28 2)) with
    | .error failure => .error failure
    | .ok listedName =>
      if maxVersion < field 6 1 then .error (.unreadable (.version (field 6 1)))
      else
        let member : Member :=
          { listedName, flags := field 8 2, method := field 10 2, checksum := field 16 4,
            compressedSize := field 20 4, size := field 24 4, attributes := field 38 4,
            headerOffset := field 42 4 }
        let extra := slice bytes (place + recordBytes + field 28 2) (field 30 2)
        match member.withExtraFields extra.length extra with
        | .error fault => .error (.unreadable fault)
        | .ok member => .ok (member, recordBytes + field 28 2 + field 30 2 + field 32 2)

end Member

/-! ## The whole directory -/

/-- A member with the offset at which the data of the next one starts. -/
structure PlacedMember where
  member : Member
  nextOffset : Int

namespace Directory

/-- Read records until they fill the given size.  `directory` holds the directory alone. -/
def readRecords (directory : ByteArray) (size : Nat) : Nat → Nat → Except Failure (List Member)
  | 0, _ => .ok []
  | fuel + 1, place =>
    if size ≤ place then .ok []
    else
      match Member.ofRecord directory place with
      | .error failure => .error failure
      | .ok (member, used) => (readRecords directory size fuel (place + used)).map (member :: ·)

/-- The offset at which each member ends at the latest, in the order of descending offsets: where
the member before it in that order starts, or the directory for the first one. -/
def placeFrom (bound : Int) : List (Member × Nat) → List (PlacedMember × Nat)
  | [] => []
  | (member, index) :: rest =>
    (⟨member, bound⟩, index) :: placeFrom member.headerOffset rest

/-- Give each member the offset at which it ends at the latest.  Of members with one offset, those
listed first are placed first. -/
def place (start : Int) (members : List Member) : List PlacedMember :=
  let descending := members.zipIdx.mergeSort fun a b =>
    decide (b.1.headerOffset ≤ a.1.headerOffset)
  ((placeFrom start descending).mergeSort fun a b => decide (a.2 ≤ b.2)).map Prod.fst

/-- The members of an archive, in the order of its directory. -/
def read (bytes : ByteArray) : Except Failure (List PlacedMember) :=
  match EndRecord.find bytes with
  | .error fault => .error (.unreadable fault)
  | .ok record =>
    if record.directoryStart < 0 then .error (.unreadable .directoryOffset)
    else
      let start := record.directoryStart.toNat
      let directory := bytes.extract start (start + record.size)
      match readRecords directory record.size (record.size / Member.recordBytes + 1) 0 with
      | .error failure => .error failure
      | .ok members =>
        .ok (place record.directoryStart (members.map fun member =>
          { member with headerOffset := member.headerOffset + record.displacement }))

end Directory

end SourceAtlas
