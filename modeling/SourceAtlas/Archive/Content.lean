import SourceAtlas.Archive.Crc32
import SourceAtlas.Archive.Directory
import SourceAtlas.Archive.Inflate

/-!
# The content of a member

Content is read in portions, as a `Stream`: the portions that can be handed out, and the failure
that ends them if they do not end by themselves.  A portion is filled before it is handed out, so a
failure met while filling it takes the whole portion away.

The content of a member comes to an end at the declared size, at the end of the packed stream, or
when the packed bytes are used up; whatever exceeds the declared size is dropped.  Where the end is
noticed, the check sum of all that was read is compared.  `Member.content` reads a member by the
method it is packed with.

A packed member is read through an `Inflow`, which takes packed bytes out of the file only as they
are needed.  A portion takes as many steps as it takes to fill it (`Inflow.fill`).  There are two
kinds of steps.

* A deflated member asks the decoder for a bounded amount of output at a time (`Inflater.pull`).
* Other packings are decoded by a `Codec`, which belongs to another library and is not modelled: it
  is whatever answers to the packed bytes that it is fed with, and it gives all of the output that
  they make up (`Codec.pull`).
-/

namespace SourceAtlas

/-- The content of an entry as it is read: portions one after the other, and a failure at the end
unless the content ends there. -/
structure Stream where
  chunks : List ByteArray
  failure : Option Failure

/-- How many bytes a reader asks for at a time. -/
def chunkBytes : Nat := 65536

namespace Stream

/-- Bytes from a start on, cut into at most `fuel` portions. -/
def cutFrom (bytes : ByteArray) (portion : Nat) : Nat → Nat → List ByteArray
  | 0, _ => []
  | fuel + 1, start =>
    if bytes.size ≤ start then []
    else bytes.extract start (start + portion) :: cutFrom bytes portion fuel (start + portion)

/-- Bytes cut into portions of a given size; the last one may be smaller.  The quotient of the sizes
counts the full portions. -/
def cut (portion : Nat) (bytes : ByteArray) : List ByteArray :=
  cutFrom bytes portion (bytes.size / portion + 1) 0

/-- The stream that hands out given bytes. -/
def ofBytes (bytes : ByteArray) : Stream :=
  ⟨cut chunkBytes bytes, none⟩

/-- A stream that fails at once. -/
def failing (failure : Failure) : Stream :=
  ⟨[], some failure⟩

/-- A portion in front of a stream. -/
def cons (chunk : ByteArray) (stream : Stream) : Stream :=
  { stream with chunks := chunk :: stream.chunks }

end Stream

/-- What is still due: the sum of the bytes read so far, as the register of the check, and how many
bytes of the declared size are left. -/
structure Progress where
  register : UInt32
  left : Nat

namespace Progress

/-- The progress before the first byte of a member. -/
def start (member : Member) : Progress := ⟨0xFFFFFFFF, member.size⟩

/-- The progress after a portion. -/
def advance (progress : Progress) (chunk : ByteArray) : Progress :=
  ⟨chunk.foldl Crc32.update progress.register, progress.left - chunk.size⟩

/-- Whether the check sum is the expected one. -/
def agrees (progress : Progress) (checksum : Nat) : Bool :=
  (progress.register ^^^ 0xFFFFFFFF).toNat == checksum

end Progress

/-! ## Packed members -/

/-- A packed member that is being read.

`taken` packed bytes have been taken out of the file and given to the decoder.  `pending` has been
decoded but not been handed out, and nothing follows it once the content has `ended`. -/
structure Inflow (Decoder : Type) where
  taken : Nat
  decoder : Decoder
  progress : Progress
  pending : ByteArray
  ended : Bool

namespace Inflow

variable {Decoder : Type}

/-- The least number of bytes that is worth a request, to the file and to the decoder. -/
def leastRequest : Nat := 4096

/-- The beginning of a member. -/
def start (member : Member) (decoder : Decoder) : Inflow Decoder :=
  ⟨0, decoder, .start member, .empty, false⟩

/-- How many of the requested bytes the file has.  A request fails if it has none of them. -/
def supply (packed : ByteArray) (requested taken : Nat) : Except Failure Nat :=
  let found := min requested (packed.size - taken)
  if found = 0 ∧ requested ≠ 0 then .error (.unreadable .endOfFile) else .ok found

/-- Take in what has been decoded: it becomes the pending data.  `exhausted` tells that nothing
follows it in the packed data. -/
def proceed (member : Member) (progress : Progress) (taken : Nat) (decoder : Decoder)
    (output : ByteArray) (exhausted : Bool) : Except Failure (Inflow Decoder) :=
  let data := output.extract 0 progress.left
  let progress := progress.advance data
  let ended := exhausted || progress.left == 0
  if ended && !progress.agrees member.checksum then .error (.unreadable (.checksum member.name))
  else .ok ⟨taken, decoder, progress, data, ended⟩

/-- Fill a portion up with `wanted` bytes more.  A step that does not end the content uses up a
packed byte or puts a byte out, so `fuel` steps are enough if it is at least the number of both. -/
def fill (pull : Nat → Inflow Decoder → Except Failure (Inflow Decoder)) :
    Nat → Nat → ByteArray → Inflow Decoder → Except Failure (ByteArray × Inflow Decoder)
  | 0, _, portion, inflow => .ok (portion, inflow)
  | fuel + 1, wanted, portion, inflow =>
    let pending := inflow.pending
    if wanted < pending.size then
      .ok (portion ++ pending.extract 0 wanted,
        { inflow with pending := pending.extract wanted pending.size })
    else
      let portion := portion ++ pending
      let wanted := wanted - pending.size
      if wanted = 0 ∨ inflow.ended then .ok (portion, { inflow with pending := .empty })
      else
        match pull wanted inflow with
        | .error failure => .error failure
        | .ok inflow => fill pull fuel wanted portion inflow

/-- Read portions to the end of the content, at most `fuel` of them, each in at most `steps`
steps. -/
def stream (pull : Nat → Inflow Decoder → Except Failure (Inflow Decoder)) (steps : Nat) :
    Nat → Inflow Decoder → Stream
  | 0, _ => ⟨[], none⟩
  | fuel + 1, inflow =>
    match fill pull steps chunkBytes .empty inflow with
    | .error failure => .failing failure
    | .ok (portion, inflow) =>
      if portion.isEmpty then ⟨[], none⟩
      else .cons portion (stream pull steps fuel inflow)

end Inflow

/-! ### Deflated members -/

/-- The decoder of a deflated member, and how many of the bytes that it was given it has used. -/
structure Inflater where
  used : Nat
  state : Inflate.State

namespace Inflater

/-- The decoder before the first byte. -/
def start : Inflater := ⟨0, Inflate.start⟩

/-- How many packed bytes to ask the file for when `wanted` bytes of content are wanted: none while
the decoder still has as many, and none beyond the compressed size. -/
def request (member : Member) (wanted taken used : Nat) : Nat :=
  let unused := taken - used
  if wanted ≤ unused then 0
  else min (max (wanted - unused) Inflow.leastRequest) (member.compressedSize - taken)

/-- A bound on what the decoder holds back for lack of room when no packed byte is left: less than
one byte of input, each bit of which ends at most one copy of earlier output. -/
def drainBound : Nat := 65536

/-- Decode the next bytes of the content; `wanted` bytes are wanted.  A fault of the decoder goes
before the output that precedes it. -/
def pull (member : Member) (packed : ByteArray) (wanted : Nat) :
    Inflow Inflater → Except Failure (Inflow Inflater)
  | ⟨taken, ⟨used, state⟩, progress, _, _⟩ =>
    match Inflow.supply packed (request member wanted taken used) taken with
    | .error failure => .error failure
    | .ok found =>
      let taken := taken + found
      let input := packed.extract 0 taken
      let before := state.output.size
      let limit := before + max wanted Inflow.leastRequest
      match Inflate.run input limit state with
      | (_, .fault fault) => .error (.unreadable (.deflate fault))
      | (state, status) =>
        let used := Inflate.consumed input state status
        let exhausted := status = .ended ∨ (member.compressedSize ≤ taken ∧ taken ≤ used)
        let state := if exhausted then (Inflate.run input (limit + drainBound) state).1 else state
        Inflow.proceed member progress taken ⟨used, state⟩
          (state.output.extract before state.output.size) exhausted

end Inflater

/-! ### Members of other packings -/

/-- A decoder of another library.  It answers to the packed bytes that it has been fed with, portion
after portion: with the output of the last portion and whether the packed data end in it, or with
the message of a fault. -/
structure Codec where
  respond : List ByteArray → Except String (ByteArray × Bool)

/-- The decoders that there are. -/
abbrev Codecs := Packing → Option Codec

/-- No decoders. -/
def Codecs.absent : Codecs := fun _ => none

namespace Codec

/-- Decode the next bytes of the content; `wanted` bytes are wanted, and as many packed bytes are
fed.  The decoder is known by what it has been fed with. -/
def pull (packing : Packing) (codec : Codec) (member : Member) (packed : ByteArray)
    (wanted : Nat) : Inflow (List ByteArray) → Except Failure (Inflow (List ByteArray))
  | ⟨taken, fed, progress, _, _⟩ =>
    let requested := min (max wanted Inflow.leastRequest) (member.compressedSize - taken)
    match Inflow.supply packed requested taken with
    | .error failure => .error failure
    | .ok found =>
      let fed := fed ++ [packed.extract taken (taken + found)]
      let taken := taken + found
      match codec.respond fed with
      | .error message => .error (.undecoded packing message)
      | .ok (output, ended) =>
        Inflow.proceed member progress taken fed output (ended || member.compressedSize ≤ taken)

end Codec

namespace Member

/-! ## Stored members -/

/-- The last data of a member: they are handed out if the check sum of everything agrees. -/
def finish (member : Member) (progress : Progress) (data : ByteArray) : Stream :=
  if (progress.advance data).agrees member.checksum then ⟨Stream.cut chunkBytes data, none⟩
  else Stream.failing (.unreadable (.checksum member.name))

/-- Read stored data from a position on, in at most `fuel` portions.  A portion that the file cannot
fill fails. -/
def stored (member : Member) (packed : ByteArray) : Nat → Progress → Nat → Stream
  | 0, _, _ => ⟨[], none⟩
  | fuel + 1, progress, position =>
    let wanted := min chunkBytes (member.compressedSize - position)
    let found := packed.extract position (position + wanted)
    let data := found.extract 0 progress.left
    if found.size = 0 ∧ wanted ≠ 0 then Stream.failing (.unreadable .endOfFile)
    else if member.compressedSize ≤ position + found.size ∨ progress.left ≤ data.size then
      finish member progress data
    else if found.size < chunkBytes then Stream.failing (.unreadable .endOfFile)
    else
      Stream.cons data
        (stored member packed fuel (progress.advance data) (position + found.size))

/-! ## Any member -/

/-- The content of a member with given packed bytes that a library decodes, if it is there.  The
declared size bounds the number of portions, and the packed size the number of steps. -/
def decoded (codecs : Codecs) (packing : Packing) (member : Member) (packed : ByteArray) :
    Except ArchiveFault Stream :=
  match codecs packing with
  | none => .error (.decoderMissing packing)
  | some codec =>
    .ok (Inflow.stream (codec.pull packing member packed) (packed.size + 2)
      (member.size / chunkBytes + 2) (.start member []))

/-- The content of a member whose packed bytes start at a place in the file.  A deflated byte yields
less than 1100 bytes, which bounds the number of portions. -/
def content (codecs : Codecs) (member : Member) (bytes : ByteArray) (place : Nat) :
    Except ArchiveFault Stream :=
  let packed := bytes.extract place (place + member.compressedSize)
  let portions := packed.size * 1100 / chunkBytes + 2
  match member.method with
  | 0 => .ok (stored member packed portions (.start member) 0)
  | 8 =>
    .ok (Inflow.stream (Inflater.pull member packed) (chunkBytes + packed.size + 2) portions
      (.start member .start))
  | 12 => decoded codecs .bzip2 member packed
  | 14 => decoded codecs .lzma member packed
  | _ => .error .method

end Member

end SourceAtlas
