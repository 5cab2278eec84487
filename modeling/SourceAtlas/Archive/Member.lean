import SourceAtlas.Archive.Content

/-!
# Opening a member of an archive

`PlacedMember.read` looks at the local header of a member.  It refuses what does not fit the
directory, what is encrypted and what is packed by a method without a decoder, and otherwise starts
reading the content.  `Member.description` is how a refusal describes a member.
-/

namespace SourceAtlas

namespace Member

/-! ## The description of a member -/

/-- The name of a packing method. -/
def methodName (method : Nat) : String :=
  match method with
  | 1 => "shrink"
  | 2 | 3 | 4 | 5 => "reduce"
  | 6 | 10 => "implode"
  | 7 => "tokenize"
  | 8 => "deflate"
  | 9 => "deflate64"
  | 12 => "bzip2"
  | 14 => "lzma"
  | 18 => "terse"
  | 19 => "lz77"
  | 97 => "wavpack"
  | 98 => "ppmd"
  | other => toString other

/-- The letter for the type of a file in a listing of permissions. -/
def typeLetter (mode : Nat) : Char :=
  match mode / 0o10000 with
  | 0o14 => 's'
  | 0o12 => 'l'
  | 0o10 => '-'
  | 0o06 => 'b'
  | 0o04 => 'd'
  | 0o02 => 'c'
  | 0o01 => 'p'
  | _ => '?'

/-- The three letters for the permissions of one class of users.  `special` is the bit that
replaces the execute permission by a letter of its own. -/
def permissionLetters (bits : Nat) (special : Bool) (letter : Char) : List Char :=
  let executable := bits % 2 == 1
  [if bits / 4 % 2 == 1 then 'r' else '-',
    if bits / 2 % 2 == 1 then 'w' else '-',
    if special then (if executable then letter else letter.toUpper)
    else if executable then 'x' else '-']

/-- A file mode as it is listed: type and permissions. -/
def modeText (mode : Nat) : String :=
  String.ofList (typeLetter mode ::
    permissionLetters (mode / 64 % 8) (mode / 2048 % 2 == 1) 's' ++
    permissionLetters (mode / 8 % 8) (mode / 1024 % 2 == 1) 's' ++
    permissionLetters (mode % 8) (mode / 512 % 2 == 1) 't')

/-- A member as a message describes it: its name and whatever is not a matter of course. -/
def description (member : Member) : String :=
  let mode := member.attributes / Nat.pow 2 16
  let low := member.attributes % Nat.pow 2 16
  let packed := member.method ≠ 0 ∨ member.size ≠ member.compressedSize
  "<ZipInfo filename=" ++ Text.quoted member.name ++
    (if member.method ≠ 0 then " compress_type=" ++ methodName member.method else "") ++
    (if mode ≠ 0 then " filemode=" ++ Text.quoted (modeText mode) else "") ++
    (if low ≠ 0 then " external_attr=0x" ++ String.ofList (Nat.toDigits 16 low) else "") ++
    " file_size=" ++ toString member.size ++
    (if packed then " compress_size=" ++ toString member.compressedSize else "") ++ ">"

end Member

/-! ## Opening -/

namespace PlacedMember

open Member

/-- The size of a local header without name and extra fields. -/
def headerBytes : Nat := 30

/-- The least offset that no file can have. -/
def offsetBound : Int := Nat.pow 2 63

/-- Start reading a member. -/
def read (codecs : Codecs) (bytes : ByteArray) (placed : PlacedMember) : Except Failure Stream :=
  let member := placed.member
  let refuse := fun fault => Except.error (Failure.unreadable fault)
  if offsetBound ≤ member.headerOffset ∨ member.headerOffset < -offsetBound then
    .error .offsetTooLarge
  else if member.headerOffset < 0 then .error (.file (.os .invalid))
  else
    let start := member.headerOffset.toNat
    if bytes.size < start + headerBytes then refuse .headerTruncated
    else if !EndRecord.isSignature bytes start 3 4 then refuse .headerSignature
    else if hasFlag member.flags 5 then refuse .patchedData
    else if hasFlag member.flags 6 then refuse .strongEncryption
    else
      let nameStart := start + headerBytes
      let nameSize := littleEndian bytes (start + 26) 2
      let storedName := slice bytes nameStart nameSize
      match decodeName (littleEndian bytes (start + 6) 2) storedName with
      | .error failure => .error failure
      | .ok headerName =>
        let place := min bytes.size (nameStart + nameSize + littleEndian bytes (start + 28) 2)
        if headerName ≠ member.listedName then
          refuse (.nameMismatch member.listedName storedName)
        else if placed.nextOffset < place + member.compressedSize then
          refuse (.overlap member.listedName)
        else if hasFlag member.flags 0 then refuse (.encrypted member.description)
        else (member.content codecs bytes place).mapError .unreadable

end PlacedMember

end SourceAtlas
