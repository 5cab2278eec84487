import SourceAtlas.Text.Quoted

/-!
# Faults of an archive

What can be wrong with the bytes of an archive, from the end record to the last block of a
compressed member.  `ArchiveFault.message` is the wording under which a fault is reported.
-/

namespace SourceAtlas

/-- What is wrong with a deflate stream. -/
inductive DeflateFault
  | blockType
  | storedLengths
  | tooManySymbols
  | codeLengthsSet
  | lengthRepeat
  | missingEndOfBlock
  | literalLengthsSet
  | distancesSet
  | literalLengthCode
  | distanceCode
  | distanceTooFar
deriving DecidableEq, Repr

/-- The wording of a fault of a deflate stream. -/
def DeflateFault.message : DeflateFault → String
  | .blockType => "invalid block type"
  | .storedLengths => "invalid stored block lengths"
  | .tooManySymbols => "too many length or distance symbols"
  | .codeLengthsSet => "invalid code lengths set"
  | .lengthRepeat => "invalid bit length repeat"
  | .missingEndOfBlock => "invalid code -- missing end-of-block"
  | .literalLengthsSet => "invalid literal/lengths set"
  | .distancesSet => "invalid distances set"
  | .literalLengthCode => "invalid literal/length code"
  | .distanceCode => "invalid distance code"
  | .distanceTooFar => "invalid distance too far back"

/-- The fields of a directory record that an extra field may hold in eight bytes. -/
inductive WideField
  | fileSize
  | compressedSize
  | headerOffset
deriving DecidableEq, Repr

/-- The name of a field in messages. -/
def WideField.name : WideField → String
  | .fileSize => "File size"
  | .compressedSize => "Compress size"
  | .headerOffset => "Header offset"

/-- The packing methods whose decoders come from other libraries. -/
inductive Packing
  | bzip2
  | lzma
deriving DecidableEq, Repr

/-- The name of the library that decodes a packing. -/
def Packing.library : Packing → String
  | .bzip2 => "bz2"
  | .lzma => "lzma"

/-- What is wrong with an archive, or cannot be read although it may be right. -/
inductive ArchiveFault
  | notAnArchive
  | severalDisks
  | directoryOffset
  | directoryTruncated
  | directorySignature
  | version (tenths : Nat)
  | extraField (identifier size : Nat)
  | wideField (field : WideField)
  | headerTruncated
  | headerSignature
  | patchedData
  | strongEncryption
  | nameMismatch (listed : String) (stored : List UInt8)
  | overlap (name : String)
  | encrypted (description : String)
  | method
  | decoderMissing (packing : Packing)
  | checksum (name : String)
  | endOfFile
  | deflate (fault : DeflateFault)
deriving DecidableEq, Repr

/-- The wording of a fault.  A missing end of the data has none. -/
def ArchiveFault.message : ArchiveFault → String
  | .notAnArchive => "File is not a zip file"
  | .severalDisks => "zipfiles that span multiple disks are not supported"
  | .directoryOffset => "Bad offset for central directory"
  | .directoryTruncated => "Truncated central directory"
  | .directorySignature => "Bad magic number for central directory"
  | .version tenths =>
    "zip file version " ++ toString (tenths / 10) ++ "." ++ toString (tenths % 10)
  | .extraField identifier size =>
    "Corrupt extra field " ++ String.ofList (Text.hexPadded 4 identifier) ++
      " (size=" ++ toString size ++ ")"
  | .wideField field => "Corrupt zip64 extra field. " ++ field.name ++ " not found."
  | .headerTruncated => "Truncated file header"
  | .headerSignature => "Bad magic number for file header"
  | .patchedData => "compressed patched data (flag bit 5)"
  | .strongEncryption => "strong encryption (flag bit 6)"
  | .nameMismatch listed stored =>
    "File name in directory " ++ Text.quoted listed ++ " and header " ++
      Text.quotedBytes stored ++ " differ."
  | .overlap name => "Overlapped entries: " ++ Text.quoted name ++ " (possible zip bomb)"
  | .encrypted description =>
    "File " ++ description ++ " is encrypted, password required for extraction"
  | .method => "That compression method is not supported"
  | .decoderMissing packing =>
    "Compression requires the (missing) " ++ packing.library ++ " module"
  | .checksum name => "Bad CRC-32 for file " ++ Text.quoted name
  | .endOfFile => ""
  | .deflate fault => "Error -3 while decompressing data: " ++ fault.message

end SourceAtlas
