/-!
# Check sums

The check sum of an archive member is the cyclic redundancy check with the reflected polynomial
`EDB88320`, started and finished with all ones.  `Crc32.ofBytes` takes the bytes in one by one, each
as eight steps of a division with remainder over the field of two elements.
-/

namespace SourceAtlas.Crc32

/-- One step of the division: shift a bit out and, if it is set, subtract the polynomial. -/
@[inline] def shiftBit (register : UInt32) : UInt32 :=
  if register &&& 1 = 1 then (register >>> 1) ^^^ 0xEDB88320 else register >>> 1

/-- Four steps. -/
@[inline] def shiftHalf (register : UInt32) : UInt32 :=
  shiftBit (shiftBit (shiftBit (shiftBit register)))

/-- Take a byte in. -/
def update (register : UInt32) (byte : UInt8) : UInt32 :=
  shiftHalf (shiftHalf (register ^^^ byte.toUInt32))

/-- The check sum of bytes. -/
def ofBytes (bytes : ByteArray) : UInt32 :=
  bytes.foldl update 0xFFFFFFFF ^^^ 0xFFFFFFFF

/-- The eight lower-case hexadecimal digits of a check sum. -/
def hex (sum : UInt32) : String :=
  let digits := Nat.toDigits 16 sum.toNat
  String.ofList (List.replicate (8 - digits.length) '0' ++ digits)

example : hex (ofBytes "a".toUTF8) = "e8b7be43" := by decide +kernel

end SourceAtlas.Crc32
