import SourceAtlas.Text.Quoted

/-!
# Job identifiers

A job is identified by 32 hexadecimal digits in groups of 8, 4, 4, 4 and 12.  They are drawn at
random apart from the digit 4 at the start of the third group, which says so, and the two highest
bits of the fourth group, which are a one and a zero.
-/

namespace SourceAtlas.JobId

/-- The number that bytes write with the most significant one first. -/
def bigEndian (bytes : List UInt8) : Nat :=
  bytes.foldl (fun number byte => 256 * number + byte.toNat) 0

/-- The job identifier that is made of sixteen random bytes. -/
def ofRandom (bytes : List UInt8) : String :=
  let group := fun start count => bigEndian ((bytes.drop start).take count)
  let groups := [
    Text.hexPadded 8 (group 0 4),
    Text.hexPadded 4 (group 4 2),
    Text.hexPadded 4 (0x4000 + group 6 2 % 0x1000),
    Text.hexPadded 4 (0x8000 + group 8 2 % 0x4000),
    Text.hexPadded 12 (group 10 6)]
  String.ofList (['-'].intercalate groups)

example : ofRandom (List.replicate 16 255) = "ffffffff-ffff-4fff-bfff-ffffffffffff" := by
  decide +kernel

end SourceAtlas.JobId
