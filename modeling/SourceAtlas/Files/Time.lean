import SourceAtlas.Number.Binary64

/-!
# File times

A file system keeps a time as whole nanoseconds, so a time that is set is not always the one that is
read back: setting it drops what exceeds the last whole nanosecond, and reading it adds the
nanoseconds to the seconds as a double.
-/

namespace SourceAtlas.FileTime

/-- A second in units of the least positive double. -/
def secondUnits : Int := Nat.pow 2 1074

/-- The nanoseconds in a second. -/
def perSecond : Nat := Nat.pow 10 9

/-- The nanoseconds, rounded down, in the part of a time after the point: the product with
`perSecond` is rounded to a double first. -/
def nanoseconds (time : Binary64) (whole : Int) : Int :=
  let part := time.units - whole * secondUnits
  Int.fdiv (Binary64.ofUnits (part * perSecond)).units secondUnits

/-- The double for whole seconds and nanoseconds. -/
def toBinary64 (seconds : Int) (nanoseconds : Nat) : Binary64 :=
  let unit := Binary64.ofDecimal false 1 (-9)
  .ofUnits (seconds * secondUnits + (unit.scaleBy nanoseconds).units)

/-- The time that is read back after a time was set. -/
def kept (time : Binary64) : Binary64 :=
  match time.truncate? with
  | none => time
  | some whole =>
    let nanos := nanoseconds time whole
    toBinary64 (whole + Int.fdiv nanos perSecond) (Int.fmod nanos perSecond).toNat

example : kept (.ofDecimal true 5 (-1)) = .ofDecimal true 5 (-1) ∧
    kept (.ofDecimal false 5999999999 (-10)) = .ofDecimal false 599999999 (-9) := by
  decide +kernel

end SourceAtlas.FileTime
