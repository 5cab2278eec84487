/-!
# Double-precision numbers, exactly

Ages, lifetimes and clock readings are IEEE 754 double-precision numbers.  Every claim about an
expired job rests on one subtraction and one comparison of such numbers, so both are defined here
on the sixty-four bits and none is borrowed from the machine.

A finite double is a whole multiple of `2 ^ (-1074)`.  `magnitude` is that whole number, which
turns arithmetic on finite doubles into arithmetic on `Int` followed by one rounding, and
`nearest` is the rounding: to the nearest double, a tie to the even neighbour.

## The order

Read as a whole number, the bits below the sign grow with the magnitude, infinity included.
`key` negates that number for a negative double, both zeros have key `0`, and `lt` and `le` compare
keys.  A NaN compares with nothing, which is the one way in which the order is not total:
`le_or_lt` says so.
-/

namespace SourceAtlas

/-- A double-precision number, as the sixty-four bits of its interchange format. -/
structure Binary64 where
  bits : UInt64
deriving DecidableEq, Repr

namespace Binary64

/-! ## The fields -/

/-- Whether the sign bit is set. -/
def negative (x : Binary64) : Bool :=
  Nat.pow 2 63 ≤ x.bits.toNat

/-- The bits below the sign bit. -/
def payload (x : Binary64) : Nat :=
  x.bits.toNat % Nat.pow 2 63

/-- The payload of an infinity: the all-ones exponent and no fraction. -/
def infinitePayload : Nat := 2047 * Nat.pow 2 52

/-- Not a number: a payload above that of the infinities. -/
def isNaN (x : Binary64) : Bool :=
  infinitePayload < x.payload

/-- One of the two infinities. -/
def isInfinite (x : Binary64) : Bool :=
  x.payload == infinitePayload

/-- A number with the given sign and payload. -/
def ofPayload (negative : Bool) (payload : Nat) : Binary64 :=
  ⟨UInt64.ofNat ((if negative then Nat.pow 2 63 else 0) + payload)⟩

/-- The NaN that an invalid operation yields. -/
def nan : Binary64 := ofPayload false (infinitePayload + Nat.pow 2 51)

/-- An infinity. -/
def infinity (negative : Bool) : Binary64 := ofPayload negative infinitePayload

/-! ## Finite values as multiples of the least positive double -/

/-- The absolute value of a finite double, counted in units of `2 ^ (-1074)`. -/
def magnitude (x : Binary64) : Nat :=
  let exponent := x.payload / Nat.pow 2 52
  let fraction := x.payload % Nat.pow 2 52
  if exponent = 0 then fraction else (Nat.pow 2 52 + fraction) * Nat.pow 2 (exponent - 1)

/-- The value of a finite double, counted in units of `2 ^ (-1074)`. -/
def units (x : Binary64) : Int :=
  if x.negative then -(x.magnitude : Int) else x.magnitude

/-- The quotient of two whole numbers, rounded to the nearest whole number, a tie to the even
one.  A zero divisor gives `0`. -/
def roundedQuotient (num den : Nat) : Nat :=
  let quotient := num / den
  let remainder := num % den
  if 2 * remainder < den then quotient
  else if den < 2 * remainder then quotient + 1
  else quotient + quotient % 2

/-- The payload of the double nearest to `num / den`, which is the payload of infinity when the
quotient lies beyond the finite doubles.

With `scale` chosen such that the quotient, in units of `2 ^ (scale - 1074)`, has fifty-three binary
digits (or `scale` zero for a quotient too small for that), the payload is `scale * 2 ^ 52` plus
the rounded count of units: a count that rounds up to `2 ^ 53` carries into the exponent by
itself. -/
def nearest (num den : Nat) : Nat :=
  let scaled := num * Nat.pow 2 1074
  let whole := scaled / den
  let scale := Nat.log2 whole - 52
  let payload := scale * Nat.pow 2 52 + roundedQuotient scaled (den * Nat.pow 2 scale)
  min payload infinitePayload

/-- The double nearest to the quotient of two whole numbers, with the given sign. -/
def ofRatio (negative : Bool) (num den : Nat) : Binary64 :=
  ofPayload negative (nearest num den)

/-- The double nearest to a whole multiple of `2 ^ (-1074)`. -/
def ofUnits (units : Int) : Binary64 :=
  ofRatio (units < 0) units.natAbs (Nat.pow 2 1074)

/-- The double nearest to a whole number. -/
def ofInt (value : Int) : Binary64 :=
  ofRatio (value < 0) value.natAbs 1

/-- The double nearest to `digits * 10 ^ exponent`.  A value with more than four hundred digits
before the point is infinite and one that starts more than four hundred digits after it is zero,
whatever its digits are, so neither power of ten is formed. -/
def ofDecimal (negative : Bool) (digits : Nat) (exponent : Int) : Binary64 :=
  if digits = 0 then ofPayload negative 0
  else
    let order := (Nat.toDigits 10 digits).length + exponent
    if 400 < order then infinity negative
    else if order < -400 then ofPayload negative 0
    else if 0 ≤ exponent then ofRatio negative (digits * Nat.pow 10 exponent.toNat) 1
    else ofRatio negative digits (Nat.pow 10 (-exponent).toNat)

/-! ## Arithmetic -/

/-- The difference of two doubles.  The difference of equal numbers is a positive zero, unless both
are zeros that differ in sign. -/
def sub (x y : Binary64) : Binary64 :=
  if x.isNaN || y.isNaN then nan
  else if x.isInfinite then
    if y.isInfinite && x.negative == y.negative then nan else x
  else if y.isInfinite then infinity (!y.negative)
  else if x.units = y.units then
    ofPayload (x.payload == 0 && x.negative && !y.negative) 0
  else ofUnits (x.units - y.units)

instance : Sub Binary64 := ⟨sub⟩

/-- A positive whole multiple of a double. -/
def scaleBy (x : Binary64) (factor : Nat) : Binary64 :=
  if x.isNaN || x.isInfinite then x else ofUnits (x.units * factor)

/-- The whole number that is left when the digits after the point are dropped, if the double is
finite. -/
def truncate? (x : Binary64) : Option Int :=
  if x.isNaN || x.isInfinite then none
  else
    let whole : Nat := x.magnitude / Nat.pow 2 1074
    some (if x.negative then -(whole : Int) else whole)

/-! ## The order -/

/-- The payload with the sign of the number. -/
def key (x : Binary64) : Int :=
  if x.negative then -(x.payload : Int) else x.payload

/-- Strictly below, and neither side NaN. -/
def lt (x y : Binary64) : Bool :=
  !x.isNaN && !y.isNaN && decide (x.key < y.key)

/-- At most, and neither side NaN. -/
def le (x y : Binary64) : Bool :=
  !x.isNaN && !y.isNaN && decide (x.key ≤ y.key)

/-- Two numbers that are not NaN are comparable. -/
theorem le_or_lt {x y : Binary64} (hx : x.isNaN = false) (hy : y.isNaN = false) :
    y.le x = true ∨ x.lt y = true := by
  simp only [le, lt, hx, hy, Bool.not_false, Bool.true_and, decide_eq_true_eq]
  omega

/-- The two comparisons exclude each other. -/
theorem not_lt_of_le {x y : Binary64} (h : y.le x = true) : x.lt y = false := by
  simp only [le, lt, Bool.and_eq_true, decide_eq_true_eq, Bool.not_eq_true'] at h ⊢
  simp only [h.1.1, h.1.2, Bool.not_false, Bool.true_and, decide_eq_false_iff_not]
  omega

/-! ## Hexadecimal text -/

/-- The sixteen lower-case hexadecimal digits of the bits. -/
def hex (x : Binary64) : String :=
  let digits := Nat.toDigits 16 x.bits.toNat
  String.ofList (List.replicate (16 - digits.length) '0' ++ digits)

example : (ofDecimal false 1 (-1)).hex = "3fb999999999999a" := by decide +kernel
example : (ofDecimal false 49 (-325)).hex = "0000000000000001" := by decide +kernel
example : (ofDecimal false 9007199254740993 0).hex = "4340000000000000" := by decide +kernel
example : (ofDecimal true 1 400).hex = "fff0000000000000" := by decide +kernel
example : (ofDecimal false 3 (-1) - ofDecimal false 2 (-1)).hex = "3fb9999999999998" := by
  decide +kernel

end Binary64

end SourceAtlas
