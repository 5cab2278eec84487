import SourceAtlas.Number.Binary64
import SourceAtlas.Text.DecimalDigit

/-!
# Numerals

How the text of a setting is read as a number.  A numeral may have layout characters around it, a
sign in front, decimal digits of any script, and single underscores between digits.

* `Numeral.int?` reads a whole number of at most `maxDigits` digits.
* `Numeral.float?` reads a decimal number with an optional fraction and exponent, or one of the
  words `inf`, `infinity` and `nan` in any case, and rounds it to the nearest double.

The layout characters are the ASCII ones and the non-ASCII blanks; the information separators
`U+001C`–`U+001F`, which are blank elsewhere, are not taken off a numeral.
-/

namespace SourceAtlas.Numeral

open Text

/-- White space around a numeral. -/
def isLayout (c : Char) : Bool :=
  let n := c.toNat
  (9 ≤ n && n ≤ 13) || n == 0x20 || n == 0x85 || n == 0xA0 || n == 0x1680 ||
    (0x2000 ≤ n && n ≤ 0x200A) || n == 0x2028 || n == 0x2029 || n == 0x202F || n == 0x205F ||
    n == 0x3000

/-- A numeral without the white space around it. -/
def core (text : String) : List Char :=
  ((text.toList.dropWhile isLayout).reverse.dropWhile isLayout).reverse

/-- The sign in front of a numeral, `true` for a minus, and what follows it. -/
def sign : List Char → Bool × List Char
  | '-' :: rest => (true, rest)
  | '+' :: rest => (false, rest)
  | text => (false, text)

/-- The leading run of digits and underscores: the digit values and the rest of the text.  The run
is refused (`none`) when an underscore in it does not stand between two digits. -/
def digitRun (afterDigit : Bool) : List Char → Option (List Nat × List Char)
  | [] => some ([], [])
  | c :: rest =>
    if c = '_' then
      match rest with
      | [] => none
      | next :: _ =>
        if afterDigit && (digitValue? next).isSome then digitRun false rest else none
    else
      match digitValue? c with
      | some value => (digitRun true rest).map fun (values, tail) => (value :: values, tail)
      | none => some ([], c :: rest)

/-- The whole number that a list of decimal digits writes. -/
def ofDigits (digits : List Nat) : Nat :=
  digits.foldl (fun value digit => 10 * value + digit) 0

/-- Why a text is not read as a whole number. -/
inductive IntFault
  | malformed
  | tooLong (digits : Nat)
deriving DecidableEq, Repr

/-- The greatest number of digits of a whole number, leading zeros included. -/
def maxDigits : Nat := 4300

/-- Read a whole number.  The digits are counted before what follows them is looked at, so a numeral
that is too long is reported as such even if it is malformed after its digits. -/
def int (text : String) : Except IntFault Int :=
  let (negative, body) := sign (core text)
  match digitRun false body with
  | none => .error .malformed
  | some ([], _) => .error .malformed
  | some (digits, rest) =>
    if maxDigits < digits.length then .error (.tooLong digits.length)
    else if rest ≠ [] then .error .malformed
    else .ok (if negative then -(ofDigits digits : Int) else ofDigits digits)

/-- The words for infinity and for not-a-number, in lower case. -/
def floatWord? (negative : Bool) (body : List Char) : Option Binary64 :=
  let word := body.map Char.toLower
  if word = "inf".toList || word = "infinity".toList then some (.infinity negative)
  else if word = "nan".toList then some .nan
  else none

/-- An optional exponent and nothing after it. -/
def exponent? : List Char → Option Int
  | [] => some 0
  | c :: rest =>
    if c = 'e' || c = 'E' then
      let (negative, body) := sign rest
      match digitRun false body with
      | some (digit :: digits, []) =>
        let value : Int := ofDigits (digit :: digits)
        some (if negative then -value else value)
      | _ => none
    else none

/-- A decimal number: digits before the point, after the point or both, and an optional exponent. -/
def decimal? (negative : Bool) (body : List Char) : Option Binary64 :=
  match digitRun false body with
  | none => none
  | some (whole, rest) =>
    let fraction? : Option (List Nat × List Char) :=
      match rest with
      | '.' :: tail => digitRun false tail
      | _ => some ([], rest)
    match fraction? with
    | none => none
    | some (fraction, tail) =>
      if whole.isEmpty && fraction.isEmpty then none
      else
        (exponent? tail).map fun power =>
          .ofDecimal negative (ofDigits (whole ++ fraction)) (power - fraction.length)

/-- Read a decimal number as the nearest double. -/
def float? (text : String) : Option Binary64 :=
  let (negative, body) := sign (core text)
  match floatWord? negative body with
  | some value => some value
  | none => decimal? negative body

example : (int " 1_000 ").toOption = some 1000 ∧ (int "1__0").toOption = none := by
  decide +kernel
example : (float? "1_0.2_5").map Binary64.hex = some "4024800000000000" ∧ float? "1_.5" = none ∧
    (float? "5.").map Binary64.hex = some "4014000000000000" ∧ float? "." = none := by
  decide +kernel

end SourceAtlas.Numeral
