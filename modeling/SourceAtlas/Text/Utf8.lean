/-!
# Strict UTF-8

Source files and entry names are decoded strictly: no overlong forms, no surrogates, nothing above
`U+10FFFF`.  Where decoding stops, `Fault` records which bytes are at fault and why, since a message
may name them.

A fault spans the bytes that can begin a character but are not continued, so that the next byte is
where a lenient decoder would resume.
-/

namespace SourceAtlas.Utf8

/-- Why bytes are not UTF-8. -/
inductive Reason
  | invalidStart
  | invalidContinuation
  | unexpectedEnd
deriving DecidableEq, Repr

/-- The wording of a reason. -/
def Reason.message : Reason → String
  | .invalidStart => "invalid start byte"
  | .invalidContinuation => "invalid continuation byte"
  | .unexpectedEnd => "unexpected end of data"

/-- The first bytes that are not UTF-8: where they start, which they are, and why. -/
structure Fault where
  position : Nat
  bytes : List UInt8
  reason : Reason
deriving DecidableEq, Repr

/-- Bytes of the form `10xxxxxx`. -/
def isContinuation (byte : UInt8) : Bool :=
  byte.toNat / 64 == 2

/-- The values that the second byte of a character may have after the first: the bounds exclude
overlong forms, surrogates and code points above `U+10FFFF`. -/
def secondInRange (first second : Nat) : Bool :=
  if first = 0xE0 then 0xA0 ≤ second && second ≤ 0xBF
  else if first = 0xED then 0x80 ≤ second && second ≤ 0x9F
  else if first = 0xF0 then 0x90 ≤ second && second ≤ 0xBF
  else if first = 0xF4 then 0x80 ≤ second && second ≤ 0x8F
  else 0x80 ≤ second && second ≤ 0xBF

/-- How many bytes a character has, from its first byte. -/
def width? (first : Nat) : Option Nat :=
  if first < 0x80 then some 1
  else if first < 0xC2 then none
  else if first < 0xE0 then some 2
  else if first < 0xF0 then some 3
  else if first < 0xF5 then some 4
  else none

/-- The outcome of reading one character: the character and the number of its bytes, or the number
of bytes at fault and the reason. -/
inductive Step
  | char (c : Char) (width : Nat)
  | fault (width : Nat) (reason : Reason)

/-- Read the character that starts with the given byte. -/
def step (first : UInt8) (rest : List UInt8) : Step :=
  match width? first.toNat with
  | none => .fault 1 .invalidStart
  | some 1 => .char (Char.ofNat first.toNat) 1
  | some width =>
    match rest with
    | [] => .fault 1 .unexpectedEnd
    | second :: rest =>
      if !secondInRange first.toNat second.toNat then .fault 1 .invalidContinuation
      else if width = 2 then
        .char (Char.ofNat (first.toNat % 32 * 64 + second.toNat % 64)) 2
      else
        match rest with
        | [] => .fault 2 .unexpectedEnd
        | third :: rest =>
          if !isContinuation third then .fault 2 .invalidContinuation
          else if width = 3 then
            .char (Char.ofNat
              (first.toNat % 16 * 4096 + second.toNat % 64 * 64 + third.toNat % 64)) 3
          else
            match rest with
            | [] => .fault 3 .unexpectedEnd
            | fourth :: _ =>
              if !isContinuation fourth then .fault 3 .invalidContinuation
              else
                .char (Char.ofNat (first.toNat % 8 * 262144 + second.toNat % 64 * 4096 +
                  third.toNat % 64 * 64 + fourth.toNat % 64)) 4

/-- Decode bytes from a position on.  `skip` counts the bytes that belong to the character read
last, `decoded` holds the characters so far, latest first. -/
def decodeFrom (position skip : Nat) (decoded : List Char) : List UInt8 → Except Fault (List Char)
  | [] => .ok decoded.reverse
  | byte :: rest =>
    match skip with
    | skip + 1 => decodeFrom (position + 1) skip decoded rest
    | 0 =>
      match step byte rest with
      | .char c width => decodeFrom (position + 1) (width - 1) (c :: decoded) rest
      | .fault width reason => .error ⟨position, (byte :: rest).take width, reason⟩

/-- Decode bytes strictly. -/
def decode (bytes : List UInt8) : Except Fault (List Char) :=
  decodeFrom 0 0 [] bytes

/-- The wording of a fault: one byte is named in hexadecimal, several by their positions. -/
def Fault.message (fault : Fault) : String :=
  let place :=
    match fault.bytes with
    | [byte] =>
      let digits := Nat.toDigits 16 byte.toNat
      let padded := String.ofList (List.replicate (2 - digits.length) '0' ++ digits)
      "byte 0x" ++ padded ++ " in position " ++ toString fault.position
    | bytes =>
      "bytes in position " ++ toString fault.position ++ "-" ++
        toString (fault.position + bytes.length - 1)
  "'utf-8' codec can't decode " ++ place ++ ": " ++ fault.reason.message

end SourceAtlas.Utf8
