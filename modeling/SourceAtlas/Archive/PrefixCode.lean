import SourceAtlas.Archive.BitReader

/-!
# Canonical prefix codes

A prefix code is given by the length of the code word of each symbol, zero for a symbol without one.
The words are then fixed: shorter ones come first, words of one length are consecutive numbers, in
the order of their symbols.

`PrefixCode.ofLengths?` refuses lengths for which there are too many words (`oversubscribed`), and
those that leave bit sequences unused, with two exceptions that the format of a block allows: a
single word of one bit, and no word at all.
-/

namespace SourceAtlas

/-- A canonical prefix code: how many words there are of length 1, 2, …, and the symbols in the
order of their words. -/
structure PrefixCode where
  counts : List Nat
  symbols : Array Nat

namespace PrefixCode

/-- How much of the space of words is left over after the words of each length, in units of the
words of the greatest length seen; `none` if the words do not fit. -/
def leftOver (left : Nat) : List Nat → Option Nat
  | [] => some left
  | count :: longer => if 2 * left < count then none else leftOver (2 * left - count) longer

/-- The number of words of each length from 1 to the greatest one in use. -/
def countLengths (lengths : List Nat) : List Nat :=
  let longest := lengths.foldl max 0
  (List.range longest).map fun shorter => lengths.count (shorter + 1)

/-- The symbols that have a word, in the order of their words. -/
def orderedSymbols (lengths : List Nat) : Array Nat :=
  ((lengths.zipIdx.filter fun entry => entry.1 ≠ 0).mergeSort fun a b => a.1 ≤ b.1).toArray.map
    Prod.snd

/-- The code with the given lengths.  A code that leaves words unused is refused, unless it has no
word, or no word longer than one bit and `partly` is set. -/
def ofLengths? (partly : Bool) (lengths : List Nat) : Option PrefixCode :=
  let counts := countLengths lengths
  let code := ⟨counts, orderedSymbols lengths⟩
  if counts = [] then some code
  else
    match leftOver 1 counts with
    | none => none
    | some 0 => some code
    | some _ => if partly && counts.length == 1 then some code else none

/-- The outcome of reading a code word. -/
inductive Reading
  | symbol (value : Nat) (position : Nat)
  | unused (position : Nat)
  | starved

/-- Read a code word bit by bit.  `first` is the first word of the current length, `index` the
number of shorter words. -/
def readFrom (symbols : Array Nat) (input : ByteArray) (word first index position : Nat) :
    List Nat → Reading
  | [] => .unused position
  | count :: longer =>
    match bitAt? input position with
    | none => .starved
    | some bit =>
      let word := 2 * word + bit
      let first := 2 * first
      if word < first + count then
        .symbol (symbols[index + (word - first)]?.getD 0) (position + 1)
      else readFrom symbols input word (first + count) (index + count) (position + 1) longer

/-- Read a code word.  Without any word in the code, one bit is read and belongs to none. -/
def read (code : PrefixCode) (input : ByteArray) (position : Nat) : Reading :=
  match code.counts with
  | [] =>
    match bitAt? input position with
    | none => .starved
    | some _ => .unused (position + 1)
  | counts => readFrom code.symbols input 0 0 0 position counts

end PrefixCode

end SourceAtlas
