import SourceAtlas.Collation.Table

/-!
# Canonical decomposition

Before a name is collated it is decomposed: a letter with a mark becomes the letter followed by the
mark, a Hangul syllable becomes its letters, and marks that follow one another are put in the order
of their combining classes.
-/

namespace SourceAtlas.Collation

/-- The combining class of a code point. -/
def combiningClass (code : Nat) : Nat :=
  (combiningClasses.lookup code).getD 0

/-- The letters of a Hangul syllable, given by its place among the syllables. -/
def hangulLetters (index : Nat) : List Nat :=
  let leading := 0x1100 + index / 588
  let vowel := 0x1161 + index % 588 / 28
  let trailing := index % 28
  if trailing = 0 then [leading, vowel] else [leading, vowel, 0x11A7 + trailing]

/-- The full decomposition of a code point. -/
def decompose (code : Nat) : List Nat :=
  if 0xAC00 ≤ code && code < 0xAC00 + 11172 then hangulLetters (code - 0xAC00)
  else (decompositions.lookup code).getD [code]

/-- Put a code point in front of a sequence whose marks are in order: behind the marks of lower
class, unless it is no mark itself. -/
def insertMark (code : Nat) : List Nat → List Nat
  | [] => [code]
  | next :: rest =>
    let own := combiningClass code
    let other := combiningClass next
    if own ≠ 0 ∧ other ≠ 0 ∧ other < own then next :: insertMark code rest
    else code :: next :: rest

/-- Put the marks of a sequence in order; marks of one class keep theirs. -/
def orderMarks (codes : List Nat) : List Nat :=
  codes.foldr insertMark []

/-- The canonical decomposition of a name. -/
def decomposed (name : String) : List Nat :=
  orderMarks (name.toList.flatMap fun c => decompose c.toNat)

end SourceAtlas.Collation
