/-!
# Ranges of code points

The character classes of Unicode are given as increasing lists of closed ranges of code points.
-/

namespace SourceAtlas.Text

/-- Whether a code point lies in one of the closed ranges. -/
def inRanges (ranges : List (Nat × Nat)) (code : Nat) : Bool :=
  ranges.any fun range => range.1 ≤ code && code ≤ range.2

end SourceAtlas.Text
