import SourceAtlas.Collation.Decomposition
import SourceAtlas.Text.Ranges

/-!
# Sort keys

Names are listed in the order of the Unicode collation algorithm, without special treatment of
variable elements.  The key of a name is the sequence of the primary weights of its collation
elements, a zero, the secondary weights, a zero, and the tertiary weights, where weights that are
zero are left out; keys are compared as sequences of numbers.

The elements are looked up from the front of the decomposed name, two code points at a time where
the table has a line for the pair.  A mark that follows at some distance may belong to what was
looked up: the nearest one that forms a pair with it is drawn forward, unless a mark of its own
class or a character that is no mark comes between.
-/

namespace SourceAtlas.Collation

open Text

/-- The line of the table for a sequence of code points. -/
def line? : List Nat → Option (List Element)
  | [code] => if inRanges ignoredRanges code then some [⟨0, 0, 0⟩] else singles.lookup code
  | [first, second] => pairs.lookup (first, second)
  | _ => none

/-- The longest start of a sequence that has a line: the start, its elements and the rest. -/
def longestLine (codes : List Nat) : List Nat × List Element × List Nat :=
  let single : List Nat × List Element × List Nat :=
    match codes with
    | [] => ([], [], [])
    | code :: rest =>
      match line? [code] with
      | some elements => ([code], elements, rest)
      | none => ([], [], codes)
  match codes with
  | first :: second :: rest =>
    match line? [first, second] with
    | some elements => ([first, second], elements, rest)
    | none => single
  | _ => single

/-- Draw a mark forward: the first one in a run of marks, each of another class than the one before
it, that has a line together with the start.  Yields the elements and the sequence without it. -/
def drawForward (start : List Nat) (latestClass : Nat) :
    List Nat → Option (List Element × List Nat)
  | [] => none
  | code :: rest =>
    let own := combiningClass code
    if own = 0 ∨ own = latestClass then none
    else
      match line? (start ++ [code]) with
      | some elements => some (elements, rest)
      | none =>
        (drawForward start own rest).map fun (elements, remaining) => (elements, code :: remaining)

/-- The ranges of ideographs of the first block, of the extensions, and of Tangut. -/
def unifiedRanges : List (Nat × Nat) :=
  [(0x4E00, 0x9FD5), (0xFA0E, 0xFA0F), (0xFA11, 0xFA11), (0xFA13, 0xFA14), (0xFA1F, 0xFA1F),
    (0xFA21, 0xFA21), (0xFA23, 0xFA24), (0xFA27, 0xFA29)]

/-- The ranges of ideographs outside the first block. -/
def extensionRanges : List (Nat × Nat) :=
  [(0x3400, 0x4DB5), (0x20000, 0x2A6D6), (0x2A700, 0x2B734), (0x2B740, 0x2B81D),
    (0x2B820, 0x2CEAF)]

/-- The elements of a code point without a line. -/
def implicitElements (code : Nat) : List Element :=
  if 0x17000 ≤ code && code ≤ 0x18AFF then
    [⟨0xFB00, 0x20, 2⟩, ⟨(code - 0x17000) ||| 0x8000, 0, 0⟩]
  else
    let base :=
      if inRanges unifiedRanges code then 0xFB40
      else if inRanges extensionRanges code then 0xFB80
      else 0xFBC0
    [⟨base + code / 0x8000, 0x20, 2⟩, ⟨code % 0x8000 ||| 0x8000, 0, 0⟩]

/-- The elements of a sequence.  Each round uses up a code point, so `fuel` rounds are enough if it
is at least the length of the sequence. -/
def elementsFrom : Nat → List Nat → List Element
  | 0, _ => []
  | _, [] => []
  | fuel + 1, codes =>
    let (start, elements, rest) := longestLine codes
    let (elements, rest) := (drawForward start 0 rest).getD (elements, rest)
    if elements.isEmpty then
      match rest with
      | [] => []
      | code :: rest => implicitElements code ++ elementsFrom fuel rest
    else elements ++ elementsFrom fuel rest

/-- The collation elements of a name. -/
def elements (name : String) : List Element :=
  let codes := decomposed name
  elementsFrom codes.length codes

/-- The sort key of a name. -/
def sortKey (name : String) : List Nat :=
  let elements := elements name
  let level := fun (weight : Element → Nat) => (elements.map weight).filter (· ≠ 0)
  level Element.primary ++ 0 :: level Element.secondary ++ 0 :: level Element.tertiary

end SourceAtlas.Collation
