/-!
# Blank characters

One class of blank characters serves the whole library: it separates the words of an import
statement, it is what `trim` takes off both ends of a setting, and it ends an unquoted value of a
settings file.  It holds the separators and spaces of Unicode and the five ASCII layout controls
together with the four ASCII information separators `U+001C`–`U+001F`.

`isBlank` is the class, `trimStart`, `trimEnd` and `trim` remove it.
-/

namespace SourceAtlas.Text

/-- Whether a character counts as white space. -/
def isBlank (c : Char) : Bool :=
  let n := c.toNat
  (9 ≤ n && n ≤ 13) || (0x1C ≤ n && n ≤ 0x20) || n == 0x85 || n == 0xA0 || n == 0x1680 ||
    (0x2000 ≤ n && n ≤ 0x200A) || n == 0x2028 || n == 0x2029 || n == 0x202F || n == 0x205F ||
    n == 0x3000

/-- Drop the leading blanks. -/
def trimStart (text : List Char) : List Char :=
  text.dropWhile isBlank

/-- Drop the trailing blanks. -/
def trimEnd (text : List Char) : List Char :=
  (text.reverse.dropWhile isBlank).reverse

/-- Drop the blanks at both ends. -/
def trim (text : String) : String :=
  String.ofList (trimEnd (trimStart text.toList))

theorem trimStart_of_not_blank {c : Char} {rest : List Char} (h : isBlank c = false) :
    trimStart (c :: rest) = c :: rest := by
  simp [trimStart, h]

/-- What `trimStart` drops is blank and what it keeps is the rest. -/
theorem takeWhile_append_trimStart (text : List Char) :
    text.takeWhile isBlank ++ trimStart text = text := by
  simp [trimStart]

end SourceAtlas.Text
