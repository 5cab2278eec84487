import SourceAtlas.Text.CaseTable
import SourceAtlas.Text.Ranges

/-!
# Lower and upper case

File extensions are compared in lower case, by the full rules of Unicode: a capital dotted I becomes
two characters, and a capital sigma becomes the final form at the end of a word.

`lower` is the map.  On ASCII it changes the letters `A` to `Z` only.

`upperAscii?` is the upper-case form of a text, provided that it is ASCII.  That is all that is
needed to look up a name which is ASCII itself; besides the ASCII characters, ten others have such a
form.
-/

namespace SourceAtlas.Text

/-- The lower-case form of a character that has one of a single character, else the character. -/
def lowerSimple (c : Char) : Char :=
  match lowerRuns.find? fun run =>
      run.first ≤ c.toNat && c.toNat ≤ run.last && (c.toNat - run.first) % run.stride == 0 with
  | some run => Char.ofNat (c.toNat + run.shift).toNat
  | none => c

/-- Whether the first character that is not case-ignorable is a cased one. -/
def startsCased (text : List Char) : Bool :=
  match text.dropWhile fun c => inRanges caseIgnorableRanges c.toNat with
  | [] => false
  | c :: _ => inRanges casedRanges c.toNat

/-- The lower-case form of a character between the text before it, nearest character first, and
the text after it.  A capital sigma ends a word when a cased character comes before it and none
comes after it, case-ignorable characters skipped on both sides. -/
def lowerAt (before : List Char) (c : Char) (after : List Char) : List Char :=
  if c.toNat < 0x80 then [c.toLower]
  else if c = '\u03a3' then
    [if startsCased before && !startsCased after then '\u03c2' else '\u03c3']
  else if c = '\u0130' then ['i', '\u0307']
  else [lowerSimple c]

/-- Lower-case a text that follows other text, which is given nearest character first. -/
def lowerFrom (before : List Char) : List Char → List Char
  | [] => []
  | c :: rest => lowerAt before c rest ++ lowerFrom (c :: before) rest

/-- The lower-case form of a text. -/
def lower (text : String) : String :=
  String.ofList (lowerFrom [] text.toList)

/-- The characters outside ASCII whose upper-case form is ASCII. -/
def asciiCapitals : List (Char × String) :=
  [('\u00df', "SS"), ('\u0131', "I"), ('\u017f', "S"), ('\ufb00', "FF"), ('\ufb01', "FI"),
    ('\ufb02', "FL"), ('\ufb03', "FFI"), ('\ufb04', "FFL"), ('\ufb05', "ST"), ('\ufb06', "ST")]

/-- The upper-case form of a character if it is ASCII. -/
def upperAsciiChar? (c : Char) : Option (List Char) :=
  if c.toNat < 0x80 then some [c.toUpper] else (asciiCapitals.lookup c).map String.toList

/-- The upper-case form of a text if it is ASCII. -/
def upperAscii? (text : String) : Option String :=
  (text.toList.mapM upperAsciiChar?).map fun parts => String.ofList parts.flatten

example : upperAscii? "warn\u0131ng" = some "WARNING" ∧ upperAscii? "é" = none := by
  decide +kernel
example : lower ".ΑΣ" = ".ας" ∧ lower ".Σ" = ".σ" ∧ lower ".JsX" = ".jsx" := by decide +kernel

end SourceAtlas.Text
