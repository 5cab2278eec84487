import SourceAtlas.Text.Blank

/-!
# Import specifiers in source text

A source file of the JavaScript family names the modules it uses by quoted specifiers.  Three
spellings are recognised, by a scan of the text and not by a parser:

* `import … from "x"`: the word `import`, blanks, a gap without a semicolon, a blank, the word
  `from`, blanks, and a quoted specifier;
* `import "x"`: the word `import`, blanks, and a quoted specifier;
* `require("x")`: the word `require`, an opening parenthesis, and a quoted specifier with optional
  blanks around it, and a closing parenthesis.

A quoted specifier is a non-empty run of characters other than quotes between two quotes, single or
double, which need not be the same.

## Which match is taken

The text is scanned for each spelling from left to right; after a match the scan goes on behind it.
At one place the blanks after `import` are taken as long as possible and the gap as short as
possible; only when no gap fits are the blanks taken shorter, by one each time.
-/

namespace SourceAtlas.Imports

open Text

/-- A single or double quotation mark. -/
def isQuote (c : Char) : Bool :=
  c == '"' || c == '\''

/-- What a text holds after a given start, if it has that start. -/
def after? (start text : List Char) : Option (List Char) :=
  if start.isPrefixOf text then some (text.drop start.length) else none

/-- A match: the specifier and the text behind the match. -/
structure Match where
  specifier : List Char
  rest : List Char

/-- A quoted specifier at the start of a text. -/
def quoted? : List Char → Option Match
  | [] => none
  | c :: text =>
    if isQuote c then
      let specifier := text.takeWhile fun c => !isQuote c
      match text.dropWhile fun c => !isQuote c with
      | [] => none
      | _ :: rest => if specifier.isEmpty then none else some ⟨specifier, rest⟩
    else none

/-- Blanks, at least one, and a quoted specifier. -/
def spacedQuoted? : List Char → Option Match
  | [] => none
  | c :: text => if isBlank c then quoted? (trimStart text) else none

/-- The word `from` and a quoted specifier, with blanks between them. -/
def fromQuoted? (text : List Char) : Option Match :=
  (after? "from".toList text).bind spacedQuoted?

/-- The shortest gap without a semicolon that is followed by a blank and a `from` with its
specifier. -/
def gapFrom? : List Char → Option Match
  | [] => none
  | c :: text =>
    match if isBlank c then fromQuoted? text else none with
    | some found => some found
    | none => if c = ';' then none else gapFrom? text

/-- Give back blanks, latest first, until a gap fits.  `given` holds the blanks that can still be
given back, latest first. -/
def backtrack? (given : List Char) (text : List Char) : Option Match :=
  match gapFrom? text with
  | some found => some found
  | none =>
    match given with
    | [] => none
    | blank :: given => backtrack? given (blank :: text)

/-- `import … from "x"` at the start of a text.  The first blank is never given back. -/
def importFrom? (text : List Char) : Option Match :=
  match after? "import".toList text with
  | none => none
  | some rest =>
    match (rest.takeWhile isBlank).reverse with
    | [] => none
    | blanks => backtrack? blanks.dropLast (trimStart rest)

/-- `import "x"` at the start of a text. -/
def importBare? (text : List Char) : Option Match :=
  (after? "import".toList text).bind spacedQuoted?

/-- `require("x")` at the start of a text. -/
def require? (text : List Char) : Option Match := do
  let rest ← after? "require(".toList text
  let found ← quoted? (trimStart rest)
  match trimStart found.rest with
  | ')' :: rest => some ⟨found.specifier, rest⟩
  | _ => none

/-- The specifiers of all matches of a spelling, from left to right.  Each match is at least one
character long, so `fuel` places are enough if it is the length of the text. -/
def scanWith (pattern : List Char → Option Match) : Nat → List Char → List (List Char)
  | 0, _ => []
  | _, [] => []
  | fuel + 1, c :: text =>
    match pattern (c :: text) with
    | some found => found.specifier :: scanWith pattern fuel found.rest
    | none => scanWith pattern fuel text

/-- The specifiers of all matches of a spelling in a text. -/
def matchesOf (pattern : List Char → Option Match) (text : List Char) : List (List Char) :=
  scanWith pattern text.length text

/-- The specifiers of a text, without repetition: those of imports with `from`, of bare imports and
of requires, each in the order of the text. -/
def specifiers (text : List Char) : List String :=
  ((matchesOf importFrom? text ++ matchesOf importBare? text ++ matchesOf require? text).map
    String.ofList).eraseDups

/-- A specifier that names a place relative to the importing file. -/
def isLocal (specifier : String) : Bool :=
  "./".toList.isPrefixOf specifier.toList || "../".toList.isPrefixOf specifier.toList

/-- The specifiers of a text that name places relative to it. -/
def localSpecifiers (text : List Char) : List String :=
  (specifiers text).filter isLocal

end SourceAtlas.Imports
