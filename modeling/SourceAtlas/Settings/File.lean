import SourceAtlas.Text.Blank
import SourceAtlas.Text.Newlines

/-!
# Settings files

A settings file binds names to values, one binding a line:

* `NAME=value`, with blanks around the equals sign and `export` in front of the name if one likes;
* a value between single or double quotes may go over several lines and may hold escapes;
* an unquoted value ends at the end of its line or at a `#` that follows a blank;
* a line may be empty, hold a comment that starts with `#`, or hold a name alone, which then has no
  value.

A line that has none of these forms is skipped from where it goes wrong to its end.  A byte order
mark at the very start of the file is no part of its first line.

## Reading

`line` reads one line and `bindings` all of them.  Reading works on the list of the
characters that are left; each step takes off what it has read.
-/

namespace SourceAtlas.Settings

open Text

/-- A binding of a name to a value, or to none. -/
structure Binding where
  name : String
  value : Option String
deriving DecidableEq, Repr

/-- A blank that does not end a line. -/
def isSpace (c : Char) : Bool :=
  isBlank c && c ≠ '\n' && c ≠ '\r'

/-- A character that ends a line. -/
def isLineEnd (c : Char) : Bool :=
  c == '\n' || c == '\r'

/-- Drop the blanks in front, as far as the line goes. -/
def skipSpaces (text : List Char) : List Char :=
  text.dropWhile isSpace

/-- Drop the rest of a line with its end. -/
def skipLine (text : List Char) : List Char :=
  (text.dropWhile fun c => !isLineEnd c).drop 1

/-! ## Values -/

/-- The body of a quoted text, read from behind its opening quote, and the text behind its closing
one.  A backslash takes the character behind it into the body, whatever it is, so the text ends at
the first quote that is not taken in. -/
def quotedBody? (quote : Char) : List Char → Option (List Char × List Char)
  | [] => none
  | c :: rest =>
    if c = quote then some ([], rest)
    else if c = '\\' then
      match rest with
      | [] => none
      | next :: rest => (quotedBody? quote rest).map fun (body, rest) => (c :: next :: body, rest)
    else (quotedBody? quote rest).map fun (body, rest) => (c :: body, rest)

/-- The character that an escape between single quotes stands for. -/
def singleEscape? (c : Char) : Option Char :=
  if c = '\\' ∨ c = '\'' then some c else none

/-- The character that an escape between double quotes stands for. -/
def doubleEscape? (c : Char) : Option Char :=
  match c with
  | '\\' | '\'' | '"' => some c
  | 'a' => some '\x07'
  | 'b' => some '\x08'
  | 'f' => some '\x0c'
  | 'n' => some '\n'
  | 'r' => some '\r'
  | 't' => some '\t'
  | 'v' => some '\x0b'
  | _ => none

/-- Replace the escapes in a text.  A backslash that starts no escape stays. -/
def unescape (escape? : Char → Option Char) : List Char → List Char
  | '\\' :: c :: rest =>
    match escape? c with
    | some character => character :: unescape escape? rest
    | none => '\\' :: unescape escape? (c :: rest)
  | c :: rest => c :: unescape escape? rest
  | [] => []
termination_by text => text.length

/-- The part of a line before a comment, which is a `#` that follows a blank. -/
def beforeComment : List Char → List Char
  | c :: '#' :: rest => if isBlank c then [] else c :: beforeComment ('#' :: rest)
  | c :: rest => c :: beforeComment rest
  | [] => []

/-- An unquoted value: what the line holds before a comment, without the blanks around it. -/
def plainValue (line : List Char) : List Char :=
  trimEnd (trimStart (beforeComment line))

/-- The value in a text that follows an equals sign, and what follows the value.  The blanks behind
the equals sign may be the ones that a comment follows. -/
def value? (text : List Char) : Option (List Char × List Char) :=
  match skipSpaces text with
  | '\'' :: rest =>
    (quotedBody? '\'' rest).map fun (body, rest) => (unescape singleEscape? body, rest)
  | '"' :: rest =>
    (quotedBody? '"' rest).map fun (body, rest) => (unescape doubleEscape? body, rest)
  | _ =>
    some (plainValue (text.takeWhile fun c => !isLineEnd c), text.dropWhile fun c => !isLineEnd c)

/-! ## Bindings -/

/-- Drop the word `export` and the blanks behind it, of which there must be one. -/
def skipExport (text : List Char) : List Char :=
  match text with
  | 'e' :: 'x' :: 'p' :: 'o' :: 'r' :: 't' :: c :: rest =>
    if isSpace c then skipSpaces rest else text
  | text => text

/-- A character of an unquoted name. -/
def isNameChar (c : Char) : Bool :=
  c ≠ '=' && c ≠ '#' && !isBlank c

/-- What stands for the name at the start of a text, and what follows it: nothing before a comment,
a text between single quotes, or a run of name characters. -/
def name? (text : List Char) : Option (Option (List Char) × List Char) :=
  match text with
  | '#' :: _ => some (none, text)
  | '\'' :: rest =>
    match rest.takeWhile (· ≠ '\''), rest.dropWhile (· ≠ '\'') with
    | c :: name, _ :: rest => some (some (c :: name), rest)
    | _, _ => none
  | text =>
    match text.takeWhile isNameChar with
    | [] => none
    | name => some (some name, text.dropWhile isNameChar)

/-- What follows a name: an equals sign with a value, or nothing. -/
def assignment? (text : List Char) : Option (Option (List Char) × List Char) :=
  match skipSpaces text with
  | '=' :: rest => (value? rest).map fun (value, rest) => (some value, rest)
  | text => some (none, text)

/-- The text behind the end of a line, where a comment may come first but nothing else. -/
def lineEnd? (text : List Char) : Option (List Char) :=
  let text :=
    match skipSpaces text with
    | '#' :: rest => rest.dropWhile fun c => !isLineEnd c
    | rest => rest
  match text with
  | [] => some []
  | c :: rest => if isLineEnd c then some rest else none

/-- The outcome of reading a line: the binding in it, if there is one, and the text behind it. -/
abbrev Line := Option Binding × List Char

/-- Read a binding, from behind the blanks in front of it.  If it goes wrong, the line is skipped
from there on. -/
def line (text : List Char) : Line :=
  let start := skipExport text
  match name? start with
  | none => (none, skipLine start)
  | some (name, afterName) =>
    match assignment? afterName with
    | none => (none, skipLine (skipSpaces ((skipSpaces afterName).drop 1)))
    | some (value, afterValue) =>
      match lineEnd? afterValue with
      | none => (none, skipLine (skipSpaces afterValue))
      | some rest =>
        (name.map fun name => ⟨String.ofList name, value.map String.ofList⟩, rest)

/-- Read all bindings.  Each line takes up at least one character, so `fuel` lines are enough if it
is the length of the text. -/
def bindingsFrom : Nat → List Char → List Binding
  | 0, _ => []
  | fuel + 1, text =>
    match trimStart text with
    | [] => []
    | c :: rest =>
      match line (c :: rest) with
      | (some binding, rest) => binding :: bindingsFrom fuel rest
      | (none, rest) => bindingsFrom fuel rest

/-- A text without the byte order mark that it may start with. -/
def skipMark (text : List Char) : List Char :=
  match text with
  | '\ufeff' :: rest => rest
  | text => text

/-- The bindings of a settings file, in order. -/
def bindings (content : String) : List Binding :=
  let text := unifyNewlines (skipMark content.toList)
  bindingsFrom text.length text

example : bindings "# c\nexport A = 1 # x\n'B'=\"x\\ty\"\nC" =
    [⟨"A", some "1"⟩, ⟨"B", some "x\ty"⟩, ⟨"C", none⟩] := by decide +kernel
example : bindings "A= # c\nB=# c\nC='x\\\\' # it's\nD='x\\'\nE=e" =
    [⟨"A", some ""⟩, ⟨"B", some "# c"⟩, ⟨"C", some "x\\"⟩, ⟨"E", some "e"⟩] := by decide +kernel

end SourceAtlas.Settings
