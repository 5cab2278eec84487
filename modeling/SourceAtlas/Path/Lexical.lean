import SourceAtlas.Text.Case
import SourceAtlas.Text.Segments

/-!
# Paths as texts

What can be said about a path without looking at any file: its segments, its normal form, its
directory and last name, its extension, and the relative path from one place to another.

* `normalize` drops empty and `.` segments and lets `..` cancel the segment before it.  A path that
  starts at the root cannot be left through `..`.  Exactly two leading slashes are kept as they
  are, any other number becomes one.
* `join` appends a path, which starts anew if it is absolute.
* `directory`, `base` and `extension` take a path apart.
-/

namespace SourceAtlas.Path

open Text

/-- The segments between the slashes, empty ones included. -/
def segments (path : String) : List String :=
  pieces '/' path

/-- Segments put together with slashes. -/
def ofSegments (parts : List String) : String :=
  join '/' parts

/-- A path that starts at the root. -/
def isAbsolute (path : String) : Bool :=
  match path.toList with
  | '/' :: _ => true
  | _ => false

/-- Every backslash read as a slash. -/
def slashed (path : String) : String :=
  String.ofList (path.toList.map fun c => if c = '\\' then '/' else c)

/-- How many leading slashes the normal form of a path has. -/
def leadingSlashes : List Char → Nat
  | '/' :: '/' :: '/' :: _ => 1
  | '/' :: '/' :: _ => 2
  | '/' :: _ => 1
  | _ => 0

/-- Put a segment on the stack of the segments walked so far, latest first.  `..` takes the latest
one off; with nothing to take off it stays, or vanishes below a root. -/
def push (rooted : Bool) (stack : List String) (segment : String) : List String :=
  if segment = "" ∨ segment = "." then stack
  else if segment = ".." then
    match stack with
    | [] => if rooted then [] else [".."]
    | latest :: earlier => if latest = ".." then ".." :: stack else earlier
  else segment :: stack

/-- The segments of the normal form. -/
def collapse (rooted : Bool) (parts : List String) : List String :=
  (parts.foldl (push rooted) []).reverse

/-- The normal form of a path; `.` if nothing is left. -/
def normalize (path : String) : String :=
  let slashes := leadingSlashes path.toList
  let body := ofSegments (collapse (slashes != 0) (segments path))
  let text := String.ofList (List.replicate slashes '/') ++ body
  if text = "" then "." else text

/-- A path followed by another one. -/
def append (path other : String) : String :=
  if isAbsolute other then other
  else if path = "" then other
  else if path.toList.getLast? = some '/' then path ++ other
  else path ++ "/" ++ other

/-- The text before the last slash, that slash included, and the text after it. -/
def splitLast (path : String) : List Char × List Char :=
  let reversed := path.toList.reverse
  ((reversed.dropWhile (· ≠ '/')).reverse, (reversed.takeWhile (· ≠ '/')).reverse)

/-- A head without its trailing slashes, unless it consists of slashes only. -/
def trimHead (head : List Char) : List Char :=
  if head.all (· = '/') then head else (head.reverse.dropWhile (· = '/')).reverse

/-- The directory of a path, without trailing slashes unless it is a root. -/
def directory (path : String) : String :=
  String.ofList (trimHead (splitLast path).1)

/-- The last segment of a path. -/
def base (path : String) : String :=
  String.ofList (splitLast path).2

/-- The extension of the last segment: from its last dot on, where a dot counts only if a character
other than a dot stands before it. -/
def extension (path : String) : String :=
  let name := (splitLast path).2
  let stem := name.dropWhile (· = '.')
  let reversed := stem.reverse
  if stem.contains '.' then String.ofList ('.' :: (reversed.takeWhile (· ≠ '.')).reverse) else ""

/-- The extension in lower case, by which files are classified. -/
def lowerExtension (path : String) : String :=
  lower (extension path)

/-- A path made absolute and normal: a relative one starts at the given directory. -/
def absolute (workingDirectory path : String) : String :=
  normalize (append workingDirectory path)

/-- How many leading segments two paths share. -/
def sharedLength : List String → List String → Nat
  | a :: as, b :: bs => if a = b then sharedLength as bs + 1 else 0
  | _, _ => 0

/-- The path from one directory to a file, both given by any path: up from the directory to the
last shared segment, then down to the file.  `none` for an empty file path. -/
def relative? (workingDirectory root file : String) : Option String :=
  if file = "" then none
  else
    let names (path : String) := (segments (absolute workingDirectory path)).filter (· ≠ "")
    let start := names root
    let goal := names file
    let shared := sharedLength start goal
    let steps := List.replicate (start.length - shared) ".." ++ goal.drop shared
    some (if steps.isEmpty then "." else ofSegments steps)

example : normalize "//a/./b/../c//" = "//a/c" ∧ normalize "../x/../.." = "../.." ∧
    normalize "///.." = "/" := by decide +kernel
example : extension "a/..b.c" = ".c" ∧ extension "...js" = "" ∧ extension "x." = "." := by
  decide +kernel

end SourceAtlas.Path
