import SourceAtlas.Path.Lexical

/-!
# Request targets

A request names what it is about by a target such as `/health`, `/health/?page=1` or
`http://host/health`.  `Target.path` is the path in it by which the service answers.

* What follows a question mark or a number sign does not matter, and neither does the host.
* Without a host, or without a scheme in front of it, the target is taken from the root of the
  service: any number of leading slashes counts as one.
* `.` segments are dropped, and `..` takes off the segment before it.  Empty segments count.
* `%` with two hexadecimal digits stands for a character.  Such escapes are undone twice, so an
  escaped percent sign can be the start of another escape.  Every path of the service is ASCII, so
  escapes of other bytes are left as they are.
* Slashes at the end do not matter; a slash that was written as an escape is one of them.
-/

namespace SourceAtlas.Target

/-! ## Escapes -/

/-- The value of a hexadecimal digit. -/
def hexValue? (c : Char) : Option Nat :=
  if '0' ≤ c ∧ c ≤ '9' then some (c.toNat - '0'.toNat)
  else if 'a' ≤ c ∧ c ≤ 'f' then some (c.toNat - 'a'.toNat + 10)
  else if 'A' ≤ c ∧ c ≤ 'F' then some (c.toNat - 'A'.toNat + 10)
  else none

/-- The ASCII character that two hexadecimal digits stand for. -/
def escaped? (high low : Char) : Option Char :=
  match hexValue? high, hexValue? low with
  | some h, some l => if 16 * h + l < 0x80 then some (Char.ofNat (16 * h + l)) else none
  | _, _ => none

/-- Undo the escapes in a text, once. -/
def unescape : List Char → List Char
  | '%' :: high :: low :: rest =>
    match escaped? high low with
    | some c => c :: unescape rest
    | none => '%' :: unescape (high :: low :: rest)
  | c :: rest => c :: unescape rest
  | [] => []
termination_by text => text.length

/-! ## Parts of a target -/

/-- A character of a scheme. -/
def isSchemeChar (c : Char) : Bool :=
  c.isAlphanum || c == '+' || c == '-' || c == '.'

/-- The text behind a scheme and its colon, if a text starts with a scheme. -/
def afterScheme? (text : List Char) : Option (List Char) :=
  match text.takeWhile isSchemeChar, text.dropWhile isSchemeChar with
  | c :: _, ':' :: rest => if c.isAlpha then some rest else none
  | _, _ => none

/-- The host behind two slashes, and the text behind it. -/
def splitHost (text : List Char) : List Char × List Char :=
  match text with
  | '/' :: '/' :: rest => (rest.takeWhile (· ≠ '/'), rest.dropWhile (· ≠ '/'))
  | text => ([], text)

/-- The path as it is written in a target. -/
def writtenPath (target : String) : List Char :=
  let text := target.toList.takeWhile fun c => c ≠ '?' ∧ c ≠ '#'
  let (host, path) := splitHost ((afterScheme? text).getD text)
  if (afterScheme? text).isSome ∧ host ≠ [] then path else '/' :: path.dropWhile (· = '/')

/-- Put a segment on the stack of the segments so far, latest first. -/
def push (stack : List String) (segment : String) : List String :=
  if segment = "." then stack
  else if segment = ".." then stack.drop 1
  else segment :: stack

/-- A path without `.` and `..` segments.  The slash it starts with stays. -/
def withoutDots (path : String) : String :=
  match Path.segments path with
  | first :: rest => Path.ofSegments (first :: (rest.foldl push []).reverse)
  | [] => path

/-- The path that a target leads to. -/
def path (target : String) : String :=
  let written := withoutDots (String.ofList (writtenPath target))
  let plain := unescape (unescape written.toList)
  String.ofList (plain.reverse.dropWhile (· = '/')).reverse

example : path "/health/?page=1" = "/health" ∧ path "/%68ealth%2F#x" = "/health" ∧
    path "//health" = "" ∧ path "http://host/a/../b" = "/b" := by decide +kernel

end SourceAtlas.Target
