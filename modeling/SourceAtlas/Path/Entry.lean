import SourceAtlas.Path.Lexical

/-!
# Paths of archive entries

An archive names its entries freely.  `EntryPath.ofRaw` accepts a name only if it describes a place
below the directory the archive is unpacked into: the normal form must be relative, must hold a
name, must not start with a drive letter and must not climb out.  A backslash separates segments
like a slash.

What is accepted is handed on as the list of its segments, each of them an ordinary name.
-/

namespace SourceAtlas

/-- Why the name of an archive entry is refused. -/
inductive EntryPathFault
  | empty
  | absolute
  | climbs
deriving DecidableEq, Repr

namespace EntryPath

/-- Whether a segment starts with an ASCII letter and a colon. -/
def startsWithDrive (segment : String) : Bool :=
  match segment.toList with
  | letter :: ':' :: _ => letter.isAlpha
  | _ => false

/-- The segments of the canonical form of an entry name. -/
def ofRaw (raw : String) : Except EntryPathFault (List String) :=
  let path := Path.slashed raw
  let names := Path.collapse (Path.isAbsolute path) (Path.segments path)
  if Path.isAbsolute path then .error .absolute
  else
    match names with
    | [] => .error .empty
    | first :: _ =>
      if startsWithDrive first then .error .absolute
      else if ".." ∈ names then .error .climbs
      else .ok names

end EntryPath

end SourceAtlas
