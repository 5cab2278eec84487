import SourceAtlas.Path.Lexical

/-!
# Paths taken apart

A `PurePath` is a path as a list of names below an anchor.  Empty segments, `.` and trailing slashes
carry no meaning and are gone; `..` stays, because what it leads to is a question for the file
system.
-/

namespace SourceAtlas

/-- A path below an anchor: `slashes` is `0` for a relative path, `2` for one that starts with
exactly two slashes and `1` for any other absolute one. -/
structure PurePath where
  slashes : Nat
  names : List String
deriving DecidableEq, Repr

namespace PurePath

/-- The names and the anchor of a path text. -/
def ofString (path : String) : PurePath :=
  ⟨Path.leadingSlashes path.toList,
    (Path.segments path).filter fun segment => segment ≠ "" ∧ segment ≠ "."⟩

/-- The text of a path. -/
def toString (path : PurePath) : String :=
  if path.slashes = 0 ∧ path.names = [] then "."
  else String.ofList (List.replicate path.slashes '/') ++ Path.ofSegments path.names

/-- The path to the directory that holds the last name. -/
def parent (path : PurePath) : PurePath :=
  { path with names := path.names.dropLast }

/-- Whether a path is the root or lies below it, judged by the names alone. -/
def isWithin (root target : PurePath) : Bool :=
  root.slashes == target.slashes && root.names.isPrefixOf target.names

theorem isWithin_iff {slashes : Nat} {root target : List String} :
    isWithin ⟨slashes, root⟩ ⟨slashes, target⟩ = true ↔ root <+: target := by
  simp [isWithin]

end PurePath

end SourceAtlas
