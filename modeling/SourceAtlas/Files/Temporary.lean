import SourceAtlas.Failure

/-!
# Temporary directories

A temporary directory has a name that was vacant before.  The names that come into question are
numbered, and the first vacant one is taken; since each name that is not vacant is taken up by an
entry of its own, it is found among as many names as there are entries, and one more.
-/

namespace SourceAtlas

/-- The directory in which temporary directories are made. -/
def temporaryRoot : String := "/tmp"

/-- The path of a temporary directory by its number. -/
def temporaryPath (index : Nat) : String :=
  Path.append temporaryRoot ("source-atlas-" ++ toString index)

namespace FileSystem

/-- The first of `count` numbers, from `index` on, whose path is vacant. -/
def vacantIndex (fs : FileSystem) : Nat → Nat → Nat
  | 0, index => index
  | count + 1, index =>
    match fs.locate false (temporaryPath index) with
    | .ok _ => fs.vacantIndex count (index + 1)
    | .error _ => index

end FileSystem

/-- Make a temporary directory.  Yields its path. -/
def Action.makeTemporary : Action String := do
  let fs ← get
  let path := temporaryPath (fs.vacantIndex fs.entries.length 0)
  Action.change fun fs => fs.makeDirectory path
  return path

end SourceAtlas
