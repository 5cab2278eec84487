import SourceAtlas.Files.Removal
import SourceAtlas.Project.Scan

/-!
# Sweeping a directory

What has been left behind in a directory is removed by its age: `sweepDirectory` removes every entry
whose time of modification lies at least a lifetime back.  The time of a link is that of what it
leads to, but only the link itself is removed; a link that leads nowhere is passed over.

The names are listed once, at the start, and gone through in order.  The first refusal of the file
system ends the sweep.
-/

namespace SourceAtlas

/-- The time at which what a path leads to was last modified, or `none` if it leads nowhere. -/
def modificationTime (path : String) : Action (Option Binary64) := do
  let fs ← get
  match fs.locate true path with
  | .ok location => return some (fs.modified location)
  | .error (.os .notFound) => return none
  | .error fault => throw (.file fault)

/-- Remove an entry if it is old enough.  Yields how many entries were removed. -/
def sweepEntry (lifetime now : Binary64) (path : String) : Action Nat := do
  match ← modificationTime path with
  | none => return 0
  | some time =>
    if lifetime.le (now - time) then
      return if ← Action.removePath (some path) then 1 else 0
    else return 0

/-- Remove the entries that are old enough.  Yields how many were removed. -/
def sweepEntries (lifetime now : Binary64) : List String → Action Nat
  | [] => return 0
  | path :: paths => do
    let removed ← sweepEntry lifetime now path
    return removed + (← sweepEntries lifetime now paths)

/-- Remove the entries of a directory that are old enough.  A path that leads to no directory has no
entries. -/
def sweepDirectory (directory : String) (lifetime now : Binary64) : Action Nat := do
  let fs ← get
  match fs.locate true directory with
  | .error _ => return 0
  | .ok location =>
    if fs.isDirectory location then
      sweepEntries lifetime now
        ((sortTexts (fs.names location)).map fun name => Path.append directory name)
    else return 0

end SourceAtlas
