import SourceAtlas.Failure

/-!
# Removing a path

`removePath` removes whatever a path names: a directory with everything below it, or anything else
by its name alone, so that what a link points to is kept.  A path that is missing is no failure; the
result tells whether there was something to remove.

A path that leads through a link to a directory and names it by a trailing slash empties the
directory before the removal of the name itself is refused.
-/

namespace SourceAtlas.Action

/-- Empty the directory at a path and remove it. -/
def removeTree (path : String) : Action Unit := do
  let location ← query fun fs => fs.locate false path
  modify fun fs => fs.eraseBelow location
  change fun fs => fs.removeDirectory path

/-- Remove a directory with its content, or the name of anything else. -/
def removeEntry (path : String) : Action Unit := do
  let fs ← get
  if fs.leadsToDirectory path && !fs.leadsToLink path then removeTree path
  else change fun fs => fs.unlink path

/-- Remove what a path names, and tell whether there was anything. -/
def removePath : Option String → Action Bool
  | none => pure false
  | some path =>
    if path = "" then pure false
    else
      tryCatch (do removeEntry path; return true) fun failure =>
        if failure = .file (.os .notFound) then pure false else throw failure

end SourceAtlas.Action
