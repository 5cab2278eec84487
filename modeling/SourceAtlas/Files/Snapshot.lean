import SourceAtlas.Files.Basic

/-!
# Snapshots

A file system that is kept elsewhere is brought in as a list of records, one for each entry that was
seen (`FileSystem.ofRecords`).  After a run, `FileSystem.vanished` lists the entries that are gone,
each one before the directory that held it, so that they can be removed one by one.
-/

namespace SourceAtlas

/-- The locations on the way down from the root to a location, the root itself left out. -/
def Location.way (location : Location) : List Location :=
  (List.range location.length).map fun depth => location.take (depth + 1)

/-- An entry that was seen at a location. -/
structure Record where
  location : Location
  node : Node
  modified : Binary64

namespace FileSystem

/-- The file system that records describe.  A directory is recorded before what it holds; of two
records for one location the first one counts. -/
def ofRecords (workingDirectory : Location) (present : Binary64) (records : List Record) :
    FileSystem :=
  { records.foldl (fun fs record => fs.insert record.location record.node)
      (empty workingDirectory present) with
    stamps := records.map fun record => (record.location, record.modified) }

/-- The locations of the entries that are gone afterwards, those that lie deepest first. -/
def vanished (before after : FileSystem) : List Location :=
  ((before.entries.map Prod.fst).filter fun location => (after.get? location).isNone).mergeSort
    fun first second => second.length ≤ first.length

end FileSystem

end SourceAtlas
