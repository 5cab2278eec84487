import SourceAtlas.Archive.Content
import SourceAtlas.Cleanup.Scheduler
import SourceAtlas.Collation.SortKey

/-!
# Libraries

What is left to other libraries: the order of names in a file tree, the decoding of packings other
than deflate, and the scheduling of sweeps.  Everything that depends on one of them takes it as an
argument, and nothing is assumed of them except where it is said.

`Libraries.own` is what is at hand without other libraries.
-/

namespace SourceAtlas

/-- What is left to other libraries. -/
structure Libraries where
  /-- The key that names are sorted by. -/
  sortKey : String → List Nat
  /-- The decoders of packed data. -/
  codecs : Codecs
  /-- The scheduler of periodic sweeps. -/
  scheduler : Scheduler

/-- Names in the order of the tables in `Collation`, no decoders, and a scheduler that goes by the
calendar. -/
def Libraries.own : Libraries where
  sortKey := Collation.sortKey
  codecs := .absent
  scheduler := .calendar

end SourceAtlas
