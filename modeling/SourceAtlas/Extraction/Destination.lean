import SourceAtlas.Failure

/-!
# Where an entry goes

The destination of an archive entry is checked twice, by its name and by its place.  The name must
describe a place below the extraction root (`EntryPath.ofRaw`); the place that the name leads to,
with all links resolved, must lie strictly below the resolved root.
-/

namespace SourceAtlas

/-- The place of an entry below an extraction root. -/
def resolveDestination (root raw : String) : Action Location := do
  match EntryPath.ofRaw raw with
  | .error fault => throw (.archive (.ofUnsafe raw (.name fault)))
  | .ok names => do
    let base ← Action.resolve root
    let destination ← Action.resolve (Location.toPath (base ++ names))
    if (PurePath.mk 1 base).isWithin ⟨1, destination⟩ && destination != base then return destination
    else throw (.archive (.ofUnsafe raw .escapes))

end SourceAtlas
