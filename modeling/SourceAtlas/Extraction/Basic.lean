import SourceAtlas.Archive.Member
import SourceAtlas.Config.Basic
import SourceAtlas.Extraction.Destination
import SourceAtlas.Files.Directories

/-!
# Extracting an archive

`extract` writes the entries of an archive below a directory that must not exist yet.  Every entry
that is not a directory is held, in this order, against the limit on the number of files, the limits
on declared sizes, and the checks on its path; then its content is written portion by portion, each
portion counted against the limits on real sizes before it is written.  Declared sizes are only a
quick test in advance, what is counted while writing decides.

A failed extraction leaves what it has written; whoever asked for it removes the directory.
-/

namespace SourceAtlas

/-- A record of an archive.  Neither the path nor the declared size is to be trusted; `open` starts
reading the content. -/
structure ArchiveEntry where
  path : String
  declaredSize : Option Int
  isDirectory : Bool
  content : Unit → Except Failure Stream

/-- The entries of an archive in order, and the failure that ends the listing unless it is
complete. -/
structure Listing where
  entries : List ArchiveEntry
  failure : Option Failure

namespace Extraction

/-- What has been counted so far: files, their declared sizes and the bytes written. -/
structure Tally where
  files : Int
  declared : Int
  written : Int

/-- Nothing counted yet. -/
def Tally.zero : Tally := ⟨0, 0, 0⟩

/-- What a portion of a file breaches, given the bytes of this file with the portion and the bytes
of the files before it. -/
def breach? (config : Config) (writtenBefore size : Int) : Option Limit :=
  if config.maxFileBytes < size then some .fileSize
  else if config.maxTotalBytes < writtenBefore + size then some .totalSize
  else none

/-- Take in the portions of a content as far as the limits admit them.  Yields the bytes taken in
and what stopped it, if anything did.  An empty portion is the end of the content. -/
def takeIn (config : Config) (path : String) (writtenBefore : Int) (failure : Option Failure) :
    ByteArray → List ByteArray → ByteArray × Option Failure
  | taken, [] => (taken, failure)
  | taken, chunk :: chunks =>
    if chunk.size = 0 then (taken, none)
    else
      match breach? config writtenBefore (taken.size + chunk.size) with
      | some limit => (taken, some (.archive (.ofLimit path limit)))
      | none => takeIn config path writtenBefore failure (taken ++ chunk) chunks

/-- Write the content of an entry.  Yields the number of bytes. -/
def writeEntry (config : Config) (entry : ArchiveEntry) (destination : Location)
    (writtenBefore : Int) : Action Int := do
  match entry.content () with
  | .error failure => throw failure
  | .ok stream => do
    let place ← Action.changeAt fun fs => fs.openForWriting destination.toPath
    let (content, failure) :=
      takeIn config entry.path writtenBefore stream.failure .empty stream.chunks
    modify fun fs => fs.overwrite place content
    match failure with
    | some failure => throw failure
    | none => return content.size

/-- Hold an entry against the limits that can be checked before its content is read.  Yields the
declared sizes so far. -/
def checkDeclared (config : Config) (tally : Tally) (entry : ArchiveEntry) : Except Limit Int :=
  let declared := entry.declaredSize.getD 0
  if config.maxFiles < tally.files + 1 then .error .fileCount
  else if config.maxFileBytes < declared then .error .declaredFileSize
  else if config.maxTotalBytes < tally.declared + declared then .error .declaredTotalSize
  else .ok (tally.declared + declared)

/-- Extract one entry that is not a directory. -/
def extractEntry (config : Config) (root : String) (tally : Tally) (entry : ArchiveEntry) :
    Action Tally := do
  match checkDeclared config tally entry with
  | .error limit => throw (.archive (.ofLimit entry.path limit))
  | .ok declared => do
    let destination ← resolveDestination root entry.path
    Action.makePath true (PurePath.mk 1 destination.dropLast)
    let size ← writeEntry config entry destination tally.written
    return ⟨tally.files + 1, declared, tally.written + size⟩

/-- Extract entries one after the other. -/
def extractEntries (config : Config) (root : String) : Tally → List ArchiveEntry → Action Tally
  | tally, [] => pure tally
  | tally, entry :: entries =>
    if entry.isDirectory then extractEntries config root tally entries
    else do
      let tally ← extractEntry config root tally entry
      extractEntries config root tally entries

end Extraction

/-- Extract the entries of a listing below a new directory.  Yields the number of files. -/
def extract (config : Config) (listing : Listing) (root : String) : Action Int := do
  let path := PurePath.ofString root
  Action.makePath false path
  let tally ← Extraction.extractEntries config path.toString .zero listing.entries
  match listing.failure with
  | some failure => throw failure
  | none => return tally.files

/-! ## Zip archives -/

/-- The member of an archive as an entry.  A name that ends in a slash is a directory. -/
def ArchiveEntry.ofMember (codecs : Codecs) (bytes : ByteArray) (placed : PlacedMember) :
    ArchiveEntry where
  path := placed.member.name
  declaredSize := some placed.member.size
  isDirectory := placed.member.name.toList.getLast? == some '/'
  content := fun _ => placed.read codecs bytes

/-- The members of an archive as entries, up to the first one without a name. -/
def Listing.ofMembers (codecs : Codecs) (bytes : ByteArray) (members : List PlacedMember) :
    Listing :=
  let named := members.takeWhile fun placed => placed.member.name ≠ ""
  { entries := named.map (ArchiveEntry.ofMember codecs bytes)
    failure := if named.length < members.length then some .unnamedEntry else none }

/-- A failure while an archive is read, as it is reported: what is wrong with the bytes becomes an
error of the archive, and so does a loop of links.  Nothing answers for data that a decoder of
another library refuses. -/
def Failure.ofArchive (archive : String) : Failure → Failure
  | .unreadable fault => .archive (.unreadable archive fault.message)
  | .linkLoop path => .archive (.unreadable archive (Failure.linkLoop path).message)
  | failure => failure

/-- Extract a zip archive below a new directory.  The directory of the archive is read before
anything is written. -/
def extractZip (codecs : Codecs) (config : Config) (archive root : String) : Action Int :=
  let archive := (PurePath.ofString archive).toString
  tryCatch
    (do
      let bytes ← Action.query fun fs => fs.readFile archive
      match Directory.read bytes with
      | .error failure => throw failure
      | .ok members => extract config (.ofMembers codecs bytes members) root)
    fun failure => throw (failure.ofArchive archive)

end SourceAtlas
