import SourceAtlas.Archive.Fault
import SourceAtlas.Path.Entry

/-!
# Errors that abort the analysis of an archive

An `ArchiveError` says which entry is to blame and why.  Its kind decides how a client is told: the
`summary` is a fixed sentence for each kind, and `status` the code of an HTTP answer.
-/

namespace SourceAtlas

/-- The kinds of archive errors. -/
inductive ArchiveErrorKind
  | general
  | unsafePath
  | limitExceeded
  | invalid
deriving DecidableEq, Repr

/-- An error that aborts the analysis of an archive. -/
structure ArchiveError where
  kind : ArchiveErrorKind
  entry : String
  detail : String
deriving DecidableEq, Repr

namespace ArchiveError

/-- The sentence that a client is told. -/
def summary (e : ArchiveError) : String :=
  match e.kind with
  | .general => "Invalid archive."
  | .unsafePath => "Invalid ZIP: unsafe file path found inside the archive."
  | .limitExceeded =>
    "ZIP exceeds extraction limits (too many files or extracted size too large)."
  | .invalid => "Invalid ZIP: the archive could not be read."

/-- The status code of an HTTP answer. -/
def status (e : ArchiveError) : Nat :=
  match e.kind with
  | .limitExceeded => 413
  | _ => 400

/-- The error in full: the detail and the entry, or the sentence for the kind if there is
neither. -/
def message (e : ArchiveError) : String :=
  if e.detail ≠ "" then e.detail ++ ": " ++ e.entry
  else if e.entry ≠ "" then e.entry
  else e.summary

end ArchiveError

/-- What an entry path is refused for, in words; a path that leads out of the directory through a
link is refused as well. -/
inductive UnsafeReason
  | name (fault : EntryPathFault)
  | escapes
deriving DecidableEq, Repr

/-- The wording of a refusal. -/
def UnsafeReason.message : UnsafeReason → String
  | .name .empty => "empty entry path"
  | .name .absolute => "absolute entry path"
  | .name .climbs => "parent directory segment"
  | .escapes => "entry escapes extraction root"

/-- The limits of an extraction, in the order in which an entry is held against them. -/
inductive Limit
  | fileCount
  | declaredFileSize
  | declaredTotalSize
  | fileSize
  | totalSize
deriving DecidableEq, Repr

/-- The wording of a breached limit. -/
def Limit.message : Limit → String
  | .fileCount => "too many files"
  | .declaredFileSize => "declared file size over limit"
  | .declaredTotalSize => "declared total size over limit"
  | .fileSize => "file size over limit"
  | .totalSize => "total size over limit"

namespace ArchiveError

/-- The error for an entry whose path is refused. -/
def ofUnsafe (entry : String) (reason : UnsafeReason) : ArchiveError :=
  ⟨.unsafePath, entry, reason.message⟩

/-- The error for an entry that breaches a limit. -/
def ofLimit (entry : String) (limit : Limit) : ArchiveError :=
  ⟨.limitExceeded, entry, limit.message⟩

/-- The error for an archive that cannot be read. -/
def unreadable (archive detail : String) : ArchiveError :=
  ⟨.invalid, archive, detail⟩

end ArchiveError

end SourceAtlas
