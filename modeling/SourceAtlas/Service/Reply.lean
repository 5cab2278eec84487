import SourceAtlas.Project.Analysis

/-!
# Replies of the service

A request is granted, with a receipt for an upload or a sign of life, or it is refused, with a
status code and a sentence.  A failure that is not the fault of the uploaded archive is refused
without saying what it was.
-/

namespace SourceAtlas

/-- Why a request is refused. -/
inductive Refusal
  | noFile
  | unknownExtension
  | tooLarge (limit : Int)
  | archive (error : ArchiveError)
  | unexpected
  | notFound
  | methodNotAllowed
deriving DecidableEq, Repr

namespace Refusal

/-- The refusal that a failure leads to. -/
def ofFailure : Failure → Refusal
  | .archive error => .archive error
  | _ => .unexpected

/-- The status code. -/
def status : Refusal → Nat
  | .noFile => 400
  | .unknownExtension => 400
  | .tooLarge _ => 413
  | .archive error => error.status
  | .unexpected => 500
  | .notFound => 404
  | .methodNotAllowed => 405

/-- The sentence.  A limit is given in whole mebibytes, rounded down. -/
def message : Refusal → String
  | .noFile => "No file uploaded"
  | .unknownExtension => "Only ZIP / RAR / 7Z files are allowed."
  | .tooLarge limit =>
    "File is too large (limit: " ++ toString (Int.fdiv limit mebibyte) ++ "MB)."
  | .archive error => error.summary
  | .unexpected => "Server error"
  | .notFound => "Not Found"
  | .methodNotAllowed => "Method Not Allowed"

end Refusal

/-- The receipt for an upload.  Only an archive that was extracted has an analysis. -/
structure Receipt where
  clientName : String
  size : Nat
  storedAs : String
  extension : String
  analysis : Option Analysis

/-- What is said about an upload that was not analysed. -/
def Receipt.note? (receipt : Receipt) : Option String :=
  match receipt.analysis with
  | some _ => none
  | none =>
    some <| "RAR/7Z were saved on the server. Currently, analysis (tree/graph) is enabled only " ++
      "for ZIP."

/-- A reply. -/
inductive Reply
  | received (receipt : Receipt)
  | healthy
  | refused (refusal : Refusal)

/-- The status code of a reply. -/
def Reply.status : Reply → Nat
  | .refused refusal => refusal.status
  | _ => 200

/-- The name under which the service reports that it is alive. -/
def serviceName : String := "codebase-explorer-api"

end SourceAtlas
