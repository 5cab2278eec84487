import SourceAtlas.Proofs.Project.Attribution
import SourceAtlas.Proofs.Service.Upload

/-!
# How an upload is answered

A service is ready for an upload if its directories stand once they have been prepared, and if there
is room in them for the file and for what is extracted from it (`Service.Ready`).  Then an upload
with the extension of an archive that is analysed is answered as its analysis ends (`upload_reply`):
with 200, 400 or 413 if the archive is regular (`upload_status`), but with 500 if it cannot be
listed for a name in it (`upload_undecodable`).

What the file is stored under is longer than the identifier of the job, so the two do not get into
each other's way, even in one directory.
-/

namespace SourceAtlas

open FileSystem SourceAtlas.Action Extraction

variable {libraries : Libraries} {config : Config} {fs fs' prepared : FileSystem}
  {dir name text : String} {place uploads extracted : Location} {content : ByteArray}
  {failure : Failure}

/-- A stored file has another name than the directory of its job. -/
lemma ne_of_storedName {clock : Binary64} {jobId storedAs : String}
    (h : storedName? clock jobId name = some storedAs) : jobId ≠ storedAs := by
  rw [storedName?, Option.map_eq_some_iff] at h
  obtain ⟨milliseconds, -, rfl⟩ := h
  intro he
  have hsize := congrArg String.utf8ByteSize he
  simp only [String.utf8ByteSize_append] at hsize
  have hdash : "-".utf8ByteSize = 1 := rfl
  omega

/-! ## Storing and analysing -/

/-- Where there is room, an upload is stored unless it is too large. -/
lemma storeUpload_room (h : fs.HasRoom dir name text place) (ht : EntryText dir name text)
    (content : ByteArray) (limit : Int) :
    (limit < content.size ∧
        ∃ fs', (storeUpload text content limit).on fs = (.ok (.error (.tooLarge limit)), fs')) ∨
      ∃ fs', (storeUpload text content limit).on fs = (.ok (.ok content.size), fs') ∧
        Put fs fs' (place ++ [name]) content := by
  have hnew := h.createNew ht.last
  by_cases hs : (content.size : Int) ≤ limit
  · exact .inr ⟨_, storeUpload_of_le hnew hs, put_insert h.vacant content⟩
  · obtain ⟨taken, hrun⟩ := storeUpload_of_lt hnew (Int.not_le.1 hs)
    have hput := put_insert h.vacant taken
    obtain ⟨fs', hremove, -⟩ :=
      removePath_file (h.leads.grows (hput.changesOnly.grows (.refl fs) h.missing)) ht
      h.valid.plain h.checkText hput.get?_self
    exact .inl ⟨Int.not_le.1 hs, fs', by rw [hrun, hremove]⟩

/-- The analysis of a stored archive ends as that of an archive. -/
lemma analyzeStored_result {jobId archive storedAs : String} (h : fs.HasRoom dir name text place)
    (hu : fs.LeadsTo config.uploadsDir uploads) (ht : EntryText config.uploadsDir storedAs archive)
    (hn : PlainName storedAs) (hc : checkText archive = .ok ())
    (hf : fs.get? (uploads ++ [storedAs]) = some (.file content)) :
    ((analyzeStored libraries config archive text jobId).on fs).1 =
      ((analyzeArchive libraries config archive text (some jobId)).on fs).1 := by
  rw [analyzeStored, on_tryCatch]
  rcases analyzeArchive_missing libraries config archive (some jobId) h.leads h.named
    h.valid.plain h.size_le h.missing with
    ⟨failure, fs', hrun, ha⟩ | ⟨analysis, fs', hrun, -⟩
  · -- What was extracted is gone, and the archive is where it was.
    obtain ⟨fs'', hremove, -⟩ := removePath_file (hu.grows ha.grows) ht hn hc ((ha.get? _).trans hf)
    rw [hrun]
    dsimp only
    rw [on_removePath_then_throw hremove]
  · rw [hrun]

/-! ## Answers -/

/-- A service whose directories stand once they have been prepared, with room in them for
an upload. -/
structure Service.Ready (service : Service) (clock : Binary64) (name storedAs : String)
    (fs prepared : FileSystem) (uploads extracted : Location) : Prop where
  made : (prepareDirectories service.config).on fs = (.ok (), prepared)
  stored : storedName? clock (service.identifier service.issued) name = some storedAs
  archive : prepared.HasRoom service.config.uploadsDir storedAs
    (Path.append service.config.uploadsDir storedAs) uploads
  directory : prepared.HasRoom service.config.extractedDir (service.identifier service.issued)
    (Path.append service.config.extractedDir (service.identifier service.issued)) extracted

lemma Failure.IsArchiveError.status_mem (h : failure.IsArchiveError) :
    (Refusal.ofFailure failure).status ∈ [400, 413] := by
  obtain ⟨error, rfl, hkind⟩ := h
  show error.status ∈ [400, 413]
  rw [ArchiveError.status.eq_def]
  split <;> simp

/-- How the upload of an archive is answered: it is too large, or it is stored and the answer is
what its analysis leads to. -/
lemma upload_reply {service : Service} {clock : Binary64} {submission : Option Submission}
    {accepted : Accepted} {storedAs : String}
    (haccept : Submission.accept submission = .ok accepted)
    (hzip : accepted.extension = analyzedExtension)
    (h : service.Ready clock accepted.name storedAs fs prepared uploads extracted) :
    service.config.maxUploadBytes < accepted.content.size ∧
        (service.upload clock submission fs).1 =
          .refused (.tooLarge service.config.maxUploadBytes) ∨
      ∃ stored, stored.HasRoom service.config.extractedDir (service.identifier service.issued)
          (Path.append service.config.extractedDir (service.identifier service.issued)) extracted ∧
        stored.readFile
          (PurePath.ofString (Path.append service.config.uploadsDir storedAs)).toString =
          .ok accepted.content ∧
        match ((analyzeArchive service.libraries service.config
          (Path.append service.config.uploadsDir storedAs)
          (Path.append service.config.extractedDir (service.identifier service.issued))
          (some (service.identifier service.issued))).on stored).1 with
        | .ok _ => ∃ receipt, (service.upload clock submission fs).1 = .received receipt
        | .error failure =>
          (service.upload clock submission fs).1 = .refused (.ofFailure failure) := by
  have hn := h.archive.valid.plain
  have ht := entryText_append h.archive.leads.ne_empty hn
  rw [Service.upload, haccept]
  dsimp only
  rw [h.made]
  dsimp only
  rw [receive, h.stored]
  dsimp only
  rw [on_bind]
  rcases storeUpload_room h.archive ht accepted.content service.config.maxUploadBytes with
    ⟨hlarge, fs₁, hrun⟩ | ⟨fs₁, hrun, hput⟩
  · rw [hrun]
    exact .inl ⟨hlarge, rfl⟩
  · have hgrown := hput.changesOnly.grows (.refl prepared) h.archive.missing
    have hmissing : fs₁.get? (extracted ++ [service.identifier service.issued]) = none := by
      rw [hput.get?, if_neg, h.directory.missing]
      intro he
      exact ne_of_storedName h.stored (List.append_singleton_inj.1 he).2
    have hroom := h.directory.grows hgrown hmissing
    have hleads := h.archive.leads.grows hgrown
    refine .inr ⟨fs₁, hroom, hleads.readFile_entry
      (ht.pure hn) hn h.archive.pure.checkText hput.get?_self, ?_⟩
    rw [hrun]
    dsimp only
    rw [if_neg (by simpa using hzip), on_bind,
      ← analyzeStored_result hroom hleads ht hn h.archive.checkText hput.get?_self]
    rcases (analyzeStored service.libraries service.config
      (Path.append service.config.uploadsDir storedAs)
        (Path.append service.config.extractedDir (service.identifier service.issued))
        (service.identifier service.issued)).on fs₁ with ⟨failure | analysis, fs₂⟩
    · rfl
    · exact ⟨_, rfl⟩

/-- An archive that is uploaded is answered with 200, 400 or 413 if it is regular. -/
theorem upload_status {service : Service} {clock : Binary64} {submission : Option Submission}
    {accepted : Accepted} {storedAs : String}
    (haccept : Submission.accept submission = .ok accepted)
    (hzip : accepted.extension = analyzedExtension)
    (h : service.Ready clock accepted.name storedAs fs prepared uploads extracted)
    (hr : RegularArchive service.libraries.codecs accepted.content
      (extracted ++ [service.identifier service.issued])) :
    (service.upload clock submission fs).1.status ∈ [200, 400, 413] := by
  rcases upload_reply haccept hzip h with ⟨-, hreply⟩ | ⟨stored, hroom, hread, hreply⟩
  · rw [hreply]
    show 413 ∈ [200, 400, 413]
    decide
  split at hreply
  · obtain ⟨receipt, hreply⟩ := hreply
    rw [hreply]
    show 200 ∈ [200, 400, 413]
    decide
  · next failure hfails =>
    rw [hreply]
    exact List.mem_cons_of_mem _ (analyzeArchive_attributable hroom hread hr hfails).status_mem

/-- An archive with a name that claims to be UTF-8 and is not is answered with 500, unless it is
too large. -/
theorem upload_undecodable {service : Service} {clock : Binary64} {submission : Option Submission}
    {accepted : Accepted} {storedAs : String} {fault : Utf8.Fault}
    (haccept : Submission.accept submission = .ok accepted)
    (hzip : accepted.extension = analyzedExtension)
    (hsize : (accepted.content.size : Int) ≤ service.config.maxUploadBytes)
    (h : service.Ready clock accepted.name storedAs fs prepared uploads extracted)
    (hfault : Directory.read accepted.content = .error (.undecodable fault)) :
    (service.upload clock submission fs).1.status = 500 := by
  rcases upload_reply haccept hzip h with ⟨hlarge, -⟩ | ⟨stored, hroom, hread, hreply⟩
  · omega
  · rw [analyzeArchive_undecodable _ _ _ hroom hread hfault] at hreply
    dsimp only at hreply
    rw [hreply]
    rfl

end SourceAtlas
