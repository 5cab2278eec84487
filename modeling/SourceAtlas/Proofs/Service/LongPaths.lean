import SourceAtlas.Proofs.Files.DottedPath
import SourceAtlas.Proofs.Service.World

/-!
# A tree that outlives its job

A path of the directory for extracted archives may hold segments that mean nothing, such as `./`.
They are dropped before an archive is extracted, but not before its directory is removed.  So there
are paths behind which a directory can be made, while the path of that directory is too long to be
looked up: the directory stays when its job has expired (`tree_outlives_job`).

The path is `dottedPath count`, which leads to `e` with `count` segments in front that mean nothing,
where `count` is `Narrow`.
-/

namespace SourceAtlas

open FileSystem SourceAtlas.Action Extraction

variable {libraries : Libraries} {fs fs' : FileSystem} {count : Nat}

/-! ## An analysis that cannot look its directory up -/

/-- An archive without entries: nothing but an end record. -/
def emptyArchive : ByteArray :=
  ⟨#[0x50, 0x4B, 5, 6, 0, 0, 0, 0, 0, 0, 0, 0, 0, 0, 0, 0, 0, 0, 0, 0, 0, 0]⟩

lemma read_emptyArchive : Directory.read emptyArchive = .ok [] := by
  have h : ((Directory.read emptyArchive).toOption.map List.isEmpty) =
      some true := by decide +kernel
  generalize Directory.read emptyArchive = result at h
  obtain failure | _ | ⟨member, members⟩ := result
  · cases h
  · rfl
  · cases h

/-- An analysis succeeds although its directory cannot be looked up: then no files are listed. -/
lemma analyzeStored_of_checkText {config : Config} {archive text jobId : String} {e : Errno}
    (h : checkText text = .error (.os e))
    (hread : fs.readFile (PurePath.ofString archive).toString = .ok emptyArchive)
    (hmade : (makePath false (PurePath.ofString text)).on fs = (.ok (), fs')) :
    ∃ analysis, (analyzeStored libraries config archive text jobId).on fs =
      (.ok analysis, fs') := by
  have hmissing : ¬ fs.pathExists text = true := by simp [pathExists, node?_of_checkText h]
  have hextract : (extractZip libraries.codecs config archive text).on fs = (.ok 0, fs') := by
    rw [on_extractZip text hread read_emptyArchive, on_extract_of_made config _ hmade]
    rfl
  have hscan : (scan config.ignoredDirs text).on fs' = (.ok [], fs') := by
    rw [scan, on_bind_ok on_get, locate_of_checkText true h]
    rfl
  have hanalysis : ∃ analysis,
      (analyzeDirectory libraries.sortKey config text (some jobId)).on fs' =
        (.ok analysis, fs') := by
    rw [analyzeDirectory, on_bind_ok hscan]
    exact ⟨_, rfl⟩
  obtain ⟨analysis, hanalysis⟩ := hanalysis
  refine ⟨analysis, ?_⟩
  rw [analyzeStored, on_tryCatch, analyzeArchive, on_bind_ok on_get, if_neg hmissing,
    on_tryCatch, on_bind, on_discard, hextract]
  dsimp only [Except.map]
  rw [hanalysis]

/-! ## The run -/

/-- The path of the stored archive. -/
def archivePath : String := Path.append "u" ("0-" ++ jobName ++ "-a.zip")

/-- The job that is registered. -/
def dottedJob (count : Nat) : CleanupJob := ⟨archivePath, some (treePath count), ⟨0⟩⟩

def dottedConfig (count : Nat) : Config := { uploadsDir := "u", extractedDir := dottedPath count }

/-- A service without jobs, on empty directories. -/
def dottedStart (count : Nat) : World where
  service := .ofConfig .own (dottedConfig count) fun _ => jobName
  files := ((FileSystem.empty [] ⟨0⟩).insert ["u"] .directory).insert ["e"] .directory
  deposits := []

/-- The service after an upload. -/
def dottedUpload (count : Nat) : World :=
  (dottedStart count).perform (.upload ⟨0⟩ (some ⟨some "a.zip", emptyArchive⟩))

/-- The files when the archive has been stored. -/
def archiveStored : FileSystem :=
  ((storeUpload archivePath emptyArchive (400 * mebibyte)).on (dottedStart 0).files).2

/-- The files when it has been extracted. -/
def archiveExtracted : FileSystem :=
  ((makePath false ⟨0, ["e", jobName]⟩).on archiveStored).2

/-- The files when it has been removed again. -/
def archiveRemoved : FileSystem :=
  ((removePath (some archivePath)).on archiveExtracted).2

lemma leadsTo_dottedStart (h : Narrow count) :
    (dottedStart count).files.LeadsTo "u" ["u"] ∧
      (dottedStart count).files.LeadsTo (dottedPath count) ["e"] := by
  have hfiles : (dottedStart 0).files.locate true "u" = .ok ["u"] ∧
      (dottedStart 0).files.isDirectory ["u"] ∧ (dottedStart 0).files.isDirectory ["e"] ∧
      (dottedStart 0).files.workingDirectory = [] := by
    decide
  obtain ⟨hlocate, hu, he, hw⟩ := hfiles
  exact ⟨leadsTo_iff_locate.2 ⟨hlocate, hu⟩, leadsTo_dottedPath h.1 hw he⟩

lemma names_dottedStart (count : Nat) :
    (dottedStart count).files.names ["u"] = [] ∧ (dottedStart count).files.names ["e"] = [] := by
  show (dottedStart 0).files.names ["u"] = [] ∧ (dottedStart 0).files.names ["e"] = []
  decide

/-- What storing, extracting and removing an archive without entries does. -/
lemma archive_run :
    (storeUpload archivePath emptyArchive (400 * mebibyte)).on (dottedStart 0).files =
        (.ok (.ok 22), archiveStored) ∧
      archiveStored.readFile (PurePath.ofString archivePath).toString = .ok emptyArchive ∧
      (makePath false ⟨0, ["e", jobName]⟩).on archiveStored = (.ok (), archiveExtracted) ∧
      (removePath (some archivePath)).on archiveExtracted = (.ok true, archiveRemoved) ∧
      archiveRemoved.workingDirectory = [] ∧ archiveRemoved.isDirectory ["e"] ∧
      archiveRemoved.names ["e"] = [jobName] := by
  have hrun : ((storeUpload archivePath emptyArchive (400 * mebibyte)).on (dottedStart 0).files).1 =
        .ok (.ok 22) ∧
      archiveStored.readFile (PurePath.ofString archivePath).toString = .ok emptyArchive ∧
      ((makePath false ⟨0, ["e", jobName]⟩).on archiveStored).1 = .ok () ∧
      ((removePath (some archivePath)).on archiveExtracted).1 = .ok true ∧
      archiveRemoved.workingDirectory = [] ∧ archiveRemoved.isDirectory ["e"] ∧
      archiveRemoved.names ["e"] = [jobName] := by
    decide +kernel
  obtain ⟨hstore, hread, hmade, hremoved, hrest⟩ := hrun
  exact ⟨Prod.ext hstore rfl, hread, Prod.ext hmade rfl, Prod.ext hremoved rfl, hrest⟩

lemma on_receive_dotted (h : Narrow count) :
    ∃ receipt, (receive .own (dottedConfig count) ⟨0⟩ jobName ⟨"a.zip", ".zip", emptyArchive⟩).on
      (dottedStart count).files = (.ok (.ok (receipt, dottedJob count)), archiveExtracted) := by
  have hname : storedName? ⟨0⟩ jobName "a.zip" = some ("0-" ++ jobName ++ "-a.zip") := by
    decide +kernel
  obtain ⟨hstore, hread, hmade, -⟩ := archive_run
  rw [← ofString_dottedPath validName_jobName.plain] at hmade
  have htext := checkText_treePath h (leadsTo_dottedStart h).2.text
  obtain ⟨analysis, hanalysis⟩ :=
    @analyzeStored_of_checkText .own _ _ (dottedConfig count) _ _ jobName _ htext hread hmade
  have hparts : (dottedConfig count).maxUploadBytes = 400 * mebibyte ∧
      Path.append (dottedConfig count).uploadsDir ("0-" ++ jobName ++ "-a.zip") = archivePath ∧
      Path.append (dottedConfig count).extractedDir jobName = treePath count := ⟨rfl, rfl, rfl⟩
  have hstored : (storeUpload archivePath emptyArchive (400 * mebibyte)).on
      (dottedStart count).files =
        (.ok (.ok 22), archiveStored) := hstore
  rw [receive, hname]
  dsimp only
  rw [hparts.1, hparts.2.1, hparts.2.2, on_bind_ok hstored]
  dsimp only
  rw [if_neg (by decide), on_bind_ok hanalysis]
  exact ⟨_, rfl⟩

lemma accept_dotted : Submission.accept (some ⟨some "a.zip", emptyArchive⟩) =
    .ok ⟨"a.zip", ".zip", emptyArchive⟩ := by
  have hbase : Path.base (Path.slashed "a.zip") = "a.zip" := by decide
  have hextension : Path.lowerExtension "a.zip" = ".zip" := by decide
  rw [Submission.accept.eq_def]
  dsimp only
  rw [hbase, hextension, if_neg (by decide), if_pos (by decide)]

lemma dottedUpload_eq (h : Narrow count) :
    (dottedUpload count).files = archiveExtracted ∧
      (dottedUpload count).service.config = dottedConfig count ∧
      (dottedUpload count).service.cleanup =
        Cleanup.register (.ofLifetime (.ofInt 3600)) (dottedJob count) := by
  obtain ⟨receipt, hreceive⟩ := on_receive_dotted h
  have hlead := leadsTo_dottedStart h
  have hprepare : (prepareDirectories (dottedConfig count)).on (dottedStart count).files =
      (.ok (), (dottedStart count).files) := on_prepareDirectories hlead.1 hlead.2
  have hupload : (dottedStart count).service.upload ⟨0⟩ (some ⟨some "a.zip", emptyArchive⟩)
      (dottedStart count).files = (.received receipt,
        { (dottedStart count).service with
          issued := 1
          cleanup := Cleanup.register (.ofLifetime (.ofInt 3600)) (dottedJob count) },
        archiveExtracted) := by
    have hparts : (dottedStart count).service.config = dottedConfig count ∧
        (dottedStart count).service.libraries = .own ∧
        (dottedStart count).service.identifier (dottedStart count).service.issued = jobName :=
      ⟨rfl, rfl, rfl⟩
    rw [Service.upload, accept_dotted]
    dsimp only
    rw [hparts.1, hprepare, hparts.2.1, hparts.2.2]
    dsimp only
    rw [hreceive]
    rfl
  rw [dottedUpload, World.perform, hupload]
  exact ⟨rfl, rfl, rfl⟩

/-- When the job has expired, it is no longer pending, and its tree is still there. -/
theorem tree_outlives_job (h : Narrow count) :
    ((dottedUpload count).perform (.sweep (.ofInt 7200))).service.cleanup.pending = [] ∧
      ((dottedUpload count).perform (.sweep (.ofInt 7200))).files.namesAt (dottedPath count) =
        [jobName] := by
  obtain ⟨hfiles, -, hcleanup⟩ := dottedUpload_eq h
  obtain ⟨-, -, -, harchive, hw, hd, hnames⟩ := archive_run
  have hlead := leadsTo_dottedStart h
  have hswept : ((dottedUpload count).perform (.sweep (.ofInt 7200))).files = archiveRemoved := by
    have hage : (dottedJob count).isExpired (.ofInt 3600) (.ofInt 7200) = true := by
      show Binary64.le (.ofInt 3600) (.ofInt 7200 - ⟨0⟩) = true
      decide +kernel
    have hexpired : (dottedUpload count).service.cleanup.expired (.ofInt 7200) =
        [dottedJob count] := by
      rw [hcleanup]
      exact List.filter_cons_of_pos hage
    have htree : (removePath (some (treePath count))).on archiveRemoved =
        (.error (.file (.os .nameTooLong)), archiveRemoved) :=
      removePath_of_checkText
        (entryText_append (dottedPath_ne_empty count) validName_jobName.plain).ne_empty
        (checkText_treePath h hlead.2.text) (by decide)
    have hrun : (removeJobs [dottedJob count]).on archiveExtracted = (.ok (), archiveRemoved) := by
      rw [on_removeJobs_cons]
      refine (on_bind_ok (on_tryRemove_of_ok harchive)).trans ?_
      exact on_bind_ok (on_tryRemove_of_refusal htree)
    rw [World.files_sweep, hexpired, hfiles, hrun]
  rw [hswept, namesAt, (leadsTo_iff_locate.1 (leadsTo_dottedPath h.1 hw hd)).1]
  refine ⟨?_, hnames⟩
  have hretained : (dottedJob count).isRetained (.ofInt 3600) (.ofInt 7200) = false := by
    show Binary64.lt (.ofInt 7200 - ⟨0⟩) (.ofInt 3600) = false
    decide +kernel
  rw [World.pending_sweep, hcleanup]
  refine List.filter_cons_of_neg ?_
  rw [Bool.not_eq_true]
  exact hretained

/-- A directory that is left over keeps a service from being tidy. -/
lemma not_tidy_dotted (h : Narrow count) :
    ¬ ((dottedUpload count).perform (.sweep (.ofInt 7200))).Tidy := by
  intro ht
  obtain ⟨hpending, hnames⟩ := tree_outlives_job h
  have htrees := ht.trees
  rw [hpending, World.config_sweep, (dottedUpload_eq h).2.1, dottedConfig, hnames] at htrees
  exact absurd htrees.length_eq (by simp)

end SourceAtlas
