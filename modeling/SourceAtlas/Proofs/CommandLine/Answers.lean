import SourceAtlas.CommandLine.Run
import SourceAtlas.Proofs.Project.Attribution

/-!
# How a command line for an archive ends

An archive that is named on the command line is extracted below a temporary directory, which is
removed again whatever the analysis ends with (`analyzeInTemporary_result`).  If the archive is
regular, the run ends with a report and the code 0 or 1, unless the configuration or the log level
is at fault, which ends it with 1 (`run_analyze`).
-/

namespace SourceAtlas

open FileSystem SourceAtlas.Action

variable {libraries : Libraries} {fs fs' : FileSystem} {directory jobId : String} {place : Location}
  {bytes : ByteArray}

/-- The name of a temporary directory by its number. -/
def temporaryName (index : Nat) : String := "source-atlas-" ++ toString index

lemma plainName_temporaryName (index : Nat) : PlainName (temporaryName index) := by
  have hdash : '-' ∈ (temporaryName index).toList := by simp [temporaryName]
  have hslash : '/' ∉ (temporaryName index).toList := by
    simp [temporaryName, Nat.toString_eq_repr, Nat.toList_repr, slash_notMem_toDigits index]
  exact plainName_of_mem hdash (by decide) hslash

/-- A temporary directory is made where there is room for it. -/
lemma makeTemporary_room (h : makeTemporary.on fs = (.ok directory, fs')) :
    ∃ place name, directory = Path.append temporaryRoot name ∧
      fs.HasRoom temporaryRoot name directory place ∧
      fs' = fs.insert (place ++ [name]) .directory := by
  rw [makeTemporary, on_bind_ok on_get] at h
  dsimp only at h
  generalize fs.vacantIndex fs.entries.length 0 = index at h
  rw [on_bind, on_change] at h
  have hplain := plainName_temporaryName index
  have ht : EntryText temporaryRoot (temporaryName index) (temporaryPath index) :=
    entryText_append (by decide) hplain
  cases hmade : fs.makeDirectory (temporaryPath index) with
  | error e =>
    rw [hmade] at h
    cases h
  | ok made =>
    rw [hmade] at h
    obtain ⟨hdirectory, rfl⟩ := Prod.mk.inj h
    obtain rfl := Except.ok.inj hdirectory
    obtain ⟨_, _, hwalk, -⟩ := makeDirectory_eq_ok hmade
    obtain ⟨place, hleads⟩ := LeadsTo.of_arrival (by decide) (by decide) ht.toNamedText hwalk
    rcases hleads.makeDirectory_cases ht.toNamedText hplain with ⟨e, hfails, -⟩ | ⟨hv, hc, hmakes⟩
    · rw [hmade] at hfails
      cases hfails
    · rw [hmade] at hmakes
      exact ⟨place, temporaryName index, rfl,
        ⟨hleads, ht.toNamedText, hv.2.1 _ (by simp), (checkText_eq_ok_iff.1 hc).2.2, hv.get?⟩,
        Except.ok.inj hmakes⟩

/-- In a temporary directory there is room for the directory of a job. -/
lemma temporary_hasRoom (h : makeTemporary.on fs = (.ok directory, fs'))
    (hl : fs'.LeadsTo directory place) (hid : ValidName jobId) :
    fs'.HasRoom directory jobId (Path.append directory jobId) place := by
  obtain ⟨parent, name, hdirectory, hroom, rfl⟩ := makeTemporary_room h
  obtain rfl := (hroom.leadsTo hroom.planted).unique hl
  refine .append hl hid ?_ ?_
  · have hsize := Path.size_append_le hl.ne_empty hid.plain.2.2.2
    have houter : (Path.append temporaryRoot name).utf8ByteSize ≤ _ :=
      Path.size_append_le (by decide) hroom.valid.plain.2.2.2
    have hname := hroom.valid.size_le
    have hjob := hid.size_le
    have hroot : temporaryRoot.utf8ByteSize = 4 := rfl
    rw [← hdirectory] at houter
    unfold maxPathBytes
    unfold maxNameBytes at hname hjob
    omega
  · rw [get?_insert hroom.vacant, if_neg (by simp),
      get?_eq_none_of_above hroom.missing (List.prefix_append _ _)]

namespace CommandLine

/-- The report on an archive, unless its analysis has failed in a way that nothing answers for. -/
def reported (result : Except Failure Analysis) : Except Failure Report :=
  match result with
  | .ok analysis => .ok (printedAnalysis analysis)
  | .error (.archive error) => .ok (.refused 1 (error.summary ++ " (" ++ error.message ++ ")"))
  | .error failure => .error failure

/-- What is reported on an archive is what its analysis ends with in the temporary directory. -/
lemma analyzeInTemporary_result {path : String} (libraries : Libraries) (config : Config)
    (h : makeTemporary.on fs = (.ok directory, fs'))
    (hl : fs'.LeadsTo directory place) (hid : ValidName jobId) :
    ((analyzeInTemporary libraries config jobId path).on fs).1 =
      reported
        ((analyzeArchive libraries config path (Path.append directory jobId) (some jobId)).on
          fs').1 := by
  have hroom := temporary_hasRoom h hl hid
  have hinner := analyzeArchive_changesOnly libraries config path (some jobId) hroom
  obtain ⟨parent, name, -, houter, hmade⟩ := makeTemporary_room h
  have hplanted : fs.Planted fs' (parent ++ [name]) := hmade ▸ houter.planted
  obtain rfl := (houter.leadsTo hplanted).unique hl
  rw [analyzeInTemporary, on_bind_ok h, on_bind_ok (on_observing _ _)]
  generalize (analyzeArchive libraries config path (Path.append directory jobId) (some jobId)).on
    fs' = outcome at hinner
  obtain ⟨result, left⟩ := outcome
  have hleft : fs.Planted left (parent ++ [name]) :=
    ⟨hplanted.toChangesOnly.trans (hinner.widen (List.prefix_append _ _)), hplanted.missing,
      (hinner.grows (.refl fs') hroom.missing).isDirectory hplanted.isDirectory⟩
  obtain ⟨fs'', hremove⟩ := houter.removePath_planted hleft
  rw [on_bind, on_discard, hremove]
  rcases result with failure | analysis
  · cases failure <;> rfl
  · rfl

/-- What a command line analyses as an archive. -/
structure AnalyzesArchive (fs : FileSystem) (path : String) (bytes : ByteArray) : Prop where
  notDirectory : fs.leadsToDirectory path = false
  file : fs.leadsToFile path = true
  content : fs.readFile (PurePath.ofString path).toString = .ok bytes

variable {path : String}

/-- A regular archive is reported on, with the code 0 or 1. -/
lemma runAnalyze_reports (libraries : Libraries) (config : Config)
    (h : makeTemporary.on fs = (.ok directory, fs'))
    (hl : fs'.LeadsTo directory place) (hid : ValidName jobId)
    (ha : AnalyzesArchive fs (Path.absolute fs.workingDirectory.toPath path) bytes)
    (hr : RegularArchive libraries.codecs bytes (place ++ [jobId])) :
    ∃ report, ((runAnalyze libraries config jobId path).on fs).1 = .ok report ∧
    report.code ∈ [0, 1] := by
  have hroom := temporary_hasRoom h hl hid
  obtain ⟨parent, name, -, houter, hmade⟩ := makeTemporary_room h
  have hplanted : fs.Planted fs' (parent ++ [name]) := hmade ▸ houter.planted
  rw [runAnalyze, on_bind_ok on_get]
  dsimp only
  rw [ha.notDirectory, ha.file, if_neg (by simp), if_pos rfl,
    analyzeInTemporary_result libraries config h hl hid]
  rcases hresult : ((analyzeArchive libraries config (Path.absolute fs.workingDirectory.toPath path)
    (Path.append directory jobId) (some jobId)).on fs').1 with failure | analysis
  · obtain ⟨error, rfl, -⟩ :=
      analyzeArchive_attributable hroom (hplanted.readFile ha.content) hr hresult
    exact ⟨_, rfl, by simp [Report.refused]⟩
  · exact ⟨_, rfl, by simp [printedAnalysis, Report.printed]⟩

/-- A command line that names a regular archive ends with 0 or 1, and not with a failure of
the analysis. -/
theorem run_analyze {outside : Outside} {arguments : List String} {invocation : Invocation}
    (hparse : Invocation.parse arguments = .ok invocation)
    (hcommand : invocation.command = .analyze path)
    (h : makeTemporary.on fs = (.ok directory, fs')) (hl : fs'.LeadsTo directory place)
    (hid : ValidName outside.jobId)
    (ha : AnalyzesArchive fs (Path.absolute fs.workingDirectory.toPath path) bytes)
    (hr : RegularArchive outside.libraries.codecs bytes (place ++ [outside.jobId])) :
    (run outside arguments fs).ending.code ∈ [0, 1] ∧
      ∀ failure, (run outside arguments fs).ending ≠ .stopped (.run failure) := by
  rw [run, hparse]
  dsimp only
  rw [runInvocation]
  split
  · exact ⟨by simp [Ending.code], by simp⟩
  split
  · exact ⟨by simp [Ending.code], by simp⟩
  rw [hcommand, Command.action]
  rcases outside.config with fault | config
  · exact ⟨by simp [Except.map, Ending.code], by simp [Except.map]⟩
  · obtain ⟨report, hreport, hcode⟩ := runAnalyze_reports outside.libraries config h hl hid ha hr
    dsimp only [Except.map]
    rcases hrun : (runAnalyze outside.libraries config outside.jobId path).on fs with
      ⟨failure | other, left⟩
    · rw [hrun] at hreport
      cases hreport
    · rw [hrun] at hreport
      obtain rfl := Except.ok.inj hreport
      exact ⟨hcode, by simp⟩

end CommandLine

end SourceAtlas
