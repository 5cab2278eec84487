import SourceAtlas.Proofs.Extraction.Attribution
import SourceAtlas.Proofs.Files.Room
import SourceAtlas.Proofs.Project.Analysis
import SourceAtlas.Proofs.Project.Sources

/-!
# What an analysis of an archive fails on

Where there is room for the directory to extract to, the analysis of an archive fails on what the
extraction fails on: the directory is removed without a failure of its own, and once the archive has
been extracted, its analysis succeeds (`analyzeArchive_eq_error_iff`).  So the analysis of a regular
archive fails only with an error of the archive (`analyzeArchive_attributable`).

An archive with a name that claims to be UTF-8 and is not cannot be listed, and that is reported as
it is (`analyzeArchive_undecodable`).
-/

namespace SourceAtlas

open FileSystem SourceAtlas.Action Extraction

variable {libraries : Libraries} {fs fs' : FileSystem} {config : Config}
  {archive dir name text : String} {place : Location} {jobId : Option String} {bytes : ByteArray}
  {failure : Failure}

/-- What an extraction has left is removed, whether it has made its directory or not. -/
lemma removePath_left (h : fs.HasRoom dir name text place)
    (hleft : fs' = fs ∨ fs.Planted fs' (place ++ [name])) :
    ∃ removed fs'', (removePath (some text)).on fs' = (.ok removed, fs'') := by
  rcases hleft with rfl | hp
  · exact ⟨false, fs', h.removePath⟩
  · exact ⟨true, h.removePath_planted hp⟩

/-- A run that fails once it has removed a path. -/
lemma on_removePath_then_throw {α : Type} {target : Option String} {removed : Bool}
    (h : (removePath target).on fs = (.ok removed, fs')) :
    (do discard <| removePath target; throw failure : Action α).on fs = (.error failure, fs') := by
  rw [on_bind, on_discard, h]
  rfl

/-- The analysis of an archive changes nothing outside its directory. -/
lemma analyzeArchive_changesOnly (libraries : Libraries) (config : Config) (archive : String)
    (jobId : Option String)
    (h : fs.HasRoom dir name text place) :
    fs.ChangesOnly ((analyzeArchive libraries config archive text jobId).on fs).2
      (place ++ [name]) := by
  rcases analyzeArchive_missing libraries config archive jobId h.leads h.named h.valid.plain
    h.size_le h.missing with ⟨failure, fs', hrun, ha⟩ | ⟨analysis, fs', hrun, hu⟩
  · rw [hrun]
    exact ⟨ha.workingDirectory, fun location _ => ha.get? location⟩
  · rw [hrun]
    exact hu.toChangesOnly

/-- The analysis of an archive fails on what the extraction fails on, and on nothing else. -/
theorem analyzeArchive_eq_error_iff (libraries : Libraries) (config : Config) (archive : String)
    (jobId : Option String)
    (h : fs.HasRoom dir name text place) :
    ((analyzeArchive libraries config archive text jobId).on fs).1 = .error failure ↔
      ((extractZip libraries.codecs config archive text).on fs).1 = .error failure := by
  have hmissing : ¬ fs.pathExists text = true := by
    rw [pathExists, h.node?_none]
    simp
  have hentry := extractZip_entry libraries.codecs config archive h.leads h.named h.valid.plain
  rw [analyzeArchive, on_bind_ok on_get, if_neg hmissing, on_tryCatch, on_bind, on_discard]
  rcases hextract : (extractZip libraries.codecs config archive text).on fs with
    ⟨failure' | count, fs'⟩
  · rw [hextract] at hentry
    have hleft : fs' = fs ∨ fs.Planted fs' (place ++ [name]) := by
      rcases hentry with ⟨failure, he⟩ | hplanted
      · exact .inl (Prod.mk.inj he).2
      · exact .inr hplanted
    obtain ⟨removed, fs'', hremove⟩ := removePath_left h hleft
    dsimp only [Except.map]
    rw [on_removePath_then_throw hremove, Except.error.injEq, Except.error.injEq]
  · rw [hextract] at hentry
    rcases hentry with ⟨failure, he⟩ | hplanted
    · cases he
    · dsimp only [Except.map]
      rw [on_analyzeDirectory _ (h.leadsTo hplanted)]
      simp

/-- The analysis of a regular archive fails only with an error of the archive. -/
theorem analyzeArchive_attributable (h : fs.HasRoom dir name text place)
    (hread : fs.readFile (PurePath.ofString archive).toString = .ok bytes)
    (hr : RegularArchive libraries.codecs bytes (place ++ [name]))
    (hrun : ((analyzeArchive libraries config archive text jobId).on fs).1 = .error failure) :
    failure.IsArchiveError := by
  have hb : Base (fs.insert (place ++ [name]) .directory) (PurePath.ofString text).toString
      (place ++ [name]) :=
    .of_vacant h.pure.leads h.pure.named h.valid.plain h.pure.checkText h.vacant
  exact extractZip_attributable hread h.makePath hb hr
    ((analyzeArchive_eq_error_iff libraries config archive jobId h).1 hrun)

/-- An archive in whose directory a name claims to be UTF-8 and is not is analysed with a failure
that is not an error of the archive. -/
theorem analyzeArchive_undecodable {fault : Utf8.Fault} (libraries : Libraries) (config : Config)
    (jobId : Option String)
    (h : fs.HasRoom dir name text place)
    (hread : fs.readFile (PurePath.ofString archive).toString = .ok bytes)
    (hfault : Directory.read bytes = .error (.undecodable fault)) :
    ((analyzeArchive libraries config archive text jobId).on fs).1 =
      .error (.undecodable fault) := by
  rw [analyzeArchive_eq_error_iff libraries config archive jobId h, extractZip, on_tryCatch,
    on_bind, on_query, hread]
  dsimp only
  rw [hfault]
  rfl

end SourceAtlas
