import SourceAtlas.Proofs.Files.DottedPath
import SourceAtlas.Proofs.Project.Analysis

/-!
# All or nothing

The analysis of an archive into a directory that does not exist leaves everything as
it was if it fails, whatever it fails on, and nothing but the extracted directory if
it succeeds (`analyzeArchive_atomic`).

This needs a path that the file system looks up.  A path that is too long for it may
still be extracted to, since its segments that mean nothing are dropped for that; but
the removal goes by the path as it is given, and what a failed extraction has left
stays (`analyzeArchive_of_tooLong`, `tree_outlives_failure`).
-/

namespace SourceAtlas

open FileSystem SourceAtlas.Action Extraction

variable {libraries : Libraries} {fs fs' : FileSystem} {config : Config} {archive text : String}
  {place : Location}

/-- The path of the directory that holds the last name of a path. -/
def parentPath (path : String) : String :=
  if (headAndTail path).1 = "" then "." else (headAndTail path).1

/-- A path asks for its last name in the directory that holds it. -/
lemma namedText_parentPath (ht : (headAndTail text).2 ≠ "") :
    NamedText (parentPath text) (headAndTail text).2 text := by
  obtain ⟨-, hbare, -⟩ := headAndTail_spec text ht
  have habsolute := isAbsolute_head text
  rw [parentPath]
  split
  · rename_i hhead
    have hdot : bareRoute "." = ["."] := rfl
    rw [hhead] at hbare habsolute
    refine ⟨⟨[], ?_, by rw [hbare]; rfl⟩, by rw [← habsolute]; rfl⟩
    rw [hdot]
    exact .drop .nil
  · exact ⟨⟨_, .refl _, hbare⟩, habsolute.symm⟩

/-- An archive whose only member has no name. -/
def unnamedArchive : ByteArray :=
  ⟨#[80, 75, 1, 2, 20, 0, 20, 0, 0, 0, 0, 0, 0, 0, 33, 0, 0, 0, 0, 0, 0, 0, 0, 0, 0, 0, 0, 0, 0, 0,
    0, 0, 0, 0, 0, 0, 0, 0, 0, 0, 0, 0, 0, 0, 0, 0, 80, 75, 5, 6, 0, 0, 0, 0, 1, 0, 1, 0, 46, 0, 0,
    0, 0, 0, 0, 0, 0, 0]⟩

/-- The directory for extracted archives, and an archive next to it. -/
def unnamedStart : FileSystem :=
  ((FileSystem.empty [] ⟨0⟩).insert ["e"] .directory).insert ["a.zip"] (.file unnamedArchive)

/-- What a failed extraction has left stays if its path is too long. -/
theorem analyzeArchive_of_tooLong {failure : Failure} (jobId : Option String)
    (h : checkText text = .error (.os .nameTooLong)) (hne : text ≠ "")
    (hrun : (extractZip libraries.codecs config archive text).on fs = (.error failure, fs')) :
    (analyzeArchive libraries config archive text jobId).on fs =
      (.error (.file (.os .nameTooLong)), fs') := by
  have hmissing : ¬ fs.pathExists text = true := by simp [pathExists, node?_of_checkText h]
  rw [analyzeArchive, on_bind_ok on_get, if_neg hmissing, on_tryCatch, on_bind, on_discard, hrun]
  dsimp only [Except.map]
  rw [on_bind, on_discard, removePath_of_checkText hne h (by simp)]
  rfl

lemma read_unnamedArchive : ∃ members, Directory.read unnamedArchive = .ok members ∧
    (Listing.ofMembers .absent unnamedArchive members).entries = [] ∧
    (Listing.ofMembers .absent unnamedArchive members).failure = some .unnamedEntry := by
  have h : ((Directory.read unnamedArchive).toOption.map fun members =>
      (Listing.ofMembers .absent unnamedArchive members).entries.isEmpty &&
        decide ((Listing.ofMembers .absent unnamedArchive members).failure = some .unnamedEntry)) =
          some true := by
    decide +kernel
  cases hread : Directory.read unnamedArchive with
  | error failure =>
    rw [hread] at h
    cases h
  | ok members =>
    rw [hread] at h
    have hboth := Option.some.inj h
    rw [Bool.and_eq_true, List.isEmpty_iff, decide_eq_true_eq] at hboth
    exact ⟨members, rfl, hboth⟩

/-- A tree that was not there before the analysis has failed is there afterwards. -/
theorem tree_outlives_failure {count : Nat} (h : Narrow count) :
    ∃ failure fs', (analyzeArchive .own {} "a.zip" (treePath count) none).on unnamedStart =
        (.error failure, fs') ∧
      unnamedStart.get? ["e", jobName] = none ∧ fs'.isDirectory ["e", jobName] := by
  have hfacts : unnamedStart.workingDirectory = [] ∧ unnamedStart.isDirectory ["e"] ∧
      unnamedStart.get? ["e", jobName] = none ∧
      unnamedStart.readFile (PurePath.ofString "a.zip").toString = .ok unnamedArchive ∧
      ((makePath false ⟨0, ["e", jobName]⟩).on unnamedStart).1 = .ok () ∧
      ((makePath false ⟨0, ["e", jobName]⟩).on unnamedStart).2.isDirectory ["e", jobName] := by
    decide +kernel
  obtain ⟨hw, hd, hnone, hread, hmade, htree⟩ := hfacts
  have htext := checkText_treePath h (leadsTo_dottedPath h.1 hw hd).text
  have hne : treePath count ≠ "" :=
    (entryText_append (dottedPath_ne_empty count) validName_jobName.plain).ne_empty
  have hpath : PurePath.ofString (treePath count) = ⟨0, ["e", jobName]⟩ :=
    ofString_dottedPath validName_jobName.plain
  obtain ⟨members, hmembers, hentries, hfailure⟩ := read_unnamedArchive
  have hextract : (extract {} (.ofMembers .absent unnamedArchive members) (treePath count)).on
      unnamedStart =
        (.error .unnamedEntry, ((makePath false ⟨0, ["e", jobName]⟩).on unnamedStart).2) := by
    have hroot : (makePath false (PurePath.ofString (treePath count))).on unnamedStart =
        (.ok (), ((makePath false ⟨0, ["e", jobName]⟩).on unnamedStart).2) := by
      rw [hpath]
      exact Prod.ext hmade rfl
    rw [on_extract_of_made {} _ hroot, hentries, hfailure]
    rfl
  have hrun : (extractZip .absent {} "a.zip" (treePath count)).on unnamedStart =
      (.error (Failure.unnamedEntry.ofArchive "a.zip"),
        ((makePath false ⟨0, ["e", jobName]⟩).on unnamedStart).2) := by
    rw [on_extractZip _ hread hmembers, hextract]
    rfl
  exact ⟨_, _, analyzeArchive_of_tooLong none htext hne hrun, hnone, htree⟩

end SourceAtlas
