import SourceAtlas.Proofs.Files.DottedPath
import SourceAtlas.Proofs.Project.Sources

/-!
# What an analysis does not see

Two directories that list the same files, with the same contents of code files, are analysed with
the same result (`analyzeDirectory_noninterference`).  So nothing else has a part in it: no link or
what is behind it, no ignored directory, nothing outside the directory, and no content of a file
that is not code.

A file is listed if it is visible and its path from the root is one that the file system
looks up.  Hence the result depends on how the root is written, if that makes some of the
paths too long (`not_noninterference_of_visible`).
-/

namespace SourceAtlas

open FileSystem SourceAtlas.Action

variable {fs fs' : FileSystem} {root root' : String} {place place' : Location}

/-- Directories that list the same files, with the same code in them, have the same analysis. -/
theorem analyzeDirectory_noninterference (sortKey : String → List Nat) (config : Config)
    (jobId jobId' : Option String)
    (h : fs.LeadsTo root place) (h' : fs'.LeadsTo root' place')
    (hfiles : ∀ names, fs.Listed config.ignoredDirs root place names ↔
      fs'.Listed config.ignoredDirs root' place' names)
    (hcode : ∀ names, fs.Listed config.ignoredDirs root place names →
      Imports.isCodeFile (Path.ofSegments names) = true →
        fs.get? (place ++ names) = fs'.get? (place' ++ names)) :
    ∃ analysis : Analysis,
      (analyzeDirectory sortKey config root jobId).on fs =
        (.ok { analysis with jobId := jobId }, fs) ∧
      (analyzeDirectory sortKey config root' jobId').on fs' =
        (.ok { analysis with jobId := jobId' }, fs') := by
  have hsame := Analysis.ofListed_congr h.isDirectory h'.isDirectory (fun _ _ => h) (fun _ _ => h')
    hfiles hcode sortKey config.topDegree none
  refine ⟨.ofSources sortKey config.topDegree none
    (fun path => fs.source? (Graph.filePath root path))
    ((fs.listed config.ignoredDirs root place).map Path.ofSegments),
    on_analyzeDirectory sortKey h config jobId, ?_⟩
  rw [on_analyzeDirectory sortKey h' config jobId']
  exact congrArg (fun analysis : Analysis =>
    (Except.ok { analysis with jobId := jobId' }, fs')) hsame.symm

/-! ## Two views of one project -/

/-- A file that imports another. -/
def importing : ByteArray := "import './b.js'".toUTF8

/-- A project with a link out of it, a pipe and a package. -/
def furnished : FileSystem :=
  (FileSystem.empty [] ⟨0⟩).insert ["p"] .directory |>.insert ["p", "a.js"] (.file importing)
    |>.insert ["p", "b.js"] (.file .empty) |>.insert ["p", "notes.txt"] (.file importing)
    |>.insert ["p", "link"] (.link "/q") |>.insert ["p", "pipe"] .pipe
    |>.insert ["p", "dist"] .directory |>.insert ["p", "dist", "b.js"] (.file importing)

/-- The same project, bare and elsewhere. -/
def bare : FileSystem :=
  (FileSystem.empty [] ⟨0⟩).insert ["q"] .directory |>.insert ["q", "a.js"] (.file importing)
    |>.insert ["q", "b.js"] (.file .empty) |>.insert ["q", "notes.txt"] (.file .empty)
    |>.insert ["q", "empty"] .directory

theorem analyzeDirectory_noninterference_furnished :
    furnished.LeadsTo "p" ["p"] ∧ bare.LeadsTo "./q" ["q"] ∧
    (∀ names, furnished.Listed defaultIgnoredDirs "p" ["p"] names ↔
      bare.Listed defaultIgnoredDirs "./q" ["q"] names) ∧
    (∀ names, furnished.Listed defaultIgnoredDirs "p" ["p"] names →
      Imports.isCodeFile (Path.ofSegments names) = true →
        furnished.get? (["p"] ++ names) = bare.get? (["q"] ++ names)) ∧
    ∃ analysis : Analysis,
      (analyzeDirectory Collation.sortKey {} "p" none).on furnished =
        (.ok { analysis with jobId := none }, furnished) ∧
      (analyzeDirectory Collation.sortKey {} "./q" (some "1")).on bare =
        (.ok { analysis with jobId := some "1" }, bare) := by
  have hfacts : furnished.locate true "p" = .ok ["p"] ∧ furnished.isDirectory ["p"] ∧
      bare.locate true "./q" = .ok ["q"] ∧ bare.isDirectory ["q"] := by
    decide +kernel
  have h : furnished.LeadsTo "p" ["p"] := leadsTo_iff_locate.2 ⟨hfacts.1, hfacts.2.1⟩
  have h' : bare.LeadsTo "./q" ["q"] := leadsTo_iff_locate.2 hfacts.2.2
  have hfiles (names : Location) : furnished.Listed defaultIgnoredDirs "p" ["p"] names ↔
      bare.Listed defaultIgnoredDirs "./q" ["q"] names :=
    ⟨(forall_listed_iff h.isDirectory).2 (by decide +kernel) names,
      (forall_listed_iff h'.isDirectory).2 (by decide +kernel) names⟩
  have hcode : ∀ names, furnished.Listed defaultIgnoredDirs "p" ["p"] names →
      Imports.isCodeFile (Path.ofSegments names) = true →
        furnished.get? (["p"] ++ names) = bare.get? (["q"] ++ names) :=
    (forall_listed_iff h.isDirectory).2 (by decide +kernel)
  exact ⟨h, h', hfiles, hcode, analyzeDirectory_noninterference Collation.sortKey {} none
    (some "1") h h' hfiles hcode⟩

/-! ## One project under two paths -/

/-- A project with one file. -/
def single : FileSystem :=
  ((FileSystem.empty [] ⟨0⟩).insert ["e"] .directory).insert ["e", "a.js"] (.file .empty)

/-- From a long path nothing is listed in it. -/
lemma listed_single : single.listed defaultIgnoredDirs (dottedPath 2046) ["e"] = [] := by
  have hd : single.isDirectory ["e"] := by decide +kernel
  have hbelow : ∀ entry ∈ single.below ["e"], entry.1 = ["a.js"] := by decide +kernel
  rw [List.eq_nil_iff_forall_not_mem]
  intro names hn
  have hnone : ∀ names, single.Listed defaultIgnoredDirs (dottedPath 2046) ["e"] names → False := by
    refine (forall_listed_iff hd).2 ?_
    intro entry hm hl
    have hsize := hl.2
    rw [hbelow entry hm, size_append_dottedPath (by decide)] at hsize
    have hname : (Path.ofSegments ["a.js"]).utf8ByteSize = 4 := by decide +kernel
    rw [hname, maxPathBytes] at hsize
    omega
  exact hnone names ((mem_listed hd).1 hn)

/-- Visible files and their contents do not determine the analysis. -/
theorem not_noninterference_of_visible :
    ¬ ∀ (sortKey : String → List Nat) (config : Config) (fs fs' : FileSystem)
        (root root' : String) (place place' : Location),
      fs.LeadsTo root place → fs'.LeadsTo root' place' →
      (∀ names, fs.Visible config.ignoredDirs place names ↔
        fs'.Visible config.ignoredDirs place' names) →
      (∀ names, fs.Visible config.ignoredDirs place names →
        Imports.isCodeFile (Path.ofSegments names) = true →
          fs.get? (place ++ names) = fs'.get? (place' ++ names)) →
      ∃ analysis : Analysis,
        (analyzeDirectory sortKey config root none).on fs = (.ok analysis, fs) ∧
        (analyzeDirectory sortKey config root' none).on fs' = (.ok analysis, fs') := by
  intro hall
  have hw : single.workingDirectory = [] := rfl
  have hd : single.isDirectory ["e"] := by decide +kernel
  have h : single.LeadsTo (dottedPath 2046) ["e"] := leadsTo_dottedPath (by decide) hw hd
  have h' : single.LeadsTo (dottedPath 0) ["e"] := leadsTo_dottedPath (by decide) hw hd
  obtain ⟨analysis, hlong, hshort⟩ := hall Collation.sortKey {} single single (dottedPath 2046)
    (dottedPath 0) ["e"] ["e"] h h' (fun _ => .rfl) fun _ _ _ => rfl
  rw [on_analyzeDirectory _ h] at hlong
  rw [on_analyzeDirectory _ h'] at hshort
  have hnone : analysis.filesCount = 0 := by
    obtain rfl := Except.ok.inj (Prod.mk.inj hlong).1
    show ((single.listed defaultIgnoredDirs (dottedPath 2046) ["e"]).map Path.ofSegments).length = 0
    rw [listed_single]
    rfl
  have hone : ["a.js"] ∈ single.listed defaultIgnoredDirs (dottedPath 0) ["e"] :=
    (mem_listed hd).2 (by decide +kernel)
  have hsome : analysis.filesCount ≠ 0 := by
    obtain rfl := Except.ok.inj (Prod.mk.inj hshort).1
    show ((single.listed defaultIgnoredDirs (dottedPath 0) ["e"]).map Path.ofSegments).length ≠ 0
    rw [List.length_map]
    exact (List.length_pos_of_mem hone).ne'
  exact hsome hnone

end SourceAtlas
