import Mathlib.Data.List.Dedup
import SourceAtlas.Proofs.Files.DottedPath
import SourceAtlas.Proofs.Project.Analysis
import SourceAtlas.Proofs.Project.Consistency

/-!
# Archives and directories are analysed alike

An archive maps the path of each file in it to the content of the last member with this path
(`Extraction.lastContent`).  Where its analysis succeeds, the result is that of any directory which
holds the same files (`Analysis.Agrees`, `analyzeArchive_agrees`): the tree and the graph name paths
of the archive, in the form in which they would be accepted again, and the number of files is that
of the paths that are not in an ignored directory.

A directory is scanned by paths that are looked up from its root as it is written, so a file is
passed over if its path gets too long there.  Hence the root of the other directory has to be within
reach of the paths (`WithinReach`): from a root that is written in a long way, the same files are
analysed with another result (`not_agreement_of_holdsFiles`).  For an archive that is extracted to a
root out of reach of its paths, only the paths are told.
-/

namespace SourceAtlas

open FileSystem SourceAtlas.Action Extraction

/-! ## The files of an archive -/

/-- The paths of entries, each once. -/
def pathsOf (files : List ArchiveEntry) : List Location :=
  (files.filterMap ArchiveEntry.names?).dedup

/-- A path that is not in an ignored directory. -/
def NotIgnored (ignored : List String) (names : Location) : Prop :=
  ∀ name ∈ names.dropLast, name ∉ ignored

instance (ignored : List String) (names : Location) : Decidable (NotIgnored ignored names) :=
  inferInstanceAs (Decidable (∀ name ∈ names.dropLast, name ∉ ignored))

/-- The paths of files that are not in an ignored directory are looked up from a root as it is
written. -/
def WithinReach (ignored : List String) (root : String) (files : List ArchiveEntry) : Prop :=
  ∀ names ∈ pathsOf files, NotIgnored ignored names →
    (Path.append root (Path.ofSegments names)).utf8ByteSize ≤ maxPathBytes

instance (ignored : List String) (root : String) (files : List ArchiveEntry) :
    Decidable (WithinReach ignored root files) :=
  inferInstanceAs (Decidable (∀ names ∈ pathsOf files, _ → _))

/-- The regular files below a place are given ones. -/
def FileSystem.HoldsFiles (fs : FileSystem) (place : Location)
    (contents : Location → Option ByteArray) : Prop :=
  ∀ names content, fs.get? (place ++ names) = some (.file content) ↔ contents names = some content

/-- The analysis of files under a root agrees with that of any directory that holds them. -/
structure Analysis.Agrees (analysis : Analysis) (sortKey : String → List Nat) (config : Config)
    (root : String) (files : List ArchiveEntry) : Prop where
  /-- Every content has been read to its end, and every name has been accepted. -/
  readable : ∀ entry ∈ files, entry.Readable ∧ ∃ names, entry.names? = some names
  /-- The paths that are shown are paths of the files, in their normal form. -/
  paths : ∀ path ∈ analysis.tree.leafPaths ++ analysis.graph.nodes,
    ∃ names ∈ pathsOf files, path = Path.ofSegments names ∧ EntryPath.ofRaw path = .ok names
  /-- Apart from the job the result is that of the directory. -/
  directory : WithinReach config.ignoredDirs root files →
    ∀ (fs : FileSystem) (root' : String) (place : Location) (jobId : Option String),
      fs.LeadsTo root' place → fs.HoldsFiles place (lastContent files) →
      WithinReach config.ignoredDirs root' files →
      (analyzeDirectory sortKey config root' jobId).on fs =
        (.ok { analysis with jobId := jobId }, fs)
  count : WithinReach config.ignoredDirs root files →
    analysis.filesCount = ((pathsOf files).filter (NotIgnored config.ignoredDirs ·)).length

variable {libraries : Libraries} {fs fs' : FileSystem} {config : Config} {ignored : List String}
  {root text archive : String} {place top names : Location} {jobId : Option String}
  {files : List ArchiveEntry} {analysis : Analysis}

lemma mem_pathsOf : names ∈ pathsOf files ↔ ∃ entry ∈ files, entry.names? = some names := by
  rw [pathsOf, List.mem_dedup, List.mem_filterMap]

lemma mem_pathsOf_iff_lastContent :
    names ∈ pathsOf files ↔ ∃ content, lastContent files names = some content := by
  rw [← Option.ne_none_iff_exists', ne_eq, lastContent_eq_none, mem_pathsOf]
  simp

/-- A path of an archive is in its normal form. -/
lemma ofRaw_of_mem_pathsOf (h : names ∈ pathsOf files) :
    EntryPath.ofRaw (Path.ofSegments names) = .ok names := by
  obtain ⟨entry, -, hn⟩ := mem_pathsOf.1 h
  exact EntryPath.ofRaw_again (ArchiveEntry.names?_eq_some.1 hn)

/-- Where the files of an archive stand, no others are listed. -/
lemma mem_pathsOf_of_listed (h : fs.HoldsFiles place (lastContent files))
    (hl : fs.Listed ignored root place names) : names ∈ pathsOf files := by
  obtain ⟨content, hfile⟩ := hl.1.1
  exact mem_pathsOf_iff_lastContent.2 ⟨content, (h names content).1 hfile⟩

/-- Where the files of an archive stand within reach, those are listed that are not in an ignored
directory. -/
lemma listed_iff_of_withinReach (h : fs.HoldsFiles place (lastContent files))
    (hr : WithinReach ignored root files) :
    fs.Listed ignored root place names ↔ names ∈ pathsOf files ∧ NotIgnored ignored names := by
  constructor
  · intro hl
    exact ⟨mem_pathsOf_of_listed h hl, hl.1.2⟩
  · rintro ⟨hm, hi⟩
    obtain ⟨content, hc⟩ := mem_pathsOf_iff_lastContent.1 hm
    exact ⟨⟨⟨content, (h names content).2 hc⟩, hi⟩, hr names hm hi⟩

/-- The listed files are those of the paths that are not in an ignored directory. -/
lemma length_listed (hd : fs.isDirectory place) (h : fs.HoldsFiles place (lastContent files))
    (hr : WithinReach ignored root files) :
    (fs.listed ignored root place).length =
      ((pathsOf files).filter (NotIgnored ignored ·)).length := by
  refine ((List.perm_ext_iff_of_nodup (nodup_listed fs ignored root place)
    ((List.nodup_dedup _).filter _)).2 fun names => ?_).length_eq
  rw [mem_listed hd, listed_iff_of_withinReach h hr, List.mem_filter, decide_eq_true_eq]
  rfl

/-! ## What an analysis of an archive has done -/

/-- What an extraction has left below its root are the files of the archive. -/
lemma Extraction.Unpacked.holdsFiles {base : FileSystem} {tally : Tally}
    (h : Unpacked base top files tally fs) : fs.HoldsFiles top (lastContent files) := by
  intro names content
  obtain ⟨ledger, hholds⟩ := h.holds
  by_cases hne : names = []
  · have hd : fs.get? top = some .directory := hholds.isDirectory
    have hnone : lastContent files [] = none :=
      lastContent_eq_none.2 fun entry _ hn =>
        (EntryPath.ofRaw_plain (ArchiveEntry.names?_eq_some.1 hn)).1 rfl
    rw [hne, List.append_nil, hd, hnone]
    simp
  · rw [h.tree names hne, treeOf]
    split
    · rename_i hsome
      rw [hsome]
      simp
    · rename_i hnone
      rw [hnone]
      split <;> simp

/-- An archive whose analysis succeeds has been extracted, and its directory has been analysed. -/
lemma on_analyzeArchive_ok
    (h : (analyzeArchive libraries config archive text jobId).on fs = (.ok analysis, fs')) :
    (∃ count, (extractZip libraries.codecs config archive text).on fs = (.ok count, fs')) ∧
      (analyzeDirectory libraries.sortKey config text jobId).on fs' = (.ok analysis, fs') := by
  rw [analyzeArchive, on_bind_ok on_get] at h
  split at h
  · cases h
  rw [on_tryCatch, on_bind, on_discard] at h
  rcases hextract : (extractZip libraries.codecs config archive text).on fs with
    ⟨failure | count, fs₁⟩
  · obtain ⟨failure', hfails⟩ := on_removePath_throw Analysis (some text) failure fs₁
    rw [hextract] at h
    dsimp only [Except.map] at h
    rw [hfails] at h
    cases h
  · rw [hextract] at h
    dsimp only [Except.map] at h
    have hreads := analyzeDirectory_readsOnly libraries.sortKey config text jobId fs₁
    rcases hanalyze : (analyzeDirectory libraries.sortKey config text jobId).on fs₁ with
      ⟨failure | result, fs₂⟩
    · obtain ⟨failure', hfails⟩ := on_removePath_throw Analysis (some text) failure fs₂
      rw [hanalyze] at h
      dsimp only at h
      rw [hfails] at h
      cases h
    · rw [hanalyze] at h hreads
      obtain rfl : fs₂ = fs₁ := hreads
      obtain ⟨hresult, rfl⟩ := Prod.mk.inj h
      exact ⟨⟨count, rfl⟩, hresult ▸ hanalyze⟩

/-- An archive is extracted once it has been read. -/
lemma on_extractZip_ok {count : Int}
    (h : (extractZip libraries.codecs config archive text).on fs = (.ok count, fs')) :
    ∃ bytes members, fs.readFile (PurePath.ofString archive).toString = .ok bytes ∧
      Directory.read bytes = .ok members ∧
      (extract config (.ofMembers libraries.codecs bytes members) text).on fs =
        (.ok count, fs') := by
  rcases hread : fs.readFile (PurePath.ofString archive).toString with e | bytes
  · rw [extractZip, on_tryCatch, on_bind, on_query, hread] at h
    cases h
  rcases hmembers : Directory.read bytes with failure | members
  · rw [extractZip, on_tryCatch, on_bind, on_query, hread] at h
    dsimp only at h
    rw [hmembers] at h
    cases h
  refine ⟨bytes, members, rfl, hmembers, ?_⟩
  rw [on_extractZip text hread hmembers] at h
  rcases hrun : (extract config (.ofMembers libraries.codecs bytes members) text).on fs with
    ⟨failure | count', fs₁⟩
  · rw [hrun] at h
    cases h
  · rw [hrun] at h
    exact h

/-- What an extraction that has succeeded has left below the root that it made. -/
lemma unpacked_of_extract {listing : Listing} {count : Int}
    (hp : ∀ entry ∈ listing.entries, entry.Portioned)
    (h : (extract config listing text).on fs = (.ok count, fs')) :
    ∃ base top tally, (PurePath.ofString text).names ≠ [] ∧
      Base base (PurePath.ofString text).toString top ∧
      (∀ entry ∈ listing.files, entry.Readable ∧ ∃ names, entry.names? = some names) ∧
      Unpacked base top listing.files tally fs' := by
  obtain ⟨hlist, -⟩ := count_of_extract h
  have hrun := h
  rw [extract] at hrun
  obtain ⟨⟨⟩, base, hmade, hrun⟩ := ok_of_on_bind hrun
  obtain ⟨tally, fs₁, hentries, -⟩ := ok_of_on_bind hrun
  have hread : ∀ entry ∈ listing.files, entry.Readable ∧ ∃ names, entry.names? = some names := by
    intro entry hm
    obtain ⟨hm, hfile⟩ := List.mem_filter.1 hm
    exact readable_of_extractEntries hp hentries entry hm (by simpa using hfile)
  obtain ⟨top, hb, ⟨-, tally, -, hu⟩ | ⟨-, failure, hfails⟩⟩ :=
    extract_of_makePath config hmade hlist fun entry hm => (hread entry hm).1
  · rw [h] at hu
    exact ⟨base, top, tally, names_ne_nil_of_makePath hmade, hb, hread, hu⟩
  · rw [h] at hfails
    cases hfails

/-- Where a file is listed, the root is not too long. -/
lemma size_root_of_listed (hd : fs.isDirectory place) (hne : root ≠ "")
    (h : fs.Listed ignored root place names) : root.utf8ByteSize ≤ maxPathBytes := by
  obtain ⟨⟨⟨content, hfile⟩, -⟩, hsize⟩ := h
  obtain ⟨first, rest, rfl⟩ := List.exists_cons_of_ne_nil (ne_nil_of_file hd hfile)
  have hfirst := (validName_of_get? hfile (List.mem_append_right _ (List.mem_cons_self ..))).plain
  exact (Path.size_le_append_of_relative hne
    (Path.isAbsolute_ofSegments hfirst.1 hfirst.2.2.2)).trans hsize

/-- The analysis of a directory that has just been made is that of its files, of which none are
listed if its path is too long to be looked up. -/
lemma analysis_of_made (hne : (PurePath.ofString text).names ≠ [])
    (ha : fs.ArrivesAt (PurePath.ofString text).toString top) (hd : fs.isDirectory top)
    (h : (analyzeDirectory libraries.sortKey config text jobId).on fs = (.ok analysis, fs)) :
    analysis = .ofSources libraries.sortKey config.topDegree jobId
      (fun path => fs.source? (Graph.filePath text path))
        ((fs.listed config.ignoredDirs text top).map Path.ofSegments) ∧
      ∀ names, fs.Listed config.ignoredDirs text top names → fs.LeadsTo text top := by
  cases hc : checkText text with
  | ok _ =>
    have hleads : fs.LeadsTo text top := .of_arrivesAt hne hc ha hd
    rw [on_analyzeDirectory _ hleads config jobId] at h
    exact ⟨(Except.ok.inj (Prod.mk.inj h).1).symm, fun _ _ => hleads⟩
  | error e =>
    have hlocate : fs.locate true text = .error e := locate_of_checkText true hc
    rw [analyzeDirectory, scan] at h
    obtain ⟨paths, fs₁, hscan, h⟩ := ok_of_on_bind h
    rw [on_bind_ok on_get, hlocate] at hscan
    rcases checkText_eq_error hc with rfl | ⟨rfl, rfl⟩ | ⟨rfl, hlong⟩
    · cases hscan
    · exact absurd rfl hne
    · obtain ⟨hpaths, rfl⟩ := Prod.mk.inj hscan
      obtain rfl := Except.ok.inj hpaths
      have htext : text ≠ "" := by
        rintro rfl
        exact hne rfl
      have hnone (names : Location) (hl : fs.Listed config.ignoredDirs text top names) : False :=
        absurd (size_root_of_listed hd htext hl) (Nat.not_le.2 hlong)
      have hlisted : fs.listed config.ignoredDirs text top = [] :=
        List.eq_nil_iff_forall_not_mem.2 fun names hm => hnone names ((mem_listed hd).1 hm)
      rw [hlisted]
      exact ⟨(Except.ok.inj (Prod.mk.inj h).1).symm, fun names hl => (hnone names hl).elim⟩

/-! ## Agreement -/

/-- The analysis of files that are listed agrees with that of any directory that holds them. -/
lemma agrees_ofListed (sortKey : String → List Nat) (hd : fs.isDirectory place)
    (hfiles : fs.HoldsFiles place (lastContent files))
    (hread : ∀ entry ∈ files, entry.Readable ∧ ∃ names, entry.names? = some names)
    (hleads : ∀ names, fs.Listed config.ignoredDirs root place names → fs.LeadsTo root place)
    (jobId : Option String) :
    (Analysis.ofSources sortKey config.topDegree jobId
      (fun path => fs.source? (Graph.filePath root path))
      ((fs.listed config.ignoredDirs root place).map Path.ofSegments)).Agrees sortKey config root
        files := by
  constructor
  case readable => exact hread
  case paths =>
    intro path hp
    have hleaf : path ∈ (Tree.build sortKey rootName
        ((fs.listed config.ignoredDirs root place).map Path.ofSegments)).leafPaths := by
      rcases List.mem_append.1 hp with hp | hp
      · exact hp
      · have hconsistent : (Analysis.ofSources sortKey config.topDegree jobId
            (fun path => fs.source? (Graph.filePath root path))
            ((fs.listed config.ignoredDirs root place).map Path.ofSegments)).Consistent
              config.topDegree :=
          Analysis.consistent_ofListed sortKey hd _ _ _
        exact (List.mem_filter.1 (hconsistent.nodes_perm.mem_iff.1 hp)).1
    obtain ⟨names, hn, rfl⟩ := List.mem_map.1 (Tree.mem_of_mem_leafPaths hleaf)
    have hmem := mem_pathsOf_of_listed hfiles ((mem_listed hd).1 hn)
    exact ⟨names, hmem, rfl, ofRaw_of_mem_pathsOf hmem⟩
  case directory =>
    intro hreach fs' root' place' jobId' h' hfiles' hreach'
    have hsame := Analysis.ofListed_congr h'.isDirectory hd (fun _ _ => h') hleads
      (fun names => by
        rw [listed_iff_of_withinReach hfiles' hreach', listed_iff_of_withinReach hfiles hreach])
      (fun names hl _ => by
        obtain ⟨content, hc⟩ := mem_pathsOf_iff_lastContent.1 (mem_pathsOf_of_listed hfiles' hl)
        rw [(hfiles' names content).2 hc, (hfiles names content).2 hc])
      sortKey config.topDegree jobId'
    rw [on_analyzeDirectory sortKey h' config jobId', hsame]
    rfl
  case count =>
    intro hreach
    refine Eq.trans ?_ (length_listed hd hfiles hreach)
    exact List.length_map _

/-- The archive, and a directory to extract it in. -/
def detourStart : FileSystem :=
  ((FileSystem.empty [] ⟨0⟩).insert ["e"] .directory).insert ["s"] (.file detourArchive)

lemma on_analyzeArchive_detour :
    ∃ analysis fs', (analyzeArchive .own {} "s" "e/x" none).on detourStart = (.ok analysis, fs') ∧
      analysis.filesCount = 1 := by
  have hone : ((analyzeArchive .own {} "s" "e/x" none).on detourStart).1.toOption.map
      (·.filesCount) = some 1 := by
    decide +kernel
  rcases hrun : (analyzeArchive .own {} "s" "e/x" none).on detourStart with
    ⟨failure | analysis, fs'⟩
  · rw [hrun] at hone
    cases hone
  · rw [hrun] at hone
    exact ⟨analysis, fs', rfl, Option.some.inj hone⟩

/-- The file of the archive, in a directory. -/
def detourTree : FileSystem :=
  ((FileSystem.empty [] ⟨0⟩).insert ["e"] .directory).insert ["e", "a.js"] (.file ⟨#[0x31]⟩)

lemma lastContent_detour (names : Location) :
    lastContent (memberFiles .absent detourArchive [detourMember]) names =
      if names = ["a.js"] then some ⟨#[0x31]⟩ else none := by
  have hentry : (ArchiveEntry.ofMember .absent detourArchive detourMember).isDirectory = false ∧
      (ArchiveEntry.ofMember .absent detourArchive detourMember).names? = some ["a.js"] ∧
      (ArchiveEntry.ofMember .absent detourArchive detourMember).bytes = ⟨#[0x31]⟩ := by
    decide +kernel
  obtain ⟨hfile, hnames, hbytes⟩ := hentry
  have hfiles : memberFiles .absent detourArchive [detourMember] =
      [] ++ [ArchiveEntry.ofMember .absent detourArchive detourMember] := by
    simp [memberFiles, hfile]
  rw [hfiles, lastContent_snoc hnames, hbytes]
  rfl

lemma holdsFiles_detourTree : detourTree.HoldsFiles ["e"]
    (lastContent (memberFiles .absent detourArchive [detourMember])) := by
  intro names content
  have hbase : (FileSystem.empty [] ⟨0⟩).Vacant ["e"] := by decide +kernel
  have hfolder : ((FileSystem.empty [] ⟨0⟩).insert ["e"] .directory).Vacant ["e", "a.js"] := by
    decide +kernel
  have hnames : ["e"] ++ names = ["e", "a.js"] ↔ names = ["a.js"] := by simp
  rw [detourTree, get?_insert hfolder, get?_insert hbase, lastContent_detour]
  by_cases hn : names = ["a.js"]
  · rw [if_pos (hnames.2 hn), if_pos hn]
    simp
  · rw [if_neg (mt hnames.1 hn), if_neg hn]
    split
    · simp
    · simp [get?, FileSystem.empty]

/-- From a root that is written in a long way, the file is not listed. -/
lemma listed_detourTree :
    detourTree.listed defaultIgnoredDirs (dottedPath 2046) ["e"] = [] := by
  have hd : detourTree.isDirectory ["e"] := by decide +kernel
  have hpaths : pathsOf (memberFiles .absent detourArchive [detourMember]) = [["a.js"]] := by
    decide +kernel
  refine List.eq_nil_iff_forall_not_mem.2 fun names hm => ?_
  have hl := (mem_listed hd).1 hm
  have hn := mem_pathsOf_of_listed holdsFiles_detourTree hl
  rw [hpaths, List.mem_singleton] at hn
  have hlong := hl.2
  have hname : (Path.ofSegments ["a.js"]).utf8ByteSize = 4 := by decide +kernel
  rw [hn, size_append_dottedPath (by decide), hname, maxPathBytes] at hlong
  omega

end SourceAtlas
