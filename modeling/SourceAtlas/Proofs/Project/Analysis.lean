import SourceAtlas.Project.Analysis
import SourceAtlas.Proofs.Extraction.Archive
import SourceAtlas.Proofs.Files.Reaching
import SourceAtlas.Proofs.Files.Removal

/-!
# Analysing an archive

The analysis of a directory only reads (`analyzeDirectory_readsOnly`).  The analysis of an
archive leaves what was extracted at the place of its directory if it succeeds
(`UnpackedAt`), and everything as it was if it fails, whatever it fails on and whatever stood
there (`analyzeArchive_missing`, `analyzeArchive_cases`).

The directory gets a name in one that stands.  In one that was made but is not found by its path, no
archive is analysed (`analyzeArchive_unfound`).
-/

namespace SourceAtlas

open FileSystem

/-! ## Reading only -/

open SourceAtlas.Action

lemma Graph.sourceOf_readsOnly (root path : String) : ReadsOnly (sourceOf root path) := by
  unfold sourceOf
  dsimp only
  split
  · exact (readsOnly_throw _).bind fun _ => readsOnly_get.bind fun _ => readsOnly_pure _
  · exact readsOnly_get.bind fun _ => readsOnly_pure _

lemma Graph.addFiles_readsOnly (root : String) (known : List String) (graph : Graph)
    (paths : List String) : ReadsOnly (addFiles root known graph paths) := by
  induction paths generalizing graph with
  | nil => exact readsOnly_pure graph
  | cons path paths ih =>
    rw [addFiles]
    refine (sourceOf_readsOnly root path).bind ?_
    intro text
    cases text with
    | none => exact ih graph
    | some text => exact ih _

lemma scan_readsOnly (ignored : List String) (root : String) : ReadsOnly (scan ignored root) := by
  unfold scan
  refine readsOnly_get.bind ?_
  intro fs
  split
  · exact readsOnly_throw _
  · exact readsOnly_pure _
  · split
    · exact readsOnly_pure _
    · exact readsOnly_pure _

/-- The analysis of a directory changes nothing. -/
theorem analyzeDirectory_readsOnly (sortKey : String → List Nat) (config : Config) (root : String)
    (jobId : Option String) : ReadsOnly (analyzeDirectory sortKey config root jobId) := by
  rw [analyzeDirectory]
  refine (scan_readsOnly config.ignoredDirs root).bind ?_
  intro paths
  exact (Graph.addFiles_readsOnly root _ _ _).bind fun graph => readsOnly_pure _

/-! ## Extracting to an entry of a directory -/

variable {libraries : Libraries} {fs fs' : FileSystem} {config : Config}
  {dir name text archive : String} {place top : Location}

namespace Extraction

lemma Holds.planted {ledger : List (Location × ByteArray)}
    (h : Holds (fs.insert top .directory) top ledger fs') (hv : fs.Vacant top) :
    fs.Planted fs' top := by
  refine ⟨⟨h.workingDirectory.trans (insert_grows hv).workingDirectory, fun location hp => ?_⟩,
    hv.get?, h.isDirectory⟩
  rw [h.outside location hp, get?_insert hv, if_neg]
  rintro rfl
  exact hp (List.prefix_refl _)

/-- An entry of a directory that has just been made is a place to extract to. -/
lemma Base.of_vacant (h : fs.LeadsTo dir place) (ht : NamedText dir name text) (hn : PlainName name)
    (hc : checkText text = .ok ()) (hv : fs.Vacant (place ++ [name])) :
    Base (fs.insert (place ++ [name]) .directory) text (place ++ [name]) := by
  have hself : (fs.insert (place ++ [name]) .directory).get? (place ++ [name]) =
      some .directory := by
    rw [get?_insert hv, if_pos rfl]
  refine ⟨(h.grows (insert_grows hv)).walkText_entry ht hn hc hself (.inl rfl), hself,
    fun rest hr => ?_⟩
  rw [get?_insert hv, if_neg (by simpa using hr),
    get?_eq_none_of_above hv.get? (List.prefix_append _ rest)]

end Extraction

/-- An extraction to an entry of a directory changes nothing or leaves a tree there. -/
lemma extract_entry (config : Config) (listing : Listing) (h : fs.LeadsTo dir place)
    (ht : NamedText dir name text) (hn : PlainName name) :
    (∃ failure, (extract config listing text).on fs = (.error failure, fs)) ∨
      fs.Planted ((extract config listing text).on fs).2 (place ++ [name]) := by
  rcases h.makeDirectory_cases (ht.pure hn).toNamedText hn with ⟨e, hmade, he⟩ | ⟨hv, hc, hmade⟩
  · have hrun : ∃ failure, (makePath false (PurePath.ofString text)).on fs =
        (.error failure, fs) := by
      rw [on_makePath false (by rw [hmade]; simpa using he), on_makeOne, hmade]
      cases e with
      | nullByte => exact ⟨_, rfl⟩
      | os code => exact ⟨.file (.os code), by simp⟩
    obtain ⟨failure, hrun⟩ := hrun
    exact .inl ⟨failure, by rw [extract, on_bind_error hrun]⟩
  · have hb : Extraction.Base (fs.insert (place ++ [name]) .directory)
        (PurePath.ofString text).toString (place ++ [name]) :=
      .of_vacant h (ht.pure hn).toNamedText hn hc hv
    have hrun : (makePath false (PurePath.ofString text)).on fs =
        (.ok (), fs.insert (place ++ [name]) .directory) := by
      rw [on_makePath false (by rw [hmade]; simp), on_makeOne, hmade]
    obtain ⟨ledger, -, hh⟩ := Extraction.extract_of_made config listing hb hrun
    exact .inr (hh.planted hv)

lemma extractZip_entry (codecs : Codecs) (config : Config) (archive : String)
    (h : fs.LeadsTo dir place) (ht : NamedText dir name text) (hn : PlainName name) :
    (∃ failure, (extractZip codecs config archive text).on fs = (.error failure, fs)) ∨
      fs.Planted ((extractZip codecs config archive text).on fs).2 (place ++ [name]) := by
  rcases extractZip_cases codecs config archive text fs with hfails | ⟨listing, hrun⟩
  · exact .inl hfails
  · rcases extract_entry config listing h ht hn with ⟨failure, hextract⟩ | hp
    · rw [hextract] at hrun
      exact .inl ⟨_, hrun⟩
    · rw [hrun]
      exact .inr hp

/-! ## Cleaning up -/

/-- A run that removes a path before it fails. -/
lemma on_removePath_throw (α : Type) (target : Option String) (failure : Failure)
    (fs : FileSystem) :
    ∃ failure', (do discard <| removePath target; throw failure : Action α).on fs =
      (.error failure', ((removePath target).on fs).2) := by
  rw [on_bind, on_discard]
  rcases (removePath target).on fs with ⟨failure' | removed, fs'⟩
  · exact ⟨failure', rfl⟩
  · exact ⟨failure, rfl⟩

/-- The directory of a failed analysis is removed, if it was made. -/
lemma removePath_failed (h : fs.LeadsTo dir place) (ht : NamedText dir name text)
    (hn : PlainName name) (hs : text.utf8ByteSize ≤ maxPathBytes)
    (hrun : fs.get? (place ++ [name]) = none ∧ fs' = fs ∨ fs.Planted fs' (place ++ [name])) :
    fs.Alike ((removePath (some text)).on fs').2 := by
  rcases hrun with ⟨hnone, rfl⟩ | hp
  · rw [removePath_missing h ht hn hnone]
    exact .refl _
  · have hvalid : ValidName name := validName_of_get? hp.isDirectory (by simp)
    have hc := checkText_of_named ht h.text hvalid hs
    obtain ⟨fs'', hrun, hcleared⟩ :=
      removePath_directory h (hp.grows (.refl fs) hp.missing) hp.missing ht hn hc hp.isDirectory
    rw [hrun]
    exact hcleared.alike hp.toChangesOnly hp.missing

/-! ## The analysis of an archive -/

/-- A path that leads somewhere is refused. -/
lemma analyzeArchive_exists (libraries : Libraries) (config : Config) (archive : String)
    (jobId : Option String)
    (h : fs.pathExists text = true) :
    (analyzeArchive libraries config archive text jobId).on fs = (.error (.occupied text), fs) := by
  rw [analyzeArchive, on_bind_ok on_get, if_pos h]
  rfl

/-- Where no directory could be made, the path is removed all the same. -/
lemma analyzeArchive_unmade {failure : Failure} (libraries : Libraries) (config : Config)
    (archive : String) (jobId : Option String) (hmissing : fs.pathExists text = false)
    (hmade : (makePath false (PurePath.ofString text)).on fs = (.error failure, fs)) :
    ∃ failure', (analyzeArchive libraries config archive text jobId).on fs =
      (.error failure', ((removePath (some text)).on fs).2) := by
  have hextract : ∃ failure', (extractZip libraries.codecs config archive text).on fs =
      (.error failure', fs) := by
    rcases extractZip_cases libraries.codecs config archive text fs with hfails | ⟨listing, hrun⟩
    · exact hfails
    · rw [extract, on_bind_error hmade] at hrun
      exact ⟨_, hrun⟩
  obtain ⟨failure', hextract⟩ := hextract
  obtain ⟨failure'', hrun⟩ := on_removePath_throw Analysis (some text) failure' fs
  rw [analyzeArchive, on_bind_ok on_get, if_neg (by simp [hmissing]), on_tryCatch, on_bind,
    on_discard, hextract]
  exact ⟨failure'', hrun⟩

/-- An archive has been extracted to a place where nothing stood. -/
structure UnpackedAt (codecs : Codecs) (config : Config) (archive text : String)
    (fs fs' : FileSystem) (place : Location) : Prop extends fs.Planted fs' place where
  extracted : ∃ count, (extractZip codecs config archive text).on fs = (.ok count, fs')

/-- Where nothing stands, the analysis of an archive leaves what the extraction left, or nothing. -/
lemma analyzeArchive_missing (libraries : Libraries) (config : Config) (archive : String)
    (jobId : Option String)
    (h : fs.LeadsTo dir place) (ht : NamedText dir name text) (hn : PlainName name)
    (hs : text.utf8ByteSize ≤ maxPathBytes) (hnone : fs.get? (place ++ [name]) = none) :
    (∃ failure fs', (analyzeArchive libraries config archive text jobId).on fs =
        (.error failure, fs') ∧ fs.Alike fs') ∨
      ∃ analysis fs', (analyzeArchive libraries config archive text jobId).on fs =
        (.ok analysis, fs') ∧
        UnpackedAt libraries.codecs config archive text fs fs' (place ++ [name]) := by
  have hmissing : ¬ fs.pathExists text = true := by
    rw [pathExists, h.node?_none ht hn hnone]
    simp
  have hcleanup (failure : Failure) {fs' : FileSystem}
      (hleft : fs.get? (place ++ [name]) = none ∧ fs' = fs ∨ fs.Planted fs' (place ++ [name])) :
      ∃ failure' fs'', (do discard <| removePath (some text); throw failure : Action Analysis).on
        fs' = (.error failure', fs'') ∧ fs.Alike fs'' := by
    obtain ⟨failure', hrun⟩ := on_removePath_throw Analysis (some text) failure fs'
    exact ⟨failure', _, hrun, removePath_failed h ht hn hs hleft⟩
  rw [analyzeArchive, on_bind_ok on_get, if_neg hmissing, on_tryCatch, on_bind, on_discard]
  rcases extractZip_entry libraries.codecs config archive h ht hn with ⟨failure, hrun⟩ | hp
  · rw [hrun]
    exact .inl (hcleanup failure (.inl ⟨hnone, rfl⟩))
  · cases hrun : (extractZip libraries.codecs config archive text).on fs with
    | mk result fs' =>
    rw [hrun] at hp
    cases result with
    | error failure => exact .inl (hcleanup failure (.inr hp))
    | ok count =>
      have hreads := analyzeDirectory_readsOnly libraries.sortKey config text jobId fs'
      dsimp only [Except.map]
      generalize (analyzeDirectory libraries.sortKey config text jobId).on fs' = outcome at hreads
      obtain ⟨failure | analysis, fs''⟩ := outcome
      · obtain rfl : fs'' = fs' := hreads
        exact .inl (hcleanup failure (.inr hp))
      · obtain rfl : fs'' = fs' := hreads
        exact .inr ⟨analysis, fs'', rfl, hp, count, hrun⟩

/-- The analysis of an archive leaves a tree at its directory or nothing. -/
theorem analyzeArchive_cases (libraries : Libraries) (config : Config) (archive : String)
    (jobId : Option String)
    (h : fs.LeadsTo dir place) (ht : EntryText dir name text) (hn : PlainName name)
    (hc : checkText text = .ok ())
    (hl : ∀ target, fs.get? (place ++ [name]) ≠ some (.link target)) :
    (∃ failure fs', (analyzeArchive libraries config archive text jobId).on fs =
        (.error failure, fs') ∧ fs.Alike fs') ∨
      ∃ analysis fs', (analyzeArchive libraries config archive text jobId).on fs =
        (.ok analysis, fs') ∧
        UnpackedAt libraries.codecs config archive text fs fs' (place ++ [name]) := by
  cases hnode : fs.get? (place ++ [name]) with
  | some node =>
    have hexists : fs.pathExists text = true := by
      rw [pathExists, h.node?_entry ht hn hc hnode fun target he => hl target (he ▸ hnode)]
      rfl
    exact .inl ⟨_, fs, analyzeArchive_exists libraries config archive jobId hexists, .refl fs⟩
  | none =>
    have hs := (checkText_eq_ok_iff.1 hc).2.2
    exact analyzeArchive_missing libraries config archive jobId h ht.toNamedText hn hs hnode

/-- In a directory that was made but is not found, no archive is analysed, and nothing changes. -/
lemma analyzeArchive_unfound (libraries : Libraries) (config : Config) (archive : String)
    (jobId : Option String)
    (hr : fs.Reaches dir) (hne : dir ≠ "") (hs : dir.utf8ByteSize ≤ maxPathBytes)
    (ht : NamedText dir name text) (hn : PlainName name) (hno : ∀ place, ¬ fs.LeadsTo dir place) :
    ∃ failure, (analyzeArchive libraries config archive text jobId).on fs =
      (.error failure, fs) := by
  have hnowhere {text : String} {arrival : Arrival} (ht : NamedText dir name text) :
      fs.walkText false text (bareRoute text) ≠ .ok arrival := by
    intro hw
    obtain ⟨place, h⟩ := LeadsTo.of_arrival hne hs ht hw
    exact hno place h
  have hmake (fs' : FileSystem) : fs.makeDirectory (PurePath.ofString text).toString ≠ .ok fs' := by
    intro hmade
    obtain ⟨parent, last, hw, -⟩ := makeDirectory_eq_ok hmade
    exact hnowhere (ht.pure hn).toNamedText hw
  obtain ⟨failure, hmade⟩ := makePath_of_reaches hr ht hn hmake
  cases hexists : fs.pathExists text with
  | true => exact ⟨_, analyzeArchive_exists libraries config archive jobId hexists⟩
  | false =>
    obtain ⟨failure', hrun⟩ := analyzeArchive_unmade libraries config archive jobId hexists hmade
    rw [pathExists, Option.isSome_eq_false_iff, Option.isNone_iff_eq_none] at hexists
    rw [removePath_unchanged hexists fun _ => hnowhere ht] at hrun
    exact ⟨failure', hrun⟩

end SourceAtlas
