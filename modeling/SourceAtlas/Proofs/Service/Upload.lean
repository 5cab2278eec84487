import SourceAtlas.Proofs.Project.Analysis
import SourceAtlas.Proofs.Service.Storing

/-!
# What an upload leaves behind

An upload leaves a stored file, or a stored file and a tree in the directory for extracted
archives, or nothing.  Which of the three it is shows in its result: nothing is left unless a job
is registered, and then the job names what is kept (`UploadKept`).  Every upload ends in one of
these ways, whatever its name and content are, and whether or not the two directories are found by
their paths once they have been made (`receive_cases`).  If they are, what is left is told by their
places (`Received`, `receive_received`).

The file gets the name that the time, the identifier of the job and the name of the upload make up;
that is always the name of an entry (`plainName_of_storedName`).  A file is stored only where
nothing stands, so the identifiers need not be different.
-/

namespace SourceAtlas

open FileSystem SourceAtlas.Action Extraction

/-! ## Names -/

/-- A stored file has the name of an entry. -/
lemma plainName_of_storedName {clock : Binary64} {jobId name storedAs : String}
    (hid : '/' ∉ jobId.toList) (hname : '/' ∉ name.toList)
    (h : storedName? clock jobId name = some storedAs) : PlainName storedAs := by
  rw [storedName?, Option.map_eq_some_iff] at h
  obtain ⟨milliseconds, -, rfl⟩ := h
  have hdash : '-' ∈ (toString milliseconds ++ "-" ++ jobId ++ "-" ++ name).toList := by
    simp
  have hslash : '/' ∉ (toString milliseconds ++ "-" ++ jobId ++ "-" ++ name).toList := by
    simp [slash_notMem_repr, hid, hname]
  exact plainName_of_mem hdash (by decide) hslash

/-- An accepted upload has a name of a single segment and the content that was sent. -/
lemma accept_eq_ok {submission : Option Submission} {accepted : Accepted}
    (h : Submission.accept submission = .ok accepted) :
    '/' ∉ accepted.name.toList ∧ submission.map Submission.content = some accepted.content := by
  rw [Submission.accept.eq_def] at h
  split at h
  · cases h
  split at h
  · cases h
  dsimp only at h
  split at h
  · cases h
  split at h
  · rw [← Except.ok.inj h]
    exact ⟨Path.notMem_base _, rfl⟩
  · cases h

variable {libraries : Libraries} {config : Config} {fs fs' fs₁ : FileSystem}
  {dir name text : String} {place uploads extracted : Location} {content : ByteArray}

/-! ## Storing -/

/-- The directories are made once. -/
lemma on_prepareDirectories (hu : fs.LeadsTo config.uploadsDir uploads)
    (hx : fs.LeadsTo config.extractedDir extracted) :
    (prepareDirectories config).on fs = (.ok (), fs) := by
  rw [prepareDirectories, on_bind_ok (makeAll_standing hu), makeAll_standing hx]

/-- A place on the way to one of the directories of a service. -/
def OnServiceWay (config : Config) (fs : FileSystem) (place : Location) : Prop :=
  AlongPath fs config.uploadsDir place ∨ AlongPath fs config.extractedDir place

/-- Preparing adds directories on the way to the two directories and changes nothing else. -/
lemma prepareDirectories_adds (config : Config) (fs : FileSystem) :
    fs.AddsDirectories ((prepareDirectories config).on fs).2
      (OnServiceWay config ((prepareDirectories config).on fs).2) := by
  have huploads := makeAll_adds config.uploadsDir fs
  rw [prepareDirectories, on_bind]
  generalize (makeAll config.uploadsDir).on fs = outcome at huploads
  obtain ⟨failure | ⟨⟩, fs₁⟩ := outcome
  · exact huploads.mono fun _ h => .inl h
  · have hextracted := makeAll_adds config.extractedDir fs₁
    exact (huploads.mono fun _ h => .inl (h.of_grows hextracted.grows)).trans
      (hextracted.mono fun _ h => .inr h)

namespace Extraction.Put

/-- A new file leads nowhere: what is found by another way was found before. -/
lemma advance_eq {followLast : Bool} {here : Location} {names : List String}
    (h : Put fs fs' place content) (hfirm : (fs'.advance followLast here names).IsFirm)
    (hne : fs'.advance followLast here names ≠ .arrived (.entry place)) :
    fs.advance followLast here names = fs'.advance followLast here names := by
  fun_induction fs'.advance followLast here names with
  | case1 here => rfl
  | case2 => exact hfirm.elim
  | case3 here rest hd ih => rw [advance_dot (h.get?_eq_some hd (by simp)), ih hfirm hne]
  | case4 here rest hd _ ih => rw [advance_up (h.get?_eq_some hd (by simp)), ih hfirm hne]
  | case5 => exact hfirm.elim
  | case6 => exact hfirm.elim
  | case7 => exact hfirm.elim
  | case8 here name rest hd h1 h2 h3 target hl hlast =>
    have hd' : fs.Descends here name := ⟨h.get?_eq_some hd (by simp), h1, h2, Nat.not_lt.1 h3⟩
    rw [hd'.advance_link (h.get?_eq_some hl (by simp)), if_pos hlast]
  | case9 here name rest hd h1 h2 h3 target hl hlast =>
    have hd' : fs.Descends here name := ⟨h.get?_eq_some hd (by simp), h1, h2, Nat.not_lt.1 h3⟩
    rw [hd'.advance_link (h.get?_eq_some hl (by simp)), if_neg hlast]
  | case10 here name rest hd h1 h2 h3 node hlink hn ih =>
    have hd' : fs.Descends here name := ⟨h.get?_eq_some hd (by simp), h1, h2, Nat.not_lt.1 h3⟩
    by_cases hself : here ++ [name] = place
    · -- The new file itself can be arrived at, but not be walked on from.
      exfalso
      rw [hself] at hfirm hne
      cases rest with
      | nil => exact hne (by rw [advance])
      | cons next rest =>
        rw [advance, h.get?_self] at hfirm
        exact hfirm
    · have hn' : fs.get? (here ++ [name]) = some node := by
        rw [h.get?, if_neg hself] at hn
        exact hn
      rw [hd'.advance_down hn' hlink, ih hfirm hne]
  | case11 => exact hfirm.elim

/-- A directory that is found next to a new file was found before. -/
lemma leadsTo_of_put {directory : Location} (h : Put fs fs' place content)
    (hl : fs'.LeadsTo dir directory) : fs.LeadsTo dir directory := by
  have hd : fs.isDirectory directory := h.get?_eq_some hl.isDirectory (by simp)
  have hne : directory ≠ place := by
    rintro rfl
    have hd' : fs'.get? directory = some .directory := hl.isDirectory
    rw [h.get?_self] at hd'
    cases hd'
  refine ⟨hl.text, ?_, hd⟩
  rw [← h.workingDirectory]
  refine walk_induction (motive := fun budget here names =>
    fs.walk true budget here names = .ok (.entry directory)) ?_ ?_ hl.walk
  · intro budget here names ha
    refine walk_of_arrived ?_
    rw [h.advance_eq (by rw [ha]; trivial) (by rw [ha]; simpa using hne), ha]
  · intro budget here names start onward ha ih
    rw [walk_of_detour (by rw [h.advance_eq (by rw [ha]; trivial) (by rw [ha]; simp), ha]), ih]

end Extraction.Put

/-! ## Analysing what is stored -/

/-- A stored archive and the tree made of it are kept together, or neither is. -/
lemma analyzeStored_cases {archive jobId : String} (hu : fs.LeadsTo dir uploads)
    (hta : EntryText dir name archive) (hn : PlainName name)
    (hca : checkText archive = .ok ()) (hnone : fs.get? (uploads ++ [name]) = none)
    (hp : Put fs fs₁ (uploads ++ [name]) content)
    (hr : fs.Reaches config.extractedDir) (hx : config.extractedDir ≠ "") (hid : ValidName jobId)
    (hs : (Path.append config.extractedDir jobId).utf8ByteSize ≤ maxPathBytes)
    (hl : ∀ extracted, fs.LeadsTo config.extractedDir extracted →
      ∀ target, fs.get? (extracted ++ [jobId]) ≠ some (.link target)) :
    (∃ failure fs', (analyzeStored libraries config archive
      (Path.append config.extractedDir jobId) jobId).on fs₁ =
        (.error failure, fs') ∧ fs.Alike fs') ∨
      ∃ analysis extracted fs',
        (analyzeStored libraries config archive (Path.append config.extractedDir jobId) jobId).on
          fs₁ = (.ok analysis, fs') ∧
        fs.LeadsTo config.extractedDir extracted ∧
        UnpackedAt libraries.codecs config archive (Path.append config.extractedDir jobId) fs₁ fs'
          (extracted ++ [jobId]) := by
  have hgrown := hp.changesOnly.grows (.refl fs) hnone
  have htd := entryText_append hx hid.plain
  have hcleanup {failure : Failure} {fs' : FileSystem}
      (hrun : (analyzeArchive libraries config archive (Path.append config.extractedDir jobId)
        (some jobId)).on fs₁ = (.error failure, fs')) (ha : fs₁.Alike fs') :
      ∃ failure fs',
        (analyzeStored libraries config archive (Path.append config.extractedDir jobId) jobId).on
          fs₁ = (.error failure, fs') ∧ fs.Alike fs' := by
    obtain ⟨failure', hrun'⟩ := on_removePath_throw Analysis (some archive) failure fs'
    refine ⟨failure', _, ?_, removePath_put hu hta hn hca hnone (hp.alike ha)⟩
    rw [analyzeStored, on_tryCatch, hrun]
    exact hrun'
  by_cases hlead : ∃ extracted, fs.LeadsTo config.extractedDir extracted
  · obtain ⟨extracted, hlead⟩ := hlead
    have hcd := checkText_of_named htd.toNamedText hlead.text hid hs
    have hl' : ∀ target, fs₁.get? (extracted ++ [jobId]) ≠ some (.link target) := by
      intro target hn
      exact hl extracted hlead target (hp.get?_eq_some hn (by simp))
    rcases analyzeArchive_cases libraries config archive (some jobId)
      (hlead.grows hgrown) htd hid.plain hcd hl' with
      ⟨failure, fs', hrun, ha⟩ | ⟨analysis, fs', hrun, hunpacked⟩
    · exact .inl (hcleanup hrun ha)
    · refine .inr ⟨analysis, extracted, fs', ?_, hlead, hunpacked⟩
      rw [analyzeStored, on_tryCatch, hrun]
  · have hno (place : Location) : ¬ fs₁.LeadsTo config.extractedDir place :=
      fun h => hlead ⟨place, hp.leadsTo_of_put h⟩
    obtain ⟨failure, hrun⟩ := analyzeArchive_unfound libraries config archive (some jobId)
      (hr.of_grows hgrown) hx ((Path.size_le_append hx hid.2.2.2.1).trans hs) htd.toNamedText
        hid.plain hno
    exact .inl (hcleanup hrun (.refl fs₁))

/-! ## What is kept of an upload -/

/-- The content of an upload is stored in a new file of the directory for uploads. -/
structure Stored (config : Config) (clock : Binary64) (jobId : String) (upload : Accepted)
    (receipt : Receipt) (uploads : Location) (fs fs' : FileSystem) : Prop where
  lead : fs.LeadsTo config.uploadsDir uploads
  name : storedName? clock jobId upload.name = some receipt.storedAs
  text : checkText (Path.append config.uploadsDir receipt.storedAs) = .ok ()
  missing : fs.get? (uploads ++ [receipt.storedAs]) = none
  put : Put fs fs' (uploads ++ [receipt.storedAs]) upload.content
  size_eq : receipt.size = upload.content.size
  size_le : (upload.content.size : Int) ≤ config.maxUploadBytes

/-- What is kept of an upload, with the receipt for it and the job that is registered. -/
inductive UploadKept (codecs : Codecs) (config : Config) (clock : Binary64) (jobId : String)
    (upload : Accepted) (fs : FileSystem) : Receipt → CleanupJob → FileSystem → Prop
  /-- It is stored, and not analysed. -/
  | stored {receipt : Receipt} {uploads : Location} {fs' : FileSystem}
      (hs : Stored config clock jobId upload receipt uploads fs fs')
      (he : upload.extension ≠ analyzedExtension) (ha : receipt.analysis = none) :
      UploadKept codecs config clock jobId upload fs receipt
        ⟨Path.append config.uploadsDir receipt.storedAs, none, clock⟩ fs'
  /-- It is stored and extracted. -/
  | extracted {receipt : Receipt} {uploads extracted : Location} {fs₁ fs' : FileSystem}
      (hs : Stored config clock jobId upload receipt uploads fs fs₁)
      (he : upload.extension = analyzedExtension) (ha : receipt.analysis.isSome)
      (hx : fs.LeadsTo config.extractedDir extracted)
      (hu : UnpackedAt codecs config (Path.append config.uploadsDir receipt.storedAs)
        (Path.append config.extractedDir jobId) fs₁ fs' (extracted ++ [jobId])) :
      UploadKept codecs config clock jobId upload fs receipt
        ⟨Path.append config.uploadsDir receipt.storedAs,
          some (Path.append config.extractedDir jobId), clock⟩ fs'

/-- Nothing is left of an upload, or a job is registered for what is kept of it. -/
theorem receive_cases {jobId : String} {upload : Accepted} (libraries : Libraries)
    (clock : Binary64) (hu : config.uploadsDir ≠ "") (hx : config.extractedDir ≠ "")
    (hr : fs.Reaches config.extractedDir) (hname : '/' ∉ upload.name.toList) (hid : ValidName jobId)
    (hs : (Path.append config.extractedDir jobId).utf8ByteSize ≤ maxPathBytes)
    (hl : ∀ extracted, fs.LeadsTo config.extractedDir extracted →
      ∀ target, fs.get? (extracted ++ [jobId]) ≠ some (.link target)) :
    (∃ result fs', (receive libraries config clock jobId upload).on fs = (result, fs') ∧
        (∀ accepted, result ≠ .ok (.ok accepted)) ∧ fs.Alike fs') ∨
      ∃ receipt job fs', (receive libraries config clock jobId upload).on fs =
        (.ok (.ok (receipt, job)), fs') ∧
        UploadKept libraries.codecs config clock jobId upload fs receipt job fs' := by
  unfold receive
  cases hstored : storedName? clock jobId upload.name with
  | none => exact .inl ⟨_, fs, rfl, by simp, .refl fs⟩
  | some storedAs =>
    have hn : PlainName storedAs := plainName_of_storedName hid.2.2.2.1 hname hstored
    dsimp only
    rw [on_bind]
    by_cases hlead : ∃ uploads, fs.LeadsTo config.uploadsDir uploads
    · obtain ⟨uploads, hlead⟩ := hlead
      have hta := entryText_append hu hn
      rcases storeUpload_cases hlead hta hn upload.content config.maxUploadBytes with
        ⟨result, fs', hrun, hr, ha⟩ | ⟨fs₁, hrun, hsize, hc, hnone, hp⟩
      · rw [hrun]
        cases result with
        | error failure => exact .inl ⟨_, fs', rfl, by simp, ha⟩
        | ok size? =>
          cases size? with
          | error refusal => exact .inl ⟨_, fs', rfl, by simp, ha⟩
          | ok size => exact absurd rfl (hr size)
      · rw [hrun]
        dsimp only
        split
        · rename_i he
          exact .inr ⟨_, _, fs₁, rfl, .stored ⟨hlead, hstored, hc, hnone, hp, rfl, hsize⟩ he rfl⟩
        · rename_i he
          rw [on_bind]
          rcases analyzeStored_cases hlead hta hn hc hnone hp hr hx hid hs hl with
            ⟨failure, fs', hrun', ha⟩ | ⟨analysis, extracted, fs', hrun', hextracted, hunpacked⟩
          · rw [hrun']
            exact .inl ⟨_, fs', rfl, by simp, ha⟩
          · rw [hrun']
            exact .inr ⟨_, _, fs', rfl, .extracted ⟨hlead, hstored, hc, hnone, hp, rfl, hsize⟩
              (not_not.1 he) rfl hextracted hunpacked⟩
    · obtain ⟨failure, hrun⟩ := storeUpload_unfound hu hn (fun place h => hlead ⟨place, h⟩)
        upload.content config.maxUploadBytes
      rw [hrun]
      exact .inl ⟨_, fs, rfl, by simp, .refl fs⟩

/-! ## The ways an upload ends -/

/-- How an upload ends: what it leaves in the directory for uploads and in the one for
extracted archives. -/
inductive Received (config : Config) (uploads extracted : Location) (clock : Binary64)
    (jobId : String) (content : ByteArray) (fs : FileSystem) :
    Except Failure (Except Refusal (Receipt × CleanupJob)) × FileSystem → Prop
  /-- It is refused, and nothing is left of it. -/
  | refused {result : Except Failure (Except Refusal (Receipt × CleanupJob))} {fs' : FileSystem}
      (hr : ∀ accepted, result ≠ .ok (.ok accepted)) (ha : fs.Alike fs') :
      Received config uploads extracted clock jobId content fs (result, fs')
  /-- It is stored. -/
  | stored {name : String} {fs' : FileSystem} (receipt : Receipt) (hn : PlainName name)
      (hc : checkText (Path.append config.uploadsDir name) = .ok ())
      (hnone : fs.get? (uploads ++ [name]) = none) (hp : Put fs fs' (uploads ++ [name]) content) :
      Received config uploads extracted clock jobId content fs
        (.ok (.ok (receipt, ⟨Path.append config.uploadsDir name, none, clock⟩)), fs')
  /-- It is stored and extracted. -/
  | analysed {name : String} {fs₁ fs' : FileSystem} (receipt : Receipt) (hn : PlainName name)
      (hc : checkText (Path.append config.uploadsDir name) = .ok ())
      (hnone : fs.get? (uploads ++ [name]) = none) (hp : Put fs fs₁ (uploads ++ [name]) content)
      (hid : PlainName jobId) (hcd : checkText (Path.append config.extractedDir jobId) = .ok ())
      (ht : fs₁.Planted fs' (extracted ++ [jobId])) :
      Received config uploads extracted clock jobId content fs
        (.ok (.ok (receipt, ⟨Path.append config.uploadsDir name,
          some (Path.append config.extractedDir jobId), clock⟩)), fs')

/-- However an upload ends, what stood before stands as it did. -/
lemma Received.get?_of_some {clock : Binary64} {jobId : String} {location : Location} {node : Node}
    {outcome : Except Failure (Except Refusal (Receipt × CleanupJob)) × FileSystem}
    (h : Received config uploads extracted clock jobId content fs outcome)
    (hn : fs.get? location = some node) : outcome.2.get? location = some node := by
  have hput {name : String} {fs₁ : FileSystem} (hnone : fs.get? (uploads ++ [name]) = none)
      (hp : Put fs fs₁ (uploads ++ [name]) content) : fs₁.get? location = some node := by
    rw [hp.get?, if_neg, hn]
    rintro rfl
    rw [hnone] at hn
    cases hn
  cases h with
  | refused hr ha => exact (ha.get? location).trans hn
  | stored receipt hplain hc hnone hp => exact hput hnone hp
  | analysed receipt hplain hc hnone hp hid hcd ht =>
    have hn₁ := hput hnone hp
    refine (ht.outside location fun hp => ?_).trans hn₁
    rw [get?_eq_none_of_above ht.missing hp] at hn₁
    cases hn₁

/-- Every upload ends in one of these ways. -/
theorem receive_received {jobId : String} {upload : Accepted} (libraries : Libraries)
    (clock : Binary64) (hu : fs.LeadsTo config.uploadsDir uploads)
    (hx : fs.LeadsTo config.extractedDir extracted) (hname : '/' ∉ upload.name.toList)
    (hid : ValidName jobId)
    (hs : (Path.append config.extractedDir jobId).utf8ByteSize ≤ maxPathBytes)
    (hl : ∀ target, fs.get? (extracted ++ [jobId]) ≠ some (.link target)) :
    Received config uploads extracted clock jobId upload.content fs
      ((receive libraries config clock jobId upload).on fs) := by
  have hl' : ∀ other, fs.LeadsTo config.extractedDir other →
      ∀ target, fs.get? (other ++ [jobId]) ≠ some (.link target) := by
    intro other ho
    obtain rfl := hx.unique ho
    exact hl
  rcases receive_cases libraries clock hu.ne_empty hx.ne_empty
    (.of_leadsTo hx) hname hid hs hl' with
    ⟨result, fs', hrun, hr, ha⟩ | ⟨receipt, job, fs', hrun, hkept⟩
  · rw [hrun]
    exact .refused hr ha
  · rw [hrun]
    have hplain {receipt : Receipt} {uploads : Location} {fs fs' : FileSystem}
        (hs : Stored config clock jobId upload receipt uploads fs fs') :
        PlainName receipt.storedAs :=
      plainName_of_storedName hid.2.2.2.1 hname hs.name
    cases hkept with
    | stored hstored =>
      obtain rfl := hu.unique hstored.lead
      exact .stored receipt (hplain hstored) hstored.text hstored.missing hstored.put
    | extracted hstored he ha hx' hunpacked =>
      obtain rfl := hu.unique hstored.lead
      obtain rfl := hx.unique hx'
      have htd := entryText_append hx.ne_empty hid.plain
      have hcd := checkText_of_named htd.toNamedText hx.text hid hs
      exact .analysed receipt (hplain hstored) hstored.text hstored.missing hstored.put hid.plain
        hcd hunpacked.toPlanted

end SourceAtlas
