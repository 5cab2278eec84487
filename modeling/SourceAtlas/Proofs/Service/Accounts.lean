import Mathlib.Data.List.Nodup
import SourceAtlas.Proofs.Cleanup.Removal
import SourceAtlas.Proofs.Service.Upload

/-!
# The accounts of a service

A service keeps files in two directories and jobs in a registry.  `Accounts` says that they agree:
every job has its file in the directory for uploads, with the content that was sent, and its tree in
the directory for extracted archives if it has one; nothing else is in these directories, and no two
jobs share anything.

The accounts are kept by what can happen to a job.  An upload that is registered adds one
(`Accounts.received`), and the removal of the files of a job takes one out (`Accounts.removed`), so
any number of jobs can be removed (`Accounts.removeJobs`).

What a file system has besides is compared with `prepared`, a file system in which the two
directories stand empty: whatever is in that one stays (`Premises`).  So the paths of the
directories lead to where they led, even if they go through links.
-/

namespace SourceAtlas

open FileSystem SourceAtlas.Action Extraction

/-- A registered job with the content that its upload sent. -/
structure Deposit where
  job : CleanupJob
  content : ByteArray

/-- Two directories that stand, empty and apart from each other. -/
structure Premises (config : Config) (prepared : FileSystem) (uploads extracted : Location) :
    Prop where
  uploadsLead : prepared.LeadsTo config.uploadsDir uploads
  extractedLead : prepared.LeadsTo config.extractedDir extracted
  uploadsApart : ¬ uploads <+: extracted
  extractedApart : ¬ extracted <+: uploads
  uploadsEmpty : ∀ name, prepared.get? (uploads ++ [name]) = none
  extractedEmpty : ∀ name, prepared.get? (extracted ++ [name]) = none

/-- The files of a job are in their places. -/
structure Deposit.Kept (deposit : Deposit) (config : Config) (uploads extracted : Location)
    (fs : FileSystem) : Prop where
  archive : ∃ name, PlainName name ∧ deposit.job.archive = Path.append config.uploadsDir name ∧
    checkText deposit.job.archive = .ok () ∧
    fs.get? (uploads ++ [name]) = some (.file deposit.content)
  directory : ∀ text, deposit.job.directory = some text → ∃ name, PlainName name ∧
    text = Path.append config.extractedDir name ∧ checkText text = .ok () ∧
    fs.isDirectory (extracted ++ [name])

/-- The jobs of a service and what its directories hold agree. -/
structure Accounts (config : Config) (prepared : FileSystem) (uploads extracted : Location)
    (deposits : List Deposit) (fs : FileSystem) : Prop where
  grows : prepared.Grows fs
  kept : ∀ deposit ∈ deposits, deposit.Kept config uploads extracted fs
  files : ∀ name node, fs.get? (uploads ++ [name]) = some node →
    ∃ deposit ∈ deposits, deposit.job.archive = Path.append config.uploadsDir name
  trees : ∀ name node, fs.get? (extracted ++ [name]) = some node →
    ∃ deposit ∈ deposits, deposit.job.directory = some (Path.append config.extractedDir name)
  archivesDistinct : (deposits.map fun deposit => deposit.job.archive).Nodup
  directoriesDistinct : (deposits.filterMap fun deposit => deposit.job.directory).Nodup

/-- The names in the directory that a path leads to; none if it leads nowhere. -/
def FileSystem.namesAt (fs : FileSystem) (path : String) : List String :=
  match fs.locate true path with
  | .ok location => fs.names location
  | .error _ => []

/-! ## Places that are apart -/

lemma append_apart {above above' : Location} (h : ¬ above <+: above') (h' : ¬ above' <+: above)
    (more more' : Location) : ¬ above ++ more <+: above' ++ more' := by
  intro hp
  have hfront := (List.prefix_append above more).trans hp
  rcases List.prefix_or_prefix_of_prefix hfront (List.prefix_append above' more') with hl | hl
  · exact h hl
  · exact h' hl

lemma entry_prefix_iff {above : Location} {name name' : String} :
    above ++ [name] <+: above ++ [name'] ↔ name = name' := by
  simp [List.prefix_append_right_inj]

variable {config : Config} {prepared fs fs' : FileSystem} {uploads extracted : Location}
  {deposit : Deposit} {deposits deposits' : List Deposit}

namespace Deposit.Kept

/-- The files of a job are where they were if nothing has changed there. -/
lemma of_get? (h : deposit.Kept config uploads extracted fs)
    (hf : ∀ name, PlainName name → deposit.job.archive = Path.append config.uploadsDir name →
      fs'.get? (uploads ++ [name]) = fs.get? (uploads ++ [name]))
    (ht : ∀ name, PlainName name → deposit.job.directory =
      some (Path.append config.extractedDir name) →
      fs'.get? (extracted ++ [name]) = fs.get? (extracted ++ [name])) :
    deposit.Kept config uploads extracted fs' := by
  constructor
  · obtain ⟨name, hn, he, hc, hg⟩ := h.archive
    exact ⟨name, hn, he, hc, (hf name hn he).trans hg⟩
  · intro text hd
    obtain ⟨name, hn, he, hc, hg⟩ := h.directory text hd
    exact ⟨name, hn, he, hc, (ht name hn (by rw [hd, he])).trans hg⟩

end Deposit.Kept

namespace Accounts

lemma nil (hp : Premises config prepared uploads extracted) :
    Accounts config prepared uploads extracted [] prepared := by
  refine ⟨.refl _, by simp, fun name node hn => ?_, fun name node hn => ?_, by simp, by simp⟩
  · rw [hp.uploadsEmpty name] at hn
    cases hn
  · rw [hp.extractedEmpty name] at hn
    cases hn

lemma alike (h : Accounts config prepared uploads extracted deposits fs) (ha : fs.Alike fs') :
    Accounts config prepared uploads extracted deposits fs' := by
  refine ⟨h.grows.trans ha.grows, fun deposit hd => ?_, fun name node hn => ?_,
    fun name node hn => ?_, h.archivesDistinct, h.directoriesDistinct⟩
  · exact (h.kept deposit hd).of_get? (fun name _ _ => ha.get? _) fun name _ _ => ha.get? _
  · exact h.files name node ((ha.get? _).symm.trans hn)
  · exact h.trees name node ((ha.get? _).symm.trans hn)

/-- The order of the jobs does not matter. -/
lemma perm (h : Accounts config prepared uploads extracted deposits fs)
    (hp : deposits.Perm deposits') : Accounts config prepared uploads extracted deposits' fs := by
  refine ⟨h.grows, fun deposit hd => h.kept deposit (hp.mem_iff.2 hd), fun name node hn => ?_,
    fun name node hn => ?_, (hp.map _).nodup_iff.1 h.archivesDistinct,
    (hp.filterMap _).nodup_iff.1 h.directoriesDistinct⟩
  · obtain ⟨deposit, hd, he⟩ := h.files name node hn
    exact ⟨deposit, hp.mem_iff.1 hd, he⟩
  · obtain ⟨deposit, hd, he⟩ := h.trees name node hn
    exact ⟨deposit, hp.mem_iff.1 hd, he⟩

/-! ## Taking out a job -/

/-- The accounts without a job whose files are gone. -/
lemma tail (h : Accounts config prepared uploads extracted (deposit :: deposits) fs)
    (hg : prepared.Grows fs')
    (hu : ∀ name, PlainName name → fs'.get? (uploads ++ [name]) =
      if deposit.job.archive = Path.append config.uploadsDir name then none
      else fs.get? (uploads ++ [name]))
    (hx : ∀ name, PlainName name → fs'.get? (extracted ++ [name]) =
      if deposit.job.directory = some (Path.append config.extractedDir name) then none
      else fs.get? (extracted ++ [name])) :
    Accounts config prepared uploads extracted deposits fs' := by
  have harchives := h.archivesDistinct
  rw [List.map_cons, List.nodup_cons] at harchives
  have hdirectories := h.directoriesDistinct
  have hother (other : Deposit) (ho : other ∈ deposits) (text : String)
      (ht : other.job.directory = some text) : deposit.job.directory ≠ some text := by
    intro hd
    rw [List.filterMap_cons, hd, List.nodup_cons] at hdirectories
    exact hdirectories.1 (List.mem_filterMap.2 ⟨other, ho, ht⟩)
  refine ⟨hg, fun other ho => ?_, fun name node hn => ?_, fun name node hn => ?_, harchives.2,
    hdirectories.sublist ((List.sublist_cons_self _ _).filterMap _)⟩
  · refine (h.kept other (List.mem_cons_of_mem _ ho)).of_get? ?_ ?_
    · intro name hn he
      rw [hu name hn, if_neg]
      intro hc
      exact harchives.1 (List.mem_map.2 ⟨other, ho, he.trans hc.symm⟩)
    · intro name hn he
      rw [hx name hn, if_neg (hother other ho _ he)]
  · rw [hu name (parent_of_get? hn).2.plain] at hn
    split at hn
    · cases hn
    · next hne =>
      obtain ⟨other, ho, he⟩ := h.files name node hn
      rcases List.mem_cons.1 ho with rfl | ho
      · exact absurd he hne
      · exact ⟨other, ho, he⟩
  · rw [hx name (parent_of_get? hn).2.plain] at hn
    split at hn
    · cases hn
    · next hne =>
      obtain ⟨other, ho, he⟩ := h.trees name node hn
      rcases List.mem_cons.1 ho with rfl | ho
      · exact absurd he hne
      · exact ⟨other, ho, he⟩

/-- The removal of the files of a job takes it out of the accounts. -/
lemma removed (h : Accounts config prepared uploads extracted (deposit :: deposits) fs)
    (hp : Premises config prepared uploads extracted) :
    ∃ fs₁ fs', (tryRemove (some deposit.job.archive)).on fs = (.ok (), fs₁) ∧
      (tryRemove deposit.job.directory).on fs₁ = (.ok (), fs') ∧
      Accounts config prepared uploads extracted deposits fs' := by
  have hkept := h.kept deposit (by simp)
  obtain ⟨name, hn, he, hc, hf⟩ := hkept.archive
  have hentry : EntryText config.uploadsDir name deposit.job.archive := by
    rw [he]
    exact entryText_append hp.uploadsLead.ne_empty hn
  obtain ⟨fs₁, hrun, hcleared⟩ := removePath_file (hp.uploadsLead.grows h.grows) hentry hn hc hf
  have hg₁ : prepared.Grows fs₁ := hcleared.grows h.grows (hp.uploadsEmpty name)
  have hu₁ (other : String) (ho : PlainName other) : fs₁.get? (uploads ++ [other]) =
      if deposit.job.archive = Path.append config.uploadsDir other then none
      else fs.get? (uploads ++ [other]) := by
    by_cases hsame : name = other
    · rw [if_pos (by rw [he, hsame]), ← hsame, hcleared.gone]
    · rw [if_neg, hcleared.outside _ fun hc => hsame (entry_prefix_iff.1 hc)]
      rw [he]
      exact fun hc => hsame (Path.append_left_cancel hp.uploadsLead.ne_empty hn.2.2.2 ho.2.2.2 hc)
  have hx₁ (other : String) : fs₁.get? (extracted ++ [other]) = fs.get? (extracted ++ [other]) :=
    hcleared.outside _ (append_apart hp.uploadsApart hp.extractedApart _ _)
  cases hd : deposit.job.directory with
  | none =>
    refine ⟨fs₁, fs₁, on_tryRemove_of_ok hrun, rfl, h.tail hg₁ hu₁ fun other ho => ?_⟩
    rw [hx₁, if_neg (by simp [hd])]
  | some text =>
    obtain ⟨name', hn', rfl, hc', hdir⟩ := hkept.directory text hd
    have hdir₁ : fs₁.isDirectory (extracted ++ [name']) := (hx₁ name').trans hdir
    obtain ⟨fs', hrun', hcleared'⟩ :=
      removePath_directory hp.extractedLead hg₁ (hp.extractedEmpty name')
      (entryText_append hp.extractedLead.ne_empty hn').toNamedText hn' hc' hdir₁
    refine ⟨fs₁, fs', on_tryRemove_of_ok hrun, on_tryRemove_of_ok hrun', h.tail
      (hcleared'.grows hg₁ (hp.extractedEmpty name')) (fun other ho => ?_) fun other ho => ?_⟩
    · rw [hcleared'.outside _ (append_apart hp.extractedApart hp.uploadsApart _ _), hu₁ other ho]
    · rw [hd]
      by_cases hsame : name' = other
      · rw [if_pos (by rw [hsame]), ← hsame, hcleared'.gone]
      · rw [if_neg, hcleared'.outside _ fun hc => hsame (entry_prefix_iff.1 hc), hx₁]
        exact fun hc => hsame
          (Path.append_left_cancel hp.extractedLead.ne_empty hn'.2.2.2 ho.2.2.2
            (Option.some.inj hc))

/-- The removal of the files of any jobs takes them out of the accounts. -/
theorem removeJobs {gone : List Deposit}
    (h : Accounts config prepared uploads extracted (gone ++ deposits) fs)
    (hp : Premises config prepared uploads extracted) :
    ∃ fs', (Action.removeJobs (gone.map Deposit.job)).on fs = (.ok (), fs') ∧
      Accounts config prepared uploads extracted deposits fs' := by
  induction gone generalizing fs with
  | nil => exact ⟨fs, rfl, h⟩
  | cons deposit gone ih =>
    obtain ⟨fs₁, fs₂, hrun₁, hrun₂, h₂⟩ := removed h hp
    obtain ⟨fs', hrun, h'⟩ := ih h₂
    refine ⟨fs', ?_, h'⟩
    rw [List.map_cons, on_removeJobs_cons, on_bind_ok hrun₁, on_bind_ok hrun₂, hrun]

/-! ## Putting in a job -/

/-- The accounts with a job whose files are new. -/
lemma concat (h : Accounts config prepared uploads extracted deposits fs)
    (hg : prepared.Grows fs') (hk : deposit.Kept config uploads extracted fs')
    (hu : ∀ name, deposit.job.archive ≠ Path.append config.uploadsDir name →
      fs'.get? (uploads ++ [name]) = fs.get? (uploads ++ [name]))
    (hx : ∀ name, deposit.job.directory ≠ some (Path.append config.extractedDir name) →
      fs'.get? (extracted ++ [name]) = fs.get? (extracted ++ [name]))
    (ha : ∀ other ∈ deposits, other.job.archive ≠ deposit.job.archive)
    (hd : ∀ other ∈ deposits, ∀ text, other.job.directory = some text →
      deposit.job.directory ≠ some text) :
    Accounts config prepared uploads extracted (deposits ++ [deposit]) fs' := by
  refine ⟨hg, fun other ho => ?_, fun name node hn => ?_, fun name node hn => ?_, ?_, ?_⟩
  · rcases List.mem_append.1 ho with ho | ho
    · refine (h.kept other ho).of_get? (fun name _ he => hu name fun hc => ?_) fun name _ he =>
        hx name ?_
      · exact ha other ho (he.trans hc.symm)
      · exact hd other ho _ he
    · rw [List.mem_singleton.1 ho]
      exact hk
  · by_cases hnew : deposit.job.archive = Path.append config.uploadsDir name
    · exact ⟨deposit, by simp, hnew⟩
    · rw [hu name hnew] at hn
      obtain ⟨other, ho, he⟩ := h.files name node hn
      exact ⟨other, List.mem_append_left _ ho, he⟩
  · by_cases hnew : deposit.job.directory = some (Path.append config.extractedDir name)
    · exact ⟨deposit, by simp, hnew⟩
    · rw [hx name hnew] at hn
      obtain ⟨other, ho, he⟩ := h.trees name node hn
      exact ⟨other, List.mem_append_left _ ho, he⟩
  · rw [List.map_append, List.nodup_append]
    refine ⟨h.archivesDistinct, by simp, fun archive hm archive' hm' => ?_⟩
    obtain ⟨other, ho, rfl⟩ := List.mem_map.1 hm
    rw [List.mem_singleton.1 hm']
    exact ha other ho
  · rw [List.filterMap_append, List.nodup_append]
    refine ⟨h.directoriesDistinct, ?_, fun text hm text' hm' he => ?_⟩
    · cases hnew : deposit.job.directory with
      | none => simp [hnew]
      | some text => simp [hnew]
    · obtain ⟨other, ho, ht⟩ := List.mem_filterMap.1 hm
      obtain ⟨new, hnew, ht'⟩ := List.mem_filterMap.1 hm'
      rw [List.mem_singleton.1 hnew] at ht'
      exact hd other ho text ht (he ▸ ht')

/-- No job has the path of a file that does not stand yet. -/
lemma archive_fresh (h : Accounts config prepared uploads extracted deposits fs)
    (hp : Premises config prepared uploads extracted) {name : String} (hn : PlainName name)
    (hnone : fs.get? (uploads ++ [name]) = none) (ho : deposit ∈ deposits) :
    deposit.job.archive ≠ Path.append config.uploadsDir name := by
  intro he
  obtain ⟨other, hplain, he', -, hf⟩ := (h.kept deposit ho).archive
  obtain rfl : other = name := Path.append_left_cancel hp.uploadsLead.ne_empty hplain.2.2.2 hn.2.2.2
    (he'.symm.trans he)
  rw [hnone] at hf
  cases hf

/-- A job with the path of a directory has the directory. -/
lemma isDirectory_of_directory (h : Accounts config prepared uploads extracted deposits fs)
    (hp : Premises config prepared uploads extracted) {name : String} (hn : PlainName name)
    (ho : deposit ∈ deposits)
    (hd : deposit.job.directory = some (Path.append config.extractedDir name)) :
    fs.isDirectory (extracted ++ [name]) := by
  obtain ⟨other, hplain, he, -, hdir⟩ := (h.kept deposit ho).directory _ hd
  obtain rfl : name = other :=
    Path.append_left_cancel hp.extractedLead.ne_empty hn.2.2.2 hplain.2.2.2 he
  exact hdir

/-- Only directories are in the directory for extracted archives. -/
lemma isDirectory_of_get? (h : Accounts config prepared uploads extracted deposits fs)
    (hp : Premises config prepared uploads extracted) {name : String} {node : Node}
    (hn : fs.get? (extracted ++ [name]) = some node) : fs.isDirectory (extracted ++ [name]) := by
  obtain ⟨deposit, ho, hd⟩ := h.trees name node hn
  exact h.isDirectory_of_directory hp (parent_of_get? hn).2.plain ho hd

/-- An upload adds the job that it registers, if it registers one, and nothing else. -/
theorem received {clock : Binary64} {jobId : String} {content : ByteArray}
    {result : Except Failure (Except Refusal (Receipt × CleanupJob))}
    (h : Accounts config prepared uploads extracted deposits fs)
    (hp : Premises config prepared uploads extracted)
    (hr : Received config uploads extracted clock jobId content fs (result, fs')) :
    Accounts config prepared uploads extracted
      (match result with
        | .ok (.ok (_, job)) => deposits ++ [⟨job, content⟩]
        | _ => deposits) fs' := by
  cases hr with
  | refused hr ha =>
    split
    · exact absurd rfl (hr _)
    · exact h.alike ha
  | @stored name _ receipt hn hc hnone hput =>
    refine h.concat (hput.changesOnly.grows h.grows (hp.uploadsEmpty name))
      ⟨⟨name, hn, rfl, hc, hput.get?_self⟩, by simp⟩ (fun other hne => ?_) (fun other _ => ?_)
      (fun other ho => h.archive_fresh hp hn hnone ho) (by simp)
    · exact hput.changesOnly.outside _ fun hc => hne (by rw [entry_prefix_iff.1 hc])
    · exact hput.changesOnly.outside _ (append_apart hp.uploadsApart hp.extractedApart _ _)
  | @analysed name fs₁ _ receipt hn hc hnone hput hid hcd ht =>
    have hx₁ (other : String) : fs₁.get? (extracted ++ [other]) = fs.get? (extracted ++ [other]) :=
      hput.changesOnly.outside _ (append_apart hp.uploadsApart hp.extractedApart _ _)
    have hu (other : String) : fs'.get? (uploads ++ [other]) = fs₁.get? (uploads ++ [other]) :=
      ht.outside _ (append_apart hp.extractedApart hp.uploadsApart _ _)
    have hg₁ := hput.changesOnly.grows h.grows (hp.uploadsEmpty name)
    refine h.concat (ht.grows hg₁ (hp.extractedEmpty jobId))
      ⟨⟨name, hn, rfl, hc, (hu name).trans hput.get?_self⟩, ?_⟩ (fun other hne => ?_)
      (fun other hne => ?_) (fun other ho => h.archive_fresh hp hn hnone ho) fun other ho text hd =>
        ?_
    · intro text hd
      exact ⟨jobId, hid, (Option.some.inj hd).symm, Option.some.inj hd ▸ hcd, ht.isDirectory⟩
    · rw [hu]
      exact hput.changesOnly.outside _ fun hc => hne (by rw [entry_prefix_iff.1 hc])
    · rw [ht.outside _ fun hc => hne (by rw [entry_prefix_iff.1 hc]), hx₁]
    · intro he
      have hdir : fs.get? (extracted ++ [jobId]) = some .directory :=
        h.isDirectory_of_directory hp hid ho (hd.trans he.symm)
      have hmissing := ht.missing
      rw [hx₁, hdir] at hmissing
      cases hmissing

/-- An upload changes nothing in the directory of a job. -/
lemma received_inside {clock : Binary64} {jobId text : String} {content : ByteArray}
    {place location : Location}
    {outcome : Except Failure (Except Refusal (Receipt × CleanupJob)) × FileSystem}
    (h : Accounts config prepared uploads extracted deposits fs)
    (hp : Premises config prepared uploads extracted)
    (hr : Received config uploads extracted clock jobId content fs outcome)
    (ho : deposit ∈ deposits)
    (hd : deposit.job.directory = some text) (hl : fs.locate true text = .ok place)
    (hin : place <+: location) : outcome.2.get? location = fs.get? location := by
  obtain ⟨own, hn, rfl, hc, hdir⟩ := (h.kept deposit ho).directory text hd
  have hplace : fs.locate true (Path.append config.extractedDir own) = .ok (extracted ++ [own]) :=
    (hp.extractedLead.grows h.grows).locate_entry
      (entryText_append hp.extractedLead.ne_empty hn) hn hc hdir (.inr (by simp))
  obtain rfl : extracted ++ [own] = place := Except.ok.inj (hplace.symm.trans hl)
  obtain ⟨rest, rfl⟩ := hin
  have hout (name : String) : ¬ uploads ++ [name] <+: extracted ++ [own] ++ rest := by
    rw [List.append_assoc]
    exact append_apart hp.uploadsApart hp.extractedApart _ _
  cases hr with
  | refused _ ha => exact ha.get? _
  | stored _ _ _ _ hput => exact hput.changesOnly.outside _ (hout _)
  | analysed _ _ _ hnone hput _ _ ht =>
    refine (ht.outside _ fun hpre => ?_).trans (hput.changesOnly.outside _ (hout _))
    -- The directory of the new job is missing when the archive has been stored, and this one is
    -- not.
    have hsame : extracted ++ [jobId] = extracted ++ [own] :=
      (List.prefix_of_prefix_length_le hpre (List.prefix_append _ rest) (by simp)).eq_of_length
        (by simp)
    have hmissing := ht.missing
    rw [hsame, hput.changesOnly.outside _ (append_apart hp.uploadsApart hp.extractedApart _ _)]
      at hmissing
    rw [isDirectory, hmissing] at hdir
    cases hdir

/-! ## Reading the accounts -/

/-- The entries of a directory by their paths. -/
lemma perm_namesAt {dir : String} {place : Location} {paths : List String}
    (h : fs.LeadsTo dir place) (hn : paths.Nodup)
    (hpath : ∀ path ∈ paths, ∃ name node, path = Path.append dir name ∧
      fs.get? (place ++ [name]) = some node)
    (hname : ∀ name node, fs.get? (place ++ [name]) = some node → Path.append dir name ∈ paths) :
    ((fs.namesAt dir).map (Path.append dir)).Perm paths := by
  have hnames : fs.namesAt dir = fs.names place := by
    rw [namesAt, (leadsTo_iff_locate.1 h).1]
  have hdistinct : ((fs.names place).map (Path.append dir)).Nodup := by
    refine List.Nodup.map_on (fun name hm name' hm' he => ?_) (nodup_names fs place)
    obtain ⟨node, hnode⟩ := mem_names_iff.1 hm
    obtain ⟨node', hnode'⟩ := mem_names_iff.1 hm'
    exact Path.append_left_cancel h.ne_empty (parent_of_get? hnode).2.plain.2.2.2
      (parent_of_get? hnode').2.plain.2.2.2 he
  rw [hnames]
  refine (List.perm_ext_iff_of_nodup hdistinct hn).2 fun path => ⟨fun hm => ?_, fun hm => ?_⟩
  · obtain ⟨name, hname', rfl⟩ := List.mem_map.1 hm
    obtain ⟨node, hnode⟩ := mem_names_iff.1 hname'
    exact hname name node hnode
  · obtain ⟨name, node, rfl, hnode⟩ := hpath path hm
    exact List.mem_map.2 ⟨name, mem_names_iff.2 ⟨node, hnode⟩, rfl⟩

/-- The directory for uploads holds the archives of the jobs. -/
lemma perm_archives (h : Accounts config prepared uploads extracted deposits fs)
    (hp : Premises config prepared uploads extracted) :
    ((fs.namesAt config.uploadsDir).map (Path.append config.uploadsDir)).Perm
      (deposits.map fun deposit => deposit.job.archive) := by
  refine perm_namesAt (hp.uploadsLead.grows h.grows) h.archivesDistinct (fun path hm => ?_)
    fun name node hn => ?_
  · obtain ⟨deposit, hd, rfl⟩ := List.mem_map.1 hm
    obtain ⟨name, -, he, -, hf⟩ := (h.kept deposit hd).archive
    exact ⟨name, _, he, hf⟩
  · obtain ⟨deposit, hd, he⟩ := h.files name node hn
    exact List.mem_map.2 ⟨deposit, hd, he⟩

/-- The directory for extracted archives holds the directories of the jobs. -/
lemma perm_directories (h : Accounts config prepared uploads extracted deposits fs)
    (hp : Premises config prepared uploads extracted) :
    ((fs.namesAt config.extractedDir).map (Path.append config.extractedDir)).Perm
      (deposits.filterMap fun deposit => deposit.job.directory) := by
  refine perm_namesAt (hp.extractedLead.grows h.grows) h.directoriesDistinct (fun path hm => ?_)
    fun name node hn => ?_
  · obtain ⟨deposit, hd, he⟩ := List.mem_filterMap.1 hm
    obtain ⟨name, -, he', -, hdir⟩ := (h.kept deposit hd).directory path he
    exact ⟨name, _, he', hdir⟩
  · obtain ⟨deposit, hd, he⟩ := h.trees name node hn
    exact List.mem_filterMap.2 ⟨deposit, hd, he⟩

/-- The archive of a job holds what was sent. -/
lemma readFile_archive (h : Accounts config prepared uploads extracted deposits fs)
    (hp : Premises config prepared uploads extracted) (hd : deposit ∈ deposits) :
    fs.readFile deposit.job.archive = .ok deposit.content := by
  obtain ⟨name, hn, he, hc, hf⟩ := (h.kept deposit hd).archive
  have hentry : EntryText config.uploadsDir name deposit.job.archive := by
    rw [he]
    exact entryText_append hp.uploadsLead.ne_empty hn
  exact (hp.uploadsLead.grows h.grows).readFile_entry hentry hn hc hf

/-- The path of the directory of a job leads to a directory. -/
lemma leadsToDirectory_directory (h : Accounts config prepared uploads extracted deposits fs)
    (hp : Premises config prepared uploads extracted) (hd : deposit ∈ deposits) {text : String}
    (ht : deposit.job.directory = some text) : fs.leadsToDirectory text = true := by
  obtain ⟨name, hn, rfl, hc, hdir⟩ := (h.kept deposit hd).directory text ht
  rw [leadsToDirectory, (hp.extractedLead.grows h.grows).node?_entry
    (entryText_append hp.extractedLead.ne_empty hn) hn hc hdir (by simp)]
  rfl

end Accounts

end SourceAtlas
