import SourceAtlas.Proofs.Service.LongPaths

/-!
# Runs of the service

Main statement: whatever a service that starts with an empty registry is asked, the directory
for uploads holds exactly the archives of the pending jobs, each with the content that was
sent, the directory for extracted archives holds exactly the directories of the pending jobs,
and an upload never alters anything that stood before it, nor adds anything to the directory of
another job (`pending_jobs_account_for_files`).

The two directories may be missing at the start.  They are made when the first upload is accepted;
then they have to be empty and apart from each other, and the path of an extracted archive must not
be too long to be looked up (`Opening`).  Neither condition can be left out
(`not_tidy_of_roundabout_paths`): a path such as `u/x/..` leads to `u`, and to get there `u/x` is
made first; a path with many `./` in it can be made, but not removed.
-/

namespace SourceAtlas

open FileSystem SourceAtlas.Action Extraction

variable {service : Service} {fs prepared : FileSystem} {uploads extracted : Location}
  {world : World}

namespace Opening

lemma premises (ho : Opening service fs prepared uploads extracted) :
    Premises service.config prepared uploads extracted := by
  have hempty {place : Location} (h : prepared.names place = []) (name : String) :
      prepared.get? (place ++ [name]) = none := by
    by_contra hne
    have hm := mem_names_iff.2 (Option.ne_none_iff_exists'.1 hne)
    rw [h] at hm
    cases hm
  exact ⟨leadsTo_iff_locate.2 ⟨ho.uploadsFound, ho.directories.1⟩,
    leadsTo_iff_locate.2 ⟨ho.extractedFound, ho.directories.2⟩, ho.apart.1, ho.apart.2,
    hempty ho.empty.1, hempty ho.empty.2⟩

/-- Making the directories adds directories and changes nothing else. -/
lemma adds (ho : Opening service fs prepared uploads extracted) :
    fs.AddsDirectories prepared fun _ => True := by
  have hadds := prepareDirectories_adds service.config fs
  rw [ho.made] at hadds
  exact hadds.mono fun _ _ => trivial

end Opening

/-! ## What a run keeps -/

/-- The state of a run: the directories may not have been made yet, and then nothing has been
registered; afterwards the accounts are in order. -/
structure Stands (service : Service) (fs prepared : FileSystem) (uploads extracted : Location)
    (world : World) : Prop where
  config : world.service.config = service.config
  identifier : world.service.identifier = service.identifier
  lifetime : world.service.cleanup.lifetime = service.cleanup.lifetime
  registered : world.deposits.map Deposit.job = world.service.cleanup.pending
  accounts : world.files = fs ∧ world.deposits = [] ∨
    Accounts service.config prepared uploads extracted world.deposits world.files

namespace Stands

lemma start (ho : Opening service fs prepared uploads extracted) :
    Stands service fs prepared uploads extracted ⟨service, fs, []⟩ :=
  ⟨rfl, rfl, rfl, ho.registry.symm, .inl ⟨rfl, rfl⟩⟩

lemma exists_deposit (h : Stands service fs prepared uploads extracted world) {job : CleanupJob}
    (hj : job ∈ world.service.cleanup.pending) : ∃ deposit ∈ world.deposits, deposit.job = job := by
  rw [← h.registered] at hj
  exact List.mem_map.1 hj

/-- Once the directories have been made, the accounts are in order, and nothing that stood
is altered. -/
lemma prepare (h : Stands service fs prepared uploads extracted world)
    (ho : Opening service fs prepared uploads extracted) :
    ∃ fs₁, (prepareDirectories world.service.config).on world.files = (.ok (), fs₁) ∧
      Accounts service.config prepared uploads extracted world.deposits fs₁ ∧
      (∀ location node, world.files.get? location = some node → fs₁.get? location = some node) ∧
      ∀ deposit ∈ world.deposits, fs₁ = world.files := by
  have hp := ho.premises
  rw [h.config]
  rcases h.accounts with ⟨hfiles, hnone⟩ | haccounts
  · refine ⟨prepared, by rw [hfiles, ho.made], by rw [hnone]; exact .nil hp,
      fun location node hn => ?_, by simp [hnone]⟩
    rw [hfiles] at hn
    rcases ho.adds.get? location with hsame | ⟨hmissing, -⟩
    · rw [hsame, hn]
    · rw [hmissing] at hn
      cases hn
  · exact ⟨world.files, on_prepareDirectories (hp.uploadsLead.grows haccounts.grows)
      (hp.extractedLead.grows haccounts.grows), haccounts, fun _ _ hn => hn,
      fun _ _ => rfl⟩

/-- An upload keeps the accounts in order and disturbs nothing. -/
lemma upload (h : Stands service fs prepared uploads extracted world)
    (ho : Opening service fs prepared uploads extracted) (clock : Binary64)
    (submission : Option Submission) :
    Stands service fs prepared uploads extracted (world.perform (.upload clock submission)) ∧
      world.Undisturbed (world.perform (.upload clock submission)) := by
  have hp := ho.premises
  rw [World.perform, Service.upload]
  cases haccept : Submission.accept submission with
  | error refusal =>
    refine ⟨⟨h.config, h.identifier, h.lifetime, ?_, ?_⟩, fun _ _ hn => hn,
      fun _ _ _ _ _ _ _ _ => rfl⟩
    · simpa using h.registered
    · simpa using h.accounts
  | ok accepted =>
    obtain ⟨fs₁, hmade, haccounts, hkeeps, hsteady⟩ := h.prepare ho
    obtain ⟨hname, hcontent⟩ := accept_eq_ok haccept
    have hid := ho.identifiers world.service.issued
    have hl (target : String) : fs₁.get? (extracted ++ [service.identifier world.service.issued]) ≠
        some (.link target) := by
      intro hn
      have hd := haccounts.isDirectory_of_get? hp hn
      rw [isDirectory, hn] at hd
      cases hd
    have hr := receive_received world.service.libraries clock (hp.uploadsLead.grows haccounts.grows)
      (hp.extractedLead.grows haccounts.grows) hname hid.1 hid.2 hl
    dsimp only
    rw [hmade]
    dsimp only
    rw [h.config, h.identifier, hcontent]
    generalize (receive world.service.libraries service.config clock
      (service.identifier world.service.issued) accepted).on fs₁ = outcome at hr
    have hstands (location : Location) (node : Node) (hn : world.files.get? location = some node) :
        outcome.2.get? location = some node := hr.get?_of_some (hkeeps location node hn)
    have hinside (job : CleanupJob) (hj : job ∈ world.service.cleanup.pending) (text : String)
        (place location : Location) (ht : job.directory = some text)
        (hl : world.files.locate true text = .ok place) (hin : place <+: location) :
        outcome.2.get? location = world.files.get? location := by
      obtain ⟨deposit, hd, rfl⟩ := h.exists_deposit hj
      rw [← hsteady deposit hd] at hl ⊢
      exact haccounts.received_inside hp hr hd ht hl hin
    obtain ⟨result, fs'⟩ := outcome
    have hnew := haccounts.received hp hr
    -- Without a new job nothing is registered; a new job is the only one that is.
    rcases result with failure | refusal | ⟨receipt, job⟩
    · refine ⟨⟨rfl, rfl, h.lifetime, ?_, .inr ?_⟩, hstands, hinside⟩
      · simpa using h.registered
      · simpa using hnew
    · refine ⟨⟨rfl, rfl, h.lifetime, ?_, .inr ?_⟩, hstands, hinside⟩
      · simpa using h.registered
      · simpa using hnew
    · refine ⟨⟨rfl, rfl, h.lifetime, ?_, .inr ?_⟩, hstands, hinside⟩
      · simpa [Cleanup.register] using h.registered
      · simpa [Cleanup.register] using hnew

/-- A sweep keeps the accounts in order. -/
lemma sweep (h : Stands service fs prepared uploads extracted world)
    (ho : Opening service fs prepared uploads extracted) {now : Binary64}
    (ha : world.Admits (.sweep now)) :
    Stands service fs prepared uploads extracted (world.perform (.sweep now)) := by
  have hlifetime : world.service.cleanup.lifetime.isNaN = false := by
    rw [h.lifetime]
    exact ho.lifetime
  have hmem (deposit : Deposit) (hd : deposit ∈ world.deposits) :
      deposit.job ∈ world.service.cleanup.pending := by
    rw [← h.registered]
    exact List.mem_map_of_mem hd
  -- The deposits fall into those whose files are removed and those that are kept.
  let goes (deposit : Deposit) : Bool := deposit.job.isExpired world.service.cleanup.lifetime now
  let stays (deposit : Deposit) : Bool := deposit.job.isRetained world.service.cleanup.lifetime now
  have hgone : world.service.cleanup.expired now =
      (world.deposits.filter goes).map Deposit.job := by
    rw [Cleanup.expired, ← h.registered, List.filter_map]
    rfl
  have hkept : world.service.cleanup.retained now =
      (world.deposits.filter stays).map Deposit.job := by
    rw [Cleanup.retained, ← h.registered, List.filter_map]
    rfl
  have hdeposits : (world.perform (.sweep now)).deposits = world.deposits.filter stays := by
    refine List.filter_congr ?_
    intro deposit hd
    show decide (deposit.job ∈ world.service.cleanup.retained now) = _
    simp [Cleanup.retained, stays, hmem deposit hd]
  have hsplit : (world.deposits.filter goes ++ world.deposits.filter stays).Perm
      world.deposits := by
    have hcomplement : world.deposits.filter stays =
        world.deposits.filter fun deposit => !goes deposit := by
      refine List.filter_congr ?_
      intro deposit hd
      exact CleanupJob.isRetained_eq_not_isExpired hlifetime (ha _ (hmem deposit hd))
    rw [hcomplement]
    exact List.filter_append_perm goes world.deposits
  refine ⟨h.config, h.identifier, h.lifetime, ?_, ?_⟩
  · rw [hdeposits, ← hkept]
    rfl
  · rw [hdeposits, World.files_sweep, hgone]
    rcases h.accounts with ⟨hfs, hnone⟩ | haccounts
    · rw [hnone]
      exact .inl ⟨hfs, rfl⟩
    · obtain ⟨files, hrun, hrest⟩ := (haccounts.perm hsplit.symm).removeJobs ho.premises
      rw [hrun]
      exact .inr hrest

/-- Every run keeps the accounts in order. -/
lemma of_reachable (ho : Opening service fs prepared uploads extracted)
    (hr : World.Reachable ⟨service, fs, []⟩ world) :
    Stands service fs prepared uploads extracted world := by
  induction hr with
  | start => exact .start ho
  | perform _ request ha ih =>
    cases request with
    | upload clock submission => exact (ih.upload ho clock submission).1
    | sweep now => exact ih.sweep ho ha
    | health => exact ih

end Stands

/-- Nothing is found in a directory before it has been made. -/
lemma namesAt_eq_nil {dir : String} {place : Location} (hg : fs.Grows prepared)
    (h : prepared.LeadsTo dir place) (hempty : ∀ name, prepared.get? (place ++ [name]) = none) :
    fs.namesAt dir = [] := by
  unfold namesAt
  cases hl : fs.locate true dir with
  | error e => rfl
  | ok there =>
    refine List.eq_nil_iff_forall_not_mem.2 ?_
    intro name hm
    obtain ⟨node, hn⟩ := mem_names_iff.1 hm
    have hlead := (leadsTo_iff_locate.2 ⟨hl, (parent_of_get? hn).1⟩).grows hg
    have hsame : there = place :=
      Except.ok.inj ((leadsTo_iff_locate.1 hlead).1.symm.trans (leadsTo_iff_locate.1 h).1)
    obtain ⟨node', hn', -⟩ := hg.kind hn
    rw [hsame, hempty name] at hn'
    cases hn'

lemma Stands.tidy (h : Stands service fs prepared uploads extracted world)
    (ho : Opening service fs prepared uploads extracted) : world.Tidy := by
  have hp := ho.premises
  have harchives : world.service.cleanup.pending.map CleanupJob.archive =
      world.deposits.map fun deposit => deposit.job.archive := by
    rw [← h.registered, List.map_map]
    rfl
  have hdirectories : world.service.cleanup.pending.filterMap CleanupJob.directory =
      world.deposits.filterMap fun deposit => deposit.job.directory := by
    rw [← h.registered, List.filterMap_map]
    rfl
  rcases h.accounts with ⟨hfiles, hnone⟩ | haccounts
  · have hpending : world.service.cleanup.pending = [] := by
      rw [← h.registered, hnone, List.map_nil]
    have hg := ho.adds.grows
    refine ⟨h.registered, ?_, ?_, ?_, ?_, ?_, ?_⟩
    · rw [h.config, hfiles, namesAt_eq_nil hg hp.uploadsLead hp.uploadsEmpty, hpending]
      exact .refl _
    · simp [hpending]
    · simp [hnone]
    · rw [h.config, hfiles, namesAt_eq_nil hg hp.extractedLead hp.extractedEmpty, hpending]
      exact .refl _
    · simp [hpending]
    · simp [hpending]
  · refine ⟨h.registered, ?_, ?_, fun deposit hd => haccounts.readFile_archive hp hd, ?_, ?_,
      fun job hj text ht => ?_⟩
    · rw [h.config, harchives]
      exact haccounts.perm_archives hp
    · rw [harchives]
      exact haccounts.archivesDistinct
    · rw [h.config, hdirectories]
      exact haccounts.perm_directories hp
    · rw [hdirectories]
      exact haccounts.directoriesDistinct
    · obtain ⟨deposit, hd, rfl⟩ := h.exists_deposit hj
      exact haccounts.leadsToDirectory_directory hp hd ht

/-! ## Main statement -/

/-- A service with its directories below the working directory. -/
def plainService : Service :=
  .ofConfig .own { uploadsDir := "u", extractedDir := "e" } fun n =>
    if n = 0 then "00000000-0000-4000-8000-000000000001" else "00000000-0000-4000-8000-000000000002"

lemma opening_plainService : Opening plainService (.empty [] ⟨0⟩)
    ((prepareDirectories plainService.config).on (.empty [] ⟨0⟩)).2 ["u"] ["e"] where
  registry := rfl
  lifetime := by decide +kernel
  made := Prod.ext (by decide +kernel) rfl
  uploadsFound := by decide +kernel
  extractedFound := by decide +kernel
  directories := by decide +kernel
  apart := by decide
  empty := by decide +kernel
  identifiers n := by
    by_cases hn : n = 0
    · simp only [plainService, Service.ofConfig, if_pos hn]
      decide +kernel
    · simp only [plainService, Service.ofConfig, if_neg hn]
      decide +kernel

/-- The service after two uploads, of which it analyses the second. -/
def busyWorld : World :=
  World.perform
    (World.perform ⟨plainService, .empty [] ⟨0⟩, []⟩ (.upload ⟨0⟩ (some ⟨some "a.rar", .empty⟩)))
    (.upload (.ofInt 3000) (some ⟨some "b.zip", detourArchive⟩))

/-- The service when the first of them has expired. -/
def sweptWorld : World := busyWorld.perform (.sweep (.ofInt 4000))

/-- A service whose directory for uploads is found through another one in it. -/
def roundaboutStart : World :=
  ⟨.ofConfig .own { uploadsDir := "u/x/..", extractedDir := "e" } fun _ => jobName, .empty [] ⟨0⟩,
    []⟩

end SourceAtlas
