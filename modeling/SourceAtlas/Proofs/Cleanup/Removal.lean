import SourceAtlas.Cleanup.Registry
import SourceAtlas.Proofs.Files.Removal

/-!
# Removing the files of jobs

The only path whose removal can end a sweep is one that holds a zero character: every other failure
is a refusal of the file system (`granted_removePath`), and refusals do not count.  So the files of
jobs without such paths are gone through to the end (`removeJobs_clean`), and each path is tried on
the files that the attempts before it have left (`Action.attempted`).
-/

namespace SourceAtlas

open FileSystem

namespace CleanupJob

/-- No path of a job holds a zero character. -/
structure Clean (job : CleanupJob) : Prop where
  archive : '\x00' ∉ job.archive.toList
  directory : ∀ text, job.directory = some text → '\x00' ∉ text.toList

instance (job : CleanupJob) : Decidable job.Clean :=
  decidable_of_iff ('\x00' ∉ job.archive.toList ∧ ∀ text ∈ job.directory, '\x00' ∉ text.toList)
    ⟨fun h => ⟨h.1, h.2⟩, fun h => ⟨h.archive, h.directory⟩⟩

end CleanupJob

variable {fs fs' : FileSystem} {text : String} {followLast : Bool} {names : List String}

namespace FileSystem

/-! ## Paths without a zero character are refused by the file system, if at all -/

lemma walkText_refusal {e : FileError} (hz : '\x00' ∉ text.toList)
    (h : fs.walkText followLast text names = .error e) : ∃ code, e = .os code := by
  rw [walkText] at h
  cases hc : checkText text with
  | error e' =>
    rw [hc] at h
    obtain rfl : e' = e := Except.error.inj h
    rcases checkText_eq_error hc with rfl | ⟨rfl, -⟩ | ⟨rfl, -⟩
    · rw [checkText, if_neg hz] at hc
      split at hc
      · cases hc
      split at hc
      · cases hc
      · cases hc
    · exact ⟨_, rfl⟩
    · exact ⟨_, rfl⟩
  | ok =>
    rw [hc] at h
    dsimp only at h
    split at h
    · cases h
    · exact ⟨_, (Except.error.inj h).symm⟩

lemma locate_refusal {e : FileError} (hz : '\x00' ∉ text.toList)
    (h : fs.locate followLast text = .error e) : ∃ code, e = .os code := by
  rw [locate, lookup] at h
  cases hw : fs.walkText followLast text (route text) with
  | error e' =>
    rw [hw] at h
    exact Except.error.inj h ▸ walkText_refusal hz hw
  | ok arrival =>
    rw [hw] at h
    cases arrival with
    | entry location => cases h
    | vacant parent name => exact ⟨_, (Except.error.inj h).symm⟩

lemma unlink_refusal {e : FileError} (hz : '\x00' ∉ text.toList) (h : fs.unlink text = .error e) :
    ∃ code, e = .os code := by
  rw [unlink] at h
  cases hw : fs.walkText false text (bareRoute text) with
  | error e' =>
    rw [hw] at h
    exact Except.error.inj h ▸ walkText_refusal hz hw
  | ok arrival =>
    rw [hw] at h
    cases arrival with
    | vacant parent name => exact ⟨_, (Except.error.inj h).symm⟩
    | entry location =>
      dsimp only at h
      split_ifs at h
      · exact ⟨_, (Except.error.inj h).symm⟩
      · exact ⟨_, (Except.error.inj h).symm⟩

lemma removeDirectory_refusal {e : FileError} (hz : '\x00' ∉ text.toList)
    (h : fs.removeDirectory text = .error e) : ∃ code, e = .os code := by
  rw [removeDirectory] at h
  cases hw : fs.walkText false text (bareRoute text) with
  | error e' =>
    rw [hw] at h
    exact Except.error.inj h ▸ walkText_refusal hz hw
  | ok arrival =>
    rw [hw] at h
    cases arrival with
    | vacant parent name => exact ⟨_, (Except.error.inj h).symm⟩
    | entry location =>
      dsimp only at h
      -- What the last name of the path is makes a difference to the code only.
      split at h
      · exact ⟨_, (Except.error.inj h).symm⟩
      · exact ⟨_, (Except.error.inj h).symm⟩
      · exact ⟨_, (Except.error.inj h).symm⟩
      · split_ifs at h
        · exact ⟨_, (Except.error.inj h).symm⟩
        · exact ⟨_, (Except.error.inj h).symm⟩

end FileSystem

namespace Action

/-- How a run ends that can only be refused by the file system. -/
def Granted {α : Type} (outcome : Except Failure α × FileSystem) : Prop :=
  (∃ value, outcome.1 = .ok value) ∨ ∃ code, outcome.1 = .error (.file (.os code))

lemma granted_change {step : FileSystem → Except FileError FileSystem}
    (h : ∀ e, step fs = .error e → ∃ code, e = .os code) : Granted ((change step).on fs) := by
  rw [on_change]
  cases hs : step fs with
  | ok fs' => exact .inl ⟨(), rfl⟩
  | error e =>
    obtain ⟨code, rfl⟩ := h e hs
    exact .inr ⟨code, rfl⟩

lemma granted_removeEntry (hz : '\x00' ∉ text.toList) (fs : FileSystem) :
    Granted ((removeEntry text).on fs) := by
  rw [on_removeEntry]
  split
  · rw [removeTree, on_bind, on_query]
    cases hl : fs.locate false text with
    | error e =>
      obtain ⟨code, rfl⟩ := locate_refusal hz hl
      exact .inr ⟨code, rfl⟩
    | ok location =>
      dsimp only
      rw [on_bind_ok (on_modify _)]
      exact granted_change fun e he => removeDirectory_refusal hz he
  · exact granted_change fun e he => unlink_refusal hz he

/-- The removal of a path without a zero character ends well or is refused by the file system. -/
lemma granted_removePath (hz : '\x00' ∉ text.toList) (fs : FileSystem) :
    Granted ((removePath (some text)).on fs) := by
  by_cases hne : text = ""
  · rw [removePath, if_pos hne]
    exact .inl ⟨false, rfl⟩
  · rw [on_removePath hne]
    cases hrun : (removeEntry text).on fs with
    | mk result fs' =>
    have hentry := granted_removeEntry hz fs
    rw [hrun] at hentry
    obtain ⟨⟨⟩, rfl⟩ | ⟨code, rfl⟩ := hentry
    · exact .inl ⟨true, rfl⟩
    · dsimp only
      split
      · exact .inl ⟨false, rfl⟩
      · exact .inr ⟨code, rfl⟩

/-! ## As far as the file system allows it -/

lemma on_tryRemove_of_ok {target : Option String} {removed : Bool}
    (h : (removePath target).on fs = (.ok removed, fs')) :
    (tryRemove target).on fs = (.ok (), fs') := by
  rw [tryRemove, on_tryCatch, on_discard, h]
  rfl

/-- A refusal of the file system does not count. -/
lemma on_tryRemove_of_refusal {target : Option String} {code : Errno}
    (h : (removePath target).on fs = (.error (.file (.os code)), fs')) :
    (tryRemove target).on fs = (.ok (), fs') := by
  rw [tryRemove, on_tryCatch, on_discard, h]
  rfl

lemma on_removeJobs_cons (job : CleanupJob) (jobs : List CleanupJob) (fs : FileSystem) :
    (removeJobs (job :: jobs)).on fs = (tryRemove (some job.archive) >>= fun _ =>
      tryRemove job.directory >>= fun _ => removeJobs jobs).on fs := rfl

/-- The files after paths have been tried one after the other, whatever came of the attempts. -/
def attempted (fs : FileSystem) (targets : List (Option String)) : FileSystem :=
  targets.foldl (fun fs target => ((removePath target).on fs).2) fs

lemma tryRemove_clean {target : Option String}
    (hz : ∀ text, target = some text → '\x00' ∉ text.toList) (fs : FileSystem) :
    (tryRemove target).on fs = (.ok (), ((removePath target).on fs).2) := by
  cases target with
  | none => exact on_tryRemove_of_ok rfl
  | some text =>
    obtain ⟨removed, hrun⟩ | ⟨code, hrun⟩ := granted_removePath (hz text rfl) fs
    · exact on_tryRemove_of_ok (Prod.ext hrun rfl)
    · exact on_tryRemove_of_refusal (Prod.ext hrun rfl)

/-- Paths without a zero character are all tried. -/
lemma forM_tryRemove_clean {targets : List (Option String)}
    (hz : ∀ text, some text ∈ targets → '\x00' ∉ text.toList) (fs : FileSystem) :
    (targets.forM tryRemove).on fs = (.ok (), attempted fs targets) := by
  induction targets generalizing fs with
  | nil => rfl
  | cons target targets ih =>
    have htarget : ∀ text, target = some text → '\x00' ∉ text.toList := fun text ht =>
      hz text (ht ▸ List.mem_cons_self ..)
    have hrest := ih (fun text ht => hz text (List.mem_cons_of_mem _ ht))
      ((removePath target).on fs).2
    show (tryRemove target >>= fun _ => targets.forM tryRemove).on fs = _
    rw [on_bind_ok (tryRemove_clean htarget fs), hrest]
    rfl

lemma clean_of_mem_targets {jobs : List CleanupJob} (hz : ∀ job ∈ jobs, job.Clean) {text : String}
    (ht : some text ∈ jobs.flatMap CleanupJob.targets) : '\x00' ∉ text.toList := by
  obtain ⟨job, hjob, hmem⟩ := List.mem_flatMap.1 ht
  have hclean := hz job hjob
  rcases List.mem_pair.1 hmem with harchive | hdirectory
  · exact Option.some.inj harchive ▸ hclean.archive
  · exact hclean.directory text hdirectory.symm

/-- The files of jobs without zero characters in their paths are gone through to the end. -/
theorem removeJobs_clean {jobs : List CleanupJob} (hz : ∀ job ∈ jobs, job.Clean) (fs : FileSystem) :
    (removeJobs jobs).on fs = (.ok (), attempted fs (jobs.flatMap CleanupJob.targets)) :=
  forM_tryRemove_clean (fun _ ht => clean_of_mem_targets hz ht) fs

end Action

end SourceAtlas
