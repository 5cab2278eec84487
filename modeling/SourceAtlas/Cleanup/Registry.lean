import SourceAtlas.Cleanup.Scheduler
import SourceAtlas.Files.Removal

/-!
# The cleanup registry

Every finished job is registered with the files that it keeps: the archive and, if it was extracted,
the directory.  A sweep removes the files of the jobs whose age has reached the lifetime.

* The age of a job is the difference between the time of the sweep and the time of its creation, as
  a double.  `isExpired` compares it with the lifetime; `isRetained` is the comparison the other
  way.  They are complements of each other unless a NaN is involved (`isRetained_eq_not_isExpired`);
  a job for which neither holds is dropped without its files being removed.
* A file that cannot be removed does not keep the other files of a sweep from being removed.  Only a
  path that holds a zero character ends a sweep; then the expired jobs are gone from the registry
  nevertheless.

## The sweeper

Sweeps can be run periodically, by a `Scheduler`.  The sweeper is taken into use before the
scheduler looks at its interval, so an interval that is refused leaves it in use but idle
(`Sweeper.idle`); the scheduler has not been started then, and cannot be shut down.
-/

namespace SourceAtlas

/-- The files of a finished job. -/
structure CleanupJob where
  archive : String
  directory : Option String
  createdAt : Binary64
deriving DecidableEq, Repr

/-- The state of the periodic sweeper. -/
inductive Sweeper
  | absent
  | idle
  | periodic
deriving DecidableEq, Repr

/-- Whether the scheduler of the sweeper has been started. -/
def Sweeper.isStarted (sweeper : Sweeper) : Bool :=
  sweeper = .periodic

/-- The jobs whose files are to be removed in time, oldest registration first. -/
structure Cleanup where
  lifetime : Binary64
  pending : List CleanupJob
  sweeper : Sweeper
deriving Repr

namespace CleanupJob

/-- The age of a job. -/
def age (job : CleanupJob) (now : Binary64) : Binary64 :=
  now - job.createdAt

/-- Whether the age of a job has reached a lifetime. -/
def isExpired (job : CleanupJob) (lifetime now : Binary64) : Bool :=
  lifetime.le (job.age now)

/-- Whether the age of a job is below a lifetime. -/
def isRetained (job : CleanupJob) (lifetime now : Binary64) : Bool :=
  (job.age now).lt lifetime

theorem isRetained_eq_not_isExpired {job : CleanupJob} {lifetime now : Binary64}
    (hl : lifetime.isNaN = false) (ha : (job.age now).isNaN = false) :
    job.isRetained lifetime now = !job.isExpired lifetime now := by
  unfold isRetained isExpired
  cases h : lifetime.le (job.age now)
  · rcases Binary64.le_or_lt ha hl with h' | h'
    · rw [h] at h'; exact absurd h' (by simp)
    · rw [h']; rfl
  · rw [Binary64.not_lt_of_le h]; rfl

/-- The paths of a job. -/
def targets (job : CleanupJob) : List (Option String) :=
  [some job.archive, job.directory]

end CleanupJob

namespace Action

/-- Whether a failure is a refusal of the file system. -/
def isRefusal : Failure → Bool
  | .file (.os _) => true
  | _ => false

/-- Remove a path as far as the file system allows it. -/
def tryRemove (target : Option String) : Action Unit :=
  tryCatch (do discard <| removePath target) fun failure =>
    if isRefusal failure then pure () else throw failure

/-- Remove the files of jobs, one job after the other. -/
def removeJobs (jobs : List CleanupJob) : Action Unit :=
  (jobs.flatMap CleanupJob.targets).forM tryRemove

end Action

namespace Cleanup

/-- A registry without jobs. -/
def ofLifetime (lifetime : Binary64) : Cleanup := ⟨lifetime, [], .absent⟩

/-- Add a job. -/
def register (cleanup : Cleanup) (job : CleanupJob) : Cleanup :=
  { cleanup with pending := cleanup.pending ++ [job] }

/-- The jobs that a sweep finds expired. -/
def expired (cleanup : Cleanup) (now : Binary64) : List CleanupJob :=
  cleanup.pending.filter fun job => job.isExpired cleanup.lifetime now

/-- The jobs that stay in the registry. -/
def retained (cleanup : Cleanup) (now : Binary64) : List CleanupJob :=
  cleanup.pending.filter fun job => job.isRetained cleanup.lifetime now

/-- Sweep: the registry afterwards, and the removal of the files, which yields the number of expired
jobs. -/
def sweep (cleanup : Cleanup) (now : Binary64) : Cleanup × Action Nat :=
  ({ cleanup with pending := cleanup.retained now },
    do
      Action.removeJobs (cleanup.expired now)
      return (cleanup.expired now).length)

/-! ## The sweeper -/

/-- Whether the sweeper is in use. -/
def isRunning (cleanup : Cleanup) : Bool :=
  cleanup.sweeper ≠ .absent

/-- Take the sweeper into use.  The answer tells whether it was not in use before. -/
def start (scheduler : Scheduler) (cleanup : Cleanup) (now interval : Binary64) :
    Cleanup × Except IntervalFault Bool :=
  match cleanup.sweeper with
  | .absent =>
    match scheduler.refusal? now interval with
    | some fault => ({ cleanup with sweeper := .idle }, .error fault)
    | none => ({ cleanup with sweeper := .periodic }, .ok true)
  | _ => (cleanup, .ok false)

/-- Take the sweeper out of use, unless its scheduler cannot be shut down.  The answer tells whether
it was in use. -/
def stop (scheduler : Scheduler) (cleanup : Cleanup) : Cleanup × Except StopFault Bool :=
  match cleanup.sweeper with
  | .absent => (cleanup, .ok false)
  | sweeper =>
    match scheduler.stopFault? sweeper.isStarted with
    | some fault => (cleanup, .error fault)
    | none => ({ cleanup with sweeper := .absent }, .ok true)

end Cleanup

end SourceAtlas
