import SourceAtlas.Proofs.Service.Accounts

/-!
# A service at work

A service answers one request after the other, and each answer changes the service and the files it
works on (`World.perform`).  `World.Reachable` is what a run of any length leads to.

`World.Tidy` says that the jobs that are pending and the files in the two directories agree, in the
words of someone who looks at the registry and lists the directories.  `World.Undisturbed` says
that what stood before a request still stands, and that nothing has come or gone in the directories
of the jobs.
-/

namespace SourceAtlas

open FileSystem SourceAtlas.Action Extraction

/-- A request to a service. -/
inductive Request
  | upload (clock : Binary64) (submission : Option Submission)
  | sweep (now : Binary64)
  | health

/-- A service with the files it works on.  The deposits are kept for the sake of the statements:
they tell what was sent with each job that is pending. -/
structure World where
  service : Service
  files : FileSystem
  deposits : List Deposit

namespace World

/-- Answer a request.  The jobs that an upload registers are entered with what it sent; a
deposit is dropped when its job is no longer pending.  A sign of life needs neither the service
nor the files. -/
def perform (world : World) : Request → World
  | .upload clock submission =>
    let (_, service, files) := world.service.upload clock submission world.files
    let jobs := service.cleanup.pending.drop world.service.cleanup.pending.length
    let content := (submission.map Submission.content).getD .empty
    { service, files, deposits := world.deposits ++ jobs.map fun job => ⟨job, content⟩ }
  | .sweep now =>
    let (_, service, files) := world.service.sweep now world.files
    { service, files
      deposits := world.deposits.filter fun deposit =>
        decide (deposit.job ∈ service.cleanup.pending) }
  | .health => world

lemma config_sweep (world : World) (now : Binary64) :
    (world.perform (.sweep now)).service.config = world.service.config := rfl

lemma pending_sweep (world : World) (now : Binary64) :
    (world.perform (.sweep now)).service.cleanup.pending = world.service.cleanup.retained now := rfl

lemma files_sweep (world : World) (now : Binary64) : (world.perform (.sweep now)).files =
    ((removeJobs (world.service.cleanup.expired now)).on world.files).2 := by
  show ((removeJobs (world.service.cleanup.expired now) >>= fun _ =>
    pure (world.service.cleanup.expired now).length).on world.files).2 = _
  rw [on_bind]
  rcases (removeJobs (world.service.cleanup.expired now)).on world.files with ⟨failure | ⟨⟩, files⟩
  · rfl
  · rfl

/-- A request that a run may hold: no age that a sweep computes is a NaN. -/
def Admits (world : World) : Request → Prop
  | .sweep now => ∀ job ∈ world.service.cleanup.pending, (job.age now).isNaN = false
  | _ => True

/-- The worlds that a run of any length leads to. -/
inductive Reachable (start : World) : World → Prop
  | start : Reachable start start
  | perform {world : World} (h : Reachable start world) (request : Request)
      (ha : world.Admits request) : Reachable start (world.perform request)

/-- What is pending and what is in the two directories agree. -/
structure Tidy (world : World) : Prop where
  registered : world.deposits.map Deposit.job = world.service.cleanup.pending
  archives : ((world.files.namesAt world.service.config.uploadsDir).map
    (Path.append world.service.config.uploadsDir)).Perm
      (world.service.cleanup.pending.map CleanupJob.archive)
  archivesDistinct : (world.service.cleanup.pending.map CleanupJob.archive).Nodup
  contents : ∀ deposit ∈ world.deposits,
    world.files.readFile deposit.job.archive = .ok deposit.content
  trees : ((world.files.namesAt world.service.config.extractedDir).map
    (Path.append world.service.config.extractedDir)).Perm
      (world.service.cleanup.pending.filterMap CleanupJob.directory)
  treesDistinct : (world.service.cleanup.pending.filterMap CleanupJob.directory).Nodup
  directories : ∀ job ∈ world.service.cleanup.pending, ∀ directory,
    job.directory = some directory → world.files.leadsToDirectory directory = true

/-- What stood stands as it did, and in the directories of the jobs nothing is different at all. -/
structure Undisturbed (world world' : World) : Prop where
  stands : ∀ location node, world.files.get? location = some node →
    world'.files.get? location = some node
  directories : ∀ job ∈ world.service.cleanup.pending, ∀ text place location,
    job.directory = some text → world.files.locate true text = .ok place → place <+: location →
      world'.files.get? location = world.files.get? location

end World

/-- A service without jobs, on files in which its directories are, once they have been made, empty
and apart from each other. -/
structure Opening (service : Service) (fs prepared : FileSystem) (uploads extracted : Location) :
    Prop where
  registry : service.cleanup.pending = []
  lifetime : service.cleanup.lifetime.isNaN = false
  made : (prepareDirectories service.config).on fs = (.ok (), prepared)
  uploadsFound : prepared.locate true service.config.uploadsDir = .ok uploads
  extractedFound : prepared.locate true service.config.extractedDir = .ok extracted
  directories : prepared.isDirectory uploads ∧ prepared.isDirectory extracted
  apart : ¬ uploads <+: extracted ∧ ¬ extracted <+: uploads
  empty : prepared.names uploads = [] ∧ prepared.names extracted = []
  identifiers : ∀ n, ValidName (service.identifier n) ∧
    (Path.append service.config.extractedDir (service.identifier n)).utf8ByteSize ≤ maxPathBytes

end SourceAtlas
