import Mathlib.Data.List.Induction
import SourceAtlas.Cleanup.Registry

/-!
# Switching the sweeper

The sweeper of a registry is switched on and off by calls of `start` and `stop`, in any order and
with any intervals.  A registry should then be `Cleanup.Consistent`: `start` answers whether it has
taken the sweeper into use, `stop` answers whether the sweeper was in use, and takes it out of use.

The sweeper is taken into use before the scheduler looks at its interval.  So a start can fail, on a
registry that is not running and with an interval that the scheduler refuses, and it leaves the
registry running.  From then on the registry is `Cleanup.Stuck`.  No interval will start it, and no
stop will stop it, for a scheduler that has not been started cannot be shut down.

`Cleanup.switching` says that this is the one exception, whatever the calls, for every scheduler
that keeps to its documentation (`Scheduler.Documented`).  It rests on one fact: the sweeper is idle
if and only if a start has failed (`Cleanup.sweeper_after_eq_idle_iff`).
-/

namespace SourceAtlas

/-- A call that switches the sweeper. -/
inductive Switch
  | start (now interval : Binary64)
  | stop

namespace Cleanup

variable {scheduler : Scheduler} {cleanup fresh : Cleanup} {calls : List Switch} {call : Switch}
  {now interval : Binary64} {fault : IntervalFault}

/-- The registry after a call. -/
def switch (scheduler : Scheduler) (cleanup : Cleanup) : Switch → Cleanup
  | .start now interval => (cleanup.start scheduler now interval).1
  | .stop => (cleanup.stop scheduler).1

/-- The registry after calls. -/
def after (scheduler : Scheduler) (cleanup : Cleanup) (calls : List Switch) : Cleanup :=
  calls.foldl (switch scheduler) cleanup

/-- Whether a call is a start that fails. -/
def Fails (scheduler : Scheduler) (cleanup : Cleanup) (call : Switch) : Prop :=
  ∃ now interval fault, call = .start now interval ∧
    (cleanup.start scheduler now interval).2 = .error fault

/-- Whether one of the calls was a start that failed. -/
def SomeStartFailed (scheduler : Scheduler) (cleanup : Cleanup) (calls : List Switch) : Prop :=
  ∃ earlier call later, calls = earlier ++ call :: later ∧
    (cleanup.after scheduler earlier).Fails scheduler call

/-! ## What the answers tell -/

/-- A registry whose answers can be relied upon. -/
structure Consistent (scheduler : Scheduler) (cleanup : Cleanup) : Prop where
  /-- A start succeeds if it finds the registry not running and the interval is not refused. -/
  start_true_iff : ∀ now interval, (cleanup.start scheduler now interval).2 = .ok true ↔
    cleanup.isRunning = false ∧ scheduler.refusal? now interval = none
  /-- No start succeeds with an interval that is no span of time. -/
  isSpan : ∀ now interval, (cleanup.start scheduler now interval).2 = .ok true →
    Interval.IsSpan interval
  /-- A registry that has been started is running. -/
  started : ∀ now interval, (cleanup.start scheduler now interval).2 = .ok true →
    (cleanup.start scheduler now interval).1.isRunning = true
  /-- A registry that is running is not started again. -/
  start_false_iff : ∀ now interval,
    (cleanup.start scheduler now interval).2 = .ok false ↔ cleanup.isRunning = true
  /-- Where a start is declined, nothing changes. -/
  declined : ∀ now interval, (cleanup.start scheduler now interval).2 = .ok false →
    (cleanup.start scheduler now interval).1 = cleanup
  /-- A stop tells whether the registry was running. -/
  stop : (cleanup.stop scheduler).2 = .ok cleanup.isRunning
  /-- No registry is running after a stop. -/
  stopped : (cleanup.stop scheduler).1.isRunning = false

/-- A registry that cannot be switched any more. -/
structure Stuck (scheduler : Scheduler) (cleanup : Cleanup) : Prop where
  running : cleanup.isRunning = true
  start : ∀ now interval, cleanup.start scheduler now interval = (cleanup, .ok false)
  stop : cleanup.stop scheduler = (cleanup, .error .notStarted)

lemma isRunning_eq_false_iff : cleanup.isRunning = false ↔ cleanup.sweeper = .absent := by
  simp [isRunning]

lemma start_of_running (h : cleanup.isRunning = true) :
    cleanup.start scheduler now interval = (cleanup, .ok false) := by
  rw [start]
  split
  · rename_i hs
    rw [isRunning_eq_false_iff.2 hs] at h
    cases h
  · rfl

/-- The ways in which a start can end. -/
lemma start_cases (scheduler : Scheduler) (cleanup : Cleanup) (now interval : Binary64) :
    cleanup.isRunning = true ∧ cleanup.start scheduler now interval = (cleanup, .ok false) ∨
      cleanup.isRunning = false ∧ scheduler.refusal? now interval = none ∧
        cleanup.start scheduler now interval = ({ cleanup with sweeper := .periodic }, .ok true) ∨
      ∃ fault, cleanup.isRunning = false ∧ scheduler.refusal? now interval = some fault ∧
        cleanup.start scheduler now interval =
          ({ cleanup with sweeper := .idle }, .error fault) := by
  cases h : cleanup.isRunning with
  | true => exact .inl ⟨rfl, start_of_running h⟩
  | false =>
    have hs := isRunning_eq_false_iff.1 h
    cases hf : scheduler.refusal? now interval with
    | none => exact .inr (.inl ⟨rfl, rfl, by simp only [start, hs, hf]⟩)
    | some fault => exact .inr (.inr ⟨fault, rfl, rfl, by simp only [start, hs, hf]⟩)

lemma start_eq_true_iff : (cleanup.start scheduler now interval).2 = .ok true ↔
    cleanup.isRunning = false ∧ scheduler.refusal? now interval = none := by
  obtain ⟨h, hs⟩ | ⟨h, hf, hs⟩ | ⟨_, h, hf, hs⟩ := start_cases scheduler cleanup now interval
  · simp [h, hs]
  · simp [h, hf, hs]
  · simp [hf, hs]

lemma start_eq_false_iff :
    (cleanup.start scheduler now interval).2 = .ok false ↔ cleanup.isRunning = true := by
  obtain ⟨h, hs⟩ | ⟨h, -, hs⟩ | ⟨_, h, -, hs⟩ := start_cases scheduler cleanup now interval
  · simp [h, hs]
  · simp [h, hs]
  · simp [h, hs]

lemma start_eq_error_iff : (cleanup.start scheduler now interval).2 = .error fault ↔
    cleanup.isRunning = false ∧ scheduler.refusal? now interval = some fault := by
  obtain ⟨h, hs⟩ | ⟨h, hf, hs⟩ | ⟨_, h, hf, hs⟩ := start_cases scheduler cleanup now interval
  · simp [h, hs]
  · simp [hf, hs]
  · simp [h, hf, hs]

/-- However a start ends, the registry is running afterwards. -/
lemma isRunning_start (scheduler : Scheduler) (cleanup : Cleanup) (now interval : Binary64) :
    (cleanup.start scheduler now interval).1.isRunning = true := by
  obtain ⟨h, hs⟩ | ⟨-, -, hs⟩ | ⟨_, -, -, hs⟩ := start_cases scheduler cleanup now interval
  · rw [hs, h]
  · rw [hs]
    rfl
  · rw [hs]
    rfl

lemma stop_of_not_idle (hd : scheduler.Documented) (h : cleanup.sweeper ≠ .idle) :
    cleanup.stop scheduler = ({ cleanup with sweeper := .absent }, .ok cleanup.isRunning) := by
  obtain ⟨lifetime, pending, sweeper⟩ := cleanup
  cases sweeper with
  | absent => rfl
  | idle => contradiction
  | periodic => simp [stop, Sweeper.isStarted, hd.started, isRunning]

lemma stop_of_idle (hd : scheduler.Documented) (h : cleanup.sweeper = .idle) :
    cleanup.stop scheduler = (cleanup, .error .notStarted) := by
  simp [stop, h, Sweeper.isStarted, hd.notStarted]

lemma consistent_of_not_idle (hd : scheduler.Documented) (h : cleanup.sweeper ≠ .idle) :
    cleanup.Consistent scheduler where
  start_true_iff _ _ := start_eq_true_iff
  isSpan now interval hs := by
    by_contra hspan
    exact hd.refused now interval hspan (start_eq_true_iff.1 hs).2
  started now interval _ := isRunning_start scheduler cleanup now interval
  start_false_iff _ _ := start_eq_false_iff
  declined now interval hs := congrArg Prod.fst (start_of_running (start_eq_false_iff.1 hs))
  stop := by rw [stop_of_not_idle hd h]
  stopped := by
    rw [stop_of_not_idle hd h]
    rfl

lemma stuck_of_idle (hd : scheduler.Documented) (h : cleanup.sweeper = .idle) :
    cleanup.Stuck scheduler := by
  have hrunning : cleanup.isRunning = true := by simp [isRunning, h]
  exact ⟨hrunning, fun _ _ => start_of_running hrunning, stop_of_idle hd h⟩

/-! ## When the sweeper is idle -/

/-- The sweeper is idle after a call if it was idle before or the call fails. -/
lemma sweeper_switch_eq_idle_iff (hd : scheduler.Documented) :
    (cleanup.switch scheduler call).sweeper = .idle ↔
      cleanup.sweeper = .idle ∨ cleanup.Fails scheduler call := by
  cases call with
  | start now interval =>
    have hfails : cleanup.Fails scheduler (.start now interval) ↔
        ∃ fault, (cleanup.start scheduler now interval).2 = .error fault := by
      simp [Fails]
    rw [hfails, switch]
    obtain ⟨h, hs⟩ | ⟨h, -, hs⟩ | ⟨_, h, -, hs⟩ := start_cases scheduler cleanup now interval
    · simp [hs]
    · simp [hs, isRunning_eq_false_iff.1 h]
    · simp [hs]
  | stop =>
    have hnone : ¬ cleanup.Fails scheduler .stop := by simp [Fails]
    rw [or_iff_left hnone, switch]
    by_cases hs : cleanup.sweeper = .idle
    · rw [stop_of_idle hd hs]
    · simp [stop_of_not_idle hd hs, hs]

lemma after_concat (cleanup : Cleanup) (calls : List Switch) (call : Switch) :
    cleanup.after scheduler (calls ++ [call]) =
      (cleanup.after scheduler calls).switch scheduler call := by
  rw [after, List.foldl_append]
  rfl

lemma someStartFailed_concat :
    cleanup.SomeStartFailed scheduler (calls ++ [call]) ↔
      cleanup.SomeStartFailed scheduler calls ∨
        (cleanup.after scheduler calls).Fails scheduler call := by
  constructor
  · rintro ⟨earlier, failed, later, hcalls, hfails⟩
    rcases List.eq_nil_or_concat later with rfl | ⟨rest, last, rfl⟩
    · obtain ⟨rfl, hlast⟩ := List.append_inj' hcalls rfl
      obtain rfl := List.singleton_inj.1 hlast
      exact .inr hfails
    · refine .inl ⟨earlier, failed, rest, ?_, hfails⟩
      rw [List.concat_eq_append, ← List.cons_append, ← List.append_assoc] at hcalls
      exact (List.append_inj' hcalls rfl).1
  · rintro (⟨earlier, failed, later, rfl, hfails⟩ | hfails)
    · exact ⟨earlier, failed, later ++ [call], by simp, hfails⟩
    · exact ⟨calls, call, [], rfl, hfails⟩

/-- A sweeper that was not in use at first is idle if a start has failed. -/
lemma sweeper_after_eq_idle_iff (hd : scheduler.Documented) (hfresh : fresh.sweeper = .absent) :
    (fresh.after scheduler calls).sweeper = .idle ↔ fresh.SomeStartFailed scheduler calls := by
  induction calls using List.reverseRecOn with
  | nil =>
    have hnone : ¬ fresh.SomeStartFailed scheduler [] := by
      rintro ⟨earlier, call, later, hcalls, -⟩
      simp at hcalls
    simp [after, hfresh, hnone]
  | append_singleton calls call ih =>
    rw [after_concat, sweeper_switch_eq_idle_iff hd, someStartFailed_concat, ih]

/-! ## Any calls -/

/-- What a registry is like after calls. -/
structure Switching (scheduler : Scheduler) (fresh : Cleanup) (calls : List Switch) : Prop where
  /-- Its answers can be relied upon as long as no start has failed. -/
  consistent : ¬ fresh.SomeStartFailed scheduler calls →
    (fresh.after scheduler calls).Consistent scheduler
  /-- A start fails if it finds the registry not running and the interval is refused. -/
  start_error_iff : ∀ now interval fault,
    ((fresh.after scheduler calls).start scheduler now interval).2 = .error fault ↔
      (fresh.after scheduler calls).isRunning = false ∧
        scheduler.refusal? now interval = some fault
  /-- A registry that has failed to start is running. -/
  failed : ∀ now interval fault,
    ((fresh.after scheduler calls).start scheduler now interval).2 = .error fault →
      ((fresh.after scheduler calls).start scheduler now interval).1.isRunning = true
  /-- After a start has failed, the registry cannot be switched any more. -/
  stuck : fresh.SomeStartFailed scheduler calls → (fresh.after scheduler calls).Stuck scheduler

/-- A registry that has not been started can be switched consistently until a start fails, and not
at all from then on. -/
theorem switching (hd : scheduler.Documented) (lifetime : Binary64) (pending : List CleanupJob)
    (calls : List Switch) : Switching scheduler ⟨lifetime, pending, .absent⟩ calls where
  consistent h := consistent_of_not_idle hd (mt (sweeper_after_eq_idle_iff hd rfl).1 h)
  start_error_iff _ _ _ := start_eq_error_iff
  failed _ _ _ _ := isRunning_start ..
  stuck h := stuck_of_idle hd ((sweeper_after_eq_idle_iff hd rfl).2 h)

/-- A registry that is started, declines to be started again, is stopped, and fails to start. -/
theorem switching_calendar :
    Scheduler.calendar.Documented ∧
    Switching .calendar (.ofLifetime (.ofInt 9)) [.start (.ofInt 0) (.ofInt 60),
      .start (.ofInt 0) (.ofInt 60), .stop, .start (.ofInt 0) (.ofInt 100000000000000)] :=
  ⟨Scheduler.documented_calendar, switching Scheduler.documented_calendar _ _ _⟩

/-- After an interval of too many days, the registry runs and can neither be started nor stopped. -/
theorem stuck_after_long_interval :
    let failed := (Cleanup.ofLifetime (.ofInt 9)).start .calendar (.ofInt 0)
      (.ofInt 100000000000000)
    failed.2 = .error (.tooManyDays 1157407407) ∧ failed.1.isRunning = true ∧
      (failed.1.start .calendar (.ofInt 0) (.ofInt 3600)).2 = .ok false ∧
      (failed.1.stop .calendar).2 = .error .notStarted := by
  decide +kernel

end Cleanup

end SourceAtlas
