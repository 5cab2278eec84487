import Mathlib.Algebra.BigOperators.Group.List.Basic
import Mathlib.Algebra.Ring.Nat
import Mathlib.Data.List.Induction
import Mathlib.Data.Nat.Find
import SourceAtlas.Proofs.Cleanup.Removal

/-!
# No job is lost, and none is handled twice

A registry is called upon to take in a job or to sweep, any number of times and in any order; the
times of the sweeps and of the creation of jobs are arbitrary.  `Custody` is a registry at work: the
registry, the files, and what the sweeps have returned.

What should be in the registry is told by the calls alone.  Two registrations can be of the same
job, so a registration is told by its position among the calls.  It is `outstanding` while no later
sweep has found its job expired, and it is `taken` by the first sweep that does.  Neither speaks of
a registry or of what is left in one by the sweeps before.

A sweep decides which jobs to remove and which to keep by two comparisons.  A job passes one of
them unless a NaN is involved (`CleanupJob.isRetained_eq_not_isExpired`), and must do so to be
either kept or removed: this is where the condition on the ages comes in
(`length_retained_add_expired`, `Custody.pending_after`).  The condition on the paths is for the
sweeps to come to an end (`Custody.perform_sweep`).
-/

namespace SourceAtlas

open FileSystem SourceAtlas.Action

/-! ## Calls -/

/-- A call on a registry. -/
inductive Call
  | register (job : CleanupJob)
  | sweep (now : Binary64)

namespace Call

/-- The job that a call registers. -/
def job? : Call → Option CleanupJob
  | .register job => some job
  | .sweep _ => none

/-- Whether a call is a sweep at a time at which a job is expired. -/
def expires (lifetime : Binary64) (job : CleanupJob) : Call → Bool
  | .register _ => false
  | .sweep now => job.isExpired lifetime now

end Call

/-- The job that the call at a position registers. -/
def registered? (calls : List Call) (i : ℕ) : Option CleanupJob := calls[i]?.bind Call.job?

/-- Whether the call at position `i` registers a job and the call at position `j` is a later sweep
that finds it expired. -/
def FindsExpired (lifetime : Binary64) (calls : List Call) (i j : ℕ) : Prop :=
  i < j ∧ ∃ job ∈ registered? calls i, ∃ call ∈ calls[j]?, call.expires lifetime job = true

instance (lifetime : Binary64) (calls : List Call) (i j : ℕ) :
    Decidable (FindsExpired lifetime calls i j) := by
  unfold FindsExpired
  infer_instance

/-- The positions of the registrations that no later sweep has found expired, in order. -/
def outstanding (lifetime : Binary64) (calls : List Call) : List ℕ :=
  (List.range calls.length).filter fun i =>
    (registered? calls i).isSome ∧ ∀ j < calls.length, ¬ FindsExpired lifetime calls i j

/-- The positions of the registrations that the call at position `j` is the first to find expired,
in order. -/
def taken (lifetime : Binary64) (calls : List Call) (j : ℕ) : List ℕ :=
  (List.range j).filter fun i =>
    FindsExpired lifetime calls i j ∧ ∀ k < j, ¬ FindsExpired lifetime calls i k

/-- The jobs that were registered, in order. -/
def registrations (calls : List Call) : List CleanupJob := calls.filterMap Call.job?

/-! ## A registry at work -/

/-- A registry at work: what its sweeps have returned is kept, the oldest answer first. -/
structure Custody where
  cleanup : Cleanup
  files : FileSystem
  answers : List (Except Failure ℕ)

namespace Custody

/-- Do what a call asks for. -/
def perform (custody : Custody) : Call → Custody
  | .register job => { custody with cleanup := custody.cleanup.register job }
  | .sweep now =>
    let (cleanup, removal) := custody.cleanup.sweep now
    let (answer, files) := removal.on custody.files
    { cleanup, files, answers := custody.answers ++ [answer] }

/-- What calls lead to, from a registry without jobs. -/
def after (lifetime : Binary64) (fs : FileSystem) (calls : List Call) : Custody :=
  calls.foldl perform ⟨.ofLifetime lifetime, fs, []⟩

end Custody

/-- A run in which no path holds a zero character and no age that a sweep computes is a NaN. -/
structure Orderly (lifetime : Binary64) (fs : FileSystem) (calls : List Call) : Prop where
  paths : ∀ job ∈ registrations calls, job.Clean
  ages : ∀ earlier now later, calls = earlier ++ .sweep now :: later →
    ∀ job ∈ (Custody.after lifetime fs earlier).cleanup.pending, (job.age now).isNaN = false

variable {lifetime now : Binary64} {fs : FileSystem} {calls more : List Call} {call : Call}
  {job : CleanupJob} {i j : ℕ}

/-! ## What later calls do not change -/

lemma lt_length_of_registered? (h : registered? calls i = some job) : i < calls.length := by
  by_contra hc
  rw [registered?, List.getElem?_eq_none (by omega)] at h
  cases h

lemma FindsExpired.lt_length (h : FindsExpired lifetime calls i j) : j < calls.length := by
  obtain ⟨-, -, -, call, hcall, -⟩ := h
  exact (List.getElem?_eq_some_iff.1 hcall).1

lemma registered?_append (h : i < calls.length) :
    registered? (calls ++ more) i = registered? calls i := by
  rw [registered?, List.getElem?_append_left h, registered?]

lemma findsExpired_append (h : j < calls.length) :
    FindsExpired lifetime (calls ++ more) i j ↔ FindsExpired lifetime calls i j := by
  refine and_congr_right fun hij => ?_
  rw [registered?_append (by omega), List.getElem?_append_left h]

lemma never_findsExpired_append (h : j ≤ calls.length) :
    (∀ k < j, ¬ FindsExpired lifetime (calls ++ more) i k) ↔
      ∀ k < j, ¬ FindsExpired lifetime calls i k :=
  forall₂_congr fun _ hk => not_congr (findsExpired_append (by omega))

lemma taken_append (h : j < calls.length) :
    taken lifetime (calls ++ more) j = taken lifetime calls j :=
  List.filter_congr fun i _ => by
    rw [decide_eq_decide, findsExpired_append h, never_findsExpired_append h.le]

lemma mem_outstanding : i ∈ outstanding lifetime calls ↔
    (registered? calls i).isSome ∧ ∀ j < calls.length, ¬ FindsExpired lifetime calls i j := by
  rw [outstanding, List.mem_filter, List.mem_range, decide_eq_true_eq, and_iff_right_iff_imp]
  rintro ⟨hr, -⟩
  obtain ⟨job, hjob⟩ := Option.isSome_iff_exists.1 hr
  exact lt_length_of_registered? hjob

lemma mem_taken : i ∈ taken lifetime calls j ↔
    FindsExpired lifetime calls i j ∧ ∀ k < j, ¬ FindsExpired lifetime calls i k := by
  rw [taken, List.mem_filter, List.mem_range, decide_eq_true_eq, and_iff_right_iff_imp]
  exact fun h => h.1.1

/-- A registration is outstanding, or one call has taken it and no other. -/
lemma outstanding_or_taken (h : (registered? calls i).isSome) :
    (i ∈ outstanding lifetime calls ∧ ∀ j, i ∉ taken lifetime calls j) ∨
      i ∉ outstanding lifetime calls ∧ ∃! j, i ∈ taken lifetime calls j := by
  by_cases ho : i ∈ outstanding lifetime calls
  · refine .inl ⟨ho, fun j ht => ?_⟩
    have hf := (mem_taken.1 ht).1
    exact (mem_outstanding.1 ho).2 j hf.lt_length hf
  · have hfound : ∃ j, FindsExpired lifetime calls i j := by
      by_contra hc
      exact ho (mem_outstanding.2 ⟨h, fun j _ hf => hc ⟨j, hf⟩⟩)
    -- The first sweep that finds it expired is the one that takes it.
    have hfirst := Nat.find_spec hfound
    have hbefore (k : ℕ) (hk : k < Nat.find hfound) : ¬ FindsExpired lifetime calls i k :=
      Nat.find_min hfound hk
    refine .inr ⟨ho, Nat.find hfound, mem_taken.2 ⟨hfirst, hbefore⟩, fun j ht => ?_⟩
    obtain ⟨hf, hbefore'⟩ := mem_taken.1 ht
    rcases lt_trichotomy j (Nat.find hfound) with hlt | heq | hgt
    · exact absurd hf (hbefore j hlt)
    · exact heq
    · exact absurd hfirst (hbefore' _ hgt)

/-! ## One more call -/

/-- The last call finds a registration before it expired if its job is. -/
lemma findsExpired_last (h : i < calls.length) :
    FindsExpired lifetime (calls ++ [call]) i calls.length ↔
      ∃ job ∈ registered? calls i, call.expires lifetime job = true := by
  simp [FindsExpired, h, registered?_append h]

/-- Whether a registration stays outstanding is decided by the last call alone. -/
lemma mem_outstanding_concat (h : i < calls.length) :
    i ∈ outstanding lifetime (calls ++ [call]) ↔ i ∈ outstanding lifetime calls ∧
      ¬ ∃ job ∈ registered? calls i, call.expires lifetime job = true := by
  rw [mem_outstanding, mem_outstanding, registered?_append h, List.length_append,
    List.length_singleton, Nat.forall_lt_succ_right, findsExpired_last h,
    never_findsExpired_append le_rfl, and_assoc]

/-- The last registration is outstanding. -/
lemma mem_outstanding_last :
    calls.length ∈ outstanding lifetime (calls ++ [call]) ↔ call.job?.isSome := by
  rw [mem_outstanding]
  have hlast : registered? (calls ++ [call]) calls.length = call.job? := by
    simp [registered?]
  rw [hlast, and_iff_left_iff_imp]
  intro _ j hj
  rw [List.length_append, List.length_singleton] at hj
  intro hf
  have := hf.1
  omega

lemma outstanding_eq_filter (lifetime : Binary64) (calls : List Call) : outstanding lifetime calls =
    (List.range calls.length).filter fun i => i ∈ outstanding lifetime calls :=
  List.filter_congr fun i _ => by rw [decide_eq_decide, mem_outstanding]

/-- The registrations outstanding after one more call. -/
lemma outstanding_concat : outstanding lifetime (calls ++ [call]) =
    ((outstanding lifetime calls).filter fun i =>
      ¬ ∃ job ∈ registered? calls i, call.expires lifetime job = true) ++
    if call.job?.isSome then [calls.length] else [] := by
  rw [outstanding_eq_filter lifetime (calls ++ [call]), List.length_append, List.length_singleton,
    List.range_succ, List.filter_append, outstanding_eq_filter lifetime calls, List.filter_filter]
  congr 1
  · refine List.filter_congr fun i hi => ?_
    rw [← Bool.decide_and, decide_eq_decide, mem_outstanding_concat (List.mem_range.1 hi), and_comm]
  · rw [List.filter_singleton]
    simp only [mem_outstanding_last, Bool.decide_eq_true, cond_eq_ite]

/-- What the last call takes is what was outstanding and is expired now. -/
lemma taken_last : taken lifetime (calls ++ [call]) calls.length =
    (outstanding lifetime calls).filter fun i =>
      ∃ job ∈ registered? calls i, call.expires lifetime job = true := by
  rw [outstanding_eq_filter lifetime calls, List.filter_filter, taken]
  refine List.filter_congr fun i hi => ?_
  have hi := List.mem_range.1 hi
  rw [← Bool.decide_and, decide_eq_decide, findsExpired_last hi, mem_outstanding,
    never_findsExpired_append le_rfl]
  refine and_congr_right fun ⟨job, hjob, _⟩ => ?_
  rw [Option.mem_def.1 hjob]
  simp

/-! ## What a sweep does -/

lemma length_retained_add_expired {cleanup : Cleanup} (hl : cleanup.lifetime.isNaN = false)
    (ha : ∀ job ∈ cleanup.pending, (job.age now).isNaN = false) :
    (cleanup.retained now).length + (cleanup.expired now).length = cleanup.pending.length := by
  have hretained : cleanup.retained now =
      cleanup.pending.filter fun job => !job.isExpired cleanup.lifetime now :=
    List.filter_congr fun job hjob => CleanupJob.isRetained_eq_not_isExpired hl (ha job hjob)
  rw [hretained, Nat.add_comm]
  exact (List.length_eq_length_filter_add _).symm

namespace Custody

variable {custody : Custody}

/-- A sweep of jobs without zero characters in their paths comes to an end. -/
lemma perform_sweep (hz : ∀ job ∈ custody.cleanup.pending, job.Clean) (now : Binary64) :
    ∃ files, custody.perform (.sweep now) =
      ⟨{ custody.cleanup with pending := custody.cleanup.retained now }, files,
        custody.answers ++ [.ok (custody.cleanup.expired now).length]⟩ := by
  have hexpired : ∀ job ∈ custody.cleanup.expired now, job.Clean := fun job hjob =>
    hz job (List.mem_of_mem_filter hjob)
  refine ⟨attempted custody.files ((custody.cleanup.expired now).flatMap CleanupJob.targets), ?_⟩
  rw [perform, Cleanup.sweep]
  dsimp only
  rw [on_bind_ok (removeJobs_clean hexpired custody.files)]
  rfl

/-- A second sweep at the same time finds nothing to do. -/
lemma perform_sweep_again (custody : Custody) (now : Binary64) :
    (custody.perform (.sweep now)).perform (.sweep now) =
      { custody.perform (.sweep now) with
        answers := (custody.perform (.sweep now)).answers ++ [.ok 0] } := by
  have hretained : (custody.perform (.sweep now)).cleanup.retained now =
      (custody.perform (.sweep now)).cleanup.pending := by
    show (custody.cleanup.retained now).filter (fun job =>
      job.isRetained custody.cleanup.lifetime now) = custody.cleanup.retained now
    exact List.filter_eq_self.2 fun job hjob => (List.mem_filter.1 hjob).2
  have hexpired : (custody.perform (.sweep now)).cleanup.expired now = [] := by
    show (custody.cleanup.retained now).filter (fun job =>
      job.isExpired custody.cleanup.lifetime now) = []
    rw [List.filter_eq_nil_iff]
    intro job hjob he
    have hkept := (List.mem_filter.1 hjob).2
    rw [CleanupJob.isRetained, Binary64.not_lt_of_le he] at hkept
    cases hkept
  generalize custody.perform (.sweep now) = swept at *
  rw [perform, Cleanup.sweep, hretained, hexpired]
  rfl

/-! ## Runs -/

lemma after_concat (lifetime : Binary64) (fs : FileSystem) (calls : List Call) (call : Call) :
    after lifetime fs (calls ++ [call]) = (after lifetime fs calls).perform call := by
  rw [after, List.foldl_append]
  rfl

lemma lifetime_after : (after lifetime fs calls).cleanup.lifetime = lifetime := by
  induction calls using List.reverseRecOn with
  | nil => rfl
  | append_singleton calls call ih =>
    rw [after_concat]
    cases call <;> exact ih

/-- Only registered jobs are pending. -/
lemma mem_registrations_of_pending (h : job ∈ (after lifetime fs calls).cleanup.pending) :
    job ∈ registrations calls := by
  induction calls using List.reverseRecOn with
  | nil => cases h
  | append_singleton calls call ih =>
    rw [after_concat] at h
    rw [registrations, List.filterMap_append]
    cases call with
    | register new =>
      rcases List.mem_append.1 h with h | h
      · exact List.mem_append_left _ (ih h)
      · exact List.mem_append_right _ h
    | sweep now => exact List.mem_append_left _ (ih (List.mem_of_mem_filter h))

end Custody

namespace Orderly

lemma of_append (h : Orderly lifetime fs (calls ++ more)) : Orderly lifetime fs calls := by
  constructor
  · intro job hjob
    refine h.paths job ?_
    rw [registrations, List.filterMap_append]
    exact List.mem_append_left _ hjob
  · rintro earlier now later rfl
    exact h.ages earlier now (later ++ more) (by simp)

lemma pending_clean (h : Orderly lifetime fs calls) :
    ∀ job ∈ (Custody.after lifetime fs calls).cleanup.pending, job.Clean :=
  fun job hjob => h.paths job (Custody.mem_registrations_of_pending hjob)

lemma pending_ages (h : Orderly lifetime fs (calls ++ [.sweep now])) :
    ∀ job ∈ (Custody.after lifetime fs calls).cleanup.pending, (job.age now).isNaN = false :=
  h.ages calls now [] rfl

/-- It is enough that no job has an age that is a NaN at the time of any sweep. -/
lemma of_ages (hpaths : ∀ job ∈ registrations calls, job.Clean)
    (hages : ∀ now, .sweep now ∈ calls → ∀ job ∈ registrations calls, (job.age now).isNaN = false) :
    Orderly lifetime fs calls := by
  refine ⟨hpaths, ?_⟩
  rintro earlier now later rfl job hjob
  refine hages now (by simp) job ?_
  rw [registrations, List.filterMap_append]
  exact List.mem_append_left _ (Custody.mem_registrations_of_pending hjob)

end Orderly

namespace Custody

/-- The jobs of outstanding registrations that are chosen by their jobs, told after some
more calls. -/
lemma filterMap_outstanding {chosen : ℕ → Prop} [DecidablePred chosen] {kept : CleanupJob → Bool}
    (h : ∀ i job, registered? calls i = some job → decide (chosen i) = kept job)
    (more : List Call) :
    ((outstanding lifetime calls).filter fun i => chosen i).filterMap
      (registered? (calls ++ more)) =
      ((outstanding lifetime calls).filterMap (registered? calls)).filter kept := by
  rw [List.filterMap_filter, List.filter_filterMap]
  refine List.filterMap_congr fun i hi => ?_
  obtain ⟨job, hjob⟩ := Option.isSome_iff_exists.1 (mem_outstanding.1 hi).1
  rw [registered?_append (lt_length_of_registered? hjob), hjob, h i job hjob]
  rfl

/-- What is pending are the outstanding registrations. -/
theorem pending_after (hl : lifetime.isNaN = false) (h : Orderly lifetime fs calls) :
    (after lifetime fs calls).cleanup.pending =
      (outstanding lifetime calls).filterMap (registered? calls) := by
  induction calls using List.reverseRecOn with
  | nil => rfl
  | append_singleton calls call ih =>
    have hbefore := ih h.of_append
    rw [after_concat, outstanding_concat, List.filterMap_append]
    cases call with
    | register job =>
      have hall : ∀ i other, registered? calls i = some other →
          decide (¬ ∃ job' ∈ registered? calls i,
            (Call.register job).expires lifetime job' = true) = true := by
        simp [Call.expires]
      rw [filterMap_outstanding hall, ← hbefore, List.filter_true]
      simp [perform, Cleanup.register, Call.job?, registered?]
    | sweep now =>
      have hkept : ∀ i job, registered? calls i = some job →
          decide (¬ ∃ job' ∈ registered? calls i, (Call.sweep now).expires lifetime job' = true) =
            !job.isExpired lifetime now := by
        intro i job hjob
        simp [hjob, Call.expires]
      rw [filterMap_outstanding hkept, ← hbefore]
      show (after lifetime fs calls).cleanup.retained now = _
      rw [Cleanup.retained, lifetime_after]
      simp only [Call.job?, Option.isSome_none, Bool.false_eq_true, if_false, List.filterMap_nil,
        List.append_nil]
      exact List.filter_congr fun job hjob =>
        CleanupJob.isRetained_eq_not_isExpired hl (h.pending_ages job hjob)

/-- What a sweep finds expired are the registrations that it takes. -/
lemma expired_after (hl : lifetime.isNaN = false) (h : Orderly lifetime fs calls) (now : Binary64)
    (more : List Call) : (after lifetime fs calls).cleanup.expired now =
      (taken lifetime (calls ++ .sweep now :: more) calls.length).filterMap
        (registered? (calls ++ .sweep now :: more)) := by
  have hsplit : calls ++ .sweep now :: more = calls ++ [.sweep now] ++ more := by simp
  have hchosen : ∀ i job, registered? calls i = some job →
      decide (∃ job' ∈ registered? calls i, (Call.sweep now).expires lifetime job' = true) =
        job.isExpired lifetime now := by
    intro i job hjob
    simp [hjob, Call.expires]
  rw [hsplit, taken_append (by simp), taken_last, List.append_assoc, filterMap_outstanding hchosen,
    ← pending_after hl h, Cleanup.expired, lifetime_after]

/-- All registrations are accounted for by number. -/
lemma balance (hl : lifetime.isNaN = false) (h : Orderly lifetime fs calls) :
    ∃ counts : List ℕ, (after lifetime fs calls).answers = counts.map .ok ∧
      (registrations calls).length =
        (after lifetime fs calls).cleanup.pending.length + counts.sum := by
  induction calls using List.reverseRecOn with
  | nil => exact ⟨[], rfl, rfl⟩
  | append_singleton calls call ih =>
    obtain ⟨counts, hanswers, hcount⟩ := ih h.of_append
    rw [after_concat, registrations, List.filterMap_append, List.length_append]
    cases call with
    | register job =>
      refine ⟨counts, hanswers, ?_⟩
      show (registrations calls).length + 1 =
        ((after lifetime fs calls).cleanup.pending ++ [job]).length + counts.sum
      rw [List.length_append, List.length_singleton]
      omega
    | sweep now =>
      obtain ⟨files, hsweep⟩ := perform_sweep h.of_append.pending_clean now
      have hl' : (after lifetime fs calls).cleanup.lifetime.isNaN = false := by rwa [lifetime_after]
      have hparts := length_retained_add_expired hl' h.pending_ages
      refine ⟨counts ++ [((after lifetime fs calls).cleanup.expired now).length], ?_, ?_⟩
      · rw [hsweep, hanswers, List.map_append]
        rfl
      · rw [hsweep, List.sum_append, List.sum_singleton]
        show (registrations calls).length + 0 = _
        dsimp only
        omega

/-- Everything that was registered is accounted for. -/
structure Sound (lifetime : Binary64) (fs : FileSystem) (calls : List Call) : Prop where
  /-- Pending are, in order, the jobs that no sweep has found expired since they were registered. -/
  pending : (after lifetime fs calls).cleanup.pending =
    (outstanding lifetime calls).filterMap (registered? calls)
  /-- A sweep removes the files of the jobs that it takes. -/
  removed : ∀ j now, calls[j]? = some (.sweep now) →
    ((after lifetime fs (calls.take j)).cleanup.sweep now).2 = do
      removeJobs ((taken lifetime calls j).filterMap (registered? calls))
      return (taken lifetime calls j).length
  /-- A sweep comes to an end and returns how many it has taken. -/
  returned : ∀ j now, calls[j]? = some (.sweep now) →
    (after lifetime fs (calls.take (j + 1))).answers =
      (after lifetime fs (calls.take j)).answers ++ [.ok (taken lifetime calls j).length]
  /-- What is not outstanding has been taken by one sweep and no other. -/
  once : ∀ i job, registered? calls i = some job →
    (i ∈ outstanding lifetime calls ∧ ∀ j, i ∉ taken lifetime calls j) ∨
      i ∉ outstanding lifetime calls ∧ ∃! j, i ∈ taken lifetime calls j
  /-- The numbers add up. -/
  balance : ∃ counts : List ℕ, (after lifetime fs calls).answers = counts.map .ok ∧
    (registrations calls).length =
      (after lifetime fs calls).cleanup.pending.length + counts.sum
  /-- A second sweep at the same time returns zero and changes nothing. -/
  again : ∀ now, let swept := (after lifetime fs calls).perform (.sweep now)
    swept.perform (.sweep now) = { swept with answers := swept.answers ++ [.ok 0] }

/-- Sweeping takes the expired registrations, and comes to an end. -/
lemma sweep_after (hl : lifetime.isNaN = false) (h : Orderly lifetime fs calls)
    (hj : calls[j]? = some (.sweep now)) :
    (after lifetime fs (calls.take j)).cleanup.expired now =
        (taken lifetime calls j).filterMap (registered? calls) ∧
      ((taken lifetime calls j).filterMap (registered? calls)).length =
        (taken lifetime calls j).length ∧
      (after lifetime fs (calls.take (j + 1))).answers =
        (after lifetime fs (calls.take j)).answers ++
          [.ok ((after lifetime fs (calls.take j)).cleanup.expired now).length] := by
  obtain ⟨hlt, hcall⟩ := List.getElem?_eq_some_iff.1 hj
  have hsplit : calls.take j ++ .sweep now :: calls.drop (j + 1) = calls := by
    rw [← hcall, ← List.drop_eq_getElem_cons hlt, List.take_append_drop]
  have hbefore : Orderly lifetime fs (calls.take j) := by
    rw [← hsplit] at h
    exact h.of_append
  refine ⟨?_, ?_, ?_⟩
  · have hexpired := expired_after hl hbefore now (calls.drop (j + 1))
    rwa [hsplit, List.length_take_of_le hlt.le] at hexpired
  · refine List.filterMap_length_eq_length.2 fun i hi => ?_
    obtain ⟨-, job, hjob, -⟩ := (mem_taken.1 hi).1
    rw [Option.mem_def.1 hjob]
    rfl
  · obtain ⟨files, hsweep⟩ := perform_sweep hbefore.pending_clean now
    rw [List.take_succ_eq_append_getElem hlt, hcall, after_concat, hsweep]

end Custody

/-- In every run of a registry each registration is outstanding or has been taken by exactly
one sweep. -/
theorem custody_sound (lifetime : Binary64) (fs : FileSystem) (calls : List Call)
    (hl : lifetime.isNaN = false) (h : Orderly lifetime fs calls) :
    Custody.Sound lifetime fs calls where
  pending := Custody.pending_after hl h
  removed j now hj := by
    obtain ⟨hexpired, hlength, -⟩ := Custody.sweep_after hl h hj
    rw [Cleanup.sweep, hexpired, hlength]
  returned j now hj := by
    obtain ⟨hexpired, hlength, hanswers⟩ := Custody.sweep_after hl h hj
    rw [hanswers, hexpired, hlength]
  once i job hi := outstanding_or_taken (by rw [hi]; rfl)
  balance := Custody.balance hl h
  again := Custody.perform_sweep_again _

/-- Two registrations of the same job, with a sweep between them and the clock set back. -/
theorem custody_sound_repeated :
    let lifetime := Binary64.ofInt 10
    let job : CleanupJob := ⟨"u/a", some "e/a", .ofInt 0⟩
    let files := FileSystem.empty [] ⟨0⟩
    let calls :=
      [.register job, .sweep (.ofInt 10), .register job, .sweep (.ofInt 5), .register job,
      .sweep (.ofInt 12)]
    lifetime.isNaN = false ∧ Orderly lifetime files calls ∧ Custody.Sound lifetime files calls := by
  intro lifetime job files calls
  have hlifetime : lifetime.isNaN = false := by decide +kernel
  have hpaths : ∀ job ∈ registrations calls, job.Clean := by decide +kernel
  have hages : ∀ now ∈ [Binary64.ofInt 10, .ofInt 5, .ofInt 12], ∀ job ∈ registrations calls,
      (job.age now).isNaN = false := by
    decide +kernel
  have horderly : Orderly lifetime files calls :=
    .of_ages hpaths fun now hnow => hages now (by simpa [calls] using hnow)
  exact ⟨hlifetime, horderly, custody_sound lifetime files calls hlifetime horderly⟩

end SourceAtlas
