import SourceAtlas.Number.Binary64

/-!
# Schedulers

Periodic sweeps are left to a scheduler, which belongs to another library.  A `Scheduler` says what
it refuses to do: to take an interval, and to be shut down.  What can be relied upon is
`Scheduler.Documented`: an interval that is no span of time (`Interval.IsSpan`) is refused, and a
scheduler can be shut down if and only if it has been started.

`Scheduler.calendar` is one.  For it a sweep is due for the first time one interval from now, and it
takes an interval if that time lies in the calendar, which begins with the year 1 and ends with the
year 9999.  Zero and negative intervals are no exception.
-/

namespace SourceAtlas

/-- Why an interval cannot be used. -/
inductive IntervalFault
  | notANumber
  | infinite
  | uncountableDays
  | tooManyDays (days : Int)
  | outsideCalendar
deriving DecidableEq, Repr

/-- The wording of a fault. -/
def IntervalFault.message : IntervalFault → String
  | .notANumber => "cannot convert float NaN to integer"
  | .infinite => "cannot convert float infinity to integer"
  | .uncountableDays => "Python int too large to convert to C int"
  | .tooManyDays days => "days=" ++ toString days ++ "; must have magnitude <= 999999999"
  | .outsideCalendar => "date value out of range"

namespace Interval

/-- Seconds in units of the least positive double. -/
def secondsToUnits (seconds : Int) : Int :=
  seconds * Nat.pow 2 1074

/-- The whole days in an interval, rounded down. -/
def days (interval : Binary64) : Int :=
  Int.fdiv interval.units (secondsToUnits 86400)

/-- The greatest number of days that an interval may span. -/
def maxDays : Nat := 999999999

/-- A span of time: a number of seconds that makes up a number of days within the bound. -/
def IsSpan (interval : Binary64) : Prop :=
  interval.isNaN = false ∧ interval.isInfinite = false ∧ (days interval).natAbs ≤ maxDays

instance (interval : Binary64) : Decidable (IsSpan interval) :=
  inferInstanceAs (Decidable (_ ∧ _))

/-- The least and the greatest number of days that can be counted at all. -/
def countable (days : Int) : Bool :=
  -Nat.pow 2 31 ≤ days && days < Nat.pow 2 31

/-- The first second of the calendar, counted from the start of 1970. -/
def calendarStart : Int := -62135596800

/-- The first second after the calendar. -/
def calendarEnd : Int := 253402300800

/-- Whether the time one interval from now lies in the calendar. -/
def inCalendar (now interval : Binary64) : Bool :=
  let due := now.units + interval.units
  secondsToUnits calendarStart ≤ due && due < secondsToUnits calendarEnd

/-- What keeps an interval from being used with a calendar, if anything does. -/
def fault? (now interval : Binary64) : Option IntervalFault :=
  if interval.isNaN then some .notANumber
  else if interval.isInfinite then some .infinite
  else if !countable (days interval) then some .uncountableDays
  else if maxDays < (days interval).natAbs then some (.tooManyDays (days interval))
  else if !inCalendar now interval then some .outsideCalendar
  else none

/-- What can be used is a span of time. -/
theorem isSpan_of_fault?_eq_none {now interval : Binary64} (h : fault? now interval = none) :
    IsSpan interval := by
  unfold fault? at h
  split at h
  · cases h
  split at h
  · cases h
  split at h
  · cases h
  split at h
  · cases h
  · rename_i hnan hinfinite _ hdays
    exact ⟨by simpa using hnan, by simpa using hinfinite, by omega⟩

example : fault? (.ofInt 0) (.ofInt (-5)) = none ∧
    fault? (.ofInt 0) (.ofInt (10 ^ 14)) = some (.tooManyDays 1157407407) := by decide +kernel

end Interval

/-! ## Schedulers -/

/-- Why a scheduler is not shut down. -/
inductive StopFault
  | notStarted
deriving DecidableEq, Repr

/-- The wording of the fault. -/
def StopFault.message : StopFault → String
  | .notStarted => "Scheduler is not running"

/-- What a scheduler refuses: at a time to take an interval, and to be shut down, given whether it
has been started. -/
structure Scheduler where
  refusal? : (now interval : Binary64) → Option IntervalFault
  stopFault? : (started : Bool) → Option StopFault

namespace Scheduler

/-- What can be relied upon. -/
structure Documented (scheduler : Scheduler) : Prop where
  /-- An interval that is no span of time is refused. -/
  refused : ∀ now interval, ¬ Interval.IsSpan interval → scheduler.refusal? now interval ≠ none
  /-- A scheduler that has not been started cannot be shut down. -/
  notStarted : scheduler.stopFault? false = some .notStarted
  /-- One that has been started can. -/
  started : scheduler.stopFault? true = none

/-- A scheduler that takes the intervals whose first due time lies in the calendar. -/
def calendar : Scheduler where
  refusal? := Interval.fault?
  stopFault? started := if started then none else some .notStarted

theorem documented_calendar : calendar.Documented where
  refused _ _ h := mt Interval.isSpan_of_fault?_eq_none h
  notStarted := rfl
  started := rfl

end Scheduler

end SourceAtlas
