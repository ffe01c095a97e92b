import Mathlib.Data.List.Basic

/-!
When a schedule fires: `TimeMatcher` of `src/scheduler/crontab.ts`, with the six expressions that `convertExpression`
makes of a crontab. Whether an instant matches depends on the second it lies in. `nextWakeupTime` tries the instants
that follow in steps of a second, keeps the milliseconds of the one it starts from, and gives up after
3599 of them, so that whoever looks for the next firing has to ask again from there.
-/
namespace Dbos.Crontab

/-- What a `Date` says about an instant; `month` counts from 0. -/
structure DateFields where
  seconds : Nat
  minutes : Nat
  hours : Nat
  date : Nat
  month : Nat
  day : Nat
  deriving DecidableEq

/-- The fields of instants in the time zone of the schedule. The milliseconds are a field of their own. -/
structure Calendar where
  fields : Int → DateFields
  whole : ∀ msec, fields msec = fields (msec - msec % 1000)

/-- `pattern.indexOf(',') !== -1` decides whether the pattern is a list. -/
def matchPattern (pattern : String) (nvalue : Nat) : Bool :=
  let value := (toString nvalue).toList
  if ',' ∈ pattern.toList then (pattern.toList.splitOn ',').contains value else pattern.toList = value

/-- The expressions for second, minute, hour, day of the month, month and day of the week. -/
structure TimeMatcher where
  calendar : Calendar
  second : String
  minute : String
  hour : String
  dayOfMonth : String
  month : String
  weekDay : String

namespace TimeMatcher
variable (m : TimeMatcher)

def runsThisDay (date : DateFields) : Bool :=
  let runOnDay := matchPattern m.dayOfMonth date.date
  let runOnMonth := matchPattern m.month (date.month + 1)
  let runOnWeekDay := matchPattern m.weekDay date.day
  runOnDay && runOnMonth && runOnWeekDay

def match_ (msec : Int) : Bool :=
  let date := m.calendar.fields msec
  let runOnSecond := matchPattern m.second date.seconds
  let runOnMinute := matchPattern m.minute date.minutes
  let runOnHour := matchPattern m.hour date.hours
  let runOnDay := m.runsThisDay date
  runOnSecond && runOnMinute && runOnHour && runOnDay

/-- The loop of `nextWakeupTime`, for the iterations that are left. -/
def wakeup : Nat → Int → Int
  | 0,msec => msec
  | iters + 1,msec => if m.match_ (msec + 1000) then msec + 1000 else wakeup iters (msec + 1000)

/-- `for (let maxIters = 3600; --maxIters; ...)`. -/
def nextWakeupTime (time : Int) : Int := m.wakeup 3599 time

end TimeMatcher

/-! ### Seconds -/

/-- The second in which an instant lies. -/
def secondOf (msec : Int) : Int := msec - msec % 1000

@[simp] theorem secondOf_whole (msec : Int) : secondOf msec % 1000 = 0 := by
  unfold secondOf
  omega

theorem secondOf_eq_self {msec : Int} : secondOf msec = msec ↔ msec % 1000 = 0 := by
  unfold secondOf
  omega

theorem secondOf_le (msec : Int) : secondOf msec ≤ msec := by
  unfold secondOf
  omega

variable {m : TimeMatcher}

/-- An instant matches with its second. -/
theorem match_secondOf (msec : Int) : m.match_ (secondOf msec) = m.match_ msec := by
  unfold TimeMatcher.match_
  rw [m.calendar.whole msec]
  rfl

/-- What `nextWakeupTime` finds: the first match at a distance of whole seconds, or a later instant before which
    nothing matches. -/
structure Wakes (m : TimeMatcher) (time next : Int) : Prop where
  phase : next % 1000 = time % 1000
  later : time + 1000 ≤ next
  skipped : ∀ t, time < t → t < next → t % 1000 = time % 1000 → m.match_ t = false

theorem wakeup_succ (iters : Nat) (time : Int) : Wakes m time (m.wakeup (iters + 1) time) := by
  induction iters generalizing time with
  | zero =>
    have next : m.wakeup 1 time = time + 1000 := by simp [TimeMatcher.wakeup]
    rw [next]
    refine ⟨by omega,Int.le_refl _,?_⟩
    intro t after before phase
    omega
  | succ iters ih =>
    by_cases here : m.match_ (time + 1000) = true
    · have next : m.wakeup (iters + 1 + 1) time = time + 1000 := by simp [TimeMatcher.wakeup,here]
      rw [next]
      refine ⟨by omega,Int.le_refl _,?_⟩
      intro t after before phase
      omega
    · have next : m.wakeup (iters + 1 + 1) time = m.wakeup (iters + 1) (time + 1000) := by
        rw [TimeMatcher.wakeup,if_neg here]
      rw [next]
      obtain ⟨phase,later,skipped⟩ := ih (time + 1000)
      refine ⟨by omega,by omega,?_⟩
      intro t after before same
      by_cases first : t = time + 1000
      · rw [first]
        simpa using here
      · exact skipped t (by omega) before (by omega)

theorem nextWakeupTime_wakes (time : Int) : Wakes m time (m.nextWakeupTime time) := wakeup_succ 3598 time

end Dbos.Crontab
