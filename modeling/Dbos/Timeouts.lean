import Dbos.Pg.Run
import Dbos.Pg.Timer

/-!
The timeouts of workflows and steps. `callPromiseWithTimeout` races the workflow function against
one timer that is set for what is left until the deadline, and cancels the workflow when the timer
is first; an attempt of a step is raced against one timer that is set for `timeoutMS`. Neither
timer is set again when it has fired, and neither delay is compared with what a timer can wait.
-/
namespace Dbos.Timeouts
open Dbos.Pg

/-! ### Workflows -/

/-- Where `callPromiseWithTimeout` stands; `awaited` is `callPromise.catch(() => {})`. -/
inductive CallPhase
  | racing
  | timedOut
  | awaited
  | settled
  deriving DecidableEq

/-- The call of a workflow function. Without a deadline its promise is returned as it is. -/
structure Call where
  deadlineEpochMS : Option ℚ
  calledAt : ℚ
  now : ℚ := calledAt
  phase : CallPhase := .racing
  cancelledAt : Option ℚ := none

inductive CallEvent
  -- `callPromise` settles
  | settles
  | fires
  -- `cancelWorkflows` commits
  | cancels
  | cancelFails

/-- What happens at a time; the clock does not go back. -/
def Call.step (s : Call) : CallEvent × ℚ → Option Call
  | (event,t) =>
    if t < s.now then none
    else
      match event,s.phase with
      | .settles,.racing => some { s with now := t,phase := .settled }
      | .fires,.racing =>
        match s.deadlineEpochMS with
        | some deadlineEpochMS =>
          if MayFire (deadlineEpochMS - s.calledAt) (t - s.calledAt) then some { s with now := t,phase := .timedOut } else none
        | none => none
      | .cancels,.timedOut => some { s with now := t,phase := .awaited,cancelledAt := some t }
      | .cancelFails,.timedOut => some { s with now := t,phase := .settled }
      | .settles,.awaited => some { s with now := t,phase := .settled }
      | _,_ => none

/-- The workflow is not cancelled by its call before its deadline. -/
def CallNeverEarly (deadlineEpochMS : Option ℚ) (calledAt : ℚ) : Prop :=
  ∀ events s,Runs Call.step { deadlineEpochMS := deadlineEpochMS,calledAt := calledAt } events s →
    ∀ t ∈ s.cancelledAt,∀ deadline ∈ deadlineEpochMS,deadline ≤ t

structure CallTimely (deadlineEpochMS : Option ℚ) (calledAt : ℚ) (s : Call) : Prop where
  deadline : s.deadlineEpochMS = deadlineEpochMS
  calledAt : s.calledAt = calledAt
  late : s.phase = .timedOut → ∀ deadline ∈ deadlineEpochMS,deadline ≤ s.now
  cancelled : ∀ t ∈ s.cancelledAt,∀ deadline ∈ deadlineEpochMS,deadline ≤ t

theorem call_step_timely {deadlineEpochMS : Option ℚ} {calledAt : ℚ} (fits : ∀ deadline ∈ deadlineEpochMS,deadline - calledAt ≤ maxDelay)
    {s s' : Call} {event : CallEvent × ℚ} (timely : CallTimely deadlineEpochMS calledAt s) (taken : s.step event = some s') :
    CallTimely deadlineEpochMS calledAt s' := by
  obtain ⟨event,t⟩ := event
  obtain ⟨rfl,rfl,late,cancelled⟩ := timely
  simp only [Call.step] at taken
  split at taken
  · cases taken
  · rename_i onward
    split at taken
    · cases taken
      exact ⟨rfl,rfl,by simp,cancelled⟩
    · split at taken
      · rename_i deadline limit
        split at taken
        · rename_i fires
          cases taken
          refine ⟨rfl,rfl,fun _ deadline' same => ?_,cancelled⟩
          cases limit.symm.trans same
          have reached := mayFire_late (fits deadline limit) fires
          dsimp only
          linarith
        · cases taken
      · cases taken
    · rename_i timedOut
      cases taken
      refine ⟨rfl,rfl,by simp,fun at' here deadline limit => ?_⟩
      cases here
      exact (late timedOut deadline limit).trans (not_lt.mp onward)
    · cases taken
      exact ⟨rfl,rfl,by simp,cancelled⟩
    · cases taken
      exact ⟨rfl,rfl,by simp,cancelled⟩
    · cases taken

theorem callNeverEarly_iff (deadlineEpochMS : Option ℚ) (calledAt : ℚ) :
    CallNeverEarly deadlineEpochMS calledAt ↔ ∀ deadline ∈ deadlineEpochMS,deadline - calledAt ≤ maxDelay := by
  constructor
  · intro never deadline limit
    by_contra long
    cases limit
    have early : maxDelay < deadline - calledAt := not_le.mp long
    have fires := mayFire_early early
    have run : Runs Call.step { deadlineEpochMS := some deadline,calledAt := calledAt } [(.fires,calledAt + 1),(.cancels,calledAt + 1)]
        ⟨some deadline,calledAt,calledAt + 1,.awaited,some (calledAt + 1)⟩ := by
      refine runs_cons.mpr ⟨⟨some deadline,calledAt,calledAt + 1,.timedOut,none⟩,?_,runs_cons.mpr ⟨_,?_,runs_nil.mpr rfl⟩⟩
      · simp [Call.step,fires]
      · simp [Call.step]
    have late := never _ _ run (calledAt + 1) rfl deadline rfl
    have : (1 : ℚ) ≤ maxDelay := by norm_num [maxDelay]
    linarith
  · intro fits events s run
    have start : CallTimely deadlineEpochMS calledAt { deadlineEpochMS := deadlineEpochMS,calledAt := calledAt } :=
      ⟨rfl,rfl,by simp,by simp⟩
    exact (runs_invariant (fun s event s' timely taken => call_step_timely fits timely taken) start run).cancelled

/-! ### Steps -/

structure StepConfig where
  retriesAllowed : Bool := false
  intervalSeconds : Option ℚ := none
  maxAttempts : Option Nat := none
  backoffRate : Option ℚ := none
  timeoutMS : Option ℚ := none

def maxRetryIntervalSec : ℚ := 3600

/-- `maxAttempts ?? 3`; a step without retries has one attempt. -/
def StepConfig.attempts (config : StepConfig) : Nat := if config.retriesAllowed then config.maxAttempts.getD 3 else 1

/-- An attempt that has failed; `timedOut` tells that it was by `DBOSStepTimeoutError` of its timer. -/
structure Attempt where
  startedAt : ℚ
  failedAt : ℚ
  timedOut : Bool

inductive StepPhase
  -- at the condition of the loop
  | ready
  | attempting (startedAt : ℚ)
  | sleeping (since : ℚ)
  | over
  deriving DecidableEq

/-- A call of `callStepFunction`, from its first attempt on. -/
structure StepCall where
  now : ℚ
  attemptNum : Nat := 0
  intervalSeconds : ℚ
  phase : StepPhase := .ready
  failures : List Attempt := []

inductive StepEvent
  -- `checkIfCanceled`, and the start of an attempt
  | attempts
  | cancelled
  | succeeds
  -- the function throws, or the timer of the attempt fires
  | fails (timedOut shouldRetry : Bool)
  | wakes

section Step
variable (config : StepConfig)

def StepConfig.call (now : ℚ) : StepCall where
  now := now
  intervalSeconds := config.intervalSeconds.getD 1

/-- The `catch` of the loop. -/
def StepCall.failed (s : StepCall) (t startedAt : ℚ) (timedOut shouldRetry : Bool) : StepCall :=
  { s with
    now := t
    failures := s.failures ++ [⟨startedAt,t,timedOut⟩]
    phase := if config.retriesAllowed ∧ shouldRetry ∧ s.attemptNum < config.attempts then .sleeping t else .over }

def StepCall.step (s : StepCall) : StepEvent × ℚ → Option StepCall
  | (event,t) =>
    if t < s.now then none
    else
      match event,s.phase with
      | .attempts,.ready =>
        if s.attemptNum < config.attempts then some { s with now := t,attemptNum := s.attemptNum + 1,phase := .attempting t } else none
      | .cancelled,.ready => some { s with now := t,phase := .over }
      | .succeeds,.attempting _ => some { s with now := t,phase := .over }
      | .fails timedOut shouldRetry,.attempting startedAt =>
        if timedOut = true → ∃ timeoutMS ∈ config.timeoutMS,MayFire timeoutMS (t - startedAt) then
          some (s.failed config t startedAt timedOut shouldRetry)
        else none
      | .wakes,.sleeping since =>
        if MayFire (s.intervalSeconds * 1000) (t - since) then
          some { s with
            now := t
            phase := .ready
            intervalSeconds := min (s.intervalSeconds * config.backoffRate.getD 2) maxRetryIntervalSec }
        else none
      | _,_ => none

/-- No attempt fails by its timeout before that has elapsed. -/
def StepNeverEarly : Prop :=
  ∀ now events s,Runs (StepCall.step config) (config.call now) events s →
    ∀ attempt ∈ s.failures,attempt.timedOut = true → ∀ timeoutMS ∈ config.timeoutMS,timeoutMS ≤ attempt.failedAt - attempt.startedAt

variable {config}

theorem step_call_timely (fits : ∀ timeoutMS ∈ config.timeoutMS,timeoutMS ≤ maxDelay) {s s' : StepCall} {event : StepEvent × ℚ}
    (timely : ∀ attempt ∈ s.failures,attempt.timedOut = true → ∀ timeoutMS ∈ config.timeoutMS,timeoutMS ≤ attempt.failedAt - attempt.startedAt)
    (taken : s.step config event = some s') :
    ∀ attempt ∈ s'.failures,attempt.timedOut = true → ∀ timeoutMS ∈ config.timeoutMS,timeoutMS ≤ attempt.failedAt - attempt.startedAt := by
  obtain ⟨event,t⟩ := event
  simp only [StepCall.step] at taken
  split at taken
  · cases taken
  · split at taken
    · split at taken
      · cases taken; exact timely
      · cases taken
    · cases taken; exact timely
    · cases taken; exact timely
    · rename_i timedOut shouldRetry startedAt _
      split at taken
      · rename_i fired
        cases taken
        intro attempt member out timeoutMS limit
        rcases List.mem_append.mp member with old | new
        · exact timely attempt old out timeoutMS limit
        · cases List.mem_singleton.mp new
          obtain ⟨timeoutMS',limit',fires⟩ := fired out
          cases limit.symm.trans limit'
          exact mayFire_late (fits timeoutMS limit) fires
      · cases taken
    · split at taken
      · cases taken; exact timely
      · cases taken
    · cases taken

/-- A step without attempts has none that fails. -/
theorem no_attempt (none : config.attempts = 0) {s s' : StepCall} {event : StepEvent × ℚ}
    (idle : s.failures = [] ∧ ∀ startedAt,s.phase ≠ .attempting startedAt) (taken : s.step config event = some s') :
    s'.failures = [] ∧ ∀ startedAt,s'.phase ≠ .attempting startedAt := by
  obtain ⟨event,t⟩ := event
  simp only [StepCall.step,none,Nat.not_lt_zero,if_false] at taken
  split at taken
  · cases taken
  · split at taken
    · cases taken
    · cases taken; exact ⟨idle.1,by simp⟩
    · rename_i attempting
      exact absurd attempting (idle.2 _)
    · rename_i attempting
      exact absurd attempting (idle.2 _)
    · split at taken
      · cases taken; exact ⟨idle.1,by simp⟩
      · cases taken
    · cases taken

theorem stepNeverEarly_iff : StepNeverEarly config ↔ config.attempts = 0 ∨ ∀ timeoutMS ∈ config.timeoutMS,timeoutMS ≤ maxDelay := by
  constructor
  · intro never
    by_contra neither
    obtain ⟨some',long⟩ := not_or.mp neither
    push Not at long
    obtain ⟨timeoutMS,limit,long⟩ := long
    have fires : ∃ timeoutMS ∈ config.timeoutMS,MayFire timeoutMS (1 - 0) := ⟨timeoutMS,limit,by simpa using mayFire_early long⟩
    have run : Runs (StepCall.step config) (config.call 0) [(.attempts,0),(.fails true false,1)]
        ⟨1,1,config.intervalSeconds.getD 1,.over,[⟨0,1,true⟩]⟩ := by
      refine runs_cons.mpr ⟨⟨0,1,config.intervalSeconds.getD 1,.attempting 0,[]⟩,?_,runs_cons.mpr ⟨_,?_,runs_nil.mpr rfl⟩⟩
      · simp [StepCall.step,StepConfig.call,Nat.pos_of_ne_zero some']
      · simp only [StepCall.step]
        rw [if_neg (by norm_num),if_pos fun _ => fires]
        simp [StepCall.failed]
    have late := never 0 _ _ run ⟨0,1,true⟩ (by simp) rfl timeoutMS limit
    have : (1 : ℚ) ≤ maxDelay := by norm_num [maxDelay]
    dsimp only at late
    linarith
  · rintro (none | fits) now events s run
    · have idle := runs_invariant (fun s event s' idle taken => no_attempt none idle taken) ⟨rfl,by simp [StepConfig.call]⟩ run
      simp [idle.1]
    · exact runs_invariant (fun s event s' timely taken => step_call_timely fits timely taken) (by simp [StepConfig.call]) run

end Step

/-- A workflow is never cancelled by its call before its deadline exactly when a timer can wait for what
    is left until it, and an attempt never fails before its timeout exactly when a timer can wait for that. -/
theorem neverEarly_iff (deadlineEpochMS : Option ℚ) (calledAt : ℚ) (config : StepConfig) :
    (CallNeverEarly deadlineEpochMS calledAt ↔ ∀ deadline ∈ deadlineEpochMS,deadline - calledAt ≤ maxDelay) ∧
      (StepNeverEarly config ↔ config.attempts = 0 ∨ ∀ timeoutMS ∈ config.timeoutMS,timeoutMS ≤ maxDelay) :=
  ⟨callNeverEarly_iff deadlineEpochMS calledAt,stepNeverEarly_iff⟩

/-- A timeout of 25 days, of a workflow and of a step. -/
def days25 : ℚ := 2160000000

theorem days25_early :
    (([(.fires,1),(.cancels,2)].foldlM Call.step { deadlineEpochMS := some days25,calledAt := 0 }).map Call.cancelledAt) = some (some 2) ∧
    (([(.attempts,0),(.fails true false,1)].foldlM (StepCall.step { timeoutMS := some days25 }) (StepConfig.call { timeoutMS := some days25 } 0)).map
      fun s => s.failures.map fun attempt => (attempt.failedAt,attempt.timedOut)) = some [(1,true)] ∧
    ¬ ((∀ deadlineEpochMS calledAt,CallNeverEarly deadlineEpochMS calledAt) ∧
      ∀ config : StepConfig,(∀ timeoutMS ∈ config.timeoutMS,0 < timeoutMS) → StepNeverEarly config) := by
  have ran : (([(.fires,1),(.cancels,2)].foldlM Call.step { deadlineEpochMS := some days25,calledAt := 0 }).map Call.cancelledAt) =
      some (some 2) := by decide +kernel
  refine ⟨ran,by decide +kernel,fun claim => ?_⟩
  obtain ⟨s,run,cancelled⟩ := Option.map_eq_some_iff.mp ran
  have late := claim.1 (some days25) 0 _ s run 2 cancelled days25 rfl
  exact absurd late (by norm_num [days25])

end Dbos.Timeouts
