import Mathlib.Algebra.Order.Field.Rat
import Mathlib.Algebra.Order.Field.Basic
import Mathlib.Tactic.Ring

/-!
The retries of a step: `callStepFunction` of `src/dbos-executor.ts`, with the `StepConfig` of `src/step.ts`. An attempt is run against a timer,
the status of the workflow is looked at before every attempt, and the predicate of the configuration may refuse an error, or throw. A step
may throw nothing, and its result may be one that the serializer refuses. The intervals are exact numbers of seconds.
-/
namespace Dbos.StepRetry

/-! ### Capped growth -/

section
variable {α : Type} [Field α] [LinearOrder α] [IsStrictOrderedRing α] {x rate cap : α}

/-- What is capped at every turn is what is capped at the end. -/
theorem min_mul_min (positive : 0 ≤ cap) (grows : 1 ≤ rate) (n : Nat) : min (min (x * rate ^ n) cap * rate) cap = min (x * rate ^ (n + 1)) cap := by
  have next : x * rate ^ (n + 1) = x * rate ^ n * rate := by ring
  have larger : cap ≤ cap * rate := le_mul_of_one_le_right positive grows
  rw [next]
  rcases le_total (x * rate ^ n) cap with below | above
  · rw [min_eq_left below]
  · have more : cap * rate ≤ x * rate ^ n * rate := mul_le_mul_of_nonneg_right above (zero_le_one.trans grows)
    rw [min_eq_right above,min_eq_right larger,min_eq_right (larger.trans more)]

end

/-! ### Steps -/

/-- The errors that a step throws or that are thrown for it. -/
inductive StepError (E : Type)
  | thrown (error : E)
  | stepTimeout (stepName : String) (timeoutMS : ℚ)
  | maxStepRetries (stepName : String) (maxRetries : Nat) (errors : List (StepError E))
  | workflowCancelled (workflowID : String)
  | unexpectedStep (workflowID : String) (functionID : Nat) (expectedName recordedName : String)
  | typeError

/-- A configuration that `validateStepConfig` lets through. The predicate may answer otherwise from attempt to attempt. -/
structure StepConfig (E : Type) where
  retriesAllowed : Bool
  intervalSeconds : Option ℚ
  maxAttempts : Option Nat
  backoffRate : Option ℚ
  shouldRetry : Option (Nat → StepError E → Except (StepError E) Bool)
  timeoutMS : Option ℚ
  valid : ∀ ms ∈ timeoutMS,0 < ms

/-- How a call of the step function settles, and whether the timer has fired by then. -/
structure Settled (V E : Type) where
  result : Except E V
  late : Bool

structure Checkpoint (V E : Type) where
  functionName : Option String
  result : Except (StepError E) V

/-- A call with what happens to it: how the attempts settle, what each look at the status of the workflow finds, the checkpoint that is
    there already, which errors are `undefined` or `null`, and what the serializer throws instead of writing a result. -/
structure Call (V E : Type) where
  stepFnName : String
  workflowID : String
  functionID : Nat
  stepConfig : StepConfig E
  stepFn : Nat → Settled V E
  cancelled : Nat → Bool
  checkpoint : Option (Checkpoint V E)
  nothing : E → Bool
  refuses : Except (StepError E) V → Option (StepError E)

inductive Event (V E : Type)
  | attempt (result : Except (StepError E) V)
  | wait (seconds : ℚ)
  | record (result : Except (StepError E) V)

structure Run (V E : Type) where
  events : List (Event V E)
  outcome : Except (StepError E) V

variable {V E : Type}

def Run.after (run : Run V E) (event : Event V E) : Run V E := { run with events := event :: run.events }

def maxRetryIntervalSec : ℚ := 3600

namespace Call
variable (c : Call V E)

def maxAttempts : Nat := c.stepConfig.maxAttempts.getD 3

def intervalSeconds : ℚ := c.stepConfig.intervalSeconds.getD 1

def backoffRate : ℚ := c.stepConfig.backoffRate.getD 2

/-- The attempt, or its timer, whichever is first. -/
def invokeStepAttempt (attemptNum : Nat) : Except (StepError E) V :=
  match c.stepConfig.timeoutMS with
  | none => (c.stepFn attemptNum).result.mapError .thrown
  | some timeoutMS =>
    if (c.stepFn attemptNum).late then .error (.stepTimeout c.stepFnName timeoutMS) else (c.stepFn attemptNum).result.mapError .thrown

def shouldRetry (attemptNum : Nat) (e : StepError E) : Except (StepError E) Bool :=
  match c.stepConfig.shouldRetry with
  | none => .ok true
  | some shouldRetry => shouldRetry attemptNum e

/-- `checkIfCanceled` throws. -/
def stopped : Run V E := ⟨[],.error (.workflowCancelled c.workflowID)⟩

/-- An error without properties. -/
def nullish : StepError E → Bool
  | .thrown e => c.nothing e
  | _ => false

/-- The stack of an error that has none is to be logged. -/
def crashed : Run V E := ⟨[],.error .typeError⟩

/-- The result is written and recorded, then returned or thrown. The message of an error is read after it has been recorded. -/
def finished (result : Except (StepError E) V) : Run V E :=
  match c.refuses result with
  | some e => ⟨[],.error e⟩
  | none =>
    match result with
    | .ok value => ⟨[.record (.ok value)],.ok value⟩
    | .error e => ⟨[.record (.error e)],.error (if c.nullish e then .typeError else e)⟩

def nextInterval (intervalSeconds : ℚ) : ℚ :=
  let intervalSeconds := intervalSeconds * c.backoffRate
  if intervalSeconds < maxRetryIntervalSec then intervalSeconds else maxRetryIntervalSec

/-- The `while` loop, and what follows it. -/
def retryLoop (attemptNum : Nat) (intervalSeconds : ℚ) (errors : List (StepError E)) : Run V E :=
  if attemptNum < c.maxAttempts then
    -- two looks at the status come before those of the loop
    if c.cancelled (attemptNum + 2) then c.stopped
    else
      match c.invokeStepAttempt (attemptNum + 1) with
      | .ok result => (c.finished (.ok result)).after (.attempt (.ok result))
      | .error e =>
        match c.shouldRetry (attemptNum + 1) e with
        | .ok false =>
          -- the error that logging the stack throws is caught as the predicate's, and then the message is read
          if c.nullish e then crashed.after (.attempt (.error e)) else (c.finished (.error e)).after (.attempt (.error e))
        | .error retryError =>
          if c.nullish e ∨ c.nullish retryError then crashed.after (.attempt (.error e))
          else (c.finished (.error retryError)).after (.attempt (.error e))
        | .ok true =>
          if c.nullish e then crashed.after (.attempt (.error e))
          else if attemptNum + 1 < c.maxAttempts then
            ((retryLoop (attemptNum + 1) (c.nextInterval intervalSeconds) (errors ++ [e])).after (.wait intervalSeconds)).after (.attempt (.error e))
          else (retryLoop (attemptNum + 1) intervalSeconds (errors ++ [e])).after (.attempt (.error e))
  else c.finished (.error (.maxStepRetries c.stepFnName c.maxAttempts errors))
termination_by c.maxAttempts - attemptNum

def callStepFunction : Run V E :=
  if c.cancelled 0 then c.stopped
  else if c.cancelled 1 then c.stopped
  else
    match c.checkpoint with
    | some checkr =>
      if checkr.functionName ≠ some c.stepFnName then
        ⟨[],.error (.unexpectedStep c.workflowID c.functionID c.stepFnName (checkr.functionName.getD "?"))⟩
      else ⟨[],checkr.result⟩
    | none =>
      if c.stepConfig.retriesAllowed then c.retryLoop 0 c.intervalSeconds []
      else (c.finished (c.invokeStepAttempt 1)).after (.attempt (c.invokeStepAttempt 1))

/-! ### The contract -/

/-- The attempt fails, and its error is to be retried. -/
def GoesOn (n : Nat) : Prop := ∃ e,c.invokeStepAttempt n = .error e ∧ c.shouldRetry n e = .ok true

/-- What an attempt comes to: its value or its error, or the error of the predicate that has been asked. -/
def comesTo (n : Nat) : Except (StepError E) V :=
  match c.invokeStepAttempt n with
  | .ok result => .ok result
  | .error e =>
    match c.shouldRetry n e with
    | .ok _ => .error e
    | .error retryError => .error retryError

/-- The errors of the first attempts, in their order. -/
def errorsUpTo : Nat → List (StepError E)
  | 0 => []
  | n + 1 =>
    match c.invokeStepAttempt (n + 1) with
    | .ok _ => errorsUpTo n
    | .error e => errorsUpTo n ++ [e]

/-- The first attempts with the waits between them. -/
def tries (wait : Nat → ℚ) : Nat → List (Event V E)
  | 0 => []
  | 1 => [.attempt (c.invokeStepAttempt 1)]
  | n + 2 => tries wait (n + 1) ++ [.wait (wait (n + 1)),.attempt (c.invokeStepAttempt (n + 2))]

/-- How the retries end after so many attempts: a look finds the workflow cancelled, which may be after one more wait, or the last attempt
    is not to be retried, or there are no attempts left. -/
inductive Ending (wait : Nat → ℚ) (k : Nat) : List (Event V E) → Prop
  | cancelled (left : k < c.maxAttempts) (goesOn : 1 ≤ k → c.GoesOn k) (seen : c.cancelled (k + 2) = true) :
      Ending wait k (c.tries wait k ++ if k = 0 then [] else [.wait (wait k)])
  | stopped (some_ : 1 ≤ k) (stops : ¬ c.GoesOn k) : Ending wait k (c.tries wait k ++ [.record (c.comesTo k)])
  | exhausted (all : k = c.maxAttempts) (goesOn : 1 ≤ k → c.GoesOn k) :
      Ending wait k (c.tries wait k ++ [.record (.error (.maxStepRetries c.stepFnName c.maxAttempts (c.errorsUpTo k)))])

/-- There are so many attempts, of which none follows a success, an error that is not retried or a look that finds the workflow cancelled. -/
structure Retries (wait : Nat → ℚ) (events : List (Event V E)) (k : Nat) : Prop where
  bound : k ≤ c.maxAttempts
  goesOn : ∀ i,1 ≤ i → i < k → c.GoesOn i
  running : ∀ i,1 ≤ i → i ≤ k → c.cancelled (i + 1) = false
  ending : c.Ending wait k events

/-- The wait after so many attempts. -/
def backoff (i : Nat) : ℚ := min (c.intervalSeconds * c.backoffRate ^ (i - 1)) maxRetryIntervalSec

/-- The call stops when the workflow is cancelled and when there is a checkpoint already. Otherwise there is one attempt, or there are
    retries with the waits that grow up to their cap. -/
def Contract : Prop :=
  if c.cancelled 0 = true ∨ c.cancelled 1 = true ∨ c.checkpoint ≠ none then c.callStepFunction.events = []
  else if c.stepConfig.retriesAllowed = false then
    c.callStepFunction.events = [.attempt (c.invokeStepAttempt 1),.record (c.invokeStepAttempt 1)]
  else ∃ k,c.Retries c.backoff c.callStepFunction.events k

/-! ### What is lost -/

/-- So many attempts are made if nothing is lost before. -/
structure Reaches (k : Nat) : Prop where
  bound : k ≤ c.maxAttempts
  goesOn : ∀ i,1 ≤ i → i < k → c.GoesOn i
  running : ∀ i,1 ≤ i → i ≤ k → c.cancelled (i + 1) = false

/-- The attempt fails with nothing, or the predicate does when it is asked. -/
def Unreadable (n : Nat) : Prop :=
  ∃ e,c.invokeStepAttempt n = .error e ∧ (c.nullish e = true ∨ ∃ retryError,c.shouldRetry n e = .error retryError ∧ c.nullish retryError = true)

/-- Nothing is lost after so many attempts: errors can be logged, and the serializer takes what the retries end with there. -/
structure RecordedAt (k : Nat) : Prop where
  readable : 1 ≤ k → ¬ c.Unreadable k
  stopped : 1 ≤ k → ¬ c.GoesOn k → c.refuses (c.comesTo k) = none
  exhausted : k = c.maxAttempts → (1 ≤ k → c.GoesOn k) → c.refuses (.error (.maxStepRetries c.stepFnName c.maxAttempts (c.errorsUpTo k))) = none

/-- What the call comes to can be recorded. -/
def Recordable : Prop :=
  if c.cancelled 0 = true ∨ c.cancelled 1 = true ∨ c.checkpoint ≠ none then True
  else if c.stepConfig.retriesAllowed = false then c.refuses (c.invokeStepAttempt 1) = none
  else ∀ k,c.Reaches k → c.RecordedAt k

/-! ### The waits of the loop -/

/-- The wait after so many attempts, of which the first is not capped. -/
def waited (i : Nat) : ℚ := if i = 1 then c.intervalSeconds else c.backoff i

variable {c : Call V E}

theorem nextInterval_eq (seconds : ℚ) : c.nextInterval seconds = min (seconds * c.backoffRate) maxRetryIntervalSec := by
  unfold nextInterval
  dsimp only
  rcases lt_or_ge (seconds * c.backoffRate) maxRetryIntervalSec with less | more
  · rw [if_pos less,min_eq_left less.le]
  · rw [if_neg (not_lt.mpr more),min_eq_right more]

/-- Each interval grows from the one before. -/
theorem nextInterval_waited (grows : 1 ≤ c.backoffRate) (n : Nat) : c.nextInterval (c.waited (n + 1)) = c.waited (n + 2) := by
  have next : c.waited (n + 2) = c.backoff (n + 2) := if_neg (by omega)
  rw [nextInterval_eq,next]
  cases n with
  | zero =>
    change min (c.intervalSeconds * c.backoffRate) maxRetryIntervalSec = min (c.intervalSeconds * c.backoffRate ^ 1) maxRetryIntervalSec
    rw [pow_one]
  | succ n =>
    have here : c.waited (n + 1 + 1) = c.backoff (n + 1 + 1) := if_neg (by omega)
    rw [here]
    exact min_mul_min (by decide) grows (n + 1)

/-- What the loop has done when so many attempts go on. -/
def history (c : Call V E) (n : Nat) : List (Event V E) :=
  c.tries c.waited n ++ if 1 ≤ n ∧ n < c.maxAttempts then [.wait (c.waited n)] else []

theorem history_attempt {n : Nat} (left : n < c.maxAttempts) :
    c.history n ++ [.attempt (c.invokeStepAttempt (n + 1))] = c.tries c.waited (n + 1) := by
  cases n with
  | zero => rfl
  | succ n =>
    unfold history
    rw [if_pos ⟨by omega,left⟩,List.append_assoc]
    rfl

/-- One more attempt, with the wait that follows it where there is another. -/
theorem history_next {n : Nat} (left : n < c.maxAttempts) : c.history (n + 1) =
    c.history n ++ .attempt (c.invokeStepAttempt (n + 1)) :: if n + 1 < c.maxAttempts then [.wait (c.waited (n + 1))] else [] := by
  have tried := history_attempt left
  rw [List.append_cons,tried]
  unfold history
  congr 1
  split_ifs with some_ another another
  · rfl
  · exact absurd some_.2 another
  · exact absurd ⟨by omega,another⟩ some_
  · rfl

theorem comesTo_of_not {n : Nat} {e : StepError E} (failed : c.invokeStepAttempt n = .error e) :
    (c.shouldRetry n e = .ok false → c.comesTo n = .error e ∧ ¬ c.GoesOn n) ∧
      ∀ retryError,c.shouldRetry n e = .error retryError → c.comesTo n = .error retryError ∧ ¬ c.GoesOn n := by
  unfold comesTo GoesOn
  rw [failed]
  dsimp only
  constructor
  · intro rejected
    rw [rejected]
    refine ⟨rfl,?_⟩
    rintro ⟨e',same,goesOn⟩
    cases same
    rw [rejected] at goesOn
    cases goesOn
  · intro retryError threw
    rw [threw]
    refine ⟨rfl,?_⟩
    rintro ⟨e',same,goesOn⟩
    cases same
    rw [threw] at goesOn
    cases goesOn

theorem finished_events (c : Call V E) (result : Except (StepError E) V) :
    (c.refuses result = none → (c.finished result).events = [.record result]) ∧
      (c.refuses result ≠ none → (c.finished result).events = []) := by
  unfold finished
  cases refused : c.refuses result with
  | some e => exact ⟨(fun taken => by cases taken),fun _ => rfl⟩
  | none =>
    cases result with
    | ok value => exact ⟨fun _ => rfl,fun lost => absurd rfl lost⟩
    | error e => exact ⟨fun _ => rfl,fun lost => absurd rfl lost⟩

/-- An attempt that fails with nothing ends the call. -/
theorem readable_of {n : Nat} {e : StepError E} (failed : c.invokeStepAttempt n = .error e) (some_ : c.nullish e = false)
    (asked : ∀ retryError,c.shouldRetry n e = .error retryError → c.nullish retryError = false) : ¬ c.Unreadable n := by
  rintro ⟨e',same,lost⟩
  cases failed.symm.trans same
  rcases lost with nothing | ⟨retryError,threw,nothing⟩
  · rw [some_] at nothing
    cases nothing
  · rw [asked retryError threw] at nothing
    cases nothing

/-- The retries end as they are to, but for the first wait, or break off with nothing recorded. -/
inductive Course (c : Call V E) (events : List (Event V E)) : Prop
  | kept (k : Nat) (retries : c.Retries c.waited events k) (recorded : ∀ i,i ≤ k → c.RecordedAt i)
  | lost (k : Nat) (reaches : c.Reaches k) (broken : events = c.tries c.waited k) (lost : ¬ c.RecordedAt k)

/-- Attempts that have all gone on, with nothing lost. -/
structure Onward (c : Call V E) (n : Nat) : Prop where
  bound : n ≤ c.maxAttempts
  goesOn : ∀ i,1 ≤ i → i ≤ n → c.GoesOn i
  readable : ∀ i,1 ≤ i → i ≤ n → ¬ c.Unreadable i
  running : ∀ i,1 ≤ i → i ≤ n → c.cancelled (i + 1) = false

theorem Onward.reaches {n : Nat} (onward : c.Onward n) : c.Reaches n :=
  ⟨onward.bound,fun i first last => onward.goesOn i first (by omega),onward.running⟩

theorem Onward.recorded {n : Nat} (onward : c.Onward n) {i : Nat} (here : i ≤ n) (left : i < c.maxAttempts) : c.RecordedAt i where
  readable := fun first => onward.readable i first here
  stopped := fun first stops => absurd (onward.goesOn i first here) stops
  exhausted := fun all => absurd all (by omega)

/-- One more attempt goes on. -/
theorem Onward.next {n : Nat} (onward : c.Onward n) (left : n < c.maxAttempts) (running : c.cancelled (n + 2) = false)
    (readable : ¬ c.Unreadable (n + 1)) (goesOn : c.GoesOn (n + 1)) : c.Onward (n + 1) := by
  have each : ∀ {P : Nat → Prop},P (n + 1) → (∀ i,1 ≤ i → i ≤ n → P i) → ∀ i,1 ≤ i → i ≤ n + 1 → P i := by
    intro P new old i first last
    by_cases here : i = n + 1
    · rw [here]
      exact new
    · exact old i first (by omega)
  exact ⟨left,each goesOn onward.goesOn,each readable onward.readable,each running onward.running⟩

/-- The loop ends at a look that finds the workflow cancelled. -/
theorem course_cancelled {n : Nat} (onward : c.Onward n) (left : n < c.maxAttempts) (seen : c.cancelled (n + 2) = true) :
    c.Course (c.history n ++ c.stopped.events) := by
  have here : c.history n ++ c.stopped.events = c.tries c.waited n ++ if n = 0 then [] else [.wait (c.waited n)] := by
    unfold history stopped
    rw [List.append_nil]
    by_cases zero : n = 0
    · rw [if_neg (by omega),if_pos zero]
    · rw [if_pos ⟨by omega,left⟩,if_neg zero]
  rw [here]
  exact .kept n ⟨onward.bound,onward.reaches.goesOn,onward.running,
    .cancelled left (fun some_ => onward.goesOn n some_ (Nat.le_refl n)) seen⟩ fun i last => onward.recorded last (by omega)

/-- The loop ends without attempts left. -/
theorem course_exhausted {n : Nat} (onward : c.Onward n) (all : n = c.maxAttempts) :
    c.Course (c.tries c.waited n ++ (c.finished (.error (.maxStepRetries c.stepFnName c.maxAttempts (c.errorsUpTo n)))).events) := by
  obtain ⟨taken,refused⟩ := finished_events c (.error (.maxStepRetries c.stepFnName c.maxAttempts (c.errorsUpTo n)))
  have goesOn : 1 ≤ n → c.GoesOn n := fun some_ => onward.goesOn n some_ (Nat.le_refl n)
  by_cases takes : c.refuses (.error (.maxStepRetries c.stepFnName c.maxAttempts (c.errorsUpTo n))) = none
  · rw [taken takes]
    refine .kept n ⟨onward.bound,onward.reaches.goesOn,onward.running,.exhausted all goesOn⟩ fun i here => ?_
    by_cases last : i = n
    · rw [last]
      exact ⟨fun first => onward.readable n first (Nat.le_refl n),fun first stops => absurd (goesOn first) stops,fun _ _ => takes⟩
    · exact onward.recorded here (by omega)
  · rw [refused takes,List.append_nil]
    exact .lost n onward.reaches rfl fun recorded => takes (recorded.exhausted all goesOn)

/-- The loop ends with an attempt that is not to be retried. -/
theorem course_stopped {n : Nat} (onward : c.Onward n) (left : n < c.maxAttempts) (running : c.cancelled (n + 2) = false)
    (readable : ¬ c.Unreadable (n + 1)) (stops : ¬ c.GoesOn (n + 1)) :
    c.Course (c.tries c.waited (n + 1) ++ (c.finished (c.comesTo (n + 1))).events) := by
  obtain ⟨taken,refused⟩ := finished_events c (c.comesTo (n + 1))
  have reaches : c.Reaches (n + 1) := by
    refine ⟨left,fun i first last => onward.goesOn i first (by omega),fun i first last => ?_⟩
    by_cases new : i = n + 1
    · rw [new]
      exact running
    · exact onward.running i first (by omega)
  by_cases takes : c.refuses (c.comesTo (n + 1)) = none
  · rw [taken takes]
    refine .kept (n + 1) ⟨reaches.bound,reaches.goesOn,reaches.running,.stopped (by omega) stops⟩ fun i here => ?_
    by_cases last : i = n + 1
    · rw [last]
      exact ⟨fun _ => readable,fun _ _ => takes,fun _ goesOn => absurd (goesOn (by omega)) stops⟩
    · exact onward.recorded (by omega) (by omega)
  · rw [refused takes,List.append_nil]
    exact .lost (n + 1) reaches rfl fun recorded => takes (recorded.stopped (by omega) stops)

/-- The loop breaks off at an attempt that fails with nothing. -/
theorem course_crashed {n : Nat} (onward : c.Onward n) (left : n < c.maxAttempts) (running : c.cancelled (n + 2) = false)
    (unreadable : c.Unreadable (n + 1)) : c.Course (c.tries c.waited (n + 1)) := by
  refine .lost (n + 1) ⟨left,fun i first last => onward.goesOn i first (by omega),fun i first last => ?_⟩ rfl
    fun recorded => recorded.readable (by omega) unreadable
  by_cases new : i = n + 1
  · rw [new]
    exact running
  · exact onward.running i first (by omega)

/-- From attempts that all go on, the loop runs its course. -/
theorem retryLoop_course (grows : 1 ≤ c.backoffRate) {n : Nat} (onward : c.Onward n) {intervalSeconds : ℚ}
    (interval : n < c.maxAttempts → intervalSeconds = c.waited (n + 1)) :
    c.Course (c.history n ++ (c.retryLoop n intervalSeconds (c.errorsUpTo n)).events) := by
  induction left : c.maxAttempts - n generalizing n intervalSeconds with
  | zero =>
    have bound := onward.bound
    have nothing : c.history n = c.tries c.waited n := by
      unfold history
      rw [if_neg (by omega),List.append_nil]
    rw [retryLoop,if_neg (by omega),nothing]
    exact course_exhausted onward (by omega)
  | succ m ih =>
    have more : n < c.maxAttempts := by omega
    rw [retryLoop,if_pos more]
    by_cases seen : c.cancelled (n + 2) = true
    · rw [if_pos seen]
      exact course_cancelled onward more seen
    have running : c.cancelled (n + 2) = false := by simpa using seen
    rw [if_neg seen]
    have stops : ∀ recorded,c.comesTo (n + 1) = recorded → ¬ c.Unreadable (n + 1) → ¬ c.GoesOn (n + 1) →
        c.Course (c.history n ++ ((c.finished recorded).after (.attempt (c.invokeStepAttempt (n + 1)))).events) := by
      rintro recorded rfl readable stops
      have course := course_stopped onward more running readable stops
      rw [← history_attempt more,List.append_assoc] at course
      exact course
    have crashes : c.Unreadable (n + 1) → c.Course (c.history n ++ (crashed.after (.attempt (c.invokeStepAttempt (n + 1)))).events) := by
      intro unreadable
      have course := course_crashed onward more running unreadable
      rw [← history_attempt more] at course
      exact course
    cases result : c.invokeStepAttempt (n + 1) with
    | ok value =>
      rw [result] at stops
      refine stops (.ok value) ?_ ?_ ?_
      · unfold comesTo
        rw [result]
      · rintro ⟨e,failed,-⟩
        rw [result] at failed
        cases failed
      · rintro ⟨e,failed,-⟩
        rw [result] at failed
        cases failed
    | error e =>
      rw [result] at stops crashes
      dsimp only
      obtain ⟨rejected,threw⟩ := comesTo_of_not result
      cases retry : c.shouldRetry (n + 1) e with
      | error retryError =>
        dsimp only
        split_ifs with nothing
        · exact crashes ⟨e,result,nothing.imp_right fun nothing => ⟨retryError,retry,nothing⟩⟩
        · rw [not_or,Bool.not_eq_true,Bool.not_eq_true] at nothing
          refine stops (.error retryError) (threw retryError retry).1 (readable_of result nothing.1 fun other asked => ?_) (threw retryError retry).2
          cases retry.symm.trans asked
          exact nothing.2
      | ok again =>
        have asked : ∀ retryError,c.shouldRetry (n + 1) e = .error retryError → c.nullish retryError = false := by
          intro retryError threw
          cases retry.symm.trans threw
        cases again with
        | false =>
          dsimp only
          split_ifs with nothing
          · exact crashes ⟨e,result,.inl nothing⟩
          · exact stops (.error e) (rejected retry).1 (readable_of result (by simpa using nothing) asked) (rejected retry).2
        | true =>
          dsimp only
          by_cases nothing : c.nullish e = true
          · rw [if_pos nothing]
            exact crashes ⟨e,result,.inl nothing⟩
          rw [if_neg nothing]
          have onward' := onward.next more running (readable_of result (by simpa using nothing) asked) ⟨e,result,retry⟩
          have errors : c.errorsUpTo (n + 1) = c.errorsUpTo n ++ [e] := by
            rw [errorsUpTo,result]
          have next := history_next more
          rw [result] at next
          rw [← errors]
          split_ifs with another
          · have later : c.Course (c.history (n + 1) ++
                (c.retryLoop (n + 1) (c.nextInterval intervalSeconds) (c.errorsUpTo (n + 1))).events) :=
              ih onward' (fun _ => by rw [interval more,nextInterval_waited grows]) (by omega)
            rw [next,if_pos another,← interval more,List.append_assoc] at later
            exact later
          · have later : c.Course (c.history (n + 1) ++ (c.retryLoop (n + 1) intervalSeconds (c.errorsUpTo (n + 1))).events) :=
              ih onward' (fun less => absurd less another) (by omega)
            rw [next,if_neg another,List.append_assoc] at later
            exact later

/-! ### Which course it is -/

/-- The retries end with the last attempt that is reached, so that what is recorded up to there is all. -/
theorem Retries.recordable {wait : Nat → ℚ} {events : List (Event V E)} {k : Nat} (retries : c.Retries wait events k)
    (recorded : ∀ i,i ≤ k → c.RecordedAt i) : ∀ i,c.Reaches i → c.RecordedAt i := by
  intro i reaches
  refine recorded i (by_contra fun beyond => ?_)
  have bound := reaches.bound
  cases retries.ending with
  | cancelled left goesOn seen =>
    rw [reaches.running (k + 1) (by omega) (by omega)] at seen
    cases seen
  | stopped some_ stops => exact stops (reaches.goesOn k some_ (by omega))
  | exhausted all goesOn => omega

/-- The last that is done is no attempt. -/
theorem Retries.last {wait : Nat → ℚ} {events : List (Event V E)} {k : Nat} (retries : c.Retries wait events k)
    (before : List (Event V E)) (result : Except (StepError E) V) : events ≠ before ++ [.attempt result] := by
  intro same
  cases retries.ending with
  | cancelled left goesOn seen =>
    by_cases zero : k = 0
    · rw [if_pos zero,zero] at same
      exact absurd same.symm (by simp [tries])
    · rw [if_neg zero] at same
      cases (List.append_inj' same rfl).2
  | stopped some_ stops => cases (List.append_inj' same rfl).2
  | exhausted all goesOn => cases (List.append_inj' same rfl).2

theorem tries_last (wait : Nat → ℚ) (n : Nat) : ∃ before,c.tries wait (n + 1) = before ++ [.attempt (c.invokeStepAttempt (n + 1))] := by
  cases n with
  | zero => exact ⟨[],rfl⟩
  | succ n => exact ⟨c.tries wait (n + 1) ++ [.wait (wait (n + 1))],by rw [List.append_assoc]; rfl⟩

/-- What breaks off is no way for the retries to end. -/
theorem lost_never {k : Nat} {wait wait' : Nat → ℚ} (lost : ¬ c.RecordedAt k) {k' : Nat} : ¬ c.Retries wait' (c.tries wait k) k' := by
  intro retries
  cases k with
  | succ n =>
    obtain ⟨before,same⟩ := tries_last (c := c) wait n
    exact retries.last before _ same
  | zero =>
    have none_ : c.maxAttempts = 0 := by
      by_contra some_
      exact lost ⟨fun first => absurd first (by omega),fun first => absurd first (by omega),fun all => absurd all.symm some_⟩
    obtain ⟨events,same⟩ : ∃ events,events = c.tries wait 0 := ⟨_,rfl⟩
    rw [← same] at retries
    have bound := retries.bound
    cases retries.ending with
    | cancelled left goesOn seen => omega
    | stopped some_ stops => omega
    | exhausted all goesOn => exact absurd same (by simp [tries])

/-! ### The first wait -/

/-- The first attempt is made, goes on, and is not the last. -/
structure WaitsOnce (c : Call V E) : Prop where
  fresh : ¬ (c.cancelled 0 = true ∨ c.cancelled 1 = true ∨ c.checkpoint ≠ none)
  allowed : c.stepConfig.retriesAllowed = true
  running : c.cancelled 2 = false
  goesOn : c.GoesOn 1
  left : 1 < c.maxAttempts

theorem callStepFunction_course (grows : 1 ≤ c.backoffRate) (fresh : ¬ (c.cancelled 0 = true ∨ c.cancelled 1 = true ∨ c.checkpoint ≠ none))
    (allowed : c.stepConfig.retriesAllowed = true) : c.Course c.callStepFunction.events := by
  have start : c.Onward 0 :=
    ⟨Nat.zero_le _,fun i first last => by omega,fun i first last => by omega,fun i first last => by omega⟩
  have begun := retryLoop_course grows start (fun _ => rfl : 0 < c.maxAttempts → c.intervalSeconds = c.waited 1)
  have nothing : c.history 0 = [] := rfl
  rw [nothing,List.nil_append] at begun
  rw [not_or,not_or,not_not] at fresh
  obtain ⟨first,second,none_⟩ := fresh
  unfold callStepFunction
  rw [if_neg first,if_neg second,none_]
  dsimp only
  rw [if_pos allowed]
  exact begun

theorem tries_second (wait : Nat → ℚ) (n : Nat) : (c.tries wait (n + 2))[1]? = some (.wait (wait 1)) := by
  induction n with
  | zero => rfl
  | succ n ih =>
    have more : c.tries wait (n + 1 + 2) = c.tries wait (n + 2) ++ [.wait (wait (n + 2)),.attempt (c.invokeStepAttempt (n + 3))] := rfl
    rw [more,List.getElem?_append_left (List.getElem?_eq_some_iff.mp ih).1,ih]

/-- What follows the first attempt is the first wait. -/
theorem Retries.second {wait : Nat → ℚ} {events : List (Event V E)} {k : Nat} (retries : c.Retries wait events k) (waits : c.WaitsOnce) :
    events[1]? = some (.wait (wait 1)) := by
  have long : ∀ rest,2 ≤ k → (c.tries wait k ++ rest)[1]? = some (.wait (wait 1)) := by
    intro rest two
    obtain ⟨n,rfl⟩ : ∃ n,k = n + 2 := ⟨k - 2,by omega⟩
    have second := tries_second (c := c) wait n
    rw [List.getElem?_append_left (List.getElem?_eq_some_iff.mp second).1,second]
  have left := waits.left
  cases retries.ending with
  | cancelled more goesOn seen =>
    match k with
    | 0 =>
      rw [waits.running] at seen
      cases seen
    | 1 => rfl
    | n + 2 => exact long _ (by omega)
  | stopped some_ stops =>
    refine long _ (by_contra fun few => stops ?_)
    obtain rfl : k = 1 := by omega
    exact waits.goesOn
  | exhausted all goesOn => exact long _ (by omega)

/-- Where there is no first wait, it makes no difference how long it would be. -/
theorem Retries.change {wait wait' : Nat → ℚ} {events : List (Event V E)} {k : Nat} (retries : c.Retries wait events k)
    (fresh : ¬ (c.cancelled 0 = true ∨ c.cancelled 1 = true ∨ c.checkpoint ≠ none)) (allowed : c.stepConfig.retriesAllowed = true)
    (never : ¬ c.WaitsOnce) : c.Retries wait' events k := by
  have few : k ≤ 1 := by
    by_contra many
    exact never ⟨fresh,allowed,retries.running 1 (Nat.le_refl 1) (by omega),retries.goesOn 1 (Nat.le_refl 1) (by omega),by have := retries.bound; omega⟩
  have same : c.tries wait k = c.tries wait' k := by
    match k with
    | 0 => rfl
    | 1 => rfl
  refine ⟨retries.bound,retries.goesOn,retries.running,?_⟩
  cases retries.ending with
  | cancelled more goesOn seen =>
    have zero : k = 0 := by
      by_contra some_
      obtain rfl : k = 1 := by omega
      exact never ⟨fresh,allowed,retries.running 1 (Nat.le_refl 1) (Nat.le_refl 1),goesOn (Nat.le_refl 1),more⟩
    have ending : c.Ending wait' k (c.tries wait' k ++ if k = 0 then [] else [.wait (wait' k)]) := .cancelled more goesOn seen
    rw [if_pos zero] at ending ⊢
    rwa [same]
  | stopped some_ stops =>
    rw [same]
    exact .stopped some_ stops
  | exhausted all goesOn =>
    rw [same]
    exact .exhausted all goesOn

/-- With one attempt, what it comes to is recorded if the serializer takes it. -/
theorem callStepFunction_once (fresh : ¬ (c.cancelled 0 = true ∨ c.cancelled 1 = true ∨ c.checkpoint ≠ none))
    (single : c.stepConfig.retriesAllowed = false) :
    c.callStepFunction.events = [.attempt (c.invokeStepAttempt 1),.record (c.invokeStepAttempt 1)] ↔ c.refuses (c.invokeStepAttempt 1) = none := by
  obtain ⟨taken,refused⟩ := finished_events c (c.invokeStepAttempt 1)
  rw [not_or,not_or,not_not] at fresh
  obtain ⟨zero,one,none_⟩ := fresh
  have events : c.callStepFunction.events = .attempt (c.invokeStepAttempt 1) :: (c.finished (c.invokeStepAttempt 1)).events := by
    unfold callStepFunction
    rw [if_neg zero,if_neg one,none_]
    dsimp only
    rw [if_neg (by simp [single])]
    rfl
  rw [events]
  by_cases takes : c.refuses (c.invokeStepAttempt 1) = none
  · rw [taken takes]
    exact iff_of_true rfl takes
  · rw [refused takes]
    exact iff_of_false (fun same => by simp at same) takes

/-- The contract is kept just where the first wait, if there is one, need not be capped, and what the call comes to can be recorded. -/
theorem contract_iff (c : Call V E) (grows : 1 ≤ c.backoffRate) :
    c.Contract ↔ (c.WaitsOnce → c.intervalSeconds ≤ maxRetryIntervalSec) ∧ c.Recordable := by
  have first : c.backoff 1 = min c.intervalSeconds maxRetryIntervalSec := by
    unfold backoff
    rw [Nat.sub_self,pow_zero,mul_one]
  unfold Contract Recordable
  by_cases settled : c.cancelled 0 = true ∨ c.cancelled 1 = true ∨ c.checkpoint ≠ none
  · rw [if_pos settled,if_pos settled]
    refine iff_of_true ?_ ⟨fun waits => absurd settled waits.fresh,trivial⟩
    unfold callStepFunction
    rcases settled with zero | one | done
    · rw [if_pos zero]
      rfl
    · rw [if_pos one]
      split_ifs <;> rfl
    · cases checkpoint : c.checkpoint with
      | none => exact absurd checkpoint done
      | some checkr =>
        dsimp only
        split_ifs <;> rfl
  rw [if_neg settled,if_neg settled]
  by_cases allowed : c.stepConfig.retriesAllowed = true
  · rw [if_neg (by simp [allowed]),if_neg (by simp [allowed])]
    cases callStepFunction_course grows settled allowed with
    | lost k reaches broken lost =>
      rw [broken]
      exact iff_of_false (fun ⟨k',kept⟩ => lost_never lost kept) fun ⟨_,recorded⟩ => lost (recorded k reaches)
    | kept k retries recorded =>
      refine Iff.trans ?_ (and_iff_left (retries.recordable recorded)).symm
      constructor
      · rintro ⟨k',kept⟩ waits
        have same := (retries.second waits).symm.trans (kept.second waits)
        have wait : c.waited 1 = c.intervalSeconds := rfl
        simp only [Option.some.injEq,Event.wait.injEq,wait,first] at same
        exact same ▸ min_le_right _ _
      · intro capped
        by_cases waits : c.WaitsOnce
        · have same : c.waited = c.backoff := by
            funext i
            unfold waited
            split_ifs with one
            · rw [one,first,min_eq_left (capped waits)]
            · rfl
          exact ⟨k,same ▸ retries⟩
        · exact ⟨k,retries.change settled allowed waits⟩
  · have single : c.stepConfig.retriesAllowed = false := by simpa using allowed
    rw [if_pos single,if_pos single,callStepFunction_once settled single]
    exact (and_iff_right fun waits : c.WaitsOnce => absurd waits.allowed allowed).symm

/-- A step that fails twice, with so many seconds before the second attempt. -/
def failsTwice (seconds : ℚ) : Call Unit String where
  stepFnName := "charge"
  workflowID := "order"
  functionID := 0
  stepConfig := {
    retriesAllowed := true,intervalSeconds := some seconds,maxAttempts := some 2,backoffRate := none,shouldRetry := none,timeoutMS := none,
    valid := fun _ none_ => nomatch none_ }
  stepFn := fun _ => ⟨.error "down",false⟩
  cancelled := fun _ => false
  checkpoint := none
  nothing := fun _ => false
  refuses := fun _ => none

theorem failsTwice_recorded (seconds : ℚ) (k : Nat) : (failsTwice seconds).RecordedAt k := by
  refine ⟨?_,fun _ _ => rfl,fun _ _ => rfl⟩
  rintro - ⟨e,-,nothing | ⟨retryError,threw,-⟩⟩
  · cases e <;> cases nothing
  · cases threw

theorem failsTwice_minute : (failsTwice 60).Contract := by
  refine (contract_iff (failsTwice 60) (by decide)).mpr ⟨fun _ => (by decide : (60 : ℚ) ≤ 3600),?_⟩
  unfold Recordable
  rw [if_neg (by simp [failsTwice]),if_neg (by simp [failsTwice])]
  exact fun k _ => failsTwice_recorded 60 k

/-- Two hours are waited for, though the interval is said to be capped at one. -/
theorem failsTwice_uncapped : (failsTwice 7200).callStepFunction.events[1]? = some (.wait 7200) ∧ ¬ (failsTwice 7200).Contract := by
  have grows : 1 ≤ (failsTwice 7200).backoffRate := by decide
  have waits : (failsTwice 7200).WaitsOnce := ⟨by simp [failsTwice],rfl,rfl,⟨.thrown "down",rfl,rfl⟩,by decide⟩
  have second : (failsTwice 7200).callStepFunction.events[1]? = some (.wait 7200) := by
    cases callStepFunction_course grows waits.fresh waits.allowed with
    | kept k retries recorded => exact retries.second waits
    | lost k reaches broken lost => exact absurd (failsTwice_recorded 7200 k) lost
  refine ⟨second,fun contract => ?_⟩
  unfold Contract at contract
  rw [if_neg waits.fresh,if_neg (by simp [waits.allowed])] at contract
  obtain ⟨k',kept⟩ := contract
  have capped := kept.second waits
  rw [second] at capped
  have same : (7200 : ℚ) = (failsTwice 7200).backoff 1 := Event.wait.inj (Option.some.inj capped)
  have hour : (failsTwice 7200).backoff 1 ≤ 3600 := min_le_right _ _
  rw [← same] at hour
  revert hour
  decide

end Call

end Dbos.StepRetry
