import Dbos.Status
import Dbos.Pg.Select

/-!
`findAndMarkStartableWorkflows` of `src/system_database.ts`: the counts, the limits, the
SELECT, the claim loop, and the whole call with no other transaction in between.
-/
namespace Dbos.Dequeue
open Dbos.Pg Dbos.Schema StatusString

/-- `limiterPeriodMS` is `periodSec * 1000`. -/
structure QueueRateLimit where
  limitPerPeriod : Nat
  limiterPeriodMS : Int
  deriving DecidableEq,Repr

structure WorkflowQueue where
  name : String
  concurrency : Option Nat := none
  workerConcurrency : Option Nat := none
  rateLimit : Option QueueRateLimit := none
  partitionQueue : Bool := false
  deriving DecidableEq,Repr

/-- The arguments of one call, with the clock and the number of running workflows
    of the queue that the process reads when the call starts. -/
structure DequeueCall where
  queue : WorkflowQueue
  executorID : String
  appVersion : String
  queuePartitionKey : Option String := none
  startTimeMs : Int
  localRunningForQueue : Nat := 0
  deriving DecidableEq,Repr

/-- The partition filter: no condition when no partition key is given. -/
def inPartition (queuePartitionKey : Option String) (row : WorkflowStatus) : Bool :=
  queuePartitionKey.all fun key => row.queue_partition_key = some key

/-- Rows counted as starts of the queue within the period before the call. -/
def recentHits (call : DequeueCall) (limit : QueueRateLimit) (_ : String) (row : WorkflowStatus) : Bool :=
  row.queue_name = some call.queue.name ∧ row.rate_limited = true ∧ row.status ≠ ENQUEUED ∧ row.status ≠ DELAYED ∧
    row.started_at_epoch_ms.any (fun start => call.startTimeMs - limit.limiterPeriodMS < start) ∧
    inPartition call.queuePartitionKey row

/-- Rows counted as running on the queue. -/
def runningHits (queueName : String) (queuePartitionKey : Option String) (_ : String) (row : WorkflowStatus) : Bool :=
  row.queue_name = some queueName ∧ row.status = PENDING ∧ inPartition queuePartitionKey row

def isLatestVersion (latestVersion : Option String) (appVersion : String) : Bool :=
  latestVersion.all fun latest => latest = appVersion

/-- Rows that the call may claim. -/
def startableHits (call : DequeueCall) (isLatest : Bool) (_ : String) (row : WorkflowStatus) : Bool :=
  row.status = ENQUEUED ∧ row.queue_name = some call.queue.name ∧
    (row.application_version = some call.appVersion ∨ (isLatest = true ∧ row.application_version = none)) ∧
    inPartition call.queuePartitionKey row

/-- `ORDER BY priority ASC, created_at ASC`, as a strict comparison. -/
def ahead (a b : String × WorkflowStatus) : Bool :=
  a.2.priority < b.2.priority ∨ (a.2.priority = b.2.priority ∧ a.2.created_at < b.2.created_at)

/-- The starts in the period, read only for a rate-limited queue. -/
def numRecentQueries (call : DequeueCall) (t : Statuses) : Nat :=
  match call.queue.rateLimit with
  | some limit => t.count (recentHits call limit)
  | none => 0

/-- `claimedIDs.length + numRecentQueries >= limitPerPeriod`. -/
def rateExhausted (call : DequeueCall) (started : Nat) : Bool :=
  call.queue.rateLimit.any fun limit => limit.limitPerPeriod ≤ started

/-- `Math.min`, with `none` for `Infinity`. -/
def minTasks : Option Nat → Option Nat → Option Nat
  | none,b => b
  | a,none => a
  | some a,some b => some (min a b)

def maxTasks (call : DequeueCall) (totalRunningTasks : Nat) : Option Nat :=
  minTasks (call.queue.workerConcurrency.map fun w => w - call.localRunningForQueue)
    (call.queue.concurrency.map fun n => n - totalRunningTasks)

/-- What the counts of a table leave to the call. -/
def tasksFor (call : DequeueCall) (t : Statuses) : Option Nat :=
  maxTasks call (t.count (runningHits call.queue.name call.queuePartitionKey))

/-- The call returns at once when a limit leaves nothing to start. -/
def nothingToDo (call : DequeueCall) (t : Statuses) : Bool :=
  rateExhausted call (numRecentQueries call t) ∨ tasksFor call t = some 0

def claimHits (id : String) (k : String) (row : WorkflowStatus) : Bool := k = id ∧ row.status = ENQUEUED

/-- A claimed row; the deadline is set where a timeout is set and no deadline exists. -/
def claimedRow (call : DequeueCall) (now : Int) (row : WorkflowStatus) : WorkflowStatus :=
  { row with
    status := PENDING
    executor_id := some call.executorID
    application_version := some call.appVersion
    started_at_epoch_ms := some call.startTimeMs
    rate_limited := call.queue.rateLimit.isSome
    workflow_deadline_epoch_ms := match row.workflow_timeout_ms,row.workflow_deadline_epoch_ms with
      | some timeout,none => some (now + timeout)
      | _,deadline => deadline }

/-- The claim loop: it stops at the rate limit, and an ID counts as claimed only when
    its UPDATE found an ENQUEUED row. -/
def claimLoop (call : DequeueCall) (recent : Nat) (now : Int) :
    List String → List String → Statuses → List String × Statuses
  | [],claimedIDs,t => (claimedIDs,t)
  | id :: rest,claimedIDs,t =>
    if rateExhausted call (claimedIDs.length + recent) then (claimedIDs,t)
    else
      let t' := t.update (claimHits id) fun _ => claimedRow call now
      if t.count (claimHits id) > 0 then claimLoop call recent now rest (claimedIDs ++ [id]) t'
      else claimLoop call recent now rest claimedIDs t'

/-- What the claim loop does with the IDs it was given: `new` are the ones it claims. -/
structure Claims (call : DequeueCall) (recent : Nat) (now : Int) (ids claimedIDs : List String) (t : Statuses)
    (new : List String) : Prop where
  result : (claimLoop call recent now ids claimedIDs t).1 = claimedIDs ++ new
  nodup : new.Nodup
  listed : ∀ k ∈ new,k ∈ ids
  claimed : ∀ k ∈ new,∃ r, t.get? k = some r ∧ r.status = ENQUEUED ∧
    (claimLoop call recent now ids claimedIDs t).2.get? k = some (claimedRow call now r)
  kept : ∀ k, k ∉ new → (claimLoop call recent now ids claimedIDs t).2.get? k = t.get? k
  limited : ∀ limit, call.queue.rateLimit = some limit → new ≠ [] →
    claimedIDs.length + recent + new.length ≤ limit.limitPerPeriod

theorem claimHits_iff {t : Statuses} {id : String} :
    t.count (claimHits id) > 0 ↔ ∃ r, t.get? id = some r ∧ r.status = ENQUEUED := by
  rw [gt_iff_lt,Table.count_pos]
  constructor
  · rintro ⟨k,r,found,hit⟩
    simp only [claimHits,decide_eq_true_eq] at hit
    exact ⟨r,hit.1 ▸ found,hit.2⟩
  · rintro ⟨r,found,waits⟩
    exact ⟨id,r,found,by simp [claimHits,waits]⟩

theorem get?_claimed (call : DequeueCall) (now : Int) {t : Statuses} {id : String} {r : WorkflowStatus}
    (found : t.get? id = some r) (waits : r.status = ENQUEUED) :
    (t.update (claimHits id) fun _ => claimedRow call now).get? id = some (claimedRow call now r) := by
  simp [found,claimHits,waits]

theorem get?_unclaimed (call : DequeueCall) (now : Int) {t : Statuses} {id k : String}
    (other : k ≠ id ∨ ∀ r, t.get? k = some r → r.status ≠ ENQUEUED) :
    (t.update (claimHits id) fun _ => claimedRow call now).get? k = t.get? k := by
  rcases t.update_cases (claimHits id) (fun _ => claimedRow call now) k with same | ⟨r,found,hit,_⟩
  · exact same
  · simp only [claimHits,decide_eq_true_eq] at hit
    rcases other with elsewhere | started
    · exact absurd hit.1 elsewhere
    · exact absurd hit.2 (started r found)

theorem claimLoop_claims (call : DequeueCall) (recent : Nat) (now : Int) (ids claimedIDs : List String) (t : Statuses) :
    ∃ new, Claims call recent now ids claimedIDs t new := by
  induction ids generalizing claimedIDs t with
  | nil => exact ⟨[],by simp [claimLoop],List.nodup_nil,by simp,by simp,fun _ _ => rfl,by simp⟩
  | cons id rest ih =>
    by_cases exhausted : rateExhausted call (claimedIDs.length + recent) = true
    · have stops : claimLoop call recent now (id :: rest) claimedIDs t = (claimedIDs,t) := by
        simp [claimLoop,exhausted]
      exact ⟨[],by simp [stops],List.nodup_nil,by simp,by simp,fun _ _ => by rw [stops],by simp⟩
    · by_cases waiting : t.count (claimHits id) > 0
      · obtain ⟨r,found,waits⟩ := claimHits_iff.mp waiting
        have claims := get?_claimed call now found waits
        have goes : claimLoop call recent now (id :: rest) claimedIDs t =
            claimLoop call recent now rest (claimedIDs ++ [id]) (t.update (claimHits id) fun _ => claimedRow call now) := by
          rw [claimLoop,if_neg exhausted]
          simp only [waiting,if_true]
        obtain ⟨new,result,nodup,listed,claimed,kept,limited⟩ :=
          ih (claimedIDs ++ [id]) (t.update (claimHits id) fun _ => claimedRow call now)
        -- The claimed row is PENDING from here on, so the rest of the loop leaves it alone.
        have absent : id ∉ new := by
          intro member
          obtain ⟨r',found',waits',_⟩ := claimed id member
          cases claims.symm.trans found'
          cases waits'
        refine ⟨id :: new,?_,List.nodup_cons.mpr ⟨absent,nodup⟩,?_,?_,?_,?_⟩
        · rw [goes,result]
          simp
        · intro k member
          rcases List.mem_cons.mp member with rfl | later
          · exact List.mem_cons_self
          · exact List.mem_cons_of_mem _ (listed k later)
        · intro k member
          rcases List.mem_cons.mp member with rfl | later
          · exact ⟨r,found,waits,by rw [goes,kept k absent,claims]⟩
          · obtain ⟨r',found',waits',stored⟩ := claimed k later
            have other : k ≠ id := fun same => absent (same ▸ later)
            rw [get?_unclaimed call now (.inl other)] at found'
            exact ⟨r',found',waits',goes ▸ stored⟩
        · intro k missing
          rw [List.mem_cons,not_or] at missing
          rw [goes,kept k missing.2,get?_unclaimed call now (.inl missing.1)]
        · intro limit limits _
          cases new with
          | nil =>
            simp only [rateExhausted,limits,Option.any_some,decide_eq_true_eq] at exhausted
            simp only [List.length_cons,List.length_nil]
            omega
          | cons first more =>
            have bound := limited limit limits (by simp)
            simp only [List.length_append,List.length_cons,List.length_nil] at bound ⊢
            omega
      · have goes : claimLoop call recent now (id :: rest) claimedIDs t =
            claimLoop call recent now rest claimedIDs (t.update (claimHits id) fun _ => claimedRow call now) := by
          rw [claimLoop,if_neg exhausted]
          simp only [waiting,if_false]
        have same : ∀ k, (t.update (claimHits id) fun _ => claimedRow call now).get? k = t.get? k := by
          intro k
          by_cases here : k = id
          · subst here
            exact get?_unclaimed call now (.inr fun r found waits => waiting (claimHits_iff.mpr ⟨r,found,waits⟩))
          · exact get?_unclaimed call now (.inl here)
        obtain ⟨new,result,nodup,listed,claimed,kept,limited⟩ :=
          ih claimedIDs (t.update (claimHits id) fun _ => claimedRow call now)
        refine ⟨new,goes ▸ result,nodup,fun k member => List.mem_cons_of_mem _ (listed k member),?_,?_,limited⟩
        · intro k member
          obtain ⟨r,found,waits,stored⟩ := claimed k member
          exact ⟨r,(same k) ▸ found,waits,goes ▸ stored⟩
        · intro k missing
          rw [goes,kept k missing,same k]

/-- The loop claims the first row that waits, as long as the rate limit is not reached. -/
theorem claimLoop_first {call : DequeueCall} {recent : Nat} {now : Int} {id : String} {rest : List String} {t : Statuses}
    {r : WorkflowStatus} (room : rateExhausted call recent = false) (found : t.get? id = some r)
    (waits : r.status = ENQUEUED) {new : List String} (claims : Claims call recent now (id :: rest) [] t new) : id ∈ new := by
  by_contra missing
  have goes : claimLoop call recent now (id :: rest) [] t =
      claimLoop call recent now rest [id] (t.update (claimHits id) fun _ => claimedRow call now) := by
    have waiting := claimHits_iff.mpr ⟨r,found,waits⟩
    rw [claimLoop,if_neg (by simp [room])]
    simp [waiting]
  obtain ⟨more,onward⟩ := claimLoop_claims call recent now rest [id] (t.update (claimHits id) fun _ => claimedRow call now)
  have result := claims.result
  rw [goes,onward.result] at result
  simp only [List.nil_append,List.singleton_append] at result
  exact missing (result ▸ List.mem_cons_self)

/-- The whole call alone in the database: `none` when `rows` is no answer to its SELECT. -/
def findAndMarkStartableWorkflows (t : Statuses) (call : DequeueCall) (latestVersion : Option String)
    (rows : List (String × WorkflowStatus)) (now : Int) : Option (List String × Statuses) :=
  if nothingToDo call t then some ([],t)
  else if Answer ahead (t.select (startableHits call (isLatestVersion latestVersion call.appVersion)))
      (tasksFor call t) rows then
    some (claimLoop call (numRecentQueries call t) now (rows.map Prod.fst) [] t)
  else none

end Dbos.Dequeue
