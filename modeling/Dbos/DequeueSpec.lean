import Dbos.Dequeue

/-!
What a dequeue is for, and that `findAndMarkStartableWorkflows` does it. The specification names
the rows that may start, how many of them do, which ones, and what is written to them; the
function reads the limits at two places, asks for some of the rows under one of them, and stops
its loop at the other.
-/
namespace Dbos.DequeueSpec
open Dbos.Pg Dbos.Schema Dbos.Dequeue StatusString

/-! ### The specification -/

/-- A row that the caller may start. -/
structure Startable (call : DequeueCall) (latestVersion : Option String) (row : WorkflowStatus) : Prop where
  enqueued : row.status = ENQUEUED
  queue : row.queue_name = some call.queue.name
  partition : ∀ key,call.queuePartitionKey = some key → row.queue_partition_key = some key
  version : row.application_version = some call.appVersion ∨
    row.application_version = none ∧ (latestVersion = some call.appVersion ∨ latestVersion = none)

/-- How many rows a call starts: none of the limits is exceeded, and none is left unused. -/
def startCount (call : DequeueCall) (t : Statuses) (startable : Nat) : Nat :=
  atMost (call.queue.workerConcurrency.map fun w => w - call.localRunningForQueue) <|
    atMost (call.queue.concurrency.map fun n => n - t.count (runningHits call.queue.name call.queuePartitionKey)) <|
      atMost (call.queue.rateLimit.map fun limit => limit.limitPerPeriod - t.count (recentHits call limit)) startable

/-- A started row. -/
def started (call : DequeueCall) (now : Int) (row : WorkflowStatus) : WorkflowStatus :=
  { row with
    status := PENDING
    executor_id := some call.executorID
    application_version := some call.appVersion
    started_at_epoch_ms := some call.startTimeMs
    rate_limited := call.queue.rateLimit.isSome
    workflow_deadline_epoch_ms :=
      if row.workflow_deadline_epoch_ms = none then row.workflow_timeout_ms.map fun timeout => now + timeout
      else row.workflow_deadline_epoch_ms }

/-- A dequeue starts the first rows, as many as the limits leave, and touches no other row. -/
structure Dequeues (call : DequeueCall) (latestVersion : Option String) (now : Int) (t t' : Statuses) (claimedIDs : List String) : Prop where
  first : ∃ startable picked,(∀ e,e ∈ startable ↔ t.get? e.1 = some e.2 ∧ Startable call latestVersion e.2) ∧ startable.Nodup ∧
    First ahead startable (startCount call t startable.length) picked ∧ claimedIDs = picked.map Prod.fst
  marked : ∀ id ∈ claimedIDs,∃ row,t.get? id = some row ∧ t'.get? id = some (started call now row)
  kept : ∀ id,id ∉ claimedIDs → t'.get? id = t.get? id

/-! ### The claim loop -/

/-- How many rows the rate limit leaves to a loop that has claimed some. -/
def rateRoom (call : DequeueCall) (used : Nat) : Option Nat := call.queue.rateLimit.map fun limit => limit.limitPerPeriod - used

theorem rateExhausted_iff {call : DequeueCall} {used : Nat} : rateExhausted call used = true ↔ rateRoom call used = some 0 := by
  unfold rateExhausted rateRoom
  cases call.queue.rateLimit with
  | none => simp
  | some limit =>
    simp only [Option.any_some,Option.map_some,decide_eq_true_eq,Option.some.injEq]
    omega

/-- Alone, the loop finds every row waiting, so only the rate limit stops it. -/
theorem claimLoop_take (call : DequeueCall) (recent : Nat) (now : Int) (ids claimedIDs : List String) (t : Statuses) (distinct : ids.Nodup)
    (waiting : ∀ id ∈ ids,∃ r,t.get? id = some r ∧ r.status = ENQUEUED) :
    (claimLoop call recent now ids claimedIDs t).1 =
      claimedIDs ++ ids.take (atMost (rateRoom call (claimedIDs.length + recent)) ids.length) := by
  induction ids generalizing claimedIDs t with
  | nil => simp [claimLoop]
  | cons id rest ih =>
    obtain ⟨alone,distinct⟩ := List.nodup_cons.mp distinct
    rw [claimLoop]
    by_cases exhausted : rateExhausted call (claimedIDs.length + recent) = true
    · rw [if_pos exhausted,rateExhausted_iff.mp exhausted]
      simp [atMost]
    · rw [if_neg exhausted]
      have hit : t.count (claimHits id) > 0 := claimHits_iff.mpr (waiting id List.mem_cons_self)
      have others : ∀ k ∈ rest,∃ r,(t.update (claimHits id) fun _ => claimedRow call now).get? k = some r ∧ r.status = ENQUEUED := by
        intro k later
        obtain ⟨r,found,waits⟩ := waiting k (List.mem_cons_of_mem _ later)
        have other : k ≠ id := by rintro rfl; exact alone later
        exact ⟨r,by rw [get?_unclaimed call now (.inl other)]; exact found,waits⟩
      simp only [hit,if_true]
      rw [ih (claimedIDs ++ [id]) _ distinct others]
      have room : atMost (rateRoom call (claimedIDs.length + recent)) (id :: rest).length =
          atMost (rateRoom call ((claimedIDs ++ [id]).length + recent)) rest.length + 1 := by
        rw [rateExhausted_iff] at exhausted
        unfold rateRoom at *
        cases limits : call.queue.rateLimit with
        | none => simp [atMost]
        | some limit =>
          simp only [limits,Option.map_some,Option.some.injEq] at exhausted
          simp only [atMost,Option.map_some,Option.elim,List.length_cons,List.length_append,List.length_nil]
          omega
      rw [room,List.take_succ_cons,List.append_assoc]
      rfl

/-! ### The function meets the specification -/

theorem startableHits_iff {call : DequeueCall} {latestVersion : Option String} {k : String} {row : WorkflowStatus} :
    startableHits call (isLatestVersion latestVersion call.appVersion) k row = true ↔ Startable call latestVersion row := by
  have latest : isLatestVersion latestVersion call.appVersion = true ↔ latestVersion = some call.appVersion ∨ latestVersion = none := by
    cases latestVersion <;> simp [isLatestVersion]
  have part : inPartition call.queuePartitionKey row = true ↔
      ∀ key,call.queuePartitionKey = some key → row.queue_partition_key = some key := by
    cases call.queuePartitionKey <;> simp [inPartition]
  simp only [startableHits,decide_eq_true_eq,Bool.decide_and,Bool.and_eq_true]
  rw [latest,part]
  constructor
  · rintro ⟨enqueued,queue,version,partition⟩
    exact ⟨enqueued,queue,partition,version.imp_right And.symm⟩
  · rintro ⟨enqueued,queue,partition,version⟩
    exact ⟨enqueued,queue,version.imp_right And.symm,partition⟩

theorem claimedRow_started (call : DequeueCall) (now : Int) (row : WorkflowStatus) : claimedRow call now row = started call now row := by
  unfold claimedRow started
  congr 1
  cases row.workflow_timeout_ms <;> cases row.workflow_deadline_epoch_ms <;> rfl

theorem atMost_le (limit : Option Nat) (k : Nat) : atMost limit k ≤ k := by
  cases limit <;> simp only [atMost,Option.elim] <;> omega

theorem atMost_minTasks (a b : Option Nat) (k : Nat) : atMost (minTasks a b) k = atMost a (atMost b k) := by
  cases a <;> cases b <;> simp only [atMost,minTasks,Option.elim]
  omega

theorem atMost_comm (a b : Option Nat) (k : Nat) : atMost a (atMost b k) = atMost b (atMost a k) := by
  cases a <;> cases b <;> simp only [atMost,Option.elim]
  omega

/-- The two places at which the function looks at its limits make one count. -/
theorem startCount_eq (call : DequeueCall) (t : Statuses) (startable : Nat) :
    startCount call t startable = atMost (rateRoom call (numRecentQueries call t)) (atMost (tasksFor call t) startable) := by
  have recent : rateRoom call (numRecentQueries call t) =
      call.queue.rateLimit.map fun limit => limit.limitPerPeriod - t.count (recentHits call limit) := by
    unfold rateRoom numRecentQueries
    cases call.queue.rateLimit <;> rfl
  rw [recent,startCount,tasksFor,maxTasks,atMost_minTasks,
    atMost_comm (call.queue.concurrency.map _) (call.queue.rateLimit.map _),
    atMost_comm (call.queue.workerConcurrency.map _) (call.queue.rateLimit.map _)]

theorem select_nodup (t : Statuses) (hit : String → WorkflowStatus → Bool) : (t.select hit).Nodup :=
  (List.Nodup.of_map _ t.distinct).filter _

theorem mem_startable {t : Statuses} {call : DequeueCall} {latestVersion : Option String} (e : String × WorkflowStatus) :
    e ∈ t.select (startableHits call (isLatestVersion latestVersion call.appVersion)) ↔
      t.get? e.1 = some e.2 ∧ Startable call latestVersion e.2 := by
  rw [Table.select,List.mem_filter,startableHits_iff,Table.get?_eq_some]

theorem nothing_dequeues {t : Statuses} {call : DequeueCall} {latestVersion : Option String} {now : Int} (nothing : nothingToDo call t = true) :
    Dequeues call latestVersion now t t [] := by
  refine ⟨⟨_,[],mem_startable,select_nodup _ _,?_,rfl⟩,by simp,fun _ _ => rfl⟩
  have none : ∀ n,startCount call t n = 0 := by
    intro n
    rw [startCount_eq]
    simp only [nothingToDo,decide_eq_true_eq,rateExhausted_iff] at nothing
    rcases nothing with exhausted | full
    · rw [exhausted]; simp [atMost]
    · rw [full]
      cases rateRoom call (numRecentQueries call t) <;> simp [atMost]
  rw [none]
  exact ⟨rfl,List.nodup_nil,by simp,List.Pairwise.nil,by simp,by simp⟩

theorem answer_dequeues {t : Statuses} {call : DequeueCall} {latestVersion : Option String} {now : Int} {rows : List (String × WorkflowStatus)}
    (answer : Answer ahead (t.select (startableHits call (isLatestVersion latestVersion call.appVersion))) (tasksFor call t) rows) :
    Dequeues call latestVersion now t (claimLoop call (numRecentQueries call t) now (rows.map Prod.fst) [] t).2
      (claimLoop call (numRecentQueries call t) now (rows.map Prod.fst) [] t).1 := by
  have listed : ∀ e ∈ rows,t.get? e.1 = some e.2 ∧ Startable call latestVersion e.2 := fun e member => (mem_startable e).mp (answer.2.1 e member)
  have distinct : (rows.map Prod.fst).Nodup := by
    refine List.Nodup.map_on ?_ answer.1
    rintro ⟨k,r⟩ first ⟨k',r'⟩ second (rfl : k = k')
    have same : r = r' := Option.some.inj ((listed _ first).1.symm.trans (listed _ second).1)
    rw [same]
  have waiting : ∀ id ∈ rows.map Prod.fst,∃ r,t.get? id = some r ∧ r.status = ENQUEUED := by
    intro id member
    obtain ⟨e,there,rfl⟩ := List.mem_map.mp member
    exact ⟨e.2,(listed e there).1,(listed e there).2.enqueued⟩
  have taken := claimLoop_take call (numRecentQueries call t) now (rows.map Prod.fst) [] t distinct waiting
  simp only [List.nil_append,List.length_nil,Nat.zero_add,List.length_map] at taken
  have length := answer_length (select_nodup t _) answer
  obtain ⟨new,claims⟩ := claimLoop_claims call (numRecentQueries call t) now (rows.map Prod.fst) [] t
  have result := claims.result
  rw [List.nil_append] at result
  rw [result]
  refine ⟨⟨_,rows.take (atMost (rateRoom call (numRecentQueries call t)) rows.length),mem_startable,select_nodup _ _,?_,?_⟩,?_,claims.kept⟩
  · rw [startCount_eq,← length]
    exact answer_take answer (atMost_le _ _)
  · rw [← result,taken,List.map_take]
  · intro id member
    obtain ⟨r,found,_,stored⟩ := claims.claimed id member
    exact ⟨r,found,by rw [stored,claimedRow_started]⟩

theorem dequeued {t t' : Statuses} {call : DequeueCall} {latestVersion : Option String} {rows : List (String × WorkflowStatus)} {now : Int}
    {claimedIDs : List String} (done : findAndMarkStartableWorkflows t call latestVersion rows now = some (claimedIDs,t')) :
    Dequeues call latestVersion now t t' claimedIDs := by
  unfold findAndMarkStartableWorkflows at done
  split at done
  · rename_i nothing
    cases done
    exact nothing_dequeues nothing
  · split at done
    · rename_i answer
      have both := Option.some.inj done
      rw [show claimedIDs = _ from congrArg Prod.fst both.symm,show t' = _ from congrArg Prod.snd both.symm]
      exact answer_dequeues answer
    · cases done

theorem Dequeues.within {call : DequeueCall} {latestVersion : Option String} {now : Int} {t t' : Statuses} {claimedIDs : List String}
    (dequeues : Dequeues call latestVersion now t t' claimedIDs) {W : Nat} (limit : call.queue.workerConcurrency = some W) :
    claimedIDs.length ≤ W - call.localRunningForQueue := by
  obtain ⟨startable,picked,_,_,⟨length,_⟩,rfl⟩ := dequeues.first
  rw [List.length_map,length,startCount,limit]
  simp only [atMost,Option.map_some,Option.elim]
  omega

end Dbos.DequeueSpec
