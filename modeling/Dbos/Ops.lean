import Dbos.Start
import Dbos.Dequeue
import Dbos.Pg.Run

/-!
The operations that write `workflow_status`, as one type with one transition function.
Each of them commits a single statement or a transaction that holds the rows it writes,
so a run of the database is the list of its committed operations. `apply_changes` says
everything that an operation can do to a row; the invariants are derived from it.
-/
namespace Dbos.Ops
open Dbos.Pg Dbos.Schema Dbos.Status Dbos.Start Dbos.Dequeue StatusString

/-- A committed operation with its arguments. For a dequeue, `recent` and `ids` are what
    its counts and its SELECT came to, whatever snapshot they read. -/
inductive Op
  | initWorkflowStatus (initStatus : NewStatus) (ownerXid : Option String) (options : InitOptions) (now : Int)
  | enqueueWorkflows (statuses : List NewStatus) (createdAts : List Int)
  | recordWorkflowOutput (workflowID : String) (status : WorkflowStatusInternal) (now : Int)
  | recordWorkflowError (workflowID : String) (status : WorkflowStatusInternal) (now : Int)
  | reenqueueWorkflowsForRecovery (executorID appVersion recoveryQueueName : String) (now : Int)
  | cancelWorkflows (workflowIDs : List String) (now : Int)
  | resumeWorkflows (workflowIDs : List String) (queueName : Option String) (now : Int)
  | setWorkflowPriority (workflowID : String) (priority now : Int)
  | setWorkflowDelay (workflowID : String) (delayUntilEpochMS now : Int)
  | debounceDelayedWorkflow (params : DebounceParams) (now : Int)
  | bulkForkWorkflows (originalWorkflowIDs forkedWorkflowIDs : List String) (options : ForkOptions) (now : Int)
  | transitionDelayedWorkflows (now : Int)
  | findAndMarkStartableWorkflows (call : DequeueCall) (recent : Nat) (ids : List String) (now : Int)
  | deleteWorkflows (allIds : List String)
  | claimExecutor (executorID workflowID : String)

/-- The table after the operation: an operation that throws leaves it as it was. -/
def Op.apply (t : Statuses) : Op → Statuses
  | .initWorkflowStatus initStatus ownerXid options now =>
    (Status.initWorkflowStatus t initStatus.status ownerXid options now).2
  | .enqueueWorkflows statuses createdAts => (Status.enqueueWorkflows t (statuses.map NewStatus.status) createdAts).2
  | .recordWorkflowOutput workflowID status now => (Status.recordWorkflowOutput t workflowID status now).2
  | .recordWorkflowError workflowID status now => (Status.recordWorkflowError t workflowID status now).2
  | .reenqueueWorkflowsForRecovery executorID appVersion recoveryQueueName now =>
    (Status.reenqueueWorkflowsForRecovery t executorID appVersion recoveryQueueName now).2
  | .cancelWorkflows workflowIDs now => Status.cancelWorkflows t workflowIDs now
  | .resumeWorkflows workflowIDs queueName now => Status.resumeWorkflows t workflowIDs queueName now
  | .setWorkflowPriority workflowID priority now => Status.setWorkflowPriority t workflowID priority now
  | .setWorkflowDelay workflowID delayUntilEpochMS now => Status.setWorkflowDelay t workflowID delayUntilEpochMS now
  | .debounceDelayedWorkflow params now => (Status.debounceDelayedWorkflow t params now).2
  | .bulkForkWorkflows originalWorkflowIDs forkedWorkflowIDs options now =>
    if originalWorkflowIDs.length ≠ forkedWorkflowIDs.length then t
    else (bulkForkStatuses t originalWorkflowIDs forkedWorkflowIDs options now).2
  | .transitionDelayedWorkflows now => Status.transitionDelayedWorkflows t now
  | .findAndMarkStartableWorkflows call recent ids now => (claimLoop call recent now ids [] t).2
  | .deleteWorkflows allIds => Status.deleteWorkflows t allIds
  | .claimExecutor executorID workflowID => Status.claimExecutor t executorID workflowID

def step (t : Statuses) (op : Op) : Option Statuses := some (op.apply t)

/-- The outcome an operation records, with the workflow and the time. -/
def Op.records : Op → Option (String × Outcome × Int)
  | .recordWorkflowOutput workflowID status now => some (workflowID,.output status.output,now)
  | .recordWorkflowError workflowID status now => some (workflowID,.error status.error,now)
  | _ => none

/-- The rows that an operation inserts. -/
inductive Inserted (k : String) : Op → WorkflowStatus → Prop
  | init (initStatus : NewStatus) (ownerXid : Option String) (options : InitOptions) (now : Int)
      (here : k = initStatus.status.workflowUUID) :
      Inserted k (.initWorkflowStatus initStatus ownerXid options now) (insertedRow initStatus.status ownerXid now)
  | enqueued (statuses : List NewStatus) (createdAts : List Int) (s : NewStatus) (createdAt : Int)
      (member : s ∈ statuses) (here : k = s.status.workflowUUID) (waits : s.status.status = ENQUEUED) :
      Inserted k (.enqueueWorkflows statuses createdAts) (enqueuedRow s.status createdAt)
  | forked (originals forks : List String) (options : ForkOptions) (now : Int) (origID : String) (ws : WorkflowStatus)
      (here : k ∈ forks) : Inserted k (.bulkForkWorkflows originals forks options now) (forkedRow origID ws options now)

/-- The row `r` under `k` rewritten by an operation, with the guard of its statement. -/
inductive Rewrite (k : String) (r : WorkflowStatus) : Op → WorkflowStatus → Prop
  | upserted (initStatus : NewStatus) (ownerXid : Option String) (options : InitOptions) (now : Int)
      (here : k = initStatus.status.workflowUUID) :
      Rewrite k r (.initWorkflowStatus initStatus ownerXid options now)
        (conflictRow initStatus.status (options.isRecoveryRequest || options.isDequeuedRequest) now r)
  | exceeded (initStatus : NewStatus) (ownerXid : Option String) (options : InitOptions) (now : Int)
      (here : k = initStatus.status.workflowUUID) (pending : r.status = PENDING) :
      Rewrite k r (.initWorkflowStatus initStatus ownerXid options now)
        (updatedRow MAX_RECOVERY_ATTEMPTS_EXCEEDED { resetDeduplicationID := true } now
          (conflictRow initStatus.status (options.isRecoveryRequest || options.isDequeuedRequest) now r))
  | recorded (op : Op) (outcome : Outcome) (now : Int) (records : op.records = some (k,outcome,now))
      (open_ : r.status ≠ CANCELLED) : Rewrite k r op (updatedRow outcome.status outcome.fields now r)
  | reenqueued (executorID appVersion recoveryQueueName : String) (now : Int) (hit : reenqueueHits executorID appVersion k r = true) :
      Rewrite k r
        (.reenqueueWorkflowsForRecovery executorID appVersion recoveryQueueName now)
        (reenqueuedRow recoveryQueueName now r)
  | cancelled (workflowIDs : List String) (now : Int) (here : k ∈ workflowIDs) (unsuccessful : r.status ≠ SUCCESS)
      (unfailed : r.status ≠ ERROR) : Rewrite k r (.cancelWorkflows workflowIDs now) (cancelledRow now r)
  | resumed (workflowIDs : List String) (queueName : Option String) (now : Int) (here : k ∈ workflowIDs)
      (unsuccessful : r.status ≠ SUCCESS) (unfailed : r.status ≠ ERROR) :
      Rewrite k r (.resumeWorkflows workflowIDs queueName now) (resumedRow queueName now r)
  | prioritised (priority now : Int) (waits : r.status = ENQUEUED ∨ r.status = DELAYED) :
      Rewrite k r (.setWorkflowPriority k priority now) { r with priority := priority,updated_at := now }
  | delayed (delayUntilEpochMS now : Int) (waits : r.status = DELAYED) : Rewrite k r
      (.setWorkflowDelay k delayUntilEpochMS now) { r with delay_until_epoch_ms := some delayUntilEpochMS,updated_at := now }
  | bounced (params : DebounceParams) (now : Int) (hit : bounceHits params k r = true) :
      Rewrite k r (.debounceDelayedWorkflow params now) (bouncedRow params now r)
  | forkedFrom (originals forks : List String) (options : ForkOptions) (now : Int) (here : k ∈ originals) :
      Rewrite k r (.bulkForkWorkflows originals forks options now) { r with was_forked_from := true }
  | transitioned (now : Int) (waits : r.status = DELAYED) (due : r.delay_until_epoch_ms.any fun delay => delay ≤ now) :
      Rewrite k r (.transitionDelayedWorkflows now) (transitionedRow now r)
  | claimed (call : DequeueCall) (recent : Nat) (ids : List String) (now : Int) (here : k ∈ ids)
      (waits : r.status = ENQUEUED) :
      Rewrite k r (.findAndMarkStartableWorkflows call recent ids now) (claimedRow call now r)
  | adopted (executorID : String) (other : r.executor_id ≠ some executorID) :
      Rewrite k r (.claimExecutor executorID k) { r with executor_id := some executorID }

/-- What became of the row under `k`. -/
inductive Change (k : String) (op : Op) : Option WorkflowStatus → Option WorkflowStatus → Prop
  | kept (row : Option WorkflowStatus) : Change k op row row
  | inserted (r : WorkflowStatus) (new : Inserted k op r) : Change k op none (some r)
  | rewritten (r r' : WorkflowStatus) (by_ : Rewrite k r op r') : Change k op (some r) (some r')
  | deleted (r : WorkflowStatus) (allIds : List String) (here : k ∈ allIds) (deletes : op = .deleteWorkflows allIds) :
      Change k op (some r) none

variable {t : Statuses} {k : String}

theorem change_of_update {op : Op} {hit : String → WorkflowStatus → Bool} {set : String → WorkflowStatus → WorkflowStatus}
    (rewrites : ∀ r, hit k r = true → Rewrite k r op (set k r)) :
    Change k op (t.get? k) ((t.update hit set).get? k) := by
  rcases t.update_cases hit set k with same | ⟨r,found,hits,new⟩
  · rw [same]
    exact .kept _
  · rw [found,new]
    exact .rewritten r _ (rewrites r hits)

/-- A recording rewrites the row of its workflow unless that row is CANCELLED. -/
theorem change_of_record {op : Op} {workflowID : String} {outcome : Outcome} {now : Int}
    (records : op.records = some (workflowID,outcome,now)) :
    Change k op (t.get? k) ((recordUpdate t workflowID outcome now).get? k) := by
  refine change_of_update ?_
  intro r hit
  simp only [updateHits,Option.all_none,Option.all_some,decide_eq_true_eq,true_and] at hit
  exact .recorded op outcome now (hit.1 ▸ records) hit.2

/-! ### initWorkflowStatus -/

/-- What the upsert returns is the row that it leaves. -/
theorem insertWorkflowStatus_ok {initStatus : WorkflowStatusInternal} {ownerXid : Option String} {inc : Bool} {now : Int}
    {resRow : InsertWorkflowResult} {t' : Statuses}
    (done : insertWorkflowStatus t initStatus ownerXid inc now = .ok (resRow,t')) :
    t' = t.upsert initStatus.workflowUUID (insertedRow initStatus ownerXid now) (conflictRow initStatus inc now) ∧
      resRow = returning ((t.get? initStatus.workflowUUID).elim (insertedRow initStatus ownerXid now)
        (conflictRow initStatus inc now)) := by
  unfold insertWorkflowStatus at done
  dsimp only at done
  split at done
  · rename_i row found
    cases done
    exact ⟨rfl,by rw [found]; rfl⟩
  · rename_i absent
    split at done
    · cases done
    · cases done
      exact ⟨rfl,by rw [absent]; rfl⟩

/-- A new row has at most one attempt, so it is never over the limit. -/
theorem initExit_new {initStatus : WorkflowStatusInternal} {ownerXid : Option String} {options : InitOptions} {now : Int}
    {maxRetries : Nat} :
    initExit initStatus ownerXid options (returning (insertedRow initStatus ownerXid now)) ≠ .exceeded maxRetries := by
  have few : (returning (insertedRow initStatus ownerXid now)).recovery_attempts ≤ 1 := by
    simp only [returning,insertedRow]
    split <;> omega
  intro exceeds
  unfold initExit at exceeds
  split at exceeds
  · cases exceeds
  split at exceeds
  · cases exceeds
  split at exceeds
  · cases exceeds
  split at exceeds
  · split at exceeds <;> cases exceeds
  split at exceeds
  · split at exceeds
    · omega
    · cases exceeds
  · cases exceeds

theorem change_of_upsert (initStatus : NewStatus) (ownerXid : Option String) (options : InitOptions) (now : Int) :
    Change k (.initWorkflowStatus initStatus ownerXid options now) (t.get? k)
      ((t.upsert initStatus.status.workflowUUID (insertedRow initStatus.status ownerXid now)
        (conflictRow initStatus.status (options.isRecoveryRequest || options.isDequeuedRequest) now)).get? k) := by
  rw [Table.get?_upsert]
  by_cases here : k = initStatus.status.workflowUUID
  · rw [if_pos here,← here]
    cases t.get? k with
    | none => exact .inserted _ (.init initStatus ownerXid options now here)
    | some old => exact .rewritten old _ (.upserted initStatus ownerXid options now here)
  · rw [if_neg here]
    exact .kept _

theorem change_of_init (initStatus : NewStatus) (ownerXid : Option String) (options : InitOptions) (now : Int) :
    Change k (.initWorkflowStatus initStatus ownerXid options now) (t.get? k)
      ((initWorkflowStatus t initStatus.status ownerXid options now).2.get? k) := by
  unfold initWorkflowStatus
  split
  · exact .kept _
  · rename_i resRow t' inserted
    obtain ⟨rfl,rfl⟩ := insertWorkflowStatus_ok inserted
    generalize ends : initExit initStatus.status ownerXid options _ = exit
    cases exit with
    | conflict e => exact .kept _
    | existing r => exact .kept _
    | execute r => exact change_of_upsert initStatus ownerXid options now
    | exceeded maxRetries =>
      -- Only a row that was there can be over the limit, and only a PENDING one is marked.
      simp only [initFinish,Table.get?_update]
      by_cases here : k = initStatus.status.workflowUUID
      · rw [← here] at ends
        cases found : t.get? k with
        | none =>
          rw [found] at ends
          exact absurd ends initExit_new
        | some old =>
          rw [Table.get?_upsert,if_pos here,← here,found]
          simp only [Option.elim,Option.map_some,updateHits,Option.all_some,Option.all_none,and_true,true_and]
          by_cases pending : old.status = PENDING
          · rw [if_pos (by simpa [conflictRow] using pending)]
            exact .rewritten old _ (.exceeded initStatus ownerXid options now here pending)
          · rw [if_neg (by simpa [conflictRow] using pending)]
            exact .rewritten old _ (.upserted initStatus ownerXid options now here)
      · rw [Table.get?_upsert,if_neg here]
        simp only [updateHits,here,false_and,decide_false,Bool.false_eq_true,if_false,Option.map_id']
        exact .kept _

/-- An `initWorkflowStatus` that succeeds leaves a row under its ID. -/
theorem init_there {t : Statuses} {initStatus : WorkflowStatusInternal} {ownerXid : Option String} {options : InitOptions} {now : Int}
    {r : InitResult} (done : (initWorkflowStatus t initStatus ownerXid options now).1 = .ok r) :
    ((initWorkflowStatus t initStatus ownerXid options now).2.get? initStatus.workflowUUID).isSome := by
  unfold initWorkflowStatus at done ⊢
  split at done
  · cases done
  · rename_i resRow t' inserted
    obtain ⟨rfl,shown⟩ := insertWorkflowStatus_ok inserted
    cases ends : initExit initStatus ownerXid options resRow with
    | conflict e => simp [ends,initFinish] at done
    | exceeded maxRetries => simp [ends,initFinish] at done
    | execute r' => simp [initFinish]
    | existing r' =>
      -- A row of another owner was there before.
      simp only [initFinish]
      cases before : t.get? initStatus.workflowUUID with
      | some row => rfl
      | none =>
        rw [before] at shown
        subst shown
        simp [initExit,returning,insertedRow,nullIfEmpty_getD] at ends
        split at ends
        · split at ends <;> cases ends
        · cases ends

/-! ### Batches, forks and dequeues -/

theorem enqueueRow_get? (acc : List String × Statuses) (s : WorkflowStatusInternal × Int) :
    (enqueueRow acc s).2.get? k = acc.2.get? k ∨
      (k = s.1.workflowUUID ∧ acc.2.get? k = none ∧ (enqueueRow acc s).2.get? k = some (enqueuedRow s.1 s.2)) :=
  acc.2.insert_cases s.1.workflowUUID (enqueuedRow s.1 s.2) k

/-- A batch leaves a row alone or inserts the row of one of its members. -/
theorem enqueueRows_get? (batch : List (WorkflowStatusInternal × Int)) (acc : List String × Statuses) :
    (batch.foldl enqueueRow acc).2.get? k = acc.2.get? k ∨
      (acc.2.get? k = none ∧ ∃ s ∈ batch,k = s.1.workflowUUID ∧
        (batch.foldl enqueueRow acc).2.get? k = some (enqueuedRow s.1 s.2)) := by
  induction batch generalizing acc with
  | nil => exact .inl rfl
  | cons s rest ih =>
    rw [List.foldl_cons]
    rcases enqueueRow_get? acc s with same | ⟨here,absent,new⟩
    · rcases ih (enqueueRow acc s) with kept | ⟨absent,s',member,here,new⟩
      · exact .inl (kept.trans same)
      · exact .inr ⟨same ▸ absent,s',List.mem_cons_of_mem _ member,here,new⟩
    · rcases ih (enqueueRow acc s) with kept | ⟨missing,_⟩
      · exact .inr ⟨absent,s,List.mem_cons_self,here,kept.trans new⟩
      · rw [new] at missing
        cases missing

theorem refusedStatus_none {statuses : List WorkflowStatusInternal} (accepted : refusedStatus statuses = none)
    {s : WorkflowStatusInternal} (member : s ∈ statuses) : s.status = ENQUEUED := by
  have passes := List.findSome?_eq_none_iff.mp accepted s member
  by_contra other
  simp [other] at passes

theorem change_of_enqueue (statuses : List NewStatus) (createdAts : List Int) :
    Change k (.enqueueWorkflows statuses createdAts) (t.get? k)
      ((enqueueWorkflows t (statuses.map NewStatus.status) createdAts).2.get? k) := by
  unfold enqueueWorkflows
  split
  · exact .kept _
  · rename_i accepted
    rcases enqueueRows_get? (k := k) ((statuses.map NewStatus.status).zip createdAts) ([],t) with
      same | ⟨absent,⟨s,createdAt⟩,member,here,new⟩
    · dsimp only at same ⊢
      rw [same]
      exact .kept _
    · have listed := (List.of_mem_zip member).1
      obtain ⟨built,one,rfl⟩ := List.mem_map.mp listed
      dsimp only at new absent ⊢
      rw [new,absent]
      exact .inserted _ (.enqueued statuses createdAts built createdAt one here (refusedStatus_none accepted listed))

/-- Forks are inserted under IDs that were free. -/
theorem insertForks_get? {originals t' : Statuses} {options : ForkOptions} {now : Int} (pairs : List (String × String))
    (done : pairs.foldlM (insertFork originals options now) t = .ok t') :
    t'.get? k = t.get? k ∨ (t.get? k = none ∧ ∃ pair ∈ pairs,k = pair.2 ∧
      ∃ ws, t'.get? k = some (forkedRow pair.1 ws options now)) := by
  induction pairs generalizing t with
  | nil =>
    cases done
    exact .inl rfl
  | cons pair rest ih =>
    rw [List.foldlM_cons] at done
    unfold insertFork at done
    split at done
    · cases done
    · rename_i ws original
      split at done
      · cases done
      · rename_i free
        rcases t.insert_cases pair.2 (forkedRow pair.1 ws options now) k with same | ⟨here,absent,new⟩
        · rcases ih done with kept | ⟨absent,pair',member,here,stored⟩
          · exact .inl (kept.trans same)
          · exact .inr ⟨same ▸ absent,pair',List.mem_cons_of_mem _ member,here,stored⟩
        · rcases ih done with kept | ⟨missing,_⟩
          · exact .inr ⟨absent,pair,List.mem_cons_self,here,ws,kept.trans new⟩
          · rw [new] at missing
            cases missing

theorem change_of_fork (originals forks : List String) (options : ForkOptions) (now : Int) :
    Change k (.bulkForkWorkflows originals forks options now) (t.get? k)
      ((bulkForkStatuses t originals forks options now).2.get? k) := by
  unfold bulkForkStatuses
  split
  · exact .kept _
  · rename_i exist
    split
    · exact .kept _
    · rename_i t' done
      simp only [Table.get?_update]
      rcases insertForks_get? (k := k) _ done with same | ⟨absent,pair,member,here,ws,stored⟩
      · rw [same]
        cases found : t.get? k with
        | none => exact .kept _
        | some r =>
          by_cases original : k ∈ originals
          · simpa [original] using .rewritten r _ (.forkedFrom originals forks options now original)
          · simpa [original] using .kept _
      · -- The originals exist before the forks do, so a fork is not one of them.
        have other : k ∉ originals := by
          intro original
          have present := List.find?_eq_none.mp exist k original
          simp [absent] at present
        rw [stored,absent]
        simpa [other] using .inserted _ (.forked originals forks options now pair.1 ws (here ▸ (List.of_mem_zip member).2))

/-- The claim loop leaves a row alone or claims it from ENQUEUED. -/
theorem claimLoop_get? (call : DequeueCall) (recent : Nat) (now : Int) (ids claimedIDs : List String) (t : Statuses) :
    (claimLoop call recent now ids claimedIDs t).2.get? k = t.get? k ∨
      ∃ r, t.get? k = some r ∧ r.status = ENQUEUED ∧ k ∈ ids ∧
        (claimLoop call recent now ids claimedIDs t).2.get? k = some (claimedRow call now r) := by
  obtain ⟨new,claims⟩ := claimLoop_claims call recent now ids claimedIDs t
  by_cases member : k ∈ new
  · obtain ⟨r,found,waits,stored⟩ := claims.claimed k member
    exact .inr ⟨r,found,waits,claims.listed k member,stored⟩
  · exact .inl (claims.kept k member)

/-! ### Every operation -/

/-- Everything that an operation can do to a row. -/
theorem apply_changes (t : Statuses) (op : Op) (k : String) : Change k op (t.get? k) ((op.apply t).get? k) := by
  cases op with
  | initWorkflowStatus initStatus ownerXid options now => exact change_of_init initStatus ownerXid options now
  | enqueueWorkflows statuses createdAts => exact change_of_enqueue statuses createdAts
  | recordWorkflowOutput workflowID status now => exact change_of_record rfl
  | recordWorkflowError workflowID status now => exact change_of_record rfl
  | reenqueueWorkflowsForRecovery executorID appVersion recoveryQueueName now =>
    simp only [Op.apply,reenqueueWorkflowsForRecovery,indexed]
    split
    · rename_i t' unique
      split at unique
      · cases unique
        exact change_of_update fun r hit => .reenqueued executorID appVersion recoveryQueueName now hit
      · cases unique
    · exact .kept _
  | cancelWorkflows workflowIDs now =>
    refine change_of_update ?_
    intro r hit
    simp only [unfinishedHits,decide_eq_true_eq] at hit
    exact .cancelled workflowIDs now hit.1 hit.2.1 hit.2.2
  | resumeWorkflows workflowIDs queueName now =>
    refine change_of_update ?_
    intro r hit
    simp only [unfinishedHits,decide_eq_true_eq] at hit
    exact .resumed workflowIDs queueName now hit.1 hit.2.1 hit.2.2
  | setWorkflowPriority workflowID priority now =>
    refine change_of_update ?_
    intro r hit
    simp only [decide_eq_true_eq] at hit
    obtain ⟨rfl,waits⟩ := hit
    exact .prioritised priority now waits
  | setWorkflowDelay workflowID delayUntilEpochMS now =>
    refine change_of_update ?_
    intro r hit
    simp only [decide_eq_true_eq] at hit
    obtain ⟨rfl,waits⟩ := hit
    exact .delayed delayUntilEpochMS now waits
  | debounceDelayedWorkflow params now =>
    simp only [Op.apply,debounceDelayedWorkflow]
    split
    · exact change_of_update fun r hit => .bounced params now hit
    · split <;> exact .kept _
  | bulkForkWorkflows originals forks options now =>
    simp only [Op.apply]
    split
    · exact .kept _
    · exact change_of_fork originals forks options now
  | transitionDelayedWorkflows now =>
    refine change_of_update ?_
    intro r hit
    simp only [decide_eq_true_eq] at hit
    exact .transitioned now hit.1 hit.2
  | findAndMarkStartableWorkflows call recent ids now =>
    rcases claimLoop_get? (k := k) call recent now ids [] t with same | ⟨r,found,waits,member,stored⟩
    · simp only [Op.apply,same]
      exact .kept _
    · simp only [Op.apply,stored,found]
      exact .rewritten r _ (.claimed call recent ids now member waits)
  | deleteWorkflows allIds =>
    simp only [Op.apply,deleteWorkflows,Table.get?_delete]
    cases found : t.get? k with
    | none => exact .kept _
    | some r =>
      by_cases here : k ∈ allIds
      · simpa [here] using .deleted r allIds here rfl
      · simpa [here] using .kept _
  | claimExecutor executorID workflowID =>
    refine change_of_update ?_
    intro r hit
    simp only [decide_eq_true_eq] at hit
    obtain ⟨rfl,other⟩ := hit
    exact .adopted executorID other

/-! ### Rows that stay -/

/-- Only one operation takes rows away. -/
def keepsRows : Op → Bool
  | .deleteWorkflows _ => false
  | _ => true

theorem apply_keeps {t : Statuses} (op : Op) (keeps : keepsRows op = true) {k : String} (there : (t.get? k).isSome) :
    ((op.apply t).get? k).isSome := by
  obtain ⟨row,found⟩ := Option.isSome_iff_exists.mp there
  have change := apply_changes t op k
  rw [found] at change
  generalize (op.apply t).get? k = after at change
  cases change with
  | kept => rfl
  | rewritten r r' by_ => rfl
  | deleted r allIds here deletes =>
    rw [deletes] at keeps
    cases keeps

end Dbos.Ops
