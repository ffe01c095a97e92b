import Dbos.Ops
import Dbos.Pg.Copy

/-!
The deadline of a workflow over whole runs of the database. It is set by an insertion, or by the
dequeue of a row that has a timeout and no deadline; every other statement on the row leaves it, or
rewrites the columns next to it, and only `resumeWorkflows` takes it away. To the operations of
`Dbos.Ops` come the other statements on `workflow_status`: imports, the SQL function
`enqueue_workflow`, `setWorkflowStatus` and the garbage collection.
-/
namespace Dbos.Deadlines
open Dbos.Pg Dbos.Schema Dbos.Status Dbos.Start Dbos.Dequeue Dbos.Ops StatusString

/-! ### Every statement on the table -/

/-- The arguments of the SQL function, with `serialized_inputs` made of the positional and the named ones. -/
structure EnqueueArgs where
  workflow_name : String
  queue_name : String
  serialized_inputs : String
  class_name : Option String := none
  config_name : Option String := none
  workflow_id : Option String := none
  app_version : Option String := none
  timeout_ms : Option Int := none
  deadline_epoch_ms : Option Int := none
  deduplication_id : Option String := none
  priority : Option Int := none
  queue_partition_key : Option String := none
  authenticated_user : Option String := none
  authenticated_roles : Option String := none
  delay_until_epoch_ms : Option Int := none

/-- A user or roles that are NULL stay NULL in the database; here they are the empty text. -/
def EnqueueArgs.row (args : EnqueueArgs) (v_owner_xid : String) (v_now : Int) : WorkflowStatus where
  status := if args.delay_until_epoch_ms.isNone then ENQUEUED else DELAYED
  inputs := some args.serialized_inputs
  name := args.workflow_name
  class_name := args.class_name
  config_name := args.config_name
  queue_name := some args.queue_name
  deduplication_id := args.deduplication_id
  priority := args.priority.getD 0
  queue_partition_key := args.queue_partition_key
  application_version := args.app_version
  created_at := v_now
  updated_at := v_now
  recovery_attempts := 0
  workflow_timeout_ms := args.timeout_ms
  workflow_deadline_epoch_ms := args.deadline_epoch_ms
  owner_xid := some v_owner_xid
  serialization := some "portable_json"
  authenticated_user := args.authenticated_user.getD ""
  authenticated_roles := args.authenticated_roles.getD ""
  delay_until_epoch_ms := args.delay_until_epoch_ms

/-- The function raises an exception for arguments that it refuses and for a pair of the unique index. -/
def enqueue_workflow (t : Statuses) (args : EnqueueArgs) (uuid v_owner_xid : String) (v_now : Int) : Statuses :=
  if args.workflow_name = "" ∨ args.queue_name = "" ∨ args.workflow_id = some "" ∨
      args.delay_until_epoch_ms.any (fun delay => delay < 0) then t
  else
    match indexed (t.upsert (args.workflow_id.getD uuid) (args.row v_owner_xid v_now) fun row => { row with updated_at := v_now }) with
    | .ok t' => t'
    | .error _ => t

/-- `updateWorkflowStatus` throws, and changes nothing, when there is no row. -/
def setWorkflowStatus (t : Statuses) (workflowID : String) (status : StatusString) (resetRecoveryAttempts : Bool)
    (updateName : Option String) (now : Int) : Statuses :=
  match updateWorkflowStatus t workflowID status { resetRecoveryAttempts := resetRecoveryAttempts,resetNameTo := updateName } {} true now with
  | .ok t' => t'
  | .error _ => t

def collectHits (cutoffEpochTimestampMs : Int) (_ : String) (row : WorkflowStatus) : Bool :=
  row.created_at < cutoffEpochTimestampMs ∧ row.status ≠ PENDING ∧ row.status ≠ ENQUEUED ∧ row.status ≠ DELAYED

/-- The INSERTs of an import: a used ID or a pair of the unique index undoes them all. -/
def importWorkflow (t : Statuses) (workflows : List (String × WorkflowStatus)) : Statuses :=
  match (t.insertRows workflows).map indexed with
  | some (.ok t') => t'
  | _ => t

inductive Write
  | operation (op : Op)
  | setWorkflowStatus (workflowID : String) (status : StatusString) (resetRecoveryAttempts : Bool) (updateName : Option String) (now : Int)
  | garbageCollect (cutoffEpochTimestampMs : Int)
  | importWorkflow (workflows : List (String × WorkflowStatus))
  | enqueue_workflow (args : EnqueueArgs) (uuid v_owner_xid : String) (v_now : Int)

def Write.apply (t : Statuses) : Write → Statuses
  | .operation op => op.apply t
  | .setWorkflowStatus workflowID status resetRecoveryAttempts updateName now =>
    Deadlines.setWorkflowStatus t workflowID status resetRecoveryAttempts updateName now
  | .garbageCollect cutoffEpochTimestampMs => t.delete (collectHits cutoffEpochTimestampMs)
  | .importWorkflow workflows => Deadlines.importWorkflow t workflows
  | .enqueue_workflow args uuid v_owner_xid v_now => Deadlines.enqueue_workflow t args uuid v_owner_xid v_now

def step (t : Statuses) (w : Write) : Option Statuses := some (w.apply t)

/-! ### The property -/

/-- The statement neither resumes nor deletes the workflow. -/
def Undisturbed (k : String) (t : Statuses) : Write → Prop
  | .operation (.resumeWorkflows workflowIDs _ _) => ∀ r ∈ t.get? k,unfinishedHits workflowIDs k r = false
  | .operation (.deleteWorkflows allIds) => k ∉ allIds
  | .garbageCollect cutoffEpochTimestampMs => ∀ r ∈ t.get? k,collectHits cutoffEpochTimestampMs k r = false
  | _ => True

/-- The statement is a dequeue that claims the workflow. -/
def Dequeues (k : String) (t : Statuses) : Write → Prop
  | .operation (.findAndMarkStartableWorkflows call recent ids now) => k ∈ (claimLoop call recent now ids [] t).1
  | _ => False

/-- In every run, from whatever table a run has reached, the workflow keeps its deadline, and has
    one from a dequeue on if it has a timeout, until it is resumed or deleted. -/
structure Stable (k : String) : Prop where
  kept : ∀ t ws t' r d,Runs step t ws t' → Along step (Undisturbed k) t ws → t.get? k = some r → r.workflow_deadline_epoch_ms = some d →
    ∃ r',t'.get? k = some r' ∧ r'.workflow_deadline_epoch_ms = some d
  dequeued : ∀ t w ws t',Dequeues k t w → Runs step (w.apply t) ws t' → Along step (Undisturbed k) (w.apply t) ws →
    ∃ r',t'.get? k = some r' ∧ (r'.workflow_timeout_ms.isSome → r'.workflow_deadline_epoch_ms.isSome)

/-! ### One statement -/

/-- The timeout stays, and so does a deadline. -/
structure Keeps (r r' : WorkflowStatus) : Prop where
  timeout : r'.workflow_timeout_ms = r.workflow_timeout_ms
  deadline : r.workflow_deadline_epoch_ms.isSome → r'.workflow_deadline_epoch_ms = r.workflow_deadline_epoch_ms

theorem keeps_trans {a b c : WorkflowStatus} (first : Keeps a b) (second : Keeps b c) : Keeps a c :=
  ⟨second.timeout.trans first.timeout,fun set => (second.deadline (by rw [first.deadline set]; exact set)).trans (first.deadline set)⟩

/-- A row with a timeout and a deadline keeps both. -/
theorem keeps_timed {r r' : WorkflowStatus} (keeps : Keeps r r') (timed : r.workflow_timeout_ms.isSome → r.workflow_deadline_epoch_ms.isSome)
    (limited : r'.workflow_timeout_ms.isSome) : r'.workflow_deadline_epoch_ms.isSome := by
  rw [keeps.timeout] at limited
  rw [keeps.deadline (timed limited)]
  exact timed limited

theorem claimedRow_keeps (call : DequeueCall) (now : Int) (r : WorkflowStatus) : Keeps r (claimedRow call now r) := by
  refine ⟨rfl,fun set => ?_⟩
  obtain ⟨d,deadline⟩ := Option.isSome_iff_exists.mp set
  simp only [claimedRow,deadline]
  cases r.workflow_timeout_ms <;> rfl

theorem claimedRow_timed (call : DequeueCall) (now : Int) (r : WorkflowStatus)
    (limited : (claimedRow call now r).workflow_timeout_ms.isSome) : (claimedRow call now r).workflow_deadline_epoch_ms.isSome := by
  obtain ⟨timeout,set⟩ := Option.isSome_iff_exists.mp limited
  have set' : r.workflow_timeout_ms = some timeout := set
  simp only [claimedRow,set']
  cases r.workflow_deadline_epoch_ms <;> rfl

theorem rewrite_keeps {k : String} {op : Op} {r r' : WorkflowStatus} (by_ : Rewrite k r op r')
    (unresumed : ∀ workflowIDs queueName now,op = .resumeWorkflows workflowIDs queueName now → unfinishedHits workflowIDs k r = false) :
    Keeps r r' := by
  cases by_ with
  | recorded op outcome now records open_ => cases outcome <;> exact ⟨rfl,fun _ => rfl⟩
  | resumed workflowIDs queueName now here unsuccessful unfailed =>
    have spared := unresumed workflowIDs queueName now rfl
    simp [unfinishedHits,here,unsuccessful,unfailed] at spared
  | claimed call recent ids now here waits => exact claimedRow_keeps call now r
  | _ => exact ⟨rfl,fun _ => rfl⟩

theorem update_keeps {t : Statuses} {k : String} {r : WorkflowStatus} (found : t.get? k = some r) {hit : String → WorkflowStatus → Bool}
    {set : String → WorkflowStatus → WorkflowStatus} (keeps : Keeps r (set k r)) : ∃ r',(t.update hit set).get? k = some r' ∧ Keeps r r' := by
  rcases t.update_cases hit set k with same | ⟨old,there,_,new⟩
  · exact ⟨r,same.trans found,rfl,fun _ => rfl⟩
  · cases found.symm.trans there
    exact ⟨_,new,keeps⟩

/-- What a statement that neither resumes nor deletes the workflow does to its row. -/
theorem apply_keeps {t : Statuses} {k : String} {r : WorkflowStatus} {w : Write} (undisturbed : Undisturbed k t w)
    (found : t.get? k = some r) : ∃ r',(w.apply t).get? k = some r' ∧ Keeps r r' := by
  cases w with
  | operation op =>
    have change := apply_changes t op k
    rw [found] at change
    generalize after : (op.apply t).get? k = new at change
    cases change with
    | kept => exact ⟨r,after,rfl,fun _ => rfl⟩
    | rewritten _ r' by_ =>
      refine ⟨r',after,rewrite_keeps by_ ?_⟩
      rintro workflowIDs queueName now rfl
      exact undisturbed r found
    | deleted _ allIds here deletes =>
      subst deletes
      exact absurd here undisturbed
  | setWorkflowStatus workflowID status resetRecoveryAttempts updateName now =>
    simp only [Write.apply,setWorkflowStatus,updateWorkflowStatus]
    split
    · rename_i done
      split at done
      · cases done
      · cases done
        exact update_keeps found ⟨rfl,fun _ => rfl⟩
    · exact ⟨r,found,rfl,fun _ => rfl⟩
  | garbageCollect cutoffEpochTimestampMs =>
    refine ⟨r,?_,rfl,fun _ => rfl⟩
    simp [Write.apply,found,undisturbed r found]
  | importWorkflow workflows =>
    refine ⟨r,?_,rfl,fun _ => rfl⟩
    simp only [Write.apply,importWorkflow]
    split
    · rename_i t' done
      obtain ⟨t₁,inserts,unique⟩ := Option.map_eq_some_iff.mp done
      unfold indexed at unique
      split at unique
      · cases unique
        exact (Table.insertRows_get? inserts k r).mpr (.inl found)
      · cases unique
    · exact found
  | enqueue_workflow args uuid v_owner_xid v_now =>
    simp only [Write.apply,enqueue_workflow]
    split
    · exact ⟨r,found,rfl,fun _ => rfl⟩
    · split
      · rename_i t' unique
        unfold indexed at unique
        split at unique
        · cases unique
          by_cases here : k = args.workflow_id.getD uuid
          · exact ⟨{ r with updated_at := v_now },by rw [Table.get?_upsert,if_pos here,← here,found]; rfl,rfl,fun _ => rfl⟩
          · exact ⟨r,by rw [Table.get?_upsert,if_neg here]; exact found,rfl,fun _ => rfl⟩
        · cases unique
      · exact ⟨r,found,rfl,fun _ => rfl⟩

/-- A claimed row with a timeout has a deadline. -/
theorem dequeues_timed {t : Statuses} {k : String} {w : Write} (dequeues : Dequeues k t w) :
    ∃ r,(w.apply t).get? k = some r ∧ (r.workflow_timeout_ms.isSome → r.workflow_deadline_epoch_ms.isSome) := by
  cases w with
  | operation op =>
    cases op with
    | findAndMarkStartableWorkflows call recent ids now =>
      obtain ⟨new,claims⟩ := claimLoop_claims call recent now ids [] t
      have member : k ∈ new := by
        have result := claims.result
        rw [List.nil_append] at result
        exact result ▸ dequeues
      obtain ⟨r,_,_,stored⟩ := claims.claimed k member
      exact ⟨_,stored,claimedRow_timed call now r⟩
    | _ => exact dequeues.elim
  | _ => exact dequeues.elim

/-! ### Runs -/

theorem run_keeps {t t' : Statuses} {k : String} {r : WorkflowStatus} {ws : List Write} (run : Runs step t ws t')
    (undisturbed : Along step (Undisturbed k) t ws) (found : t.get? k = some r) : ∃ r',t'.get? k = some r' ∧ Keeps r r' := by
  refine along_invariant (I := fun t => ∃ r',t.get? k = some r' ∧ Keeps r r') ?_ ⟨r,found,rfl,fun _ => rfl⟩ undisturbed run
  rintro s w s' ⟨r₁,found₁,keeps₁⟩ condition taken
  cases taken
  obtain ⟨r₂,found₂,keeps₂⟩ := apply_keeps condition found₁
  exact ⟨r₂,found₂,keeps_trans keeps₁ keeps₂⟩

theorem deadlines_stable (k : String) : Stable k := by
  constructor
  · intro t ws t' r d run undisturbed found deadline
    obtain ⟨r',found',keeps⟩ := run_keeps run undisturbed found
    exact ⟨r',found',(keeps.deadline (by rw [deadline]; rfl)).trans deadline⟩
  · intro t w ws t' dequeues run undisturbed
    obtain ⟨r,found,timed⟩ := dequeues_timed dequeues
    obtain ⟨r',found',keeps⟩ := run_keeps run undisturbed found
    exact ⟨r',found',keeps_timed keeps timed⟩

/-- A workflow with a timeout of 100 ms is dequeued, found by recovery, and dequeued again. -/
def recovered : List Write :=
  [.operation (.reenqueueWorkflowsForRecovery "e" "v" "q" 30),
    .operation (.findAndMarkStartableWorkflows { queue := { name := "q" },executorID := "e'",appVersion := "v",startTimeMs := 50 } 0 ["w"] 50)]

def dequeuedOnce : Statuses :=
  Table.empty.insert "w"
    { status := .PENDING,name := "f",queue_name := some "q",executor_id := some "e",application_version := some "v",
      workflow_timeout_ms := some 100,workflow_deadline_epoch_ms := some 110,created_at := 1,updated_at := 10 }

theorem deadlines_stable_recovered :
    ∃ t',Runs step dequeuedOnce recovered t' ∧
      ∃ r',t'.get? "w" = some r' ∧ r'.workflow_deadline_epoch_ms = some 110 ∧ r'.executor_id = some "e'" := by
  have ran : ((recovered.foldlM step dequeuedOnce).bind fun t' => t'.get? "w").map WorkflowStatus.executor_id = some (some "e'") := by decide
  obtain ⟨r,there,adopted⟩ := Option.map_eq_some_iff.mp ran
  obtain ⟨t',run,found⟩ := Option.bind_eq_some_iff.mp there
  obtain ⟨r',found',deadline⟩ := (deadlines_stable "w").kept dequeuedOnce recovered t' _ 110 run
    (along_iff.mpr fun first w rest t split _ => by
      have member : w ∈ recovered := by rw [split]; simp
      simp only [recovered,List.mem_cons,List.not_mem_nil,or_false] at member
      rcases member with rfl | rfl <;> trivial) rfl rfl
  cases found.symm.trans found'
  exact ⟨t',run,r,found,deadline,adopted⟩

/-! ### What a caller is told -/

theorem exit_deadline {initStatus : WorkflowStatusInternal} {ownerXid : Option String} {options : InitOptions} {resRow : InsertWorkflowResult}
    {res : InitResult} (ends : initExit initStatus ownerXid options resRow = .existing (.ok res) ∨
      initExit initStatus ownerXid options resRow = .execute res) : res.deadlineEpochMS = resRow.workflow_deadline_epoch_ms := by
  unfold initExit at ends
  repeat' split at ends
  all_goals
    rcases ends with ends | ends <;> cases ends <;> rfl

/-- What `initWorkflowStatus` reports is the deadline of the row that is there, whatever the caller has asked for. -/
theorem initWorkflowStatus_deadline {t : Statuses} {initStatus : WorkflowStatusInternal} {ownerXid : Option String} {options : InitOptions}
    {now : Int} {res : InitResult} (done : (initWorkflowStatus t initStatus ownerXid options now).1 = .ok res) :
    res.deadlineEpochMS = (t.get? initStatus.workflowUUID).elim initStatus.deadlineEpochMS WorkflowStatus.workflow_deadline_epoch_ms := by
  unfold initWorkflowStatus at done
  split at done
  · cases done
  · rename_i resRow t' inserted
    obtain ⟨_,shown⟩ := insertWorkflowStatus_ok inserted
    have stored : resRow.workflow_deadline_epoch_ms =
        (t.get? initStatus.workflowUUID).elim initStatus.deadlineEpochMS WorkflowStatus.workflow_deadline_epoch_ms := by
      rw [shown]
      cases t.get? initStatus.workflowUUID <;> rfl
    rw [← stored]
    cases ends : initExit initStatus ownerXid options resRow with
    | conflict e => simp [ends,initFinish] at done
    | exceeded maxRetries => simp [ends,initFinish] at done
    | existing r =>
      simp only [ends,initFinish] at done
      subst done
      exact exit_deadline (.inl ends)
    | execute r =>
      simp only [ends,initFinish,Except.ok.injEq] at done
      subst done
      exact exit_deadline (.inr ends)

end Dbos.Deadlines
