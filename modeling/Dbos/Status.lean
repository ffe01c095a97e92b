import Dbos.Schema

/-!
The statements of `src/system_database.ts` on `workflow_status`, one definition for
each method, as the method runs with no other transaction between its statements.
`now` is the clock the method reads: `Date.now()` or SQL `now()` in milliseconds.
A method that throws returns the error; the table beside it is what was committed.
-/
namespace Dbos.Status
open Dbos.Pg Dbos.Schema StatusString

/-- Class and configuration names are NULL in the database when they are not set. -/
def nullIfEmpty (text : String) : Option String := if text = "" then none else some text

theorem nullIfEmpty_getD (text : String) : (nullIfEmpty text).getD "" = text := by
  unfold nullIfEmpty
  split
  · rename_i blank
    exact blank.symm
  · rfl

/-- The pairs that the unique index on (`queue_name`, `deduplication_id`) holds. -/
def dedupKeys (t : Statuses) : List (String × String) :=
  t.entries.filterMap fun e =>
    match e.2.queue_name,e.2.deduplication_id with
    | some q,some d => some (q,d)
    | _,_ => none

/-- A statement fails with 23505 when its result would repeat a pair. -/
def indexed (t : Statuses) : Except DbosError Statuses :=
  if (dedupKeys t).Nodup then .ok t else .error (.DatabaseError "23505")

/-! ### insertWorkflowStatus and initWorkflowStatus -/

/-- The row that `insertWorkflowStatus` inserts. -/
def insertedRow (initStatus : WorkflowStatusInternal) (ownerXid : Option String) (now : Int) : WorkflowStatus where
  status := initStatus.status
  name := initStatus.workflowName
  class_name := nullIfEmpty initStatus.workflowClassName
  config_name := nullIfEmpty initStatus.workflowConfigName
  queue_name := initStatus.queueName
  authenticated_user := initStatus.authenticatedUser
  assumed_role := initStatus.assumedRole
  authenticated_roles := initStatus.authenticatedRoles
  request := initStatus.request
  executor_id := some initStatus.executorId
  application_version := initStatus.applicationVersion
  application_id := initStatus.applicationID
  created_at := initStatus.createdAt
  recovery_attempts := if initStatus.status = ENQUEUED ∨ initStatus.status = DELAYED then 0 else 1
  updated_at := initStatus.updatedAt.getD now
  workflow_timeout_ms := initStatus.timeoutMS
  workflow_deadline_epoch_ms := initStatus.deadlineEpochMS
  inputs := initStatus.input
  deduplication_id := initStatus.deduplicationID
  priority := initStatus.priority
  queue_partition_key := initStatus.queuePartitionKey
  forked_from := initStatus.forkedFrom
  parent_workflow_id := initStatus.parentWorkflowID
  serialization := initStatus.serialization
  owner_xid := ownerXid
  delay_until_epoch_ms := initStatus.delayUntilEpochMS
  attributes := initStatus.attributes
  schedule_name := initStatus.scheduleName
  debounce_deadline_epoch_ms := initStatus.debounceDeadlineEpochMS
  is_debounced := initStatus.isDebounced

/-- What ON CONFLICT DO UPDATE makes of the row that is there. -/
def conflictRow (initStatus : WorkflowStatusInternal) (incrementAttempts : Bool) (now : Int)
    (row : WorkflowStatus) : WorkflowStatus :=
  { row with
    recovery_attempts := if row.status ≠ ENQUEUED ∧ row.status ≠ DELAYED then
      row.recovery_attempts + (if incrementAttempts then 1 else 0) else row.recovery_attempts
    updated_at := initStatus.updatedAt.getD now
    executor_id := if initStatus.status ≠ ENQUEUED ∧ initStatus.status ≠ DELAYED then
      some initStatus.executorId else row.executor_id }

/-- The RETURNING columns, with NULL names read as empty strings. -/
structure InsertWorkflowResult where
  recovery_attempts : Nat
  status : StatusString
  name : String
  class_name : String
  config_name : String
  queue_name : Option String
  workflow_deadline_epoch_ms : Option Int
  executor_id : Option String
  owner_xid : Option String
  serialization : Option String
  deriving DecidableEq

def returning (row : WorkflowStatus) : InsertWorkflowResult where
  recovery_attempts := row.recovery_attempts
  status := row.status
  name := row.name
  class_name := row.class_name.getD ""
  config_name := row.config_name.getD ""
  queue_name := row.queue_name
  workflow_deadline_epoch_ms := row.workflow_deadline_epoch_ms
  executor_id := row.executor_id
  owner_xid := row.owner_xid
  serialization := row.serialization

/-- The upsert returns one row always. Only its INSERT can repeat a pair of the index, since
    DO UPDATE sets no column of it. -/
def insertWorkflowStatus (t : Statuses) (initStatus : WorkflowStatusInternal) (ownerXid : Option String)
    (incrementAttempts : Bool) (now : Int) : Except DbosError (InsertWorkflowResult × Statuses) :=
  let t' := t.upsert initStatus.workflowUUID (insertedRow initStatus ownerXid now)
    (conflictRow initStatus incrementAttempts now)
  match t.get? initStatus.workflowUUID with
  | some row => .ok (returning (conflictRow initStatus incrementAttempts now row),t')
  | none =>
    match indexed t' with
    | .error _ => .error (.DBOSQueueDuplicatedError initStatus.workflowUUID (initStatus.queueName.getD "")
        (initStatus.deduplicationID.getD ""))
    | .ok _ => .ok (returning (insertedRow initStatus ownerXid now),t')

/-- Options of `initWorkflowStatus`; `maxRetries` counts attempts and 0 means no limit. -/
structure InitOptions where
  isRecoveryRequest : Bool := false
  isDequeuedRequest : Bool := false
  maxRetries : Option Nat := none
  deriving DecidableEq

structure InitResult where
  status : StatusString
  shouldExecuteOnThisExecutor : Bool
  deadlineEpochMS : Option Int
  serialization : Option String
  deriving DecidableEq

/-- How `initWorkflowStatus` ends after the upsert: the first two roll the upsert back,
    the last two commit it. -/
inductive InitExit
  | conflict (e : DbosError)
  | existing (r : Except DbosError InitResult)
  | exceeded (maxRetries : Nat)
  | execute (r : InitResult)
  deriving DecidableEq

def initExit (initStatus : WorkflowStatusInternal) (ownerXid : Option String) (options : InitOptions)
    (resRow : InsertWorkflowResult) : InitExit :=
  if resRow.name ≠ initStatus.workflowName then
    .conflict (.DBOSConflictingWorkflowError initStatus.workflowUUID
      ("Workflow already exists with a different function name: " ++ resRow.name ++
        ", but the provided function name is: " ++ initStatus.workflowName))
  else if resRow.class_name ≠ initStatus.workflowClassName then
    .conflict (.DBOSConflictingWorkflowError initStatus.workflowUUID
      ("Workflow already exists with a different class name: " ++ resRow.class_name ++
        ", but the provided class name is: " ++ initStatus.workflowClassName))
  else if resRow.config_name ≠ initStatus.workflowConfigName then
    .conflict (.DBOSConflictingWorkflowError initStatus.workflowUUID
      ("Workflow already exists with a different class configuration: " ++ resRow.config_name ++
        ", but the provided class configuration is: " ++ initStatus.workflowConfigName))
  else if ownerXid ≠ resRow.owner_xid ∧ options.isRecoveryRequest = false ∧ options.isDequeuedRequest = false then
    if resRow.status = MAX_RECOVERY_ATTEMPTS_EXCEEDED then
      .existing (.error (.DBOSMaxRecoveryAttemptsExceededError initStatus.workflowUUID
        (match options.maxRetries with | some m => m | none => -1)))
    else .existing (.ok ⟨resRow.status,false,resRow.workflow_deadline_epoch_ms,resRow.serialization⟩)
  else
    match options.maxRetries with
    | some (m + 1) => if m + 2 < resRow.recovery_attempts then .exceeded (m + 1)
        else .execute ⟨resRow.status,true,resRow.workflow_deadline_epoch_ms,resRow.serialization⟩
    | _ => .execute ⟨resRow.status,true,resRow.workflow_deadline_epoch_ms,resRow.serialization⟩

/-! ### updateWorkflowStatus and recordWorkflowOutcome -/

/-- The `update` option: `none` is an absent field, `queueName := some none` sets NULL. -/
structure UpdateFields where
  output : Option String := none
  error : Option String := none
  resetRecoveryAttempts : Bool := false
  queueName : Option (Option String) := none
  resetDeadline : Bool := false
  resetDeduplicationID : Bool := false
  resetStartedAtEpochMs : Bool := false
  executorId : Option String := none
  resetNameTo : Option String := none
  setCompletedAt : Bool := false
  clearCompletedAt : Bool := false

structure UpdateWhere where
  status : Option StatusString := none
  notStatus : Option StatusString := none

/-- `if (text) column = text`: NULL and the empty string leave the column as it is. -/
def assignIfSet (text column : Option String) : Option String :=
  match text with
  | some s => if s = "" then column else some s
  | none => column

def updatedRow (status : StatusString) (update : UpdateFields) (now : Int) (row : WorkflowStatus) : WorkflowStatus :=
  { row with
    status := status
    updated_at := now
    output := assignIfSet update.output row.output
    error := assignIfSet update.error row.error
    recovery_attempts := if update.resetRecoveryAttempts then 0 else row.recovery_attempts
    workflow_deadline_epoch_ms := if update.resetDeadline then none else row.workflow_deadline_epoch_ms
    queue_name := update.queueName.getD row.queue_name
    deduplication_id := if update.resetDeduplicationID then none else row.deduplication_id
    started_at_epoch_ms := if update.resetStartedAtEpochMs then none else row.started_at_epoch_ms
    executor_id := update.executorId.or row.executor_id
    name := update.resetNameTo.getD row.name
    completed_at := if update.setCompletedAt then some now else if update.clearCompletedAt then none
      else row.completed_at }

def updateHits (workflowID : String) (cond : UpdateWhere) (k : String) (row : WorkflowStatus) : Bool :=
  k = workflowID ∧ cond.status.all (fun s => row.status = s) ∧ cond.notStatus.all fun s => row.status ≠ s

def updateWorkflowStatus (t : Statuses) (workflowID : String) (status : StatusString) (update : UpdateFields)
    (cond : UpdateWhere) (throwOnFailure : Bool) (now : Int) : Except DbosError Statuses :=
  if throwOnFailure = true ∧ t.count (updateHits workflowID cond) ≠ 1 then
    .error (.DBOSWorkflowConflictError ("Attempt to record transition of nonexistent workflow " ++ workflowID))
  else .ok (t.update (updateHits workflowID cond) fun _ => updatedRow status update now)

/-- SELECT status: `none` when there is no row. -/
def getWorkflowStatusValue (t : Statuses) (workflowID : String) : Option StatusString :=
  (t.get? workflowID).map WorkflowStatus.status

/-- What a finished workflow records: SUCCESS with an output or ERROR with an error. -/
inductive Outcome
  | output (text : Option String)
  | error (text : Option String)
  deriving DecidableEq

def Outcome.status : Outcome → StatusString
  | .output _ => SUCCESS
  | .error _ => ERROR

def Outcome.fields : Outcome → UpdateFields
  | .output text => { output := text,resetDeduplicationID := true,setCompletedAt := true }
  | .error text => { error := text,resetDeduplicationID := true,setCompletedAt := true }

/-- The UPDATE of `#recordWorkflowOutcome`: it spares a CANCELLED row and nothing else. -/
def recordUpdate (t : Statuses) (workflowID : String) (outcome : Outcome) (now : Int) : Statuses :=
  t.update (updateHits workflowID { notStatus := some CANCELLED }) fun _ => updatedRow outcome.status outcome.fields now

/-- The verdict of `#recordWorkflowOutcome`, from the status that its SELECT reads. -/
def recordVerdict (workflowID : String) (status : Option StatusString) : Except DbosError Unit :=
  if status = some CANCELLED then .error (.DBOSWorkflowCancelledError workflowID) else .ok ()

def recordWorkflowOutcome (t : Statuses) (workflowID : String) (outcome : Outcome) (now : Int) :
    Except DbosError Unit × Statuses :=
  let t' := recordUpdate t workflowID outcome now
  (recordVerdict workflowID (getWorkflowStatusValue t' workflowID),t')

def recordWorkflowOutput (t : Statuses) (workflowID : String) (status : WorkflowStatusInternal) (now : Int) :
    Except DbosError Unit × Statuses :=
  recordWorkflowOutcome t workflowID (.output status.output) now

def recordWorkflowError (t : Statuses) (workflowID : String) (status : WorkflowStatusInternal) (now : Int) :
    Except DbosError Unit × Statuses :=
  recordWorkflowOutcome t workflowID (.error status.error) now

/-- What `initWorkflowStatus` commits and how it ends, from its exit after the upsert. -/
def initFinish (before after : Statuses) (initStatus : WorkflowStatusInternal) (now : Int) :
    InitExit → Except DbosError InitResult × Statuses
  | .conflict e => (.error e,before)
  | .existing r => (r,before)
  | .exceeded maxRetries =>
    (.error (.DBOSMaxRecoveryAttemptsExceededError initStatus.workflowUUID maxRetries),
      after.update (updateHits initStatus.workflowUUID { status := some PENDING })
        fun _ => updatedRow MAX_RECOVERY_ATTEMPTS_EXCEEDED { resetDeduplicationID := true } now)
  | .execute r => (.ok r,after)

def initWorkflowStatus (t : Statuses) (initStatus : WorkflowStatusInternal) (ownerXid : Option String)
    (options : InitOptions) (now : Int) : Except DbosError InitResult × Statuses :=
  match insertWorkflowStatus t initStatus ownerXid (options.isRecoveryRequest || options.isDequeuedRequest) now with
  | .error e => (.error e,t)
  | .ok (resRow,t') => initFinish t t' initStatus now (initExit initStatus ownerXid options resRow)

/-! ### Batches, recovery, cancellation and resumption -/

/-- The row that `enqueueWorkflows` inserts, with the batch's `created_at`. -/
def enqueuedRow (status : WorkflowStatusInternal) (createdAt : Int) : WorkflowStatus :=
  { insertedRow { status with updatedAt := some createdAt } none createdAt with
    created_at := createdAt
    recovery_attempts := 0
    deduplication_id := none
    forked_from := none
    debounce_deadline_epoch_ms := none
    is_debounced := false }

/-- The first status of a batch that `enqueueWorkflows` refuses. -/
def refusedStatus (statuses : List WorkflowStatusInternal) : Option DbosError :=
  statuses.findSome? fun s =>
    if s.status ≠ ENQUEUED then
      some (.DBOSError ("enqueueWorkflows only accepts " ++ ENQUEUED.text ++ " workflows, but " ++ s.workflowUUID ++
        " is " ++ s.status.text))
    else if s.deduplicationID.isSome then
      some (.DBOSError ("enqueueWorkflows does not support deduplication IDs, but " ++ s.workflowUUID ++ " has one"))
    else none

/-- One row of a batch: INSERT ... ON CONFLICT DO NOTHING RETURNING `workflow_uuid`. -/
def enqueueRow (acc : List String × Statuses) (s : WorkflowStatusInternal × Int) : List String × Statuses :=
  (if (acc.2.get? s.1.workflowUUID).isSome then acc.1 else acc.1 ++ [s.1.workflowUUID],
    acc.2.insert s.1.workflowUUID (enqueuedRow s.1 s.2))

/-- `createdAts` are the stamps that `#assignBatchCreatedAt` gave the batch. -/
def enqueueWorkflows (t : Statuses) (statuses : List WorkflowStatusInternal) (createdAts : List Int) :
    Except DbosError (List String) × Statuses :=
  match refusedStatus statuses with
  | some e => (.error e,t)
  | none =>
    let done := (statuses.zip createdAts).foldl enqueueRow ([],t)
    (.ok done.1,done.2)

def reenqueueHits (executorID appVersion : String) (_ : String) (row : WorkflowStatus) : Bool :=
  row.status = PENDING ∧ row.executor_id = some executorID ∧ row.application_version = some appVersion

def reenqueuedRow (recoveryQueueName : String) (now : Int) (row : WorkflowStatus) : WorkflowStatus :=
  { row with
    started_at_epoch_ms := none
    status := ENQUEUED
    updated_at := now
    queue_name := row.queue_name.or (some recoveryQueueName) }

def reenqueueWorkflowsForRecovery (t : Statuses) (executorID appVersion recoveryQueueName : String) (now : Int) :
    Except DbosError (List String) × Statuses :=
  match indexed (t.update (reenqueueHits executorID appVersion) fun _ => reenqueuedRow recoveryQueueName now) with
  | .ok t' => (.ok (t.keys (reenqueueHits executorID appVersion)),t')
  | .error e => (.error e,t)

/-- `workflow_uuid = ANY(ids) AND status NOT IN (SUCCESS, ERROR)`. -/
def unfinishedHits (workflowIDs : List String) (k : String) (row : WorkflowStatus) : Bool :=
  k ∈ workflowIDs ∧ row.status ≠ SUCCESS ∧ row.status ≠ ERROR

def cancelledRow (now : Int) (row : WorkflowStatus) : WorkflowStatus :=
  { row with
    status := CANCELLED
    queue_name := none
    deduplication_id := none
    started_at_epoch_ms := none
    updated_at := now
    completed_at := some now }

/-- `#cancelWorkflows`; a cascade runs it once for each level of children. -/
def cancelWorkflows (t : Statuses) (workflowIDs : List String) (now : Int) : Statuses :=
  t.update (unfinishedHits workflowIDs) fun _ => cancelledRow now

def resumedRow (queueName : Option String) (now : Int) (row : WorkflowStatus) : WorkflowStatus :=
  { row with
    status := ENQUEUED
    queue_name := some (queueName.getD INTERNAL_QUEUE_NAME)
    recovery_attempts := 0
    workflow_deadline_epoch_ms := none
    deduplication_id := none
    started_at_epoch_ms := none
    updated_at := now
    completed_at := none }

def resumeWorkflows (t : Statuses) (workflowIDs : List String) (queueName : Option String) (now : Int) : Statuses :=
  t.update (unfinishedHits workflowIDs) fun _ => resumedRow queueName now

/-! ### Priorities, delays and debouncing -/

def setWorkflowPriority (t : Statuses) (workflowID : String) (priority : Int) (now : Int) : Statuses :=
  t.update (fun k row => k = workflowID ∧ (row.status = ENQUEUED ∨ row.status = DELAYED))
    fun _ row => { row with priority := priority,updated_at := now }

def setWorkflowDelay (t : Statuses) (workflowID : String) (delayUntilEpochMS : Int) (now : Int) : Statuses :=
  t.update (fun k row => k = workflowID ∧ row.status = DELAYED)
    fun _ row => { row with delay_until_epoch_ms := some delayUntilEpochMS,updated_at := now }

structure DebounceParams where
  workflowName : String
  workflowClassName : String
  queueName : String
  deduplicationID : String
  delayUntilEpochMS : Int
  input : Option String
  serialization : Option String

structure DebounceResult where
  bouncedWorkflowID : Option String := none
  holderWorkflowID : Option String := none
  holderIsDebounced : Bool := false
  holderWorkflowName : Option String := none
  holderWorkflowClassName : Option String := none
  deriving DecidableEq

def bounceHits (params : DebounceParams) (_ : String) (row : WorkflowStatus) : Bool :=
  row.name = params.workflowName ∧ row.class_name = nullIfEmpty params.workflowClassName ∧
    row.queue_name = some params.queueName ∧ row.deduplication_id = some params.deduplicationID ∧
    row.status = DELAYED ∧ row.is_debounced = true

/-- The bounced delay, capped at the debounce deadline when there is one. -/
def bouncedRow (params : DebounceParams) (now : Int) (row : WorkflowStatus) : WorkflowStatus :=
  { row with
    delay_until_epoch_ms := match row.debounce_deadline_epoch_ms with
      | some deadline => if deadline < params.delayUntilEpochMS then some deadline else some params.delayUntilEpochMS
      | none => some params.delayUntilEpochMS
    inputs := params.input
    serialization := params.serialization
    updated_at := now }

def debounceDelayedWorkflow (t : Statuses) (params : DebounceParams) (now : Int) : DebounceResult × Statuses :=
  match t.select (bounceHits params) with
  | (bounced,_) :: _ =>
    ({ bouncedWorkflowID := some bounced },t.update (bounceHits params) fun _ => bouncedRow params now)
  | [] =>
    -- Nothing matched: report who holds the key, if anyone does.
    match t.select fun _ row => row.queue_name = some params.queueName ∧
        row.deduplication_id = some params.deduplicationID with
    | [] => ({},t)
    | (holder,row) :: _ =>
      ({ holderWorkflowID := some holder,holderIsDebounced := row.is_debounced,
         holderWorkflowName := some row.name,holderWorkflowClassName := row.class_name },t)

/-- A delay that has passed: the debounce key is held only while DELAYED. -/
def transitionedRow (now : Int) (row : WorkflowStatus) : WorkflowStatus :=
  { row with
    status := ENQUEUED
    updated_at := now
    deduplication_id := if row.is_debounced then none else row.deduplication_id }

def transitionDelayedWorkflows (t : Statuses) (now : Int) : Statuses :=
  t.update (fun _ row => row.status = DELAYED ∧ row.delay_until_epoch_ms.any fun delay => delay ≤ now)
    fun _ => transitionedRow now

/-! ### Forks, deletion and the executor marker -/

structure ForkOptions where
  applicationVersion : Option String := none
  timeoutMS : Option Int := none
  queueName : Option String := none
  queuePartitionKey : Option String := none

/-- The row of a fork of `ws`; the columns that are not listed take their defaults. -/
def forkedRow (origID : String) (ws : WorkflowStatus) (options : ForkOptions) (now : Int) : WorkflowStatus where
  status := ENQUEUED
  name := ws.name
  class_name := ws.class_name
  config_name := ws.config_name
  queue_name := some (options.queueName.getD INTERNAL_QUEUE_NAME)
  authenticated_user := ws.authenticated_user
  assumed_role := ws.assumed_role
  authenticated_roles := ws.authenticated_roles
  request := ws.request
  application_version := options.applicationVersion.or ws.application_version
  application_id := ws.application_id
  created_at := now
  updated_at := now
  inputs := ws.inputs
  queue_partition_key := options.queuePartitionKey
  forked_from := some origID
  serialization := ws.serialization
  attributes := ws.attributes
  workflow_timeout_ms := options.timeoutMS

/-- One tuple of the INSERT, which has no ON CONFLICT: a used ID fails the statement. -/
def insertFork (originals : Statuses) (options : ForkOptions) (now : Int) (t : Statuses)
    (pair : String × String) : Except DbosError Statuses :=
  match originals.get? pair.1 with
  | none => .error (.DBOSNonExistentWorkflowError ("Workflow " ++ pair.1 ++ " does not exist"))
  | some ws => if (t.get? pair.2).isSome then .error (.DatabaseError "23505")
      else .ok (t.insert pair.2 (forkedRow pair.1 ws options now))

/-- The statements of `bulkForkWorkflows` on `workflow_status`, for lists of one length: the originals
    are read, the forks are inserted and the originals are marked. -/
def bulkForkStatuses (t : Statuses) (originalWorkflowIDs forkedWorkflowIDs : List String) (options : ForkOptions)
    (now : Int) : Except DbosError (List String) × Statuses :=
  match originalWorkflowIDs.find? fun wid => (t.get? wid).isNone with
  | some wid => (.error (.DBOSNonExistentWorkflowError ("Workflow " ++ wid ++ " does not exist")),t)
  | none => match (originalWorkflowIDs.zip forkedWorkflowIDs).foldlM (insertFork t options now) t with
    | .error e => (.error e,t)
    | .ok t' => (.ok forkedWorkflowIDs,t'.update (fun k _ => k ∈ originalWorkflowIDs)
        fun _ row => { row with was_forked_from := true })

/-- The DELETE of `deleteWorkflows`, for all IDs it has collected. -/
def deleteWorkflows (t : Statuses) (allIds : List String) : Statuses := t.delete fun k _ => k ∈ allIds

/-- The marker that `recordOperationResultInternal` sets when it wins a checkpoint. -/
def claimExecutor (t : Statuses) (executorID workflowID : String) : Statuses :=
  t.update (fun k row => k = workflowID ∧ row.executor_id ≠ some executorID)
    fun _ row => { row with executor_id := some executorID }

end Dbos.Status
