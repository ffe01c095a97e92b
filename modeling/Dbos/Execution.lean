import Dbos.Js.Text
import Dbos.Ops

/-!
How a stored workflow is started: `executeWorkflowId` and the start decision of
`internalWorkflow` in `src/dbos-executor.ts`, with the map of running workflows. A dispatcher
claims rows, and for each of them reads the status, looks for the function, calls
`initWorkflowStatus` and then starts the function or not. These are separate transactions,
and other writers of `workflow_status` commit in between; `step` interleaves them.
-/
namespace Dbos.Execution
open Dbos.Pg Dbos.Schema Dbos.Status Dbos.Start Dbos.Dequeue StatusString
open Dbos.Ops (Op)

/-! ### What executeWorkflowId does with a status -/

/-- `text ? text : null`. -/
def nonEmpty (text : Option String) : Option String := text.filter fun s => s ≠ ""

/-- `time ? Number(time) : undefined`. -/
def nonZero (time : Option Int) : Option Int := time.filter fun n => n ≠ 0

def mapWorkflowStatus (workflowID : String) (row : WorkflowStatus) : WorkflowStatusInternal where
  workflowUUID := workflowID
  status := row.status
  workflowName := row.name
  output := nonEmpty row.output
  error := nonEmpty row.error
  workflowClassName := row.class_name.getD ""
  workflowConfigName := row.config_name.getD ""
  queueName := row.queue_name
  authenticatedUser := row.authenticated_user
  assumedRole := row.assumed_role
  authenticatedRoles := row.authenticated_roles
  request := row.request
  executorId := row.executor_id.getD ""
  createdAt := row.created_at
  updatedAt := some row.updated_at
  applicationVersion := row.application_version
  applicationID := row.application_id
  input := nonEmpty row.inputs
  timeoutMS := nonZero row.workflow_timeout_ms
  deadlineEpochMS := nonZero row.workflow_deadline_epoch_ms
  deduplicationID := row.deduplication_id
  priority := row.priority
  queuePartitionKey := row.queue_partition_key
  forkedFrom := row.forked_from
  parentWorkflowID := row.parent_workflow_id
  serialization := row.serialization
  delayUntilEpochMS := nonZero row.delay_until_epoch_ms
  attributes := row.attributes
  scheduleName := row.schedule_name
  debounceDeadlineEpochMS := nonZero row.debounce_deadline_epoch_ms
  isDebounced := row.is_debounced

structure WorkflowConfig where
  maxRecoveryAttempts : Option Nat := none

/-- A registered function: a workflow, a step or neither. -/
structure Registration where
  name : String
  className : String := ""
  workflowConfig : Option WorkflowConfig := none
  stepConfig : Bool := false

/-- A process with what is registered in it and how it reads and writes arguments. A failed
    deserialization gives the error as it is serialized. -/
structure Process (Args : Type) where
  executorID : String
  appVersion : String := ""
  appID : String := ""
  classesByName : String → Bool := fun _ => true
  getFunctionRegistrationByName : String → String → Option Registration
  hasConfiguredInstance : String → String → Bool := fun _ _ => false
  deserializePositionalArgs : String → Option String → Except String Args
  serializeFunctionInput : Args → Except DbosError (String × Option String)

def tempWorkflowName : String := "temp_workflow"
def DEFAULT_MAX_RECOVERY_ATTEMPTS : Nat := 100

/-- `maxRecoveryAttempts ? maxRecoveryAttempts : DEFAULT_MAX_RECOVERY_ATTEMPTS`. -/
def WorkflowConfig.attempts (config : WorkflowConfig) : Nat :=
  match config.maxRecoveryAttempts with
  | some (m + 1) => m + 1
  | _ => DEFAULT_MAX_RECOVERY_ATTEMPTS

/-- The function that is run for a status, as `internalWorkflow` names it. -/
structure Target where
  workflowName : String
  workflowClassName : String := ""
  workflowConfigName : String := ""
  maxRecoveryAttempts : Nat := DEFAULT_MAX_RECOVERY_ATTEMPTS
  deadlineEpochMS : Option Int := none

/-- The workflow that `startStepTempWF` gives a step. A step whose name is empty loses its class with it. -/
def stepTarget (stepReg : Registration) (workflowConfigName : String) : Target where
  workflowName := tempWorkflowName ++ "-step-" ++ stepReg.name
  workflowClassName := if stepReg.name = "" then "" else stepReg.className
  workflowConfigName := workflowConfigName

/-- Steps and sends that were started outside of a workflow have a workflow of their own,
    whose name tells what it was. -/
def tempTarget {Args : Type} (p : Process Args) (workflowID : String) (wf : WorkflowStatusInternal)
    (workflowConfigName : String) : Except DbosError Target :=
  let nameArr := (Js.split '-' wf.workflowName.toList).map String.ofList
  let tempName := nameArr[2]?.getD "undefined"
  if tempWorkflowName.toList.isPrefixOf (nameArr[0]?.getD "").toList = false then
    .error (.DBOSError ("Cannot find workflow function for a non-temporary workflow, ID " ++ workflowID ++ ", class '" ++
      wf.workflowClassName ++ "', function '" ++ wf.workflowName ++ "'; did you change your code?"))
  else if nameArr[1]? = some "step" then
    match p.getFunctionRegistrationByName wf.workflowClassName tempName with
    | some stepReg =>
      if stepReg.stepConfig then .ok (stepTarget stepReg workflowConfigName)
      else .error (.DBOSNotRegisteredError ("Operation (Name: " ++ tempName ++ ") not registered"))
    | none => .error (.DBOSNotRegisteredError ("Operation (Name: " ++ tempName ++ ") not registered"))
  else if nameArr[1]? = some "send" then
    .ok { workflowName := tempWorkflowName ++ "-send-" ++ tempName }
  else .error (.DBOSNotRegisteredError ("Operation (Name: " ++ wf.workflowName ++ ") not registered"))

/-- The lookup of `executeWorkflowId`; a missing class is an error, and a missing instance leaves the
    configuration name empty. -/
def targetOf {Args : Type} (p : Process Args) (workflowID : String) (wf : WorkflowStatusInternal) :
    Except DbosError Target :=
  let workflowConfigName :=
    if p.hasConfiguredInstance wf.workflowClassName wf.workflowConfigName then wf.workflowConfigName else ""
  if p.classesByName wf.workflowClassName = false then
    .error (.DBOSNotRegisteredError ("Class '" ++ wf.workflowClassName ++ "' is not registered"))
  else match p.getFunctionRegistrationByName wf.workflowClassName wf.workflowName with
  | some methReg =>
    match methReg.workflowConfig with
    | some config =>
      .ok { workflowName := methReg.name,workflowClassName := methReg.className
            workflowConfigName := workflowConfigName
            maxRecoveryAttempts := config.attempts,deadlineEpochMS := wf.deadlineEpochMS }
    | none => tempTarget p workflowID wf workflowConfigName
  | none => tempTarget p workflowID wf workflowConfigName

/-- `startNewWorkflow` holds the ID of the new workflow, if there is to be one. -/
structure ExecuteOptions where
  startNewWorkflow : Option String := none
  isRecoveryDispatch : Bool := false
  isQueueDispatch : Bool := false

def ExecuteOptions.init (options : ExecuteOptions) (maxRetries : Nat) : InitOptions where
  isRecoveryRequest := options.isRecoveryDispatch
  isDequeuedRequest := options.isQueueDispatch
  maxRetries := some maxRetries

/-- What `internalWorkflow` takes from the process, the recovery context and the target. -/
def callerOf {Args : Type} (p : Process Args) (wf : WorkflowStatusInternal) (target : Target)
    (input : String × Option String) : Caller where
  workflowName := target.workflowName
  workflowClassName := target.workflowClassName
  workflowConfigName := target.workflowConfigName
  authenticatedUser := wf.authenticatedUser
  assumedRole := wf.assumedRole
  authenticatedRoles := wf.authenticatedRoles
  request := wf.request
  executorID := p.executorID
  appVersion := p.appVersion
  appID := p.appID
  input := some input.1
  serialization := input.2

def paramsOf (workflowID : String) (options : ExecuteOptions) (wf : WorkflowStatusInternal) (target : Target) :
    WorkflowParams where
  workflowUUID := options.startNewWorkflow.getD workflowID
  queueName := wf.queueName
  deadlineEpochMS := target.deadlineEpochMS
  enqueueOptions := { queuePartitionKey := wf.queuePartitionKey }

/-- A dispatch asks for no delay and has no deduplication ID, whatever the row says. -/
theorem dispatch_shape (caller : Caller) (workflowID : String) (options : ExecuteOptions) (wf : WorkflowStatusInternal)
    (target : Target) (now : Int) : Shape (internalStatus caller (paramsOf workflowID options wf target) now) := by
  have undelayed : delayUntil (paramsOf workflowID options wf target) now = none := by
    unfold delayUntil paramsOf
    cases wf.queueName <;> rfl
  refine ⟨?_,?_,?_,?_⟩
  · intro direct
    have nowhere : (paramsOf workflowID options wf target).queueName = none := direct
    simp [internalStatus,initialStatus,nowhere]
  · intro queued
    have queue : (paramsOf workflowID options wf target).queueName.isSome = true := queued
    simp [internalStatus,initialStatus,queue,undelayed]
  · intro keyed
    cases keyed
  · intro debounced
    cases debounced

/-- What is left to do after the status has been read. -/
inductive Plan
  | fails (e : DbosError)
  | recordsError (error : String)
  | inits (initStatus : NewStatus) (maxRetries : Nat)

/-- `executeWorkflowId` from the status it reads to its call of `initWorkflowStatus`. -/
def plan {Args : Type} (p : Process Args) (workflowID : String) (options : ExecuteOptions) (row : Option WorkflowStatus)
    (now : Int) : Plan :=
  match row with
  | none => .fails (.DBOSError ("Failed to find workflow status for workflow UUID: " ++ workflowID))
  | some row =>
    let wf := mapWorkflowStatus workflowID row
    match wf.input with
    | none => .fails (.DBOSError ("Failed to find inputs for workflow UUID: " ++ workflowID))
    | some input =>
      match p.deserializePositionalArgs input wf.serialization with
      | .error error => .recordsError error
      | .ok args =>
        match targetOf p workflowID wf with
        | .error e => .fails e
        | .ok target =>
          match p.serializeFunctionInput args with
          | .error e => .fails e
          | .ok input =>
            .inits ⟨internalStatus (callerOf p wf target input) (paramsOf workflowID options wf target) now,
              dispatch_shape _ workflowID options wf target now⟩ target.maxRecoveryAttempts

/-- `shouldExecute && (queueName === undefined || executeWorkflow) && !checkForRunningWorkflow`. -/
def startDecision (result : InitResult) (queueName : Option String) (executeWorkflow running : Bool) : Bool :=
  result.shouldExecuteOnThisExecutor && (queueName.isNone || executeWorkflow) && !running

/-- The row has the name, the class and the configuration that the call gives. -/
def Matches (row : WorkflowStatus) (initStatus : WorkflowStatusInternal) : Prop :=
  row.name = initStatus.workflowName ∧ row.class_name.getD "" = initStatus.workflowClassName ∧
    row.config_name.getD "" = initStatus.workflowConfigName

instance (row : WorkflowStatus) (initStatus : WorkflowStatusInternal) : Decidable (Matches row initStatus) :=
  inferInstanceAs (Decidable (_ ∧ _))

/-- How `initWorkflowStatus` ends when a dispatch calls it on a row: `attempted` is the row
    after the upsert. -/
inductive Inits (t : Statuses) (initStatus : WorkflowStatusInternal) (row attempted : WorkflowStatus) (limit : Option Nat)
    (now : Int) : Except DbosError InitResult × Statuses → Prop
  | conflict (e : DbosError) (differs : ¬ Matches row initStatus) : Inits t initStatus row attempted limit now (.error e,t)
  | exceeded (m : Nat) (after : Statuses) (agrees : Matches row initStatus) (limited : limit = some (m + 1))
      (beyond : m + 2 < attempted.recovery_attempts)
      (others : ∀ k, k ≠ initStatus.workflowUUID → after.get? k = t.get? k)
      (stored : after.get? initStatus.workflowUUID = some
        (if row.status = PENDING then updatedRow MAX_RECOVERY_ATTEMPTS_EXCEEDED { resetDeduplicationID := true } now attempted
          else attempted)) :
      Inits t initStatus row attempted limit now
        (.error (.DBOSMaxRecoveryAttemptsExceededError initStatus.workflowUUID (m + 1 : Nat)),after)
  | executes (result : InitResult) (after : Statuses) (agrees : Matches row initStatus) (status : result.status = row.status)
      (should : result.shouldExecuteOnThisExecutor = true)
      (within : ∀ m, limit = some (m + 1) → attempted.recovery_attempts ≤ m + 2)
      (others : ∀ k, k ≠ initStatus.workflowUUID → after.get? k = t.get? k)
      (stored : after.get? initStatus.workflowUUID = some attempted) :
      Inits t initStatus row attempted limit now (.ok result,after)

/-- A dispatch always asks for an attempt, so its call never ends with an existing row. -/
theorem initExit_flagged (initStatus : WorkflowStatusInternal) (ownerXid : Option String) {options : InitOptions}
    (flagged : (options.isRecoveryRequest || options.isDequeuedRequest) = true) (resRow : InsertWorkflowResult) :
    (∃ e, initExit initStatus ownerXid options resRow = .conflict e ∧
      ¬ (resRow.name = initStatus.workflowName ∧ resRow.class_name = initStatus.workflowClassName ∧
        resRow.config_name = initStatus.workflowConfigName)) ∨
    ((resRow.name = initStatus.workflowName ∧ resRow.class_name = initStatus.workflowClassName ∧
        resRow.config_name = initStatus.workflowConfigName) ∧
      ((∃ m, options.maxRetries = some (m + 1) ∧ m + 2 < resRow.recovery_attempts ∧
          initExit initStatus ownerXid options resRow = .exceeded (m + 1)) ∨
        (∀ m, options.maxRetries = some (m + 1) → resRow.recovery_attempts ≤ m + 2) ∧
          initExit initStatus ownerXid options resRow =
            .execute ⟨resRow.status,true,resRow.workflow_deadline_epoch_ms,resRow.serialization⟩)) := by
  have asks : ¬ (ownerXid ≠ resRow.owner_xid ∧ options.isRecoveryRequest = false ∧ options.isDequeuedRequest = false) := by
    rintro ⟨_,first,second⟩
    simp [first,second] at flagged
  unfold initExit
  by_cases name : resRow.name = initStatus.workflowName
  · by_cases cls : resRow.class_name = initStatus.workflowClassName
    · by_cases config : resRow.config_name = initStatus.workflowConfigName
      · refine .inr ⟨⟨name,cls,config⟩,?_⟩
        rw [if_neg (not_not.mpr name),if_neg (not_not.mpr cls),if_neg (not_not.mpr config),if_neg asks]
        split
        · rename_i m limited
          by_cases beyond : m + 2 < resRow.recovery_attempts
          · rw [if_pos beyond]
            exact .inl ⟨m,limited,beyond,rfl⟩
          · rw [if_neg beyond]
            refine .inr ⟨?_,rfl⟩
            intro m' limited'
            cases limited.symm.trans limited'
            omega
        · rename_i unlimited
          exact .inr ⟨fun m limited => absurd limited (unlimited m),rfl⟩
      · refine .inl ⟨_,by rw [if_neg (not_not.mpr name),if_neg (not_not.mpr cls),if_pos config],?_⟩
        exact fun same => config same.2.2
    · refine .inl ⟨_,by rw [if_neg (not_not.mpr name),if_pos cls],?_⟩
      exact fun same => cls same.2.1
  · refine .inl ⟨_,by rw [if_pos name],?_⟩
    exact fun same => name same.1

theorem initWorkflowStatus_flagged {t : Statuses} {initStatus : WorkflowStatusInternal} {row : WorkflowStatus}
    (found : t.get? initStatus.workflowUUID = some row) (options : InitOptions)
    (flagged : (options.isRecoveryRequest || options.isDequeuedRequest) = true) (ownerXid : Option String) (now : Int) :
    Inits t initStatus row (conflictRow initStatus true now row) options.maxRetries now
      (initWorkflowStatus t initStatus ownerXid options now) := by
  have others : ∀ k, k ≠ initStatus.workflowUUID → (t.upsert initStatus.workflowUUID (insertedRow initStatus ownerXid now)
      (conflictRow initStatus true now)).get? k = t.get? k := by
    intro k other
    simp [other]
  have stored : (t.upsert initStatus.workflowUUID (insertedRow initStatus ownerXid now)
      (conflictRow initStatus true now)).get? initStatus.workflowUUID = some (conflictRow initStatus true now row) := by
    simp [found]
  unfold initWorkflowStatus insertWorkflowStatus
  simp only [flagged,found]
  rcases initExit_flagged initStatus ownerXid flagged
    (returning (conflictRow initStatus true now row)) with ⟨e,exit,differs⟩ | ⟨agrees,⟨m,limited,beyond,exit⟩ | ⟨within,exit⟩⟩
  · rw [exit]
    exact .conflict e differs
  · rw [exit]
    refine .exceeded m _ agrees limited beyond ?_ ?_
    · intro k other
      simp [updateHits,other]
    · simp only [Table.get?_update,stored,Option.map_some,updateHits,Option.all_some,Option.all_none,and_true,true_and]
      simp [conflictRow]
  · rw [exit]
    exact .executes _ _ agrees rfl rfl within others stored

/-- A call for another workflow does not touch the row. -/
theorem init_frame {t : Statuses} {initStatus : NewStatus} {ownerXid : Option String} {options : InitOptions} {now : Int}
    {k : String} (other : k ≠ initStatus.status.workflowUUID) :
    (initWorkflowStatus t initStatus.status ownerXid options now).2.get? k = t.get? k := by
  have change := Ops.change_of_init (t := t) (k := k) initStatus ownerXid options now
  generalize (initWorkflowStatus t initStatus.status ownerXid options now).2.get? k = new at change
  generalize t.get? k = old at change
  cases change with
  | kept => rfl
  | inserted row inserted =>
    cases inserted with
    | init _ _ _ _ here => exact absurd here other
  | rewritten row row' by_ =>
    cases by_ with
    | upserted _ _ _ _ here => exact absurd here other
    | exceeded _ _ _ _ here => exact absurd here other
    | recorded _ outcome now records => cases records
  | deleted row allIds here deletes => cases deletes

/-! ### Dispatchers among other writers -/

/-- Where a call of `executeWorkflowId` stands. `started` keeps the status that its
    `initWorkflowStatus` returned. -/
inductive Phase
  | claimed
  | recording (error : String)
  | planned (initStatus : NewStatus) (maxRetries : Nat)
  | started (status : StatusString)
  | retrieved
  | threw (e : DbosError)
  | crashed

def Plan.phase : Plan → Phase
  | .fails e => .threw e
  | .recordsError error => .recording error
  | .inits initStatus maxRetries => .planned initStatus maxRetries

/-- The call has not come to its `initWorkflowStatus` yet. -/
def Phase.underWay : Phase → Bool
  | .claimed => true
  | .recording _ => true
  | .planned _ _ => true
  | _ => false

structure Dispatch (ι : Type) where
  executor : ι
  workflowID : String
  options : ExecuteOptions
  phase : Phase := .claimed

/-- What `startsSince` counts: functions started and workflows resumed. -/
inductive Mark
  | start (workflowID : String)
  | resume (workflowID : String)
  deriving DecidableEq

/-- `running` has the entries of all running maps and `log` the marks, the latest first. -/
structure System (ι : Type) where
  table : Statuses
  running : List (ι × String) := []
  dispatches : List (Dispatch ι) := []
  log : List Mark := []

/-- `call` is `internalWorkflow` as user code calls it; `finish` releases an entry of a running
    map; `fault` is a statement that fails. -/
inductive Event (ι : Type)
  | call (e : ι) (initStatus : NewStatus) (token : String) (maxRetries : Nat) (now : Int)
  | dequeue (e : ι) (call : DequeueCall) (recent : Nat) (ids : List String) (now : Int)
  | recover (e : ι) (workflowID : String)
  | read (i : Nat) (now : Int)
  | record (i : Nat) (now : Int)
  | init (i : Nat) (token : String) (now : Int)
  | fault (i : Nat) (code : String)
  | finish (e : ι) (workflowID : String)
  | crash (e : ι)
  | other (op : Op)

/-- The workflows that an operation resumes. -/
def resumedBy (t : Statuses) : Op → List String
  | .resumeWorkflows workflowIDs _ _ => t.keys (unfinishedHits workflowIDs)
  | _ => []

variable {ι Args : Type} [DecidableEq ι] (procs : ι → Process Args)

def System.put (s : System ι) (i : Nat) (d : Dispatch ι) (phase : Phase) : List (Dispatch ι) :=
  s.dispatches.set i { d with phase := phase }

/-- `internalWorkflow` after `initWorkflowStatus`: the phase of the call and the new entry. -/
def afterInit (s : System ι) (e : ι) (workflowID : String) (queueName : Option String) (executeWorkflow : Bool) :
    Except DbosError InitResult → Phase
  | .error error => .threw error
  | .ok result =>
    if startDecision result queueName executeWorkflow ((e,workflowID) ∈ s.running) then .started result.status
    else .retrieved

/-- The running maps and the log after a call that ended in the phase. -/
def System.noted (s : System ι) (e : ι) (workflowID : String) : Phase → System ι
  | .started _ => { s with running := (e,workflowID) :: s.running,log := .start workflowID :: s.log }
  | _ => s

def step (s : System ι) : Event ι → Option (System ι)
  | .call e initStatus token maxRetries now =>
    -- `randomUUID()` gives a token that no row has.
    if (s.table.get? initStatus.status.workflowUUID).all fun row => row.owner_xid ≠ some token then
      let out := initWorkflowStatus s.table initStatus.status (some token) { maxRetries := some maxRetries } now
      let phase := afterInit s e initStatus.status.workflowUUID initStatus.status.queueName false out.1
      some (System.noted { s with table := out.2 } e initStatus.status.workflowUUID phase)
    else none
  | .dequeue e call recent ids now =>
    if call.executorID = (procs e).executorID then
      let out := claimLoop call recent now ids [] s.table
      some { s with
             table := out.2
             dispatches := s.dispatches ++ out.1.map fun w => ⟨e,w,{ isQueueDispatch := true },.claimed⟩ }
    else none
  | .recover e workflowID =>
    some { s with dispatches := s.dispatches ++ [⟨e,workflowID,{ isRecoveryDispatch := true },.claimed⟩] }
  | .read i now =>
    match s.dispatches[i]? with
    | some d =>
      match d.phase with
      | .claimed =>
        let next := plan (procs d.executor) d.workflowID d.options (s.table.get? d.workflowID) now
        some { s with dispatches := s.put i d next.phase }
      | _ => none
    | none => none
  | .record i now =>
    match s.dispatches[i]? with
    | some d =>
      match d.phase with
      | .recording error =>
        some { s with
               table := (recordWorkflowOutcome s.table d.workflowID (.error (some error)) now).2
               dispatches := s.put i d (.threw (.Error error)) }
      | _ => none
    | none => none
  | .init i token now =>
    match s.dispatches[i]? with
    | some d =>
      match d.phase with
      | .planned initStatus maxRetries =>
        let out := initWorkflowStatus s.table initStatus.status (some token) (d.options.init maxRetries) now
        let phase := afterInit s d.executor initStatus.status.workflowUUID initStatus.status.queueName true out.1
        some (System.noted { s with table := out.2,dispatches := s.put i d phase } d.executor
          initStatus.status.workflowUUID phase)
      | _ => none
    | none => none
  | .fault i code =>
    match s.dispatches[i]? with
    | some d => if d.phase.underWay then some { s with dispatches := s.put i d (.threw (.DatabaseError code)) } else none
    | none => none
  | .finish e workflowID => some { s with running := s.running.erase (e,workflowID) }
  | .crash e =>
    some { s with
           running := s.running.filter fun entry => entry.1 ≠ e
           dispatches := s.dispatches.map fun d =>
             if d.executor = e ∧ d.phase.underWay = true then { d with phase := .crashed } else d }
  | .other op =>
    some { s with table := op.apply s.table,log := (resumedBy s.table op).map Mark.resume ++ s.log }

def start (t : Statuses) : System ι := { table := t }

variable {procs}

/-- Everything that an event can do. -/
inductive Moves (procs : ι → Process Args) (s : System ι) : Event ι → System ι → Prop
  | call (e : ι) (initStatus : NewStatus) (token : String) (maxRetries : Nat) (now : Int)
      (unused : ∀ row, s.table.get? initStatus.status.workflowUUID = some row → row.owner_xid ≠ some token)
      (out : Except DbosError InitResult × Statuses)
      (result : out = initWorkflowStatus s.table initStatus.status (some token) { maxRetries := some maxRetries } now) :
      Moves procs s (.call e initStatus token maxRetries now)
        (System.noted { s with table := out.2 } e initStatus.status.workflowUUID
          (afterInit s e initStatus.status.workflowUUID initStatus.status.queueName false out.1))
  | dequeue (e : ι) (call : DequeueCall) (recent : Nat) (ids : List String) (now : Int)
      (own : call.executorID = (procs e).executorID) :
      Moves procs s (.dequeue e call recent ids now)
        { s with
          table := (claimLoop call recent now ids [] s.table).2
          dispatches := s.dispatches ++ (claimLoop call recent now ids [] s.table).1.map
            fun w => ⟨e,w,{ isQueueDispatch := true },.claimed⟩ }
  | recover (e : ι) (workflowID : String) :
      Moves procs s (.recover e workflowID)
        { s with dispatches := s.dispatches ++ [⟨e,workflowID,{ isRecoveryDispatch := true },.claimed⟩] }
  | read (i : Nat) (now : Int) (d : Dispatch ι) (found : s.dispatches[i]? = some d) (phase : d.phase = .claimed) :
      Moves procs s (.read i now)
        { s with
          dispatches := s.put i d (plan (procs d.executor) d.workflowID d.options (s.table.get? d.workflowID) now).phase }
  | record (i : Nat) (now : Int) (d : Dispatch ι) (error : String) (found : s.dispatches[i]? = some d)
      (phase : d.phase = .recording error) :
      Moves procs s (.record i now)
        { s with
          table := (recordWorkflowOutcome s.table d.workflowID (.error (some error)) now).2
          dispatches := s.put i d (.threw (.Error error)) }
  | init (i : Nat) (token : String) (now : Int) (d : Dispatch ι) (initStatus : NewStatus) (maxRetries : Nat)
      (found : s.dispatches[i]? = some d) (phase : d.phase = .planned initStatus maxRetries)
      (out : Except DbosError InitResult × Statuses)
      (result : out = initWorkflowStatus s.table initStatus.status (some token) (d.options.init maxRetries) now)
      (next : Phase)
      (decides : next = afterInit s d.executor initStatus.status.workflowUUID initStatus.status.queueName true out.1) :
      Moves procs s (.init i token now)
        (System.noted { s with table := out.2,dispatches := s.put i d next } d.executor initStatus.status.workflowUUID next)
  | fault (i : Nat) (code : String) (d : Dispatch ι) (found : s.dispatches[i]? = some d) (under : d.phase.underWay = true) :
      Moves procs s (.fault i code) { s with dispatches := s.put i d (.threw (.DatabaseError code)) }
  | finish (e : ι) (workflowID : String) :
      Moves procs s (.finish e workflowID) { s with running := s.running.erase (e,workflowID) }
  | crash (e : ι) :
      Moves procs s (.crash e)
        { s with
          running := s.running.filter fun entry => entry.1 ≠ e
          dispatches := s.dispatches.map fun d =>
            if d.executor = e ∧ d.phase.underWay = true then { d with phase := .crashed } else d }
  | other (op : Op) :
      Moves procs s (.other op) { s with table := op.apply s.table,log := (resumedBy s.table op).map Mark.resume ++ s.log }

theorem step_moves {s s' : System ι} {event : Event ι} (taken : step procs s event = some s') :
    Moves procs s event s' := by
  cases event with
  | call e initStatus token maxRetries now =>
    simp only [step] at taken
    split at taken
    · rename_i unused
      cases taken
      refine .call e initStatus token maxRetries now ?_ _ rfl
      intro row found
      simpa [found] using unused
    · cases taken
  | dequeue e call recent ids now =>
    simp only [step] at taken
    split at taken
    · cases taken
      exact .dequeue e call recent ids now (by assumption)
    · cases taken
  | recover e workflowID =>
    cases taken
    exact .recover e workflowID
  | read i now =>
    simp only [step] at taken
    split at taken
    · rename_i d found
      split at taken
      · cases taken
        exact .read i now d found (by assumption)
      · cases taken
    · cases taken
  | record i now =>
    simp only [step] at taken
    split at taken
    · rename_i d found
      split at taken
      · cases taken
        exact .record i now d _ found (by assumption)
      · cases taken
    · cases taken
  | init i token now =>
    simp only [step] at taken
    split at taken
    · rename_i d found
      split at taken
      · cases taken
        exact .init i token now d _ _ found (by assumption) _ rfl _ rfl
      · cases taken
    · cases taken
  | fault i code =>
    simp only [step] at taken
    split at taken
    · rename_i d found
      split at taken
      · cases taken
        exact .fault i code d found (by assumption)
      · cases taken
    · cases taken
  | finish e workflowID =>
    cases taken
    exact .finish e workflowID
  | crash e =>
    cases taken
    exact .crash e
  | other op =>
    cases taken
    exact .other op

omit [DecidableEq ι] in
@[simp] theorem noted_table (s : System ι) (e : ι) (workflowID : String) (phase : Phase) :
    (s.noted e workflowID phase).table = s.table := by
  cases phase <;> rfl

omit [DecidableEq ι] in
@[simp] theorem noted_dispatches (s : System ι) (e : ι) (workflowID : String) (phase : Phase) :
    (s.noted e workflowID phase).dispatches = s.dispatches := by
  cases phase <;> rfl

theorem mem_crashed {dispatches : List (Dispatch ι)} {e : ι} {d : Dispatch ι}
    (member : d ∈ dispatches.map fun d =>
      if d.executor = e ∧ d.phase.underWay = true then { d with phase := .crashed } else d) :
    d ∈ dispatches ∨ ∃ old ∈ dispatches,d = { old with phase := .crashed } := by
  obtain ⟨old,listed,rfl⟩ := List.mem_map.mp member
  split
  · exact .inr ⟨old,listed,rfl⟩
  · exact .inl listed

/-- A dispatch is flagged as one and keeps the ID of its workflow. -/
structure Wired (d : Dispatch ι) : Prop where
  same : d.options.startNewWorkflow = none
  flagged : (d.options.isRecoveryDispatch || d.options.isQueueDispatch) = true
  planned : ∀ initStatus maxRetries, d.phase = .planned initStatus maxRetries →
    initStatus.status.workflowUUID = d.workflowID

omit [DecidableEq ι] in
/-- A dispatch in another phase, as long as that is no plan for another workflow. -/
theorem Wired.put {d : Dispatch ι} (wired : Wired d) {phase : Phase}
    (planned : ∀ initStatus maxRetries, phase = .planned initStatus maxRetries →
      initStatus.status.workflowUUID = d.workflowID) : Wired { d with phase := phase } :=
  ⟨wired.same,wired.flagged,planned⟩

/-- A plan is for the workflow that was read, and it is made only where there is a row. -/
theorem plan_inits {p : Process Args} {workflowID : String} {options : ExecuteOptions} {row : Option WorkflowStatus}
    {now : Int} {initStatus : NewStatus} {maxRetries : Nat} (same : options.startNewWorkflow = none)
    (made : (plan p workflowID options row now).phase = .planned initStatus maxRetries) :
    initStatus.status.workflowUUID = workflowID ∧ row.isSome := by
  unfold plan at made
  split at made
  · cases made
  · dsimp only at made
    split at made
    · cases made
    split at made
    · cases made
    split at made
    · cases made
    split at made
    · cases made
    · cases made
      exact ⟨by simp [internalStatus,paramsOf,same],rfl⟩

theorem afterInit_planned {s : System ι} {e : ι} {workflowID : String} {queueName : Option String} {executeWorkflow : Bool}
    {result : Except DbosError InitResult} {initStatus : NewStatus} {maxRetries : Nat} :
    afterInit s e workflowID queueName executeWorkflow result ≠ .planned initStatus maxRetries := by
  unfold afterInit
  split
  · simp
  · split <;> simp

theorem step_wired {s s' : System ι} {event : Event ι} (wired : ∀ d ∈ s.dispatches,Wired d)
    (taken : step procs s event = some s') : ∀ d ∈ s'.dispatches,Wired d := by
  cases step_moves taken with
  | call e initStatus token maxRetries now unused out result => simpa using wired
  | dequeue e call recent ids now own =>
    intro d member
    rcases List.mem_append.mp member with old | new
    · exact wired d old
    · obtain ⟨w,_,rfl⟩ := List.mem_map.mp new
      exact ⟨rfl,rfl,by simp⟩
  | recover e workflowID =>
    intro d member
    rcases List.mem_append.mp member with old | new
    · exact wired d old
    · cases List.mem_singleton.mp new
      exact ⟨rfl,rfl,by simp⟩
  | read i now d found phase =>
    have here := wired d (List.mem_of_getElem? found)
    exact all_set wired (here.put fun initStatus maxRetries made => (plan_inits here.same made).1) i
  | record i now d error found phase => exact all_set wired ((wired d (List.mem_of_getElem? found)).put (by simp)) i
  | init i token now d initStatus maxRetries found phase out result next decides =>
    have here := wired d (List.mem_of_getElem? found)
    rw [noted_dispatches]
    exact all_set wired (here.put fun _ _ planned => absurd (decides ▸ planned) afterInit_planned) i
  | fault i code d found under => exact all_set wired ((wired d (List.mem_of_getElem? found)).put (by simp)) i
  | finish e workflowID => exact wired
  | crash e =>
    intro d member
    rcases mem_crashed member with old | ⟨old,listed,rfl⟩
    · exact wired d old
    · exact (wired old listed).put (by simp)
  | other op => exact wired

end Dbos.Execution
