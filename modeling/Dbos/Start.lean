import Dbos.Status

/-!
How a workflow is started: the checks of `#invokeWorkflow` in `src/dbos.ts` on the enqueue
options and the status that `internalWorkflow` in `src/dbos-executor.ts` builds and hands
to `initWorkflowStatus`. `Shape` is what every status built this way satisfies.
-/
namespace Dbos.Start
open Dbos.Schema StatusString

/-- `EnqueueOptions`; `delayMS` is `delaySeconds * 1000`. -/
structure EnqueueOptions where
  deduplicationID : Option String := none
  priority : Option Int := none
  queuePartitionKey : Option String := none
  applicationVersion : Option String := none
  delayMS : Option Int := none
  debounceDeadlineEpochMS : Option Int := none
  isDebounced : Bool := false

/-- The flags of a queue in the in-memory map that the checks read. -/
structure QueueFlags where
  partitionQueue : Bool := false
  priorityEnabled : Bool := false

def DBOS_QUEUE_MIN_PRIORITY : Int := 1
def DBOS_QUEUE_MAX_PRIORITY : Int := 2147483647

/-- A string is truthy when it is given and not empty. -/
def truthy (text : Option String) : Bool := text.any fun s => s ≠ ""

/-- The checks on a queue that the in-memory map has. -/
def checkQueueFlags (flags : QueueFlags) (queueName : String) (options : EnqueueOptions) : Except DbosError Unit :=
  if flags.partitionQueue = true ∧ truthy options.queuePartitionKey = false then
    .error (.Error ("A workflow cannot be enqueued on partitioned queue " ++ queueName ++ " without a partition key"))
  else if truthy options.queuePartitionKey = true ∧ flags.partitionQueue = false then
    .error (.Error ("You can only use a partition key on a partition-enabled queue. Key " ++
      options.queuePartitionKey.getD "" ++ " was used with non-partitioned queue " ++ queueName))
  else if options.priority.isSome ∧ flags.priorityEnabled = false then
    .error (.Error ("Priority is not enabled for queue " ++ queueName ++ ". Setting priority will not have any effect."))
  else .ok ()

/-- The names of the options that are set although only a queue reads them. -/
def enqueueOnlyOptions (options : EnqueueOptions) : List String :=
  (if options.deduplicationID.isSome then ["deduplicationID"] else []) ++
    (if options.priority.isSome then ["priority"] else []) ++
    (if options.queuePartitionKey.isSome then ["queuePartitionKey"] else []) ++
    (if options.delayMS.isSome then ["delaySeconds"] else [])

/-- The validation in `#invokeWorkflow`; `inMem` is `getQueueByName`. -/
def checkEnqueueOptions (inMem : String → Option QueueFlags) (queueName : Option String) (options : EnqueueOptions) :
    Except DbosError Unit :=
  if truthy queueName then
    if options.priority.any (fun p => p < DBOS_QUEUE_MIN_PRIORITY ∨ DBOS_QUEUE_MAX_PRIORITY < p) then
      .error (.DBOSInvalidQueuePriorityError (options.priority.getD 0) DBOS_QUEUE_MIN_PRIORITY DBOS_QUEUE_MAX_PRIORITY)
    else if truthy options.queuePartitionKey = true ∧ truthy options.deduplicationID = true then
      .error (.Error "Deduplication is not supported for partitioned queues")
    else match inMem (queueName.getD "") with
      | some flags => checkQueueFlags flags (queueName.getD "") options
      | none => .ok ()
  else match enqueueOnlyOptions options with
    | [] => .ok ()
    | setOptions => .error (.DBOSError ("Enqueue option(s) " ++ ", ".intercalate setOptions ++
        " set on a workflow that is not being enqueued. " ++
        "These options are only supported when enqueueing a workflow onto a queue."))

/-- `InternalWorkflowParams`, as far as the status depends on them. -/
structure WorkflowParams where
  workflowUUID : String
  queueName : Option String := none
  timeoutMS : Option Int := none
  deadlineEpochMS : Option Int := none
  enqueueOptions : EnqueueOptions := {}
  workflowAttributes : Option String := none

/-- What `internalWorkflow` takes from the registration, the context and the process. -/
structure Caller where
  workflowName : String
  workflowClassName : String := ""
  workflowConfigName : String := ""
  authenticatedUser : String := ""
  assumedRole : String := ""
  authenticatedRoles : String := "[]"
  request : String := "\x7b\x7d"
  executorID : String := "local"
  appVersion : String := ""
  appID : String := ""
  input : Option String := none
  serialization : Option String := none
  callerID : Option String := none

/-- A delay counts on a queue and when it is positive; the debounce deadline caps it. -/
def delayUntil (params : WorkflowParams) (now : Int) : Option Int :=
  match params.queueName,params.enqueueOptions.delayMS with
  | some _,some delay =>
    if 0 < delay then
      match params.enqueueOptions.debounceDeadlineEpochMS with
      | some deadline => if deadline < now + delay then some deadline else some (now + delay)
      | none => some (now + delay)
    else none
  | _,_ => none

/-- Queued workflows get their deadline when they are dequeued. -/
def deadlineFor (params : WorkflowParams) (now : Int) : Option Int :=
  match params.timeoutMS with
  | some timeout =>
    if timeout = 0 then params.deadlineEpochMS
    else if truthy params.queueName then none else some (now + timeout)
  | none => params.deadlineEpochMS

def initialStatus (params : WorkflowParams) (now : Int) : StatusString :=
  if params.queueName.isSome then if (delayUntil params now).isSome then DELAYED else ENQUEUED else PENDING

/-- The `internalStatus` of `internalWorkflow`. -/
def internalStatus (caller : Caller) (params : WorkflowParams) (now : Int) : WorkflowStatusInternal where
  workflowUUID := params.workflowUUID
  status := initialStatus params now
  workflowName := caller.workflowName
  workflowClassName := caller.workflowClassName
  workflowConfigName := caller.workflowConfigName
  queueName := params.queueName
  authenticatedUser := caller.authenticatedUser
  assumedRole := caller.assumedRole
  authenticatedRoles := caller.authenticatedRoles
  request := caller.request
  executorId := caller.executorID
  applicationVersion := some (params.enqueueOptions.applicationVersion.getD caller.appVersion)
  applicationID := caller.appID
  createdAt := now
  timeoutMS := params.timeoutMS
  deadlineEpochMS := deadlineFor params now
  input := caller.input
  deduplicationID := params.enqueueOptions.deduplicationID
  priority := params.enqueueOptions.priority.getD 0
  queuePartitionKey := params.enqueueOptions.queuePartitionKey
  parentWorkflowID := caller.callerID
  serialization := caller.serialization
  delayUntilEpochMS := delayUntil params now
  attributes := params.workflowAttributes
  debounceDeadlineEpochMS := params.enqueueOptions.debounceDeadlineEpochMS
  isDebounced := params.enqueueOptions.isDebounced

/-- A status as the start path builds it: a queue name and no other reason makes it wait,
    a deduplication ID comes with a queue, and a debounced status is DELAYED. -/
structure Shape (s : WorkflowStatusInternal) : Prop where
  direct : s.queueName = none → s.status = PENDING
  queued : s.queueName.isSome → s.status = if s.delayUntilEpochMS.isSome then DELAYED else ENQUEUED
  keyed : s.deduplicationID.isSome → s.queueName.isSome
  debounced : s.isDebounced = true → s.status = DELAYED

/-- A status together with the shape that the start path gives it. -/
structure NewStatus where
  status : WorkflowStatusInternal
  shape : Shape status

theorem enqueueOnlyOptions_dedup {options : EnqueueOptions} (unset : enqueueOnlyOptions options = []) :
    options.deduplicationID = none := by
  unfold enqueueOnlyOptions at unset
  cases given : options.deduplicationID with
  | none => rfl
  | some id => simp [given] at unset

/-- What passes the checks has no deduplication ID unless it goes to a queue. -/
theorem checked_dedup {inMem : String → Option QueueFlags} {queueName : Option String} {options : EnqueueOptions}
    (passed : checkEnqueueOptions inMem queueName options = .ok ()) (keyed : options.deduplicationID.isSome) :
    queueName.isSome := by
  unfold checkEnqueueOptions at passed
  split at passed
  · rename_i queue
    cases queueName with
    | none => simp [truthy] at queue
    | some q => rfl
  · split at passed
    · rename_i unset
      rw [enqueueOnlyOptions_dedup unset] at keyed
      cases keyed
    · cases passed

theorem delayUntil_of_delay {params : WorkflowParams} {delay : Int} (now : Int) (queue : params.queueName.isSome)
    (given : params.enqueueOptions.delayMS = some delay) (positive : 0 < delay) : (delayUntil params now).isSome := by
  obtain ⟨q,name⟩ := Option.isSome_iff_exists.mp queue
  unfold delayUntil
  rw [name,given]
  simp only [positive,if_true]
  split
  · split <;> rfl
  · rfl

/-- Checked parameters give a status of the right shape, as long as the debounced ones
    ask for a positive delay on a queue, which the debouncers do. -/
theorem internalStatus_shape {inMem : String → Option QueueFlags} (caller : Caller) {params : WorkflowParams} (now : Int)
    (passed : checkEnqueueOptions inMem params.queueName params.enqueueOptions = .ok ())
    (debouncer : params.enqueueOptions.isDebounced = true →
      params.queueName.isSome ∧ ∃ delay, params.enqueueOptions.delayMS = some delay ∧ 0 < delay) :
    Shape (internalStatus caller params now) := by
  refine ⟨?_,?_,?_,?_⟩
  · intro direct
    have nowhere : params.queueName = none := direct
    simp [internalStatus,initialStatus,nowhere]
  · intro queued
    have queue : params.queueName.isSome = true := queued
    simp [internalStatus,initialStatus,queue]
  · intro keyed
    exact checked_dedup passed keyed
  · intro debounced
    obtain ⟨queue,delay,given,positive⟩ := debouncer debounced
    have waits := delayUntil_of_delay now queue given positive
    simp [internalStatus,initialStatus,queue,waits]

end Dbos.Start
