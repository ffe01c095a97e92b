import Dbos.Pg.Table

/-!
The rows of the system database and the values the code passes to it. Column and
field names are those of `schemas/system_db_schema.ts` and `src/system_database.ts`.
A nullable column is an `Option`; times are epoch milliseconds; objects that the code
stores as JSON (roles, request, attributes) are held as that JSON text.
-/
namespace Dbos.Schema
open Dbos.Pg

/-- The values of `StatusString`. -/
inductive StatusString
  | PENDING
  | SUCCESS
  | ERROR
  | MAX_RECOVERY_ATTEMPTS_EXCEEDED
  | CANCELLED
  | ENQUEUED
  | DELAYED
  deriving DecidableEq,Repr

def StatusString.text : StatusString → String
  | .PENDING => "PENDING"
  | .SUCCESS => "SUCCESS"
  | .ERROR => "ERROR"
  | .MAX_RECOVERY_ATTEMPTS_EXCEEDED => "MAX_RECOVERY_ATTEMPTS_EXCEEDED"
  | .CANCELLED => "CANCELLED"
  | .ENQUEUED => "ENQUEUED"
  | .DELAYED => "DELAYED"

/-- A row of `workflow_status`; its key is `workflow_uuid`. -/
structure WorkflowStatus where
  status : StatusString
  name : String
  class_name : Option String := none
  config_name : Option String := none
  queue_name : Option String := none
  authenticated_user : String := ""
  assumed_role : String := ""
  authenticated_roles : String := "[]"
  request : String := "\x7b\x7d"
  output : Option String := none
  error : Option String := none
  executor_id : Option String := none
  application_version : Option String := none
  application_id : String := ""
  created_at : Int
  updated_at : Int
  recovery_attempts : Nat := 0
  workflow_timeout_ms : Option Int := none
  workflow_deadline_epoch_ms : Option Int := none
  inputs : Option String := none
  started_at_epoch_ms : Option Int := none
  deduplication_id : Option String := none
  priority : Int := 0
  queue_partition_key : Option String := none
  forked_from : Option String := none
  was_forked_from : Bool := false
  owner_xid : Option String := none
  parent_workflow_id : Option String := none
  serialization : Option String := none
  delay_until_epoch_ms : Option Int := none
  rate_limited : Bool := false
  completed_at : Option Int := none
  attributes : Option String := none
  schedule_name : Option String := none
  debounce_deadline_epoch_ms : Option Int := none
  is_debounced : Bool := false
  deriving DecidableEq,Repr

abbrev Statuses := Table String WorkflowStatus

/-- `WorkflowStatusInternal`: what a caller asks to be inserted. -/
structure WorkflowStatusInternal where
  workflowUUID : String
  status : StatusString
  workflowName : String
  workflowClassName : String := ""
  workflowConfigName : String := ""
  queueName : Option String := none
  authenticatedUser : String := ""
  output : Option String := none
  error : Option String := none
  input : Option String := none
  assumedRole : String := ""
  authenticatedRoles : String := "[]"
  request : String := "\x7b\x7d"
  executorId : String := "local"
  applicationVersion : Option String := none
  applicationID : String := ""
  createdAt : Int
  updatedAt : Option Int := none
  timeoutMS : Option Int := none
  deadlineEpochMS : Option Int := none
  deduplicationID : Option String := none
  priority : Int := 0
  queuePartitionKey : Option String := none
  forkedFrom : Option String := none
  parentWorkflowID : Option String := none
  serialization : Option String := none
  delayUntilEpochMS : Option Int := none
  attributes : Option String := none
  scheduleName : Option String := none
  debounceDeadlineEpochMS : Option Int := none
  isDebounced : Bool := false
  deriving DecidableEq,Repr

/-- A row of `operation_outputs`; its key is (`workflow_uuid`, `function_id`). -/
structure OperationOutput where
  output : Option String := none
  error : Option String := none
  function_name : String := ""
  child_workflow_id : Option String := none
  started_at_epoch_ms : Option Int := none
  completed_at_epoch_ms : Option Int := none
  serialization : Option String := none
  deriving DecidableEq,Repr

abbrev OperationOutputs := Table (String × Nat) OperationOutput

/-- A row of `notifications`; its key is `message_uuid`. -/
structure Notification where
  destination_uuid : String
  topic : String
  message : String
  created_at_epoch_ms : Int
  consumed : Bool := false
  serialization : Option String := none
  deriving DecidableEq,Repr

abbrev Notifications := Table String Notification

/-- A row of `workflow_events` (key: workflow and event key) and of
    `workflow_events_history` (key: workflow, function ID and event key). -/
structure WorkflowEvent where
  value : String
  serialization : Option String := none
  deriving DecidableEq,Repr

abbrev WorkflowEvents := Table (String × String) WorkflowEvent
abbrev WorkflowEventsHistory := Table (String × Nat × String) WorkflowEvent

/-- A row of `streams`; its key is the workflow, the stream key and the offset. -/
structure StreamEntry where
  value : String
  function_id : Nat := 0
  serialization : Option String := none
  deriving DecidableEq,Repr

abbrev Streams := Table (String × String × Nat) StreamEntry

/-- The errors that the modelled functions throw. A `DatabaseError` carries its SQLSTATE. -/
inductive DbosError
  | Error (message : String)
  | DBOSError (message : String)
  | DBOSInvalidQueuePriorityError (priority min max : Int)
  | DBOSWorkflowConflictError (workflowID : String)
  | DBOSNonExistentWorkflowError (message : String)
  | DBOSNotRegisteredError (message : String)
  | DBOSInvalidWorkflowTransitionError (message : String)
  | DBOSMaxRecoveryAttemptsExceededError (workflowID : String) (maxRetries : Int)
  | DBOSConflictingWorkflowError (workflowID message : String)
  | DBOSUnexpectedStepError (workflowID : String) (functionID : Nat) (expectedName recordedName : String)
  | DBOSWorkflowCancelledError (workflowID : String)
  | DBOSQueueDuplicatedError (workflowID queueName deduplicationID : String)
  | DatabaseError (code : String)
  deriving DecidableEq,Repr

/-- `INTERNAL_QUEUE_NAME`: resumed, forked and recovered workflows go here by default. -/
def INTERNAL_QUEUE_NAME : String := "_dbos_internal_queue"

end Dbos.Schema
