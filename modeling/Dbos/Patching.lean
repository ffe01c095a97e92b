import Dbos.Communication

/-!
Workflows whose code changes under way: `DBOS.patch` of `src/dbos.ts` and `checkPatch` of
`src/system_database.ts`. A program makes its operations one after the other, and each records its
checkpoints under the function IDs that it has reserved; a recovery runs the program again and
finds what is recorded. `recv` and `getEvent` reserve two IDs and record the deadline under the
second before the result under the first, and a sleep of no length reserves an ID and records
nothing. An operation can also throw without a record (a send to a destination that does not exist,
a child that cannot be started), and the program may catch that and go on. Some day the program is
replaced by one that calls `DBOS.patch` at one point and then takes the old branch or a new one.
-/
namespace Dbos.Patching
open Dbos.Pg Dbos.Schema
open Dbos.Communication (DBOS_FUNCNAME_SEND DBOS_FUNCNAME_RECV DBOS_FUNCNAME_SLEEP sleepCheckpoint)
open Dbos.Checkpoints (CheckpointCall checkpointRow insertCheckpoint get?_insertCheckpoint)

def DBOS_FUNCNAME_GETEVENT : String := "DBOS.getEvent"

/-! ### Programs -/

/-- An operation with what decides about its checkpoints. -/
inductive Operation
  | step (stepFnName : String)
  | startWorkflow (workflowName : String)
  | sleep (durationMS : Int)
  | send (destinationID : String)
  | recv (timeoutms : Int)
  | getEvent (timeoutms : Int)
  deriving DecidableEq

namespace Operation

def functionName : Operation → String
  | .step stepFnName => stepFnName
  | .startWorkflow workflowName => workflowName
  | .sleep _ => DBOS_FUNCNAME_SLEEP
  | .send _ => DBOS_FUNCNAME_SEND
  | .recv _ => DBOS_FUNCNAME_RECV
  | .getEvent _ => DBOS_FUNCNAME_GETEVENT

/-- The function IDs that are reserved. -/
def ids : Operation → Nat
  | .recv _ => 2
  | .getEvent _ => 2
  | _ => 1

/-- `if (durationMS <= 0) return`, after the ID is reserved. -/
def records : Operation → Bool
  | .sleep durationMS => 0 < durationMS
  | _ => true

/-- `if (timeoutms)`: the deadline is recorded under the second ID. -/
def hasDeadline : Operation → Bool
  | .recv timeoutms => timeoutms ≠ 0
  | .getEvent timeoutms => timeoutms ≠ 0
  | _ => false

/-- The start of a child takes whatever it finds. -/
def checksName : Operation → Bool
  | .startWorkflow _ => false
  | _ => true

end Operation

/-- What an operation returns, or what it throws. -/
structure Result where
  output : Option String := none
  error : Option String := none
  childWorkflowID : Option String := none
  serialization : Option String := none
  deriving DecidableEq

/-- What the operation returns with this row; a sleep returns nothing. -/
def Operation.returned (op : Operation) (row : OperationOutput) : Result :=
  match op with
  | .sleep _ => {}
  | _ => ⟨row.output,row.error,row.child_workflow_id,row.serialization⟩

/-- The next operation, given what the earlier ones returned. -/
abbrev Program := List Result → Option Operation

/-- The code before the patch and after it: where the history is at `point` for the first time,
    `DBOS.patch(patchName)` is called, and the program goes on with `old` or with `new`. -/
structure Patch where
  old : Program
  new : Program
  point : List Result → Bool
  patchName : String

/-! ### Executions -/

structure Executor where
  results : List Result := []
  curWFFunctionId : Nat := 0
  /-- The deadline of the operation is recorded. -/
  waiting : Bool := false
  /-- What `DBOS.patch` has returned. -/
  isPatched : Option Bool := none
  error : Option DbosError := none
  deriving DecidableEq

/-- What an operation gets from outside: its outcome, which it may throw without a record of it, the clock and the deadline. -/
structure Input where
  result : Result := {}
  thrown : Bool := false
  startTime : Int := 0
  endTime : Int := 0
  endTimeMs : Int := 0

section
variable (w : String)

/-- The row of a checkpoint when there is one, with another name than expected an error. -/
def stored (outputs : OperationOutputs) (functionID : Nat) (functionName : String) (checksName : Bool) :
    Except DbosError (Option OperationOutput) :=
  match outputs.get? (w,functionID) with
  | none => .ok none
  | some row =>
    if checksName = true ∧ row.function_name ≠ functionName then
      .error (.DBOSUnexpectedStepError w functionID functionName row.function_name)
    else .ok (some row)

def complete (e : Executor) (op : Operation) (result : Result) : Executor :=
  { e with results := e.results ++ [result],curWFFunctionId := e.curWFFunctionId + op.ids,waiting := false }

/-- The checkpoint of the operation. -/
def checkpoint (op : Operation) (input : Input) : CheckpointCall :=
  match op with
  | .sleep _ => sleepCheckpoint input.startTime input.endTimeMs
  | _ =>
    { functionName := op.functionName
      startTimeEpochMs := input.startTime
      endTimeEpochMs := input.endTime
      childWorkflowID := input.result.childWorkflowID
      output := input.result.output
      error := input.result.error
      serialization := input.result.serialization }

/-- The operation runs up to its next checkpoint. -/
def runOperation (outputs : OperationOutputs) (e : Executor) (op : Operation) (input : Input) : OperationOutputs × Executor :=
  let record := (insertCheckpoint outputs (w,e.curWFFunctionId) (checkpoint op input),
    complete e op (op.returned (checkpointRow (checkpoint op input))))
  -- before a look at the checkpoints, as for a workflow that has been cancelled, or after it
  if input.thrown then (outputs,complete e op input.result)
  else if op.records = false then (outputs,complete e op {})
  else if e.waiting then record
  else
    match stored w outputs e.curWFFunctionId op.functionName op.checksName with
    | .error err => (outputs,{ e with error := some err })
    | .ok (some row) => (outputs,complete e op (op.returned row))
    | .ok none =>
      if op.hasDeadline then
        match stored w outputs (e.curWFFunctionId + 1) DBOS_FUNCNAME_SLEEP true with
        | .error err => (outputs,{ e with error := some err })
        | .ok (some _) => (outputs,{ e with waiting := true })
        | .ok none =>
          (insertCheckpoint outputs (w,e.curWFFunctionId + 1) (sleepCheckpoint input.startTime input.endTimeMs),
            { e with waiting := true })
      else record

/-- The name under which a patch is recorded. -/
def markerName (patchName : String) : String := s!"DBOS.patch-{patchName}"

/-- The result is `isPatched` and `hasEntry`. -/
def checkPatch (outputs : OperationOutputs) (functionID : Nat) (patchName : String) (deprecated : Bool) (dn : Int) :
    (Bool × Bool) × OperationOutputs :=
  match deprecated,outputs.get? (w,functionID) with
  | true,none => ((true,false),outputs)
  | true,some row => ((true,row.function_name = markerName patchName),outputs)
  | false,some row =>
    if row.function_name = markerName patchName then ((true,true),outputs) else ((false,false),outputs)
  | false,none =>
    ((true,true),outputs.insert (w,functionID)
      { function_name := markerName patchName,started_at_epoch_ms := some dn,completed_at_epoch_ms := some dn })

/-- `DBOS.patch`. -/
def patch (outputs : OperationOutputs) (e : Executor) (patchName : String) (dn : Int) : OperationOutputs × Executor :=
  let ((isPatched,hasEntry),outputs') := checkPatch w outputs e.curWFFunctionId patchName false dn
  (outputs',{ e with
    isPatched := some isPatched
    curWFFunctionId := if hasEntry then e.curWFFunctionId + 1 else e.curWFFunctionId })

end

/-- A call of `DBOS.patch`: the next function ID before and after it, and what it returned. -/
structure Answer where
  functionID : Nat
  isPatched : Bool
  next : Nat
  deriving DecidableEq

/-- `crashed` are the checkpoints at the time at which the new code takes over. -/
structure System where
  outputs : OperationOutputs
  executor : Executor := {}
  crashed : Option OperationOutputs := none
  answers : List Answer := []

/-- The workflow runs on, it crashes and is recovered, or it crashes and is recovered with the
    new code. -/
inductive Event
  | next (input : Input)
  | recover
  | deploy

section
variable (throws : Operation → Result → Bool) (p : Patch) (w : String)

/-- The next operation makes a checkpoint, or throws what it may. -/
def advance (s : System) (program : Program) (input : Input) : Option System :=
  match program s.executor.results with
  | none => none
  | some op =>
    if input.thrown = true ∧ throws op input.result = false then none
    else
      some { s with
             outputs := (runOperation w s.outputs s.executor op input).1
             executor := (runOperation w s.outputs s.executor op input).2 }

/-- The new code calls `DBOS.patch`. -/
def callPatch (s : System) (input : Input) : System :=
  let (outputs,executor) := patch w s.outputs s.executor p.patchName input.startTime
  { s with
    outputs := outputs
    executor := executor
    answers := s.answers ++ [⟨s.executor.curWFFunctionId,executor.isPatched.getD false,executor.curWFFunctionId⟩] }

def step (s : System) : Event → Option System
  | .next input =>
    if s.executor.error.isSome then none
    else
      match s.crashed,s.executor.isPatched with
      | none,_ => advance throws w s p.old input
      | some _,none => if p.point s.executor.results then some (callPatch p w s input) else advance throws w s p.old input
      | some _,some false => advance throws w s p.old input
      | some _,some true => advance throws w s p.new input
  | .recover => some { s with executor := {} }
  | .deploy =>
    match s.crashed with
    | none => some { s with crashed := some s.outputs,executor := {} }
    | some _ => none

end

def start (outputs : OperationOutputs) : System := { outputs := outputs }

end Dbos.Patching
