import Dbos.StatusReads
import Dbos.Patching

/-!
Replay of a workflow by a program that is not the one that recorded it. Whatever a program calls in a workflow
reserves function IDs and looks for a checkpoint under its ID before it does anything; the look-ups are those of
`callStepFunction`, `runInternalStep` and `internalWorkflow` in `src/dbos-executor.ts`, of `runTransactionalInternalStep`
in `src/dbos.ts` and of `#runAndRecordResult`, `recv`, `getEvent` and `#durableSleep` in `src/system_database.ts`. Each
compares the recorded name with its own, but the start of a child does not, `getWorkflowStatus` does not look under the
ID 0, and a sleep of no length does not look at all.
-/
namespace Dbos.Divergence
open Dbos.Pg Dbos.Schema Dbos.Status Dbos.Checkpoints
open Dbos.Communication (Database checkIfCanceled portableJSON DBOS_FUNCNAME_SEND DBOS_FUNCNAME_RECV DBOS_FUNCNAME_SETEVENT
  DBOS_FUNCNAME_SLEEP DBOS_FUNCNAME_WRITESTREAM DBOS_FUNCNAME_CLOSESTREAM)
open Dbos.Patching (DBOS_FUNCNAME_GETEVENT)
open Dbos.StatusReads (DBOS_FUNCNAME_GETSTATUS recordsStatus)
open Dbos.Start (truthy)

/-- What is performed under a function ID. `durableSleep` is the deadline of a `recv`, a `getEvent` or a `getResult`. -/
inductive Operation
  | step (stepFnName : String)
  | internalStep (functionName : String)
  | transactionalInternalStep (funcName : String)
  | send
  | setEvent
  | writeStream
  | closeStream
  | recv
  | getEvent
  | sleep (durationMS : Int)
  | durableSleep
  | getWorkflowStatus
  | startWorkflow (workflowName : String)
  deriving DecidableEq

/-- The name under which the operation is recorded. -/
def Operation.functionName : Operation → String
  | .step stepFnName => stepFnName
  | .internalStep functionName => functionName
  | .transactionalInternalStep funcName => funcName
  | .send => DBOS_FUNCNAME_SEND
  | .setEvent => DBOS_FUNCNAME_SETEVENT
  | .writeStream => DBOS_FUNCNAME_WRITESTREAM
  | .closeStream => DBOS_FUNCNAME_CLOSESTREAM
  | .recv => DBOS_FUNCNAME_RECV
  | .getEvent => DBOS_FUNCNAME_GETEVENT
  | .sleep _ => DBOS_FUNCNAME_SLEEP
  | .durableSleep => DBOS_FUNCNAME_SLEEP
  | .getWorkflowStatus => DBOS_FUNCNAME_GETSTATUS
  | .startWorkflow workflowName => workflowName

/-- What the workflow gets, with the texts still serialized. An error is thrown, a handle may be without an ID. -/
inductive Observation
  | value (serializedValue serialization : Option String)
  | error (serializedError : String) (serialization : Option String)
  | status (json : Option String)
  | handle (workflowID : Option String)
  | endTime (json : Option String)
  | nothing
  deriving DecidableEq

/-- How an operation goes on after its look-up: it runs when nothing is recorded. -/
inductive Reply
  | missing
  | returns (o : Observation)
  | throws (e : DbosError)
  deriving DecidableEq

/-! ### The look-ups -/

section
variable (db : Database) (w : String) (n : Nat)

def getOperationResultAndThrowIfCancelled : Except DbosError (Option OperationOutput) :=
  match checkIfCanceled db w with
  | some e => .error e
  | none => .ok (db.outputs.get? (w,n))

/-- `reviveResultOrError`, before it deserializes. -/
def reviveResultOrError (r : OperationOutput) : Observation :=
  if truthy r.error then .error (r.error.getD "") r.serialization else .value r.output r.serialization

/-- The look-up with the comparison that follows it. -/
def expecting (functionName : String) (revive : OperationOutput → Observation) : Reply :=
  match getOperationResultAndThrowIfCancelled db w n with
  | .error e => .throws e
  | .ok none => .missing
  | .ok (some row) =>
    if row.function_name ≠ functionName then
      .throws (.DBOSUnexpectedStepError w n functionName row.function_name)
    else .returns (revive row)

/-- `checkIfCanceled` is called once more, before the look-up. -/
def callStepFunction (stepFnName : String) : Reply :=
  match checkIfCanceled db w with
  | some e => .throws e
  | none => expecting db w n stepFnName reviveResultOrError

def runInternalStep (functionName : String) : Reply := expecting db w n functionName reviveResultOrError

def runTransactionalInternalStep (funcName : String) : Reply := expecting db w n funcName reviveResultOrError

/-- `#runAndRecordResult` returns the output, which only `getWorkflowStatus` reads. -/
def runAndRecordResult (functionName : String) (read : Option String → Observation) : Reply :=
  expecting db w n functionName fun row => read row.output

def send : Reply := runAndRecordResult db w n DBOS_FUNCNAME_SEND fun _ => .nothing

def setEvent : Reply := runAndRecordResult db w n DBOS_FUNCNAME_SETEVENT fun _ => .nothing

def writeStream : Reply := runAndRecordResult db w n DBOS_FUNCNAME_WRITESTREAM fun _ => .nothing

def closeStream : Reply := runAndRecordResult db w n DBOS_FUNCNAME_CLOSESTREAM fun _ => .nothing

def recv : Reply := expecting db w n DBOS_FUNCNAME_RECV fun row => .value row.output row.serialization

def getEvent : Reply := expecting db w n DBOS_FUNCNAME_GETEVENT fun row => .value row.output row.serialization

/-- `#durableSleep`. -/
def durableSleep : Reply := expecting db w n DBOS_FUNCNAME_SLEEP fun row => .endTime row.output

/-- `sleepms`: `if (durationMS <= 0) return` comes after the ID is reserved and before the look-up. -/
def sleepms (durationMS : Int) : Reply := if durationMS ≤ 0 then .returns .nothing else durableSleep db w n

/-- `if (callerID && callerFN)`. -/
def getWorkflowStatus : Reply :=
  if recordsStatus w n then runAndRecordResult db w n DBOS_FUNCNAME_GETSTATUS .status else .missing

/-- The start of a child in `internalWorkflow`: an error or a handle is made of whatever row is there. -/
def internalWorkflow : Reply :=
  match getOperationResultAndThrowIfCancelled db w n with
  | .error e => .throws e
  | .ok none => .missing
  | .ok (some result) =>
    if truthy result.error then .returns (.error (result.error.getD "") result.serialization)
    else .returns (.handle result.child_workflow_id)

def perform : Operation → Reply
  | .step stepFnName => callStepFunction db w n stepFnName
  | .internalStep functionName => runInternalStep db w n functionName
  | .transactionalInternalStep funcName => runTransactionalInternalStep db w n funcName
  | .send => send db w n
  | .setEvent => setEvent db w n
  | .writeStream => writeStream db w n
  | .closeStream => closeStream db w n
  | .recv => recv db w n
  | .getEvent => getEvent db w n
  | .sleep durationMS => sleepms db w n durationMS
  | .durableSleep => durableSleep db w n
  | .getWorkflowStatus => getWorkflowStatus db w n
  | .startWorkflow _ => internalWorkflow db w n

end

/-- The operation compares the name that is recorded under the ID with its own. -/
def compares (w : String) (n : Nat) : Operation → Bool
  | .startWorkflow _ => false
  | .sleep durationMS => 0 < durationMS
  | .getWorkflowStatus => recordsStatus w n
  | _ => true

/-- The reply is `DBOSUnexpectedStepError`, and so nothing that is recorded reaches the workflow. -/
structure Detected (w : String) (n : Nat) (op : Operation) (row : OperationOutput) (reply : Reply) : Prop where
  raised : reply = .throws (.DBOSUnexpectedStepError w n op.functionName row.function_name)
  withheld : ∀ o, reply ≠ .returns o

section
variable {db : Database} {w : String} {n : Nat} {row : OperationOutput}

theorem expecting_cancelled {functionName : String} {revive : OperationOutput → Observation} {e : DbosError}
    (cancelled : checkIfCanceled db w = some e) : expecting db w n functionName revive = .throws e := by
  simp [expecting,getOperationResultAndThrowIfCancelled,cancelled]

theorem expecting_differs {functionName : String} {revive : OperationOutput → Observation}
    (running : checkIfCanceled db w = none) (found : db.outputs.get? (w,n) = some row)
    (differs : row.function_name ≠ functionName) :
    expecting db w n functionName revive = .throws (.DBOSUnexpectedStepError w n functionName row.function_name) := by
  simp [expecting,getOperationResultAndThrowIfCancelled,running,found,differs]

/-- A cancelled workflow is told so by whatever looks for a checkpoint. -/
theorem perform_cancelled {op : Operation} {e : DbosError} (cancelled : checkIfCanceled db w = some e) :
    perform db w n op = .throws e ∨ (compares w n op = false ∧ ∀ functionID expected recorded,
      perform db w n op ≠ .throws (.DBOSUnexpectedStepError w functionID expected recorded)) := by
  cases op with
  | step stepFnName => exact .inl (by simp [perform,callStepFunction,cancelled])
  | startWorkflow workflowName =>
    exact .inl (by simp [perform,internalWorkflow,getOperationResultAndThrowIfCancelled,cancelled])
  | sleep durationMS =>
    by_cases short : durationMS ≤ 0
    · refine .inr ⟨by simp [compares]; omega,?_⟩
      simp [perform,sleepms,short]
    · exact .inl (by simp [perform,sleepms,short,durableSleep,expecting_cancelled cancelled])
  | getWorkflowStatus =>
    by_cases records : recordsStatus w n = true
    · exact .inl (by simp [perform,getWorkflowStatus,records,runAndRecordResult,expecting_cancelled cancelled])
    · refine .inr ⟨by simpa [compares] using records,?_⟩
      simp [perform,getWorkflowStatus,records]
  | _ => exact .inl (expecting_cancelled cancelled)

/-- With a row of another name there, an operation that compares raises the error and the others do not. -/
theorem perform_differs {op : Operation} (running : checkIfCanceled db w = none)
    (found : db.outputs.get? (w,n) = some row) (differs : row.function_name ≠ op.functionName) :
    Detected w n op row (perform db w n op) ↔ compares w n op = true := by
  have raises : ∀ {functionName : String} {revive : OperationOutput → Observation}, functionName = op.functionName →
      Detected w n op row (expecting db w n functionName revive) := by
    rintro _ revive rfl
    have thrown : expecting db w n op.functionName revive = _ := expecting_differs running found differs
    exact ⟨thrown,by simp [thrown]⟩
  cases op with
  | step stepFnName =>
    simp only [perform,callStepFunction,running,compares,iff_true]
    exact raises rfl
  | startWorkflow workflowName =>
    simp only [perform,compares,Bool.false_eq_true,iff_false]
    intro detected
    have raised := detected.raised
    simp only [internalWorkflow,getOperationResultAndThrowIfCancelled,running,found] at raised
    split at raised <;> cases raised
  | sleep durationMS =>
    by_cases short : durationMS ≤ 0
    · have kept : ¬ 0 < durationMS := by omega
      simp only [perform,sleepms,short,if_true,compares,kept,decide_false,Bool.false_eq_true,iff_false]
      intro detected
      cases detected.raised
    · have long : 0 < durationMS := by omega
      simp only [perform,sleepms,short,if_false,compares,long,decide_true,iff_true]
      exact raises rfl
  | getWorkflowStatus =>
    by_cases records : recordsStatus w n = true
    · simp only [perform,getWorkflowStatus,records,if_true,compares,iff_true]
      exact raises rfl
    · simp only [perform,getWorkflowStatus,compares,records,Bool.false_eq_true,if_false,iff_false]
      intro detected
      cases detected.raised
  | _ => exact iff_of_true (raises rfl) rfl

end

/-! ### Programs that record and programs that replay -/

/-- What a program calls, with the IDs that the call reserves. -/
inductive Call
  | operation (op : Operation)
  | recv (timeoutms : Int)
  | getEvent (timeoutms : Int)
  | getResult (timeoutms : Option Int)
  deriving DecidableEq

def Call.ids : Call → Nat
  | .operation _ => 1
  | .recv _ => 2
  | .getEvent _ => 2
  | .getResult timeoutms => if timeoutms.isSome then 2 else 1

/-- A call under way: `timing` looks for its deadline, `missing` runs, and `failed` records what its deadline has thrown. -/
inductive Phase
  | called
  | timing
  | missing
  | failed (e : DbosError)
  | settled
  deriving DecidableEq

structure Made where
  execution : Nat
  functionID : Nat
  op : Operation
  timerFunctionID : Option Nat := none
  phase : Phase := .called
  deriving DecidableEq

/-- `getResult` reserves the ID of its timer first, `recv` and `getEvent` second; `if (timeoutms)`. -/
def Call.made (execution n : Nat) : Call → Made
  | .operation op => { execution := execution,functionID := n,op := op }
  | .recv timeoutms =>
    { execution := execution,functionID := n,op := .recv,timerFunctionID := if timeoutms = 0 then none else some (n + 1) }
  | .getEvent timeoutms =>
    { execution := execution,functionID := n,op := .getEvent,timerFunctionID := if timeoutms = 0 then none else some (n + 1) }
  | .getResult timeoutms =>
    { execution := execution,functionID := if timeoutms.isSome then n + 1 else n,op := .internalStep "DBOS.getResult"
      timerFunctionID := if timeoutms.isSome then some n else none }

/-- An execution of the workflow, by the program that records or by the one that replays. -/
structure Execution where
  replaying : Bool
  curWFFunctionId : Nat := 0
  replies : List Reply := []
  deriving DecidableEq

/-- An operation that has been performed, with what it found. -/
structure Performed where
  replaying : Bool
  functionID : Nat
  op : Operation
  cancelled : Bool
  found : Option OperationOutput
  reply : Reply
  deriving DecidableEq

structure System where
  db : Database
  executions : List Execution := []
  calls : List Made := []
  log : List Performed := []

/-- `call` gives what the callback of the operation came to, and the clock. -/
inductive Event
  | execute (replaying : Bool)
  | call (execution : Nat) (c : Call)
  | look (k : Nat)
  | lookTimer (k : Nat) (now endTimeMs : Int)
  | record (k : Nat) (executorID : String) (call : CheckpointCall)
  | other (db : Database)

/-- `recordOperationResult` is asked to check for a conflict. -/
def checkConflict (op : Operation) (call : CheckpointCall) : Bool :=
  match op with
  | .internalStep _ => call.error.isNone
  | .sleep _ => false
  | .durableSleep => false
  | _ => true

/-- What the workflow gets of an operation that has run. -/
def Operation.observe (op : Operation) (row : OperationOutput) : Observation :=
  match op with
  | .step _ => reviveResultOrError row
  | .internalStep _ => reviveResultOrError row
  | .transactionalInternalStep _ => reviveResultOrError row
  | .recv => .value row.output row.serialization
  | .getEvent => .value row.output row.serialization
  | .getWorkflowStatus => .status row.output
  | .startWorkflow _ => if truthy row.error then .error (row.error.getD "") row.serialization else .handle row.child_workflow_id
  | _ => .nothing

section
variable (w : String)

/-- What is logged of the operation. -/
def performed (db : Database) (replaying : Bool) (n : Nat) (op : Operation) : Performed where
  replaying := replaying
  functionID := n
  op := op
  cancelled := (checkIfCanceled db w).isSome
  found := db.outputs.get? (w,n)
  reply := perform db w n op

/-- The call gives the reply to its execution. -/
def System.settle (s : System) (k : Nat) (m : Made) (x : Execution) (reply : Reply) : System :=
  { s with
    executions := s.executions.set m.execution { x with replies := x.replies ++ [reply] }
    calls := s.calls.set k { m with phase := .settled } }

def System.move (s : System) (k : Nat) (m : Made) (phase : Phase) : System :=
  { s with calls := s.calls.set k { m with phase := phase } }

def System.note (s : System) (p : Performed) : System := { s with log := s.log ++ [p] }

def System.look (s : System) (k : Nat) (m : Made) (x : Execution) : System :=
  let s' := s.note (performed w s.db x.replaying m.functionID m.op)
  match perform s.db w m.functionID m.op with
  | .missing => s'.move k m (if m.timerFunctionID.isSome then .timing else .missing)
  | reply => s'.settle k m x reply

/-- `#durableSleep` for the call; `runInternalStep` records what it throws unless the workflow is cancelled. -/
def System.lookTimer (s : System) (k : Nat) (m : Made) (x : Execution) (timer : Nat) (now endTimeMs : Int) : System :=
  let s' := s.note (performed w s.db x.replaying timer .durableSleep)
  match perform s.db w timer .durableSleep,m.op with
  | .missing,_ =>
    { s' with
      db := { s'.db with outputs := insertCheckpoint s'.db.outputs (w,timer) (Communication.sleepCheckpoint now endTimeMs) }
      calls := s'.calls.set k { m with phase := .missing } }
  | .returns _,_ => s'.move k m .missing
  | .throws (.DBOSWorkflowCancelledError workflowID),_ => s'.settle k m x (.throws (.DBOSWorkflowCancelledError workflowID))
  | .throws e,.internalStep _ => s'.move k m (.failed e)
  | .throws e,_ => s'.settle k m x (.throws e)

/-- The operation has run, and records what came out of it. -/
def System.record (s : System) (k : Nat) (m : Made) (x : Execution) (executorID : String) (call : CheckpointCall) : System :=
  let call := { call with functionName := m.op.functionName }
  if m.op = .getWorkflowStatus ∧ recordsStatus w m.functionID = false then s.settle k m x (.returns (.status call.output))
  else
    match recordOperationResultInternal s.db.outputs s.db.statuses executorID (w,m.functionID) (checkConflict m.op call) call with
    | (.ok (),outputs,statuses) =>
      { s with db := { s.db with outputs := outputs,statuses := statuses } }.settle k m x
        (.returns (m.op.observe (checkpointRow call)))
    | (.error e,outputs,statuses) =>
      { s with db := { s.db with outputs := outputs,statuses := statuses } }.settle k m x (.throws e)

/-- A program may make any call that it allows after the replies it has got, also before others have been answered. -/
def step (program : Bool → List Reply → Call → Bool) (s : System) : Event → Option System
  | .execute replaying => some { s with executions := s.executions ++ [{ replaying := replaying }] }
  | .call i c =>
    match s.executions[i]? with
    | none => none
    | some x =>
      if program x.replaying x.replies c = true then
        some { s with
               executions := s.executions.set i { x with curWFFunctionId := x.curWFFunctionId + c.ids }
               calls := s.calls ++ [c.made i x.curWFFunctionId] }
      else none
  | .look k =>
    match s.calls[k]? with
    | none => none
    | some m =>
      match s.executions[m.execution]?,m.phase with
      | some x,.called => some (s.look w k m x)
      | _,_ => none
  | .lookTimer k now endTimeMs =>
    match s.calls[k]? with
    | none => none
    | some m =>
      match s.executions[m.execution]?,m.phase,m.timerFunctionID with
      | some x,.timing,some timer => some (s.lookTimer w k m x timer now endTimeMs)
      | _,_,_ => none
  | .record k executorID call =>
    match s.calls[k]? with
    | none => none
    | some m =>
      match s.executions[m.execution]?,m.phase with
      | some x,.missing => some (s.record w k m x executorID call)
      | some x,.failed e =>
        some ({ s with
          db := { s.db with
            outputs := insertCheckpoint s.db.outputs (w,m.functionID) { call with functionName := m.op.functionName } } }.settle
          k m x (.throws e))
      | _,_ => none
  | .other db => some { s with db := db }

def start (db : Database) : System := { db := db }

/-- Every entry of the log is an operation that was performed on some database. -/
def Logged (s : System) : Prop := ∀ p ∈ s.log, ∃ db, p = performed w db p.replaying p.functionID p.op

end

section
variable {w : String} {program : Bool → List Reply → Call → Bool}

@[simp] theorem settle_log (s : System) (k : Nat) (m : Made) (x : Execution) (reply : Reply) :
    (s.settle k m x reply).log = s.log := rfl

@[simp] theorem move_log (s : System) (k : Nat) (m : Made) (phase : Phase) : (s.move k m phase).log = s.log := rfl

theorem look_log (s : System) (k : Nat) (m : Made) (x : Execution) :
    (s.look w k m x).log = s.log ++ [performed w s.db x.replaying m.functionID m.op] := by
  unfold System.look
  cases perform s.db w m.functionID m.op <;> rfl

theorem lookTimer_log (s : System) (k : Nat) (m : Made) (x : Execution) (timer : Nat) (now endTimeMs : Int) :
    (s.lookTimer w k m x timer now endTimeMs).log = s.log ++ [performed w s.db x.replaying timer .durableSleep] := by
  unfold System.lookTimer
  simp only
  split <;> rfl

theorem record_log (s : System) (k : Nat) (m : Made) (x : Execution) (executorID : String) (call : CheckpointCall) :
    (s.record w k m x executorID call).log = s.log := by
  unfold System.record
  simp only
  split
  · rfl
  · split <;> rfl

/-- A step logs the operation that it performs, and nothing else. -/
theorem step_log {s s' : System} {e : Event} (taken : step w program s e = some s') :
    s'.log = s.log ∨ ∃ replaying n op, s'.log = s.log ++ [performed w s.db replaying n op] := by
  cases e with
  | execute replaying =>
    cases taken
    exact .inl rfl
  | call i c =>
    simp only [step] at taken
    split at taken
    · cases taken
    · split at taken
      · cases taken
        exact .inl rfl
      · cases taken
  | look k =>
    simp only [step] at taken
    split at taken
    · cases taken
    · split at taken
      · cases taken
        exact .inr ⟨_,_,_,look_log s k _ _⟩
      · cases taken
  | lookTimer k now endTimeMs =>
    simp only [step] at taken
    split at taken
    · cases taken
    · split at taken
      · cases taken
        exact .inr ⟨_,_,_,lookTimer_log s k _ _ _ now endTimeMs⟩
      · cases taken
  | record k executorID call =>
    simp only [step] at taken
    split at taken
    · cases taken
    · split at taken
      · cases taken
        exact .inl (record_log s k _ _ executorID call)
      · cases taken
        exact .inl rfl
      · cases taken
  | other db =>
    cases taken
    exact .inl rfl

theorem logged_step {s s' : System} {e : Event} (logged : Logged w s) (taken : step w program s e = some s') :
    Logged w s' := by
  intro p listed
  rcases step_log taken with same | ⟨replaying,n,op,same⟩
  · rw [same] at listed
    exact logged p listed
  · rw [same,List.mem_append,List.mem_singleton] at listed
    rcases listed with before | rfl
    · exact logged p before
    · exact ⟨s.db,rfl⟩

theorem logged_runs {db : Database} {events : List Event} {s : System} (run : Runs (step w program) (start db) events s) :
    Logged w s := by
  refine runs_invariant (fun s e s' logged taken => logged_step logged taken) ?_ run
  intro p listed
  cases listed

/-- For every two programs and every run of executions of both: where the replaying program performs an operation under
    an ID that has a row of another name, this is detected exactly when the operation compares names and the workflow
    is not cancelled. -/
theorem divergence_detected_iff {db : Database} {events : List Event} {s : System}
    (run : Runs (step w program) (start db) events s) {p : Performed} (listed : p ∈ s.log) (_ : p.replaying = true)
    {row : OperationOutput} (found : p.found = some row) (differs : row.function_name ≠ p.op.functionName) :
    Detected w p.functionID p.op row p.reply ↔ compares w p.functionID p.op = true ∧ p.cancelled = false := by
  obtain ⟨db',same⟩ := logged_runs run p listed
  have reply : p.reply = perform db' w p.functionID p.op := congrArg Performed.reply same
  have cancelled : p.cancelled = (checkIfCanceled db' w).isSome := congrArg Performed.cancelled same
  have there : db'.outputs.get? (w,p.functionID) = some row := (congrArg Performed.found same).symm.trans found
  rw [reply,cancelled]
  cases status : checkIfCanceled db' w with
  | none =>
    rw [perform_differs status there differs]
    simp
  | some e =>
    simp only [Option.isSome_some,Bool.true_eq_false,and_false,iff_false]
    intro detected
    have cancel : e = .DBOSWorkflowCancelledError w := by
      unfold checkIfCanceled at status
      split at status
      · exact (Option.some.inj status).symm
      · cases status
    rcases perform_cancelled status with thrown | ⟨_,other⟩
    · rw [cancel] at thrown
      cases thrown.symm.trans detected.raised
    · exact other _ _ _ detected.raised

end

/-- The program that records runs the step `charge` first, the one that replays starts the child `notify`. -/
def renamed (replaying : Bool) (_ : List Reply) (c : Call) : Bool :=
  c = if replaying then .operation (.startWorkflow "notify") else .operation (.step "charge")

/-- The step is recorded, and then the workflow is recovered with the other program. -/
def recordThenReplay (op : Operation) (call : CheckpointCall) (op' : Operation) : List Event :=
  [.execute false,.call 0 (.operation op),.look 0,.record 0 "a" call,
    .execute true,.call 1 (.operation op'),.look 1]

def charged : CheckpointCall := { functionName := "charge",startTimeEpochMs := 1,endTimeEpochMs := 2,output := some "42" }

def refused : CheckpointCall :=
  { functionName := "charge",startTimeEpochMs := 1,endTimeEpochMs := 2,error := some "declined",serialization := some "js_superjson" }

/-- A program that renames the step is found out. -/
theorem divergence_detected_step : ∃ s p row, Runs (step "w" fun _ _ _ => true) (start {})
      (recordThenReplay (.step "charge") charged (.step "notify")) s ∧ p ∈ s.log ∧ p.replaying = true ∧
    p.found = some row ∧ row.function_name ≠ p.op.functionName ∧ Detected "w" p.functionID p.op row p.reply := by
  have run : ∃ s, Runs (step "w" fun _ _ _ => true) (start {}) (recordThenReplay (.step "charge") charged (.step "notify")) s ∧
      performed "w" { outputs := insertCheckpoint Table.empty ("w",0) charged } true 0 (.step "notify") ∈ s.log :=
    ⟨_,rfl,.tail _ (.head _)⟩
  obtain ⟨s,run,listed⟩ := run
  refine ⟨s,_,checkpointRow charged,run,listed,rfl,rfl,by decide,?_⟩
  exact (divergence_detected_iff run listed rfl rfl (by decide)).mpr ⟨rfl,rfl⟩

/-- The start of the child gets a handle without a workflow, or throws the error of the step. -/
theorem divergence_undetected :
    (∃ s, Runs (step "w" renamed) (start {}) (recordThenReplay (.step "charge") charged (.startWorkflow "notify")) s ∧
      s.log.map Performed.reply = [.missing,.returns (.handle none)]) ∧
    (∃ s, Runs (step "w" renamed) (start {}) (recordThenReplay (.step "charge") refused (.startWorkflow "notify")) s ∧
      s.log.map Performed.reply = [.missing,.returns (.error "declined" (some "js_superjson"))]) ∧
    ¬ ∀ w program db events s, Runs (step w program) (start db) events s → ∀ p ∈ s.log, p.replaying = true →
      ∀ row, p.found = some row → row.function_name ≠ p.op.functionName → Detected w p.functionID p.op row p.reply := by
  have handed : ∃ s, Runs (step "w" renamed) (start {}) (recordThenReplay (.step "charge") charged (.startWorkflow "notify")) s ∧
      s.log = [performed "w" {} false 0 (.step "charge"),
        performed "w" { outputs := insertCheckpoint Table.empty ("w",0) charged } true 0 (.startWorkflow "notify")] :=
    ⟨_,rfl,rfl⟩
  refine ⟨⟨_,rfl,rfl⟩,⟨_,rfl,rfl⟩,?_⟩
  intro always
  obtain ⟨s,run,log⟩ := handed
  have detected := always "w" renamed {} _ s run _ (by rw [log]; exact .tail _ (.head _)) rfl (checkpointRow charged) rfl (by decide)
  exact absurd detected.raised (by decide)

end Dbos.Divergence
