import Dbos.Checkpoints
import Dbos.Start

/-!
What a workflow sees of other workflows, and sees again when it is replayed: `DBOS.getWorkflowStatus` and the start
of a child whose deduplication ID is taken. Both are to be recorded under the function ID of the call. The
executions of the workflow run statement by statement, on any executor and beside each other, and whatever else is
in the system database may change in between. `getWorkflowStatus` in `src/system_database.ts` and `internalWorkflow` in
`src/dbos-executor.ts` ask for the truth of the function ID before they record, so that they do not under the ID 0.
-/
namespace Dbos.StatusReads
open Dbos.Pg Dbos.Schema Dbos.Status Dbos.Checkpoints StatusString
open Dbos.Start (truthy)

def DBOS_FUNCNAME_GETSTATUS : String := "getStatus"

/-- The call at the function ID; a start is given the status that it asks for. -/
inductive Operation
  | getWorkflowStatus (workflowID : String)
  | startWorkflow (child : WorkflowStatusInternal) (maxRetries : Option Nat)

/-- What the program gets. The status is parsed from its text, whether that was just written or is the recorded one. -/
inductive Observation
  | status (json : Option String)
  | error (e : DbosError)
  | handle (workflowID : Option String)
  deriving DecidableEq

/-- `JSON.stringify` of a row that `listWorkflows` has read, and the text of an error with its serialization. -/
structure Codec where
  stringify : String → WorkflowStatus → String
  serializeResError : DbosError → String × String
  deserializeResError : String → Option String → DbosError

/-- What `initWorkflowStatus` throws when the deduplication ID is taken. -/
def duplicated (child : WorkflowStatusInternal) : DbosError :=
  .DBOSQueueDuplicatedError child.workflowUUID (child.queueName.getD "") (child.deduplicationID.getD "")

def isDuplicated : DbosError → Bool
  | .DBOSQueueDuplicatedError _ _ _ => true
  | _ => false

/-- The error of the operation has a text, and is read back from it. -/
def Codec.Faithful (codec : Codec) : Operation → Prop
  | .getWorkflowStatus _ => True
  | .startWorkflow child _ =>
    (codec.serializeResError (duplicated child)).1 ≠ "" ∧
      codec.deserializeResError (codec.serializeResError (duplicated child)).1
        (some (codec.serializeResError (duplicated child)).2) = duplicated child

/-- `callerID && callerFN`. -/
def recordsStatus (callerID : String) (callerFN : Nat) : Bool := callerID ≠ "" && callerFN ≠ 0

/-- `callerID && callerFunctionID && params.duplicationPolicy !== 'return-existing'`. -/
def recordsDuplicated (callerID : String) (callerFunctionID : Nat) (returnExisting : Bool) : Bool :=
  callerID ≠ "" && callerFunctionID ≠ 0 && !returnExisting

/-! ### Executions of the call -/

/-- An execution looks for the checkpoint, which comes after a check for cancellation, then reads the status or starts
    the child, and records what came out: INSERT, and the marker of the executor. -/
inductive Phase
  | asked
  | checked
  | missing
  | recording (call : CheckpointCall) (o : Observation)
  | won (call : CheckpointCall) (o : Observation)
  | observed (o : Observation)
  | threw (e : DbosError)
  deriving DecidableEq

structure Execution where
  executorID : String
  phase : Phase := .asked

structure System where
  statuses : Statuses
  outputs : OperationOutputs
  executions : List Execution := []

inductive Event
  | call (executorID : String)
  | checkIfCanceled (i : Nat)
  | look (i : Nat)
  | funcGetStatus (i : Nat) (startTime endTime : Int)
  | initWorkflowStatus (i : Nat) (ownerXid : Option String) (now startTime endTime : Int) (acknowledged : Bool)
  | insert (i : Nat) (acknowledged : Bool)
  | claim (i : Nat) (acknowledged : Bool)
  | drop (i : Nat)
  | other (statuses : Statuses) (outputs : OperationOutputs)

def System.move (s : System) (i : Nat) (x : Execution) (phase : Phase) : System :=
  { s with executions := s.executions.set i { x with phase := phase } }

section
variable (codec : Codec) (op : Operation) (w : String) (n : Nat)

def funcGetStatus (statuses : Statuses) (workflowID : String) : Option String :=
  (statuses.get? workflowID).map (codec.stringify workflowID)

/-- What comes of a checkpoint. -/
def replayed (row : OperationOutput) : Observation :=
  match op with
  | .getWorkflowStatus _ => .status row.output
  | .startWorkflow _ _ =>
    if truthy row.error then .error (codec.deserializeResError (row.error.getD "") row.serialization)
    else .handle row.child_workflow_id

def look (outputs : OperationOutputs) : Phase :=
  match outputs.get? (w,n),op with
  | none,_ => .missing
  | some row,.getWorkflowStatus _ =>
    if row.function_name ≠ DBOS_FUNCNAME_GETSTATUS then
      .threw (.DBOSUnexpectedStepError w n DBOS_FUNCNAME_GETSTATUS row.function_name)
    else .observed (replayed codec op row)
  | some row,.startWorkflow _ _ => .observed (replayed codec op row)

/-- Under the ID 0 a status is neither looked for nor recorded. -/
def looks : Bool :=
  match op with
  | .getWorkflowStatus _ => recordsStatus w n
  | .startWorkflow _ _ => true

/-- How the start of the child goes on. -/
def started (child : WorkflowStatusInternal) (startTime endTime : Int) : Except DbosError InitResult → Phase
  | .ok _ =>
    .recording
      { functionName := child.workflowName,startTimeEpochMs := startTime,endTimeEpochMs := endTime,
        childWorkflowID := some child.workflowUUID }
      (.handle (some child.workflowUUID))
  | .error e =>
    if isDuplicated e then
      if recordsDuplicated w n false then
        .recording
          { functionName := child.workflowName,startTimeEpochMs := startTime,endTimeEpochMs := endTime,
            error := some (codec.serializeResError e).1,serialization := some (codec.serializeResError e).2 }
          (.error e)
      else .observed (.error e)
    else .threw e

/-- `dbRetry`: a status is asked for from the start, and of a start only the function that has lost its connection is
    called again. -/
def retried : Phase → Phase
  | .observed o => .observed o
  | .threw e => .threw e
  | phase =>
    match op,phase with
    | .getWorkflowStatus _,_ => .asked
    | .startWorkflow _ _,.checked => .asked
    | .startWorkflow _ _,.won call o => .recording call o
    | .startWorkflow _ _,_ => phase

/-- The INSERT, whose acknowledgement may be lost. -/
def inserted (outputs' : OperationOutputs) (call : CheckpointCall) (o : Observation) (acknowledged : Bool) : Phase :=
  if acknowledged = false then retried op (.recording call o)
  else if recordedEnd outputs' (w,n) = call.endTimeEpochMs then .won call o
  else .threw (conflictError (w,n))

def step (s : System) : Event → Option System
  | .call executorID => some { s with executions := s.executions ++ [{ executorID := executorID }] }
  | .checkIfCanceled i =>
    (s.executions[i]?).bind fun x =>
      if x.phase = .asked ∧ looks op w n = true then
        some (s.move i x (if getWorkflowStatusValue s.statuses w = some CANCELLED then .threw (.DBOSWorkflowCancelledError w)
          else .checked))
      else none
  | .look i =>
    (s.executions[i]?).bind fun x => if x.phase = .checked then some (s.move i x (look codec op w n s.outputs)) else none
  | .funcGetStatus i startTime endTime =>
    (s.executions[i]?).bind fun x =>
      match op with
      | .getWorkflowStatus workflowID =>
        let json := funcGetStatus codec s.statuses workflowID
        if recordsStatus w n then
          if x.phase = .missing then
            some (s.move i x (.recording
              { functionName := DBOS_FUNCNAME_GETSTATUS,startTimeEpochMs := startTime,endTimeEpochMs := endTime,
                output := json } (.status json)))
          else none
        else if x.phase = .asked then some (s.move i x (.observed (.status json)))
        else none
      | .startWorkflow _ _ => none
  | .initWorkflowStatus i ownerXid now startTime endTime acknowledged =>
    (s.executions[i]?).bind fun x =>
      match op with
      | .getWorkflowStatus _ => none
      | .startWorkflow child maxRetries =>
        if x.phase = .missing then
          let init := initWorkflowStatus s.statuses { child with createdAt := now,executorId := x.executorID } ownerXid
            { maxRetries := maxRetries } now
          some { s.move i x (if acknowledged then started codec w n child startTime endTime init.1 else .missing) with
                 statuses := init.2 }
        else none
  | .insert i acknowledged =>
    (s.executions[i]?).bind fun x =>
      match x.phase with
      | .recording call o =>
        let outputs' := insertCheckpoint s.outputs (w,n) call
        some { s.move i x (inserted op w n outputs' call o acknowledged) with outputs := outputs' }
      | _ => none
  | .claim i acknowledged =>
    (s.executions[i]?).bind fun x =>
      match x.phase with
      | .won call o =>
        some { s.move i x (if acknowledged then .observed o else retried op (.won call o)) with
               statuses := claimExecutor s.statuses x.executorID w }
      | _ => none
  | .drop i => (s.executions[i]?).map fun x => s.move i x (retried op x.phase)
  | .other statuses outputs =>
    if outputs.get? (w,n) = s.outputs.get? (w,n) then some { s with statuses := statuses,outputs := outputs } else none

/-- What an execution of the call has seen is recorded under its ID, and all others see the same. -/
structure Stable (s : System) : Prop where
  checkpointed : ∀ x ∈ s.executions,∀ o, x.phase = .observed o →
    ∃ row, s.outputs.get? (w,n) = some row ∧ replayed codec op row = o
  same : ∀ x ∈ s.executions,∀ y ∈ s.executions,∀ o o', x.phase = .observed o → y.phase = .observed o' → o = o'

/-- No INSERT meets the checkpoint of another execution with its own end time. -/
def apart (s : System) : Event → Bool
  | .insert i _ =>
    (s.executions[i]?).all fun x =>
      match x.phase with
      | .recording call _ =>
        (s.outputs.get? (w,n)).all fun row => row.completed_at_epoch_ms ≠ some call.endTimeEpochMs || row = checkpointRow call
      | _ => true
  | _ => true

end

def start (statuses : Statuses) (outputs : OperationOutputs) : System := { statuses := statuses,outputs := outputs }

/-! ### The invariant -/

section
variable (codec : Codec) (op : Operation) (w : String) (n : Nat)

/-- The checkpoint says so. -/
def Shown (outputs : OperationOutputs) (o : Observation) : Prop :=
  ∃ row, outputs.get? (w,n) = some row ∧ replayed codec op row = o

/-- What is about to be recorded, has been recorded or has been seen. -/
def Fits (outputs : OperationOutputs) : Phase → Prop
  | .recording call o => replayed codec op (checkpointRow call) = o
  | .won call o => replayed codec op (checkpointRow call) = o ∧ Shown codec op w n outputs o
  | .observed o => Shown codec op w n outputs o
  | _ => True

structure Invariant (s : System) : Prop where
  row : ∀ row, s.outputs.get? (w,n) = some row → ∃ call, row = checkpointRow call
  fits : ∀ x ∈ s.executions,Fits codec op w n s.outputs x.phase

end
section
variable {codec : Codec} {op : Operation} {w : String} {n : Nat} {s : System} {outputs' : OperationOutputs}

theorem fits_kept {outputs : OperationOutputs} (kept : ∀ row, outputs.get? (w,n) = some row → outputs'.get? (w,n) = some row)
    {phase : Phase} (fits : Fits codec op w n outputs phase) : Fits codec op w n outputs' phase := by
  have shown : ∀ o, Shown codec op w n outputs o → Shown codec op w n outputs' o := by
    rintro o ⟨row,found,same⟩
    exact ⟨row,kept row found,same⟩
  cases phase with
  | recording call o => exact fits
  | won call o => exact ⟨fits.1,shown o fits.2⟩
  | observed o => exact shown o fits
  | asked | checked | missing | threw e => trivial

theorem fits_retried {outputs : OperationOutputs} {phase : Phase} (fits : Fits codec op w n outputs phase) :
    Fits codec op w n outputs (retried op phase) := by
  cases phase with
  | observed o => exact fits
  | won call o =>
    cases op with
    | getWorkflowStatus workflowID => trivial
    | startWorkflow child maxRetries => exact fits.1
  | recording call o =>
    cases op with
    | getWorkflowStatus workflowID => trivial
    | startWorkflow child maxRetries => exact fits
  | asked | checked | missing | threw e => cases op <;> trivial

/-- One execution goes on, and the table keeps the checkpoint. -/
theorem invariant_move (inv : Invariant codec op w n s) {i : Nat} {x : Execution} (statuses : Statuses)
    (kept : ∀ row, s.outputs.get? (w,n) = some row → outputs'.get? (w,n) = some row)
    (row : ∀ row, outputs'.get? (w,n) = some row → ∃ call, row = checkpointRow call) {phase : Phase}
    (fits : Fits codec op w n outputs' phase) :
    Invariant codec op w n { s.move i x phase with statuses := statuses,outputs := outputs' } := by
  exact ⟨row,all_set (fun y old => fits_kept kept (inv.fits y old)) fits i⟩

/-- A look at the checkpoint shows what it says. -/
theorem fits_look (outputs : OperationOutputs) : Fits codec op w n outputs (look codec op w n outputs) := by
  unfold look
  split
  · trivial
  · rename_i row workflowID found
    split
    · trivial
    · exact ⟨row,found,rfl⟩
  · rename_i row child maxRetries found
    exact ⟨row,found,rfl⟩

theorem initWorkflowStatus_duplicated {t : Statuses} {status : WorkflowStatusInternal} {ownerXid : Option String}
    {options : InitOptions} {now : Int} {e : DbosError} (failed : (initWorkflowStatus t status ownerXid options now).1 = .error e)
    (duplicate : isDuplicated e = true) : e = duplicated status := by
  unfold initWorkflowStatus at failed
  split at failed
  · rename_i e' refused
    cases failed
    unfold insertWorkflowStatus at refused
    dsimp only at refused
    split at refused
    · cases refused
    · split at refused
      · cases refused
        rfl
      · cases refused
  · rename_i resRow t' _
    -- After the upsert only other errors are thrown.
    exfalso
    unfold initExit at failed
    repeat' split at failed
    all_goals
      cases failed
      try cases duplicate

/-- What the start of the child leaves to be recorded is what a replay makes of it. -/
theorem fits_started {child : WorkflowStatusInternal} {maxRetries : Option Nat} (numbered : recordsDuplicated w n false = true)
    (faithful : codec.Faithful (.startWorkflow child maxRetries)) (outputs : OperationOutputs) (startTime endTime : Int)
    {result : Except DbosError InitResult} (only : ∀ e, result = .error e → isDuplicated e = true → e = duplicated child) :
    Fits codec (.startWorkflow child maxRetries) w n outputs (started codec w n child startTime endTime result) := by
  unfold started
  split
  · rfl
  · rename_i e
    split
    · rename_i duplicate
      cases only e rfl duplicate
      obtain ⟨written,read⟩ := faithful
      simp only [Fits,replayed,checkpointRow,truthy,Option.any_some,ne_eq,written,not_false_eq_true,decide_true,if_true,
        Option.getD_some,read]
    · trivial

/-- The INSERT keeps the checkpoint that is there, and the execution that takes it for its own has made it. -/
theorem invariant_insert (inv : Invariant codec op w n s) {i : Nat} {x : Execution} {call : CheckpointCall} {o : Observation}
    (fits : replayed codec op (checkpointRow call) = o) (acknowledged : Bool)
    (own : ∀ row, s.outputs.get? (w,n) = some row → row.completed_at_epoch_ms = some call.endTimeEpochMs →
      row = checkpointRow call) :
    Invariant codec op w n { s.move i x (inserted op w n (insertCheckpoint s.outputs (w,n) call) call o acknowledged) with
      outputs := insertCheckpoint s.outputs (w,n) call } := by
  have after : (insertCheckpoint s.outputs (w,n) call).get? (w,n) =
      some ((s.outputs.get? (w,n)).getD (checkpointRow call)) := by
    rw [get?_insertCheckpoint,if_pos rfl]
  refine invariant_move inv s.statuses ?_ ?_ ?_
  · intro row found
    rw [after,found]
    rfl
  · intro row found
    rw [after] at found
    cases before : s.outputs.get? (w,n) with
    | none =>
      rw [before] at found
      cases found
      exact ⟨call,rfl⟩
    | some row' =>
      rw [before] at found
      cases found
      exact inv.row _ before
  · unfold inserted
    split
    · exact fits_retried (show Fits codec op w n _ (.recording call o) from fits)
    · split
      · rename_i mine
        refine ⟨fits,_,after,?_⟩
        cases before : s.outputs.get? (w,n) with
        | none => exact fits
        | some row =>
          obtain ⟨call',rfl⟩ := inv.row row before
          rw [recordedEnd,after,before] at mine
          rw [Option.getD_some,own _ before (congrArg some mine)]
          exact fits
      · trivial

theorem invariant_step {s' : System} {e : Event} (identified : w ≠ "") (numbered : n ≠ 0) (faithful : codec.Faithful op)
    (inv : Invariant codec op w n s) (cares : apart w n s e = true) (taken : step codec op w n s e = some s') :
    Invariant codec op w n s' := by
  have moved : ∀ {i : Nat} {x : Execution} (statuses : Statuses) {phase : Phase}, Fits codec op w n s.outputs phase →
      Invariant codec op w n { s.move i x phase with statuses := statuses } := by
    intro i x statuses phase fits
    exact invariant_move inv statuses (fun _ found => found) inv.row fits
  cases e with
  | call executorID =>
    cases taken
    refine ⟨inv.row,?_⟩
    intro x member
    rcases List.mem_append.mp member with old | new
    · exact inv.fits x old
    · cases List.mem_singleton.mp new
      trivial
  | checkIfCanceled i =>
    obtain ⟨x,found,taken⟩ := Option.bind_eq_some_iff.mp taken
    split at taken
    · cases taken
      refine moved s.statuses ?_
      split <;> trivial
    · cases taken
  | look i =>
    obtain ⟨x,found,taken⟩ := Option.bind_eq_some_iff.mp taken
    split at taken
    · cases taken
      exact moved s.statuses (fits_look s.outputs)
    · cases taken
  | funcGetStatus i startTime endTime =>
    obtain ⟨x,found,taken⟩ := Option.bind_eq_some_iff.mp taken
    cases op with
    | startWorkflow child maxRetries => cases taken
    | getWorkflowStatus workflowID =>
      have records : recordsStatus w n = true := by simp [recordsStatus,identified,numbered]
      simp only [records,if_true] at taken
      split at taken
      · cases taken
        exact moved s.statuses rfl
      · cases taken
  | initWorkflowStatus i ownerXid now startTime endTime acknowledged =>
    obtain ⟨x,found,taken⟩ := Option.bind_eq_some_iff.mp taken
    cases op with
    | getWorkflowStatus workflowID => cases taken
    | startWorkflow child maxRetries =>
      have records : recordsDuplicated w n false = true := by simp [recordsDuplicated,identified,numbered]
      dsimp only at taken
      split at taken
      · cases taken
        refine moved _ ?_
        split
        · refine fits_started records faithful s.outputs startTime endTime ?_
          intro e failed duplicate
          rw [initWorkflowStatus_duplicated failed duplicate]
          rfl
        · trivial
      · cases taken
  | insert i acknowledged =>
    obtain ⟨x,found,taken⟩ := Option.bind_eq_some_iff.mp taken
    split at taken
    · rename_i call o recording
      cases taken
      have fits := inv.fits x (List.mem_of_getElem? found)
      rw [recording] at fits
      refine invariant_insert inv fits acknowledged ?_
      intro row present same
      simp only [apart,found,Option.all_some,recording,present,same] at cares
      simpa using cares
    · cases taken
  | claim i acknowledged =>
    obtain ⟨x,found,taken⟩ := Option.bind_eq_some_iff.mp taken
    split at taken
    · rename_i call o won
      cases taken
      have fits := inv.fits x (List.mem_of_getElem? found)
      rw [won] at fits
      refine moved _ ?_
      split
      · exact fits.2
      · exact fits_retried (show Fits codec op w n _ (.won call o) from fits)
    · cases taken
  | drop i =>
    obtain ⟨x,found,rfl⟩ := Option.map_eq_some_iff.mp taken
    exact moved s.statuses (fits_retried (inv.fits x (List.mem_of_getElem? found)))
  | other statuses outputs =>
    simp only [step] at taken
    split at taken
    · rename_i same
      cases taken
      refine ⟨?_,?_⟩
      · intro row found
        exact inv.row row (same.symm.trans found)
      · intro x member
        exact fits_kept (fun row found => same.trans found) (inv.fits x member)
    · cases taken

theorem stable_invariant (inv : Invariant codec op w n s) : Stable codec op w n s := by
  have shown : ∀ x ∈ s.executions,∀ o, x.phase = .observed o → Shown codec op w n s.outputs o := by
    intro x member o seen
    have fits := inv.fits x member
    rw [seen] at fits
    exact fits
  refine ⟨shown,?_⟩
  intro x member y member' o o' seen seen'
  obtain ⟨row,found,rfl⟩ := shown x member o seen
  obtain ⟨row',found',rfl⟩ := shown y member' o' seen'
  cases found.symm.trans found'
  rfl

/-- Under every function ID but 0, what a workflow has seen of another one is recorded, and every replay on whatever
    executor sees it again, as long as no two executions record it with the same end time. -/
theorem observation_stable (identified : w ≠ "") (numbered : n ≠ 0) (faithful : codec.Faithful op) {statuses : Statuses}
    {outputs : OperationOutputs} (fresh : outputs.get? (w,n) = none) {events : List Event}
    (cares : Along (step codec op w n) (fun s e => apart w n s e = true) (start statuses outputs) events)
    (run : Runs (step codec op w n) (start statuses outputs) events s) : Stable codec op w n s := by
  have begins : Invariant codec op w n (start statuses outputs) := by
    refine ⟨?_,by simp [start]⟩
    intro row found
    cases fresh.symm.trans found
  exact stable_invariant (along_invariant
    (fun _ _ _ inv cares taken => invariant_step identified numbered faithful inv cares taken) begins cares run)

end
/-- A child that shares the deduplication ID of another workflow. -/
def child : WorkflowStatusInternal :=
  { workflowUUID := "w-1",status := ENQUEUED,workflowName := "child",queueName := some "q",deduplicationID := some "d",createdAt := 0 }

def json : Codec where
  stringify workflowID row := "\x7b\"workflowUUID\":\"" ++ workflowID ++ "\",\"status\":\"" ++ row.status.text ++ "\"\x7d"
  serializeResError _ := ("\x7b\"name\":\"DBOSQueueDuplicatedError\"\x7d","js_superjson")
  deserializeResError _ _ := duplicated child

def holding (status : StatusString) : Statuses :=
  Table.empty.insert "x" { status := status,name := "f",queue_name := some "q",deduplication_id := some "d",created_at := 0,updated_at := 0 }

def starts (i : Nat) (executorID : String) : List Event :=
  [.call executorID,.checkIfCanceled i,.look i,.initWorkflowStatus i (some executorID) 5 5 5 true]

/-- The first execution finds the deduplication ID taken, and the second one, when it no longer is, sees the error again. -/
def replaysError : List Event :=
  starts 0 "a" ++ [Event.insert 0 true,.claim 0 true,
    .other Table.empty (insertCheckpoint Table.empty ("w",1)
      { functionName := "child",startTimeEpochMs := 5,endTimeEpochMs := 5,error := some (json.serializeResError (duplicated child)).1,
        serialization := some (json.serializeResError (duplicated child)).2 }),
    .call "b",.checkIfCanceled 1,.look 1]

theorem observation_stable_error : ∃ s,
    Along (step json (.startWorkflow child none) "w" 1) (fun s e => apart "w" 1 s e = true) (start (holding ENQUEUED) Table.empty)
      replaysError ∧
    Runs (step json (.startWorkflow child none) "w" 1) (start (holding ENQUEUED) Table.empty) replaysError s ∧
    s.executions.map Execution.phase = [.observed (.error (duplicated child)),.observed (.error (duplicated child))] ∧
    Stable json (.startWorkflow child none) "w" 1 s := by
  have cares : Along (step json (.startWorkflow child none) "w" 1) (fun s e => apart "w" 1 s e = true)
      (start (holding ENQUEUED) Table.empty) replaysError := by decide
  exact ⟨_,cares,rfl,rfl,observation_stable (by decide) (by decide) ⟨by decide,rfl⟩ rfl cares rfl⟩

/-- Two executions read the status of a workflow that ends in between. -/
def readsStatus : List Event :=
  [.call "a",.funcGetStatus 0 5 5,.other (holding SUCCESS) Table.empty,.call "b",.funcGetStatus 1 6 6]

def seen (status : StatusString) : Phase := .observed (.status (funcGetStatus json (holding status) "x"))

/-- Under the ID 0 a replay sees the status of the moment, and a child starts that had failed to. -/
theorem observation_changes :
    (∃ s, Runs (step json (.getWorkflowStatus "x") "w" 0) (start (holding PENDING) Table.empty) readsStatus s ∧
      s.executions.map Execution.phase = [seen PENDING,seen SUCCESS]) ∧
    (∃ s, Runs (step json (.startWorkflow child none) "w" 0) (start (holding ENQUEUED) Table.empty)
      (starts 0 "a" ++ [.other Table.empty Table.empty] ++ starts 1 "b" ++ [.insert 1 true,.claim 1 true]) s ∧
      s.executions.map Execution.phase = [.observed (.error (duplicated child)),.observed (.handle (some "w-1"))]) ∧
    ¬ ∀ (codec : Codec) op w n statuses outputs events s, codec.Faithful op → w ≠ "" → outputs.get? (w,n) = none →
      Runs (step codec op w n) (start statuses outputs) events s → Stable codec op w n s := by
  have changes : ∃ s, Runs (step json (.getWorkflowStatus "x") "w" 0) (start (holding PENDING) Table.empty) readsStatus s ∧
      s.executions.map Execution.phase = [seen PENDING,seen SUCCESS] := ⟨_,rfl,rfl⟩
  refine ⟨changes,⟨_,rfl,rfl⟩,?_⟩
  intro always
  obtain ⟨s,run,phases⟩ := changes
  have stable := always json (.getWorkflowStatus "x") "w" 0 _ _ _ s trivial (by decide) rfl run
  have before : seen PENDING ∈ s.executions.map Execution.phase := by simp [phases]
  have after : seen SUCCESS ∈ s.executions.map Execution.phase := by simp [phases]
  obtain ⟨x,listed,first⟩ := List.mem_map.mp before
  obtain ⟨y,listed',second⟩ := List.mem_map.mp after
  exact absurd (stable.same x listed y listed' _ _ first second) (by decide)

end Dbos.StatusReads
