import Dbos.Status
import Dbos.Pg.Run

/-!
Checkpoints in `operation_outputs`. `recordOperationResultInternal` inserts the row of a
step or leaves the row that is there, and takes the row for its own when the completion
time that comes back is its own end time. `recordOperationResult` runs its two statements
outside a transaction, so each commits alone, and `dbRetry` runs the call again when an
acknowledgement is lost. With equal end times two calls take one row for their own.
-/
namespace Dbos.Checkpoints
open Dbos.Pg Dbos.Schema Dbos.Status

/-- The arguments of a call: the name, the times and the `options`. -/
structure CheckpointCall where
  functionName : String
  startTimeEpochMs : Int
  endTimeEpochMs : Int
  childWorkflowID : Option String := none
  output : Option String := none
  error : Option String := none
  serialization : Option String := none
  deriving DecidableEq

def checkpointRow (call : CheckpointCall) : OperationOutput where
  output := call.output
  error := call.error
  function_name := call.functionName
  child_workflow_id := call.childWorkflowID
  started_at_epoch_ms := some call.startTimeEpochMs
  completed_at_epoch_ms := some call.endTimeEpochMs
  serialization := call.serialization

/-- INSERT ... ON CONFLICT DO UPDATE that sets the completion time to itself. -/
def insertCheckpoint (outputs : OperationOutputs) (key : String × Nat) (call : CheckpointCall) : OperationOutputs :=
  outputs.upsert key (checkpointRow call) id

/-- `Number(rows[0].completed_at_epoch_ms)`, which is 0 for NULL. -/
def recordedEnd (outputs : OperationOutputs) (key : String × Nat) : Int :=
  ((outputs.get? key).bind OperationOutput.completed_at_epoch_ms).getD 0

/-- The statement fails with 40001 or 23505, or the row has another end time. -/
def conflictError (key : String × Nat) : DbosError := .DBOSWorkflowConflictError key.1

/-- Both statements with nothing in between: the INSERT and, for the winner, the marker. -/
def recordOperationResultInternal (outputs : OperationOutputs) (statuses : Statuses) (executorID : String)
    (key : String × Nat) (checkConflict : Bool) (call : CheckpointCall) :
    Except DbosError Unit × OperationOutputs × Statuses :=
  let outputs' := insertCheckpoint outputs key call
  if checkConflict = true ∧ recordedEnd outputs' key ≠ call.endTimeEpochMs then (.error (conflictError key),outputs',statuses)
  else if recordedEnd outputs' key = call.endTimeEpochMs then (.ok (),outputs',claimExecutor statuses executorID key.1)
  else (.ok (),outputs',statuses)

@[simp] theorem get?_insertCheckpoint (outputs : OperationOutputs) (key : String × Nat) (call : CheckpointCall)
    (key' : String × Nat) : (insertCheckpoint outputs key call).get? key' =
      if key' = key then some ((outputs.get? key).getD (checkpointRow call)) else outputs.get? key' := by
  unfold insertCheckpoint
  rw [Table.get?_upsert]
  cases outputs.get? key <;> rfl

/-! ### Concurrent calls -/

/-- One executor's call on the step: `ready` before its INSERT, `won` when the INSERT returned
    its own end time. -/
inductive Phase
  | ready
  | won
  | returned
  | threw (e : DbosError)
  deriving DecidableEq

structure State (ι : Type) where
  outputs : OperationOutputs
  statuses : Statuses
  phase : ι → Phase

/-- A statement of the call `i` and whether its acknowledgement arrives, or a connection
    that is lost before the statement runs. -/
inductive Event (ι : Type)
  | insert (i : ι) (acknowledged : Bool)
  | claim (i : ι) (acknowledged : Bool)
  | drop (i : ι)

section
variable {ι : Type} [DecidableEq ι] (key : String × Nat) (executorID : ι → String) (call : ι → CheckpointCall)

def State.set (s : State ι) (i : ι) (phase : Phase) : ι → Phase := fun j => if j = i then phase else s.phase j

/-- After a lost acknowledgement or connection `dbRetry` starts the call again. -/
def step (s : State ι) : Event ι → Option (State ι)
  | .insert i acknowledged =>
    if s.phase i = .ready then
      let outputs' := insertCheckpoint s.outputs key (call i)
      if acknowledged = false then some { s with outputs := outputs' }
      else if recordedEnd outputs' key = (call i).endTimeEpochMs then
        some { s with outputs := outputs',phase := s.set i .won }
      else some { s with outputs := outputs',phase := s.set i (.threw (conflictError key)) }
    else none
  | .claim i acknowledged =>
    if s.phase i = .won then
      some { s with
        statuses := claimExecutor s.statuses (executorID i) key.1
        phase := s.set i (if acknowledged then .returned else .ready) }
    else none
  | .drop i =>
    if s.phase i = .ready ∨ s.phase i = .won then some { s with phase := s.set i .ready } else none

def start (statuses : Statuses) (outputs : OperationOutputs) : State ι := ⟨outputs,statuses,fun _ => .ready⟩

/-- At most one call returns, the row holds its output and error, and the others throw. -/
structure Agreement (s : State ι) : Prop where
  single : ∀ i j, s.phase i = .returned → s.phase j = .returned → i = j
  recorded : ∀ i, s.phase i = .returned →
    ∃ row, s.outputs.get? key = some row ∧ row.output = (call i).output ∧ row.error = (call i).error
  conflict : ∀ i e, s.phase i = .threw e → e = .DBOSWorkflowConflictError key.1

/-- The row is the row of some call, and whoever won has its end time. -/
structure Owned (s : State ι) : Prop where
  row : ∀ row, s.outputs.get? key = some row → ∃ i, row = checkpointRow (call i)
  owner : ∀ i, s.phase i = .won ∨ s.phase i = .returned →
    ∃ j, s.outputs.get? key = some (checkpointRow (call j)) ∧ (call j).endTimeEpochMs = (call i).endTimeEpochMs
  conflict : ∀ i e, s.phase i = .threw e → e = .DBOSWorkflowConflictError key.1

end

variable {ι : Type} {key : String × Nat} {executorID : ι → String} {call : ι → CheckpointCall}

/-- After an INSERT the row is owned, and it stays the row it was. -/
theorem insertCheckpoint_owned {s : State ι} (owned : Owned key call s) (i : ι) :
    ∃ j, (insertCheckpoint s.outputs key (call i)).get? key = some (checkpointRow (call j)) ∧
      ∀ row, s.outputs.get? key = some row → row = checkpointRow (call j) := by
  rw [get?_insertCheckpoint,if_pos rfl]
  cases found : s.outputs.get? key with
  | none => exact ⟨i,rfl,by simp⟩
  | some row =>
    obtain ⟨j,rfl⟩ := owned.row row found
    exact ⟨j,rfl,by simp⟩

/-- Whoever had the row before the INSERT has it after. -/
theorem insertCheckpoint_owner {s : State ι} (owned : Owned key call s) (i : ι) {k : ι}
    (won : s.phase k = .won ∨ s.phase k = .returned) :
    ∃ j, (insertCheckpoint s.outputs key (call i)).get? key = some (checkpointRow (call j)) ∧
      (call j).endTimeEpochMs = (call k).endTimeEpochMs := by
  obtain ⟨j,after,kept⟩ := insertCheckpoint_owned owned i
  obtain ⟨j',found,same⟩ := owned.owner k won
  exact ⟨j',by rw [after,← kept _ found],same⟩

variable [DecidableEq ι]

/-- One call moves to the phase `p` and the table to `outputs`. -/
theorem owned_set {s : State ι} (owned : Owned key call s) {outputs : OperationOutputs} (statuses : Statuses) {i : ι}
    {p : Phase} (row : ∀ row, outputs.get? key = some row → ∃ i, row = checkpointRow (call i))
    (owner : ∀ k, s.phase k = .won ∨ s.phase k = .returned ∨ (k = i ∧ (p = .won ∨ p = .returned)) →
      ∃ j, outputs.get? key = some (checkpointRow (call j)) ∧ (call j).endTimeEpochMs = (call k).endTimeEpochMs)
    (error : ∀ e, p = .threw e → e = .DBOSWorkflowConflictError key.1) :
    Owned key call ⟨outputs,statuses,s.set i p⟩ := by
  refine ⟨row,?_,?_⟩
  · intro k won
    by_cases here : k = i
    · simp only [State.set,here,if_true] at won
      exact owner k (.inr (.inr ⟨here,won⟩))
    · simp only [State.set,here,if_false] at won
      exact owner k (won.imp id .inl)
  · intro k e threw
    by_cases here : k = i
    · simp only [State.set,here,if_true] at threw
      exact error e threw
    · simp only [State.set,here,if_false] at threw
      exact owned.conflict k e threw

theorem step_owned {s s' : State ι} {e : Event ι} (owned : Owned key call s)
    (taken : step key executorID call s e = some s') : Owned key call s' := by
  cases e with
  | insert i acknowledged =>
    obtain ⟨j,after,_⟩ := insertCheckpoint_owned owned i
    have rows : ∀ row, (insertCheckpoint s.outputs key (call i)).get? key = some row → ∃ j, row = checkpointRow (call j) := by
      intro row found
      cases after.symm.trans found
      exact ⟨j,rfl⟩
    simp only [step] at taken
    split at taken
    · split at taken
      · cases taken
        exact ⟨rows,fun k won => insertCheckpoint_owner owned i won,owned.conflict⟩
      · split at taken
        · rename_i mine
          cases taken
          refine owned_set owned s.statuses rows ?_ (by simp)
          rintro k (won | returned | ⟨rfl,_⟩)
          · exact insertCheckpoint_owner owned i (.inl won)
          · exact insertCheckpoint_owner owned i (.inr returned)
          · refine ⟨j,after,?_⟩
            simpa [recordedEnd,after,checkpointRow] using mine
        · cases taken
          refine owned_set owned s.statuses rows ?_ (by rintro _ ⟨⟩; rfl)
          rintro k (won | returned | ⟨_,won | returned⟩)
          · exact insertCheckpoint_owner owned i (.inl won)
          · exact insertCheckpoint_owner owned i (.inr returned)
          · cases won
          · cases returned
    · cases taken
  | claim i acknowledged =>
    simp only [step] at taken
    split at taken
    · rename_i won
      cases taken
      refine owned_set owned _ owned.row ?_ (by cases acknowledged <;> simp)
      rintro k (won | returned | ⟨rfl,_⟩)
      · exact owned.owner k (.inl won)
      · exact owned.owner k (.inr returned)
      · exact owned.owner k (.inl won)
    · cases taken
  | drop i =>
    simp only [step] at taken
    split at taken
    · cases taken
      refine owned_set owned s.statuses owned.row ?_ (by simp)
      rintro k (won | returned | ⟨_,won | returned⟩)
      · exact owned.owner k (.inl won)
      · exact owned.owner k (.inr returned)
      · cases won
      · cases returned
    · cases taken

theorem run_owned {s : State ι} {statuses : Statuses} {outputs : OperationOutputs} {events : List (Event ι)}
    (free : outputs.get? key = none) (run : Runs (step key executorID call) (start statuses outputs) events s) :
    Owned key call s := by
  refine runs_invariant (fun s e s' owned taken => step_owned owned taken) ?_ run
  refine ⟨?_,?_,?_⟩
  · intro row found
    cases free.symm.trans found
  · rintro i (won | returned)
    · cases won
    · cases returned
  · intro i e threw
    cases threw

/-- The phase in which a call ends that has this result. -/
def phaseOf : Except DbosError Unit → Phase
  | .ok () => .returned
  | .error e => .threw e

/-- A call that nothing interrupts does what the function does. -/
theorem alone_recordOperationResultInternal (i : ι) (statuses : Statuses) (outputs : OperationOutputs) :
    ∃ events s result, Runs (step key executorID call) (start statuses outputs) events s ∧
      recordOperationResultInternal outputs statuses (executorID i) key true (call i) = (result,s.outputs,s.statuses) ∧
      s.phase i = phaseOf result := by
  have ready : (start statuses outputs : State ι).phase i = .ready := rfl
  by_cases mine : recordedEnd (insertCheckpoint outputs key (call i)) key = (call i).endTimeEpochMs
  · have first : step key executorID call (start statuses outputs) (.insert i true) =
        some ⟨insertCheckpoint outputs key (call i),statuses,(start statuses outputs).set i .won⟩ := by
      simp only [step,ready,if_true]
      exact if_pos mine
    have second : step key executorID call
        ⟨insertCheckpoint outputs key (call i),statuses,(start statuses outputs).set i .won⟩ (.claim i true) =
        some ⟨insertCheckpoint outputs key (call i),claimExecutor statuses (executorID i) key.1,
          State.set ⟨insertCheckpoint outputs key (call i),statuses,(start statuses outputs).set i .won⟩ i .returned⟩ :=
      if_pos (if_pos rfl)
    refine ⟨[.insert i true,.claim i true],_,.ok (),runs_cons.mpr ⟨_,first,runs_cons.mpr ⟨_,second,runs_nil.mpr rfl⟩⟩,?_,?_⟩
    · simp [recordOperationResultInternal,mine]
    · exact if_pos rfl
  · have first : step key executorID call (start statuses outputs) (.insert i true) =
        some ⟨insertCheckpoint outputs key (call i),statuses,(start statuses outputs).set i (.threw (conflictError key))⟩ := by
      simp only [step,ready,if_true]
      exact if_neg mine
    refine ⟨[.insert i true],_,.error (conflictError key),runs_cons.mpr ⟨_,first,runs_nil.mpr rfl⟩,?_,?_⟩
    · simp [recordOperationResultInternal,mine]
    · exact if_pos rfl

/-- Two calls with one end time, one after the other: both return. -/
theorem both_return (executorID : ι → String) {i j : ι} (other : i ≠ j) (same : (call i).endTimeEpochMs = (call j).endTimeEpochMs)
    (statuses : Statuses) {outputs : OperationOutputs} (free : outputs.get? key = none) :
    ∃ s, Runs (step key executorID call) (start statuses outputs)
        [.insert i true,.claim i true,.insert j true,.claim j true] s ∧
      s.phase i = .returned ∧ s.phase j = .returned := by
  have first : recordedEnd (insertCheckpoint outputs key (call i)) key = (call i).endTimeEpochMs := by
    simp [recordedEnd,free,checkpointRow]
  have second : recordedEnd (insertCheckpoint (insertCheckpoint outputs key (call i)) key (call j)) key =
      (call j).endTimeEpochMs := by
    simp [recordedEnd,free,checkpointRow,same]
  simp [runs_cons,runs_nil,step,start,State.set,first,second,other,other.symm]

/-- The calls agree in every interleaving exactly when their end times are distinct. -/
theorem checkpoint_agreement_iff (key : String × Nat) (executorID : ι → String) (call : ι → CheckpointCall)
    (statuses : Statuses) {outputs : OperationOutputs} (free : outputs.get? key = none) :
    (∀ events s, Runs (step key executorID call) (start statuses outputs) events s → Agreement key call s) ↔
      ∀ i j, i ≠ j → (call i).endTimeEpochMs ≠ (call j).endTimeEpochMs := by
  constructor
  · intro agrees i j other same
    obtain ⟨s,run,returned,returned'⟩ := both_return executorID other same statuses free
    exact other ((agrees _ s run).single i j returned returned')
  · intro distinct events s run
    have owned := run_owned free run
    have unique : ∀ {i j : ι}, (call i).endTimeEpochMs = (call j).endTimeEpochMs → i = j := by
      intro i j same
      by_contra other
      exact distinct i j other same
    refine ⟨?_,?_,owned.conflict⟩
    · intro i j returned returned'
      obtain ⟨k,found,same⟩ := owned.owner i (.inr returned)
      obtain ⟨k',found',same'⟩ := owned.owner j (.inr returned')
      cases unique same
      cases unique same'
      have rows := Option.some.inj (found.symm.trans found')
      exact unique (Option.some.inj (congrArg OperationOutput.completed_at_epoch_ms rows))
    · intro i returned
      obtain ⟨k,found,same⟩ := owned.owner i (.inr returned)
      cases unique same
      exact ⟨_,found,rfl,rfl⟩

/-- Two executors that end the step a millisecond apart. -/
def apart (first : Bool) : CheckpointCall :=
  { functionName := "step",startTimeEpochMs := 1,endTimeEpochMs := if first then 10 else 11,
    output := some (if first then "1" else "2") }

/-- The first returns, the second throws, and they agree. -/
theorem checkpoint_agreement_apart : ∃ s,
    Runs (step ("w",0) (fun _ => "e") apart) (start Table.empty Table.empty)
        [.insert true true,.insert false true,.claim true true] s ∧
      s.phase true = .returned ∧ s.phase false = .threw (.DBOSWorkflowConflictError "w") ∧ Agreement ("w",0) apart s := by
  obtain ⟨s,run,returned,threw⟩ : ∃ s, Runs (step ("w",0) (fun _ => "e") apart) (start Table.empty Table.empty)
      [.insert true true,.insert false true,.claim true true] s ∧
      s.phase true = .returned ∧ s.phase false = .threw (.DBOSWorkflowConflictError "w") := ⟨_,rfl,rfl,rfl⟩
  exact ⟨s,run,returned,threw,(checkpoint_agreement_iff _ _ _ _ rfl).mpr (by decide) _ s run⟩

/-- Two executors that end the step in the same millisecond with different outputs. -/
def sameMillisecond (first : Bool) : CheckpointCall :=
  { functionName := "step",startTimeEpochMs := 1,endTimeEpochMs := 10,output := some (if first then "1" else "2") }

/-- Both calls return, and the row holds the output of the first. -/
theorem sameMillisecond_disagree : ∃ s,
    Runs (step ("w",0) (fun _ => "e") sameMillisecond) (start Table.empty Table.empty)
        [.insert true true,.claim true true,.insert false true,.claim false true] s ∧
      s.phase true = .returned ∧ s.phase false = .returned ∧
      (s.outputs.get? ("w",0)).map OperationOutput.output = some (some "1") ∧ ¬ Agreement ("w",0) sameMillisecond s := by
  refine ⟨_,rfl,rfl,rfl,by decide,?_⟩
  intro agreement
  cases agreement.single true false rfl rfl

end Dbos.Checkpoints
