import Dbos.Pg.Run
import Dbos.Pg.Table

/-!
The map of the workflows that an executor runs. A run registers itself at the end of
`internalWorkflow` and releases its entry at one of several points: before its output or its error
is recorded, when it finds itself cancelled, or at last when its promise settles. Between any two
awaits of a run, other runs and `deleteWorkflows` get their turn. The map knows a run only by the
ID of its workflow.
-/
namespace Dbos.RunningMap
open Dbos.Pg

/-! ### Runs -/

/-- An entry of `runningWorkflowMap`; `owner` is the number of the run that has set it. -/
structure Entry where
  owner : Nat
  queueName : Option String
  queuePartitionKey : Option String
  deriving DecidableEq

/-- Where `runWorkflow` stands; `error` is `handleWorkflowError`. -/
inductive Phase
  | executing
  | serializing (error : Bool)
  | recording (error : Bool)
  -- `retrievedHandle.getResult()` after a DBOSWorkflowConflictError
  | awaiting
  | settled
  | done
  deriving DecidableEq

/-- What the `catch` of `runWorkflow` tells apart. -/
inductive Thrown
  | DBOSWorkflowConflictError
  | DBOSWorkflowCancelledError (workflowID : String)
  | other

/-- A run that has registered itself. `dropped` notes that `deleteWorkflows` has removed its entry. -/
structure Run where
  workflowID : String
  phase : Phase := .executing
  runningWorkflowReleased : Bool := false
  dropped : Bool := false
  deriving DecidableEq

structure Executor where
  runningWorkflowMap : Table String Entry := .empty
  runs : List Run := []

/-- `releaseRunningWorkflow`, on the way to a phase. -/
def Executor.release (s : Executor) (i : Nat) (run : Run) (phase : Phase) : Executor where
  runningWorkflowMap :=
    if run.runningWorkflowReleased then s.runningWorkflowMap
    else s.runningWorkflowMap.delete fun k _ => k = run.workflowID
  runs := s.runs.set i { run with runningWorkflowReleased := true,phase := phase }

def Executor.move (s : Executor) (i : Nat) (run : Run) (phase : Phase) : Executor :=
  { s with runs := s.runs.set i { run with phase := phase } }

/-- `internalWorkflow` once `shouldExecute` is known: the look at the map and the registration are
    one turn. -/
def Executor.start (s : Executor) (workflowID : String) (queueName queuePartitionKey : Option String) : Executor :=
  if (s.runningWorkflowMap.get? workflowID).isSome then s
  else
    { runningWorkflowMap := s.runningWorkflowMap.insert workflowID ⟨s.runs.length,queueName,queuePartitionKey⟩
      runs := s.runs ++ [{ workflowID := workflowID }] }

/-- The loop of `deleteWorkflows` over the map. -/
def Executor.deleteWorkflows (s : Executor) (allIds : List String) : Executor where
  runningWorkflowMap := s.runningWorkflowMap.delete fun k _ => k ∈ allIds
  runs := s.runs.map fun run =>
    { run with dropped := run.dropped || !run.runningWorkflowReleased && decide (run.workflowID ∈ allIds) }

inductive Event
  | internalWorkflow (workflowID : String) (queueName queuePartitionKey : Option String)
  -- the function returns
  | returns (i : Nat)
  -- the `try` block throws
  | throws (i : Nat) (e : Thrown)
  -- the output or the error is serialized
  | serialized (i : Nat)
  -- it is recorded, or the awaited result is there
  | finishes (i : Nat)
  -- the `catch` block throws
  | fails (i : Nat)
  -- the `finally` of `registerRunningWorkflow`
  | settles (i : Nat)
  | deleteWorkflows (allIds : List String)

/-- The run whose turn it is. -/
def Event.actor : Event → Option Nat
  | .returns i => some i
  | .throws i _ => some i
  | .serialized i => some i
  | .finishes i => some i
  | .fails i => some i
  | .settles i => some i
  | _ => none

/-- The `catch` block of `runWorkflow`. -/
def Executor.caught (s : Executor) (i : Nat) (run : Run) : Thrown → Executor
  | .DBOSWorkflowConflictError => s.move i run .awaiting
  | .DBOSWorkflowCancelledError workflowID =>
    if workflowID = run.workflowID then s.release i run .settled else s.move i run (.serializing true)
  | .other => s.move i run (.serializing true)

/-- A turn of a run. -/
def Executor.turn (s : Executor) (i : Nat) (run : Run) : Event → Option Executor
  | .returns _ =>
    match run.phase with
    | .executing => some (s.move i run (.serializing false))
    | _ => none
  | .throws _ e =>
    match run.phase with
    | .executing => some (s.caught i run e)
    | .serializing false => some (s.caught i run e)
    | .recording false => some (s.caught i run e)
    | _ => none
  | .serialized _ =>
    match run.phase with
    | .serializing error => some (s.release i run (.recording error))
    | _ => none
  | .finishes _ =>
    match run.phase with
    | .recording _ => some (s.move i run .settled)
    | .awaiting => some (s.move i run .settled)
    | _ => none
  | .fails _ =>
    match run.phase with
    | .serializing true => some (s.move i run .settled)
    | .recording true => some (s.move i run .settled)
    | .awaiting => some (s.move i run .settled)
    | _ => none
  | .settles _ =>
    match run.phase with
    | .settled => some (s.release i run .done)
    | _ => none
  | _ => none

def step (s : Executor) (event : Event) : Option Executor :=
  match event with
  | .internalWorkflow workflowID queueName queuePartitionKey => some (s.start workflowID queueName queuePartitionKey)
  | .deleteWorkflows allIds => some (s.deleteWorkflows allIds)
  | event =>
    match event.actor with
    | none => none
    | some i =>
      match s.runs[i]? with
      | none => none
      | some run => s.turn i run event

/-- Everything that a turn does: it moves its run on, with or without a release. -/
theorem turn_cases {s s' : Executor} {i : Nat} {run : Run} {event : Event} (taken : s.turn i run event = some s') :
    (∃ phase,s' = s.move i run phase) ∨ ∃ phase,s' = s.release i run phase := by
  unfold Executor.turn at taken
  have catching : ∀ e,(∃ phase,s.caught i run e = s.move i run phase) ∨ ∃ phase,s.caught i run e = s.release i run phase := by
    intro e
    cases e with
    | DBOSWorkflowConflictError => exact .inl ⟨_,rfl⟩
    | other => exact .inl ⟨_,rfl⟩
    | DBOSWorkflowCancelledError workflowID =>
      by_cases own : workflowID = run.workflowID
      · exact .inr ⟨.settled,if_pos own⟩
      · exact .inl ⟨.serializing true,if_neg own⟩
  cases event with
  | throws j e =>
    dsimp only at taken
    split at taken
    · cases taken; exact catching e
    · cases taken; exact catching e
    · cases taken; exact catching e
    · cases taken
  | serialized j =>
    dsimp only at taken
    split at taken
    · cases taken; exact .inr ⟨_,rfl⟩
    · cases taken
  | settles j =>
    dsimp only at taken
    split at taken
    · cases taken; exact .inr ⟨_,rfl⟩
    · cases taken
  | internalWorkflow => cases taken
  | deleteWorkflows => cases taken
  | _ =>
    dsimp only at taken
    split at taken <;> first | (cases taken; exact .inl ⟨_,rfl⟩) | cases taken

/-- Everything that an event does. -/
theorem step_cases {s s' : Executor} {event : Event} (taken : step s event = some s') :
    (∃ w q k,event = .internalWorkflow w q k ∧ s' = s.start w q k) ∨
      (∃ allIds,event = .deleteWorkflows allIds ∧ s' = s.deleteWorkflows allIds) ∨
        ∃ i run,event.actor = some i ∧ s.runs[i]? = some run ∧
          ((∃ phase,s' = s.move i run phase) ∨ ∃ phase,s' = s.release i run phase) := by
  cases event with
  | internalWorkflow w q k => cases taken; exact .inl ⟨w,q,k,rfl,rfl⟩
  | deleteWorkflows allIds => cases taken; exact .inr (.inl ⟨allIds,rfl,rfl⟩)
  | _ =>
    refine .inr (.inr ?_)
    simp only [step,Event.actor] at taken ⊢
    split at taken
    · cases taken
    · rename_i run found
      exact ⟨_,run,rfl,found,turn_cases taken⟩

end Dbos.RunningMap
