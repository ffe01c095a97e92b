import Dbos.Ops

/-!
The invariant of the rows of `workflow_status`. Each statement of `src/system_database.ts`
sets its own columns under its own guard; the invariant says which columns go with which
status in every table that the operations can reach from the empty one.
-/
namespace Dbos.RowInvariant
open Dbos.Pg Dbos.Schema Dbos.Status Dbos.Start Dbos.Dequeue Dbos.Ops StatusString

/-- The columns that go with the status of a row. -/
structure RowOk (r : WorkflowStatus) : Prop where
  /-- A completion time is set exactly on the finished statuses. -/
  completed : r.completed_at.isSome ↔ r.status = SUCCESS ∨ r.status = ERROR ∨ r.status = CANCELLED
  /-- A deduplication ID is held on a queue, and only while the workflow waits or runs. -/
  keyed : r.deduplication_id.isSome →
    r.queue_name.isSome ∧ (r.status = ENQUEUED ∨ r.status = DELAYED ∨ r.status = PENDING)
  /-- A debounce key is held only while DELAYED. -/
  debounced : r.is_debounced = true → r.deduplication_id.isSome → r.status = DELAYED
  /-- A workflow that waits is on a queue and has no start time. -/
  waiting : r.status = ENQUEUED ∨ r.status = DELAYED → r.queue_name.isSome ∧ r.started_at_epoch_ms = none

theorem inserted_rowOk {k : String} {op : Op} {r : WorkflowStatus} (new : Inserted k op r) : RowOk r := by
  cases new with
  | init initStatus ownerXid options now here =>
    obtain ⟨s,direct,queued,keyed,debounced⟩ := initStatus
    cases queue : s.queueName with
    | none =>
      have pending := direct queue
      have unkeyed : s.deduplicationID = none := by
        cases given : s.deduplicationID with
        | none => rfl
        | some d => simp [given,queue] at keyed
      constructor <;> simp [insertedRow,pending,unkeyed]
    | some q =>
      have waits := queued (by simp [queue])
      have fresh : s.status = ENQUEUED ∨ s.status = DELAYED := by
        rw [waits]
        split <;> simp
      constructor
      · rcases fresh with status | status <;> simp [insertedRow,status]
      · intro _
        refine ⟨by simp [insertedRow,queue],?_⟩
        rcases fresh with status | status <;> simp [insertedRow,status]
      · intro marked _
        exact debounced marked
      · intro _
        simp [insertedRow,queue]
  | enqueued statuses createdAts s createdAt member here waits =>
    obtain ⟨s,direct,queued,keyed,debounced⟩ := s
    dsimp only at waits
    have queue : s.queueName.isSome := by
      cases given : s.queueName with
      | none =>
        rw [direct given] at waits
        cases waits
      | some q => rfl
    constructor <;> simp [enqueuedRow,insertedRow,waits,queue]
  | forked originals forks options now origID ws here => constructor <;> simp [forkedRow]

theorem outcome_status (outcome : Outcome) : outcome.status = SUCCESS ∨ outcome.status = ERROR := by
  cases outcome <;> simp [Outcome.status]

/-- Every rewrite keeps the invariant. -/
theorem rewrite_rowOk {k : String} {op : Op} {r r' : WorkflowStatus} (by_ : Rewrite k r op r') (ok : RowOk r) :
    RowOk r' := by
  obtain ⟨completed,keyed,debounced,waiting⟩ := ok
  cases by_ with
  | upserted initStatus ownerXid options now here => exact ⟨completed,keyed,debounced,waiting⟩
  | exceeded initStatus ownerXid options now here pending =>
    have unset : r.completed_at = none := by simpa [pending] using completed
    constructor <;> simp [updatedRow,conflictRow,unset]
  | recorded _ outcome now records open_ =>
    have resets : outcome.fields.resetDeduplicationID = true ∧ outcome.fields.setCompletedAt = true := by
      cases outcome <;> exact ⟨rfl,rfl⟩
    have final := outcome_status outcome
    constructor
    · simpa [updatedRow,resets] using final.imp id .inl
    · simp [updatedRow,resets]
    · simp [updatedRow,resets]
    · intro waits
      rcases final with status | status <;> simp [updatedRow,status] at waits
  | reenqueued executorID appVersion recoveryQueueName now hit =>
    have pending : r.status = PENDING := by
      simp only [reenqueueHits,decide_eq_true_eq] at hit
      exact hit.1
    have unset : r.completed_at = none := by simpa [pending] using completed
    have queue : (r.queue_name.or (some recoveryQueueName)).isSome := by simp
    constructor
    · simp [reenqueuedRow,unset]
    · intro _
      exact ⟨queue,.inl rfl⟩
    · intro marked held
      have still := debounced marked held
      rw [pending] at still
      cases still
    · intro _
      exact ⟨queue,rfl⟩
  | cancelled workflowIDs now here unsuccessful unfailed => constructor <;> simp [cancelledRow]
  | resumed workflowIDs queueName now here unsuccessful unfailed => constructor <;> simp [resumedRow]
  | prioritised priority now waits => exact ⟨completed,keyed,debounced,waiting⟩
  | delayed delayUntilEpochMS now waits => exact ⟨completed,keyed,debounced,waiting⟩
  | bounced params now hit => exact ⟨completed,keyed,debounced,waiting⟩
  | forkedFrom originals forks options now here => exact ⟨completed,keyed,debounced,waiting⟩
  | transitioned now waits due =>
    have unset : r.completed_at = none := by simpa [waits] using completed
    obtain ⟨queue,unstarted⟩ := waiting (.inr waits)
    constructor
    · simp [transitionedRow,unset]
    · intro _
      exact ⟨queue,.inl rfl⟩
    · intro marked held
      have debounces : r.is_debounced = true := marked
      simp [transitionedRow,debounces] at held
    · intro _
      exact ⟨queue,unstarted⟩
  | claimed call recent ids now here waits =>
    have unset : r.completed_at = none := by simpa [waits] using completed
    obtain ⟨queue,_⟩ := waiting (.inl waits)
    constructor
    · simp [claimedRow,unset]
    · intro _
      exact ⟨queue,.inr (.inr rfl)⟩
    · intro marked held
      have still := debounced marked held
      rw [waits] at still
      cases still
    · simp [claimedRow]
  | adopted executorID other => exact ⟨completed,keyed,debounced,waiting⟩

/-- One operation keeps the invariant of every row. -/
theorem apply_rowOk {t : Statuses} (all : t.All fun _ => RowOk) (op : Op) : (op.apply t).All fun _ => RowOk := by
  intro k r' found
  have change := apply_changes t op k
  rw [found] at change
  generalize before : t.get? k = old at change
  cases change with
  | kept => exact all k r' before
  | inserted _ new => exact inserted_rowOk new
  | rewritten r _ by_ => exact rewrite_rowOk by_ (all k r before)

/-- Every row of every table that the operations reach satisfies the invariant. -/
theorem workflow_status_rows_ok {ops : List Op} {t : Statuses} (run : Runs step Table.empty ops t) :
    t.All fun _ => RowOk := by
  refine runs_invariant (I := fun t => t.All fun _ => RowOk) ?_ Table.all_empty run
  intro s op s' all taken
  cases taken
  exact apply_rowOk all op

/-- A debounced workflow: delayed, due, claimed by an executor and finished. -/
def debouncedRun : List Op :=
  [.initWorkflowStatus
     ⟨{ workflowUUID := "w",status := DELAYED,workflowName := "f",createdAt := 1,queueName := some "q",
        deduplicationID := some "key",delayUntilEpochMS := some 5,isDebounced := true },
      by constructor <;> simp⟩ none {} 1,
   .transitionDelayedWorkflows 6,
   .findAndMarkStartableWorkflows { queue := { name := "q" },executorID := "e",appVersion := "v",startTimeMs := 7 } 0 ["w"] 7,
   .recordWorkflowOutput "w" { workflowUUID := "w",status := SUCCESS,workflowName := "f",createdAt := 1 } 9]

theorem debouncedRun_rows_ok :
    ((debouncedRun.foldl Op.apply Table.empty).get? "w").map WorkflowStatus.status = some SUCCESS ∧
      (debouncedRun.foldl Op.apply Table.empty).All fun _ => RowOk :=
  ⟨by decide,@workflow_status_rows_ok debouncedRun _ rfl⟩

end Dbos.RowInvariant
