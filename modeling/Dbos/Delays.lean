import Dbos.Deadlines

/-!
When a delayed workflow starts. A row that is DELAYED is not dequeued, and only few statements end that: the transition of the delays that
have passed, and those by which somebody takes the workflow out of its delay. Every other statement of `Dbos.Deadlines` leaves it DELAYED,
with the delay that was set last.
-/
namespace Dbos.Delays
open Dbos.Pg Dbos.Schema Dbos.Status Dbos.Start Dbos.Dequeue Dbos.Deadlines StatusString
open Dbos.Ops hiding step

/-- The statement sets the delay of the workflow, or may set it. -/
def postpones (k : String) : Write → Bool
  | .operation (.setWorkflowDelay workflowID _ _) => workflowID = k
  | .operation (.debounceDelayedWorkflow _ _) => true
  | _ => false

/-- What ends the delay of a row: it has passed, or somebody resumes, cancels or deletes the workflow, records its outcome or sets its
    status. -/
inductive Ends (k : String) (row : WorkflowStatus) : Write → Prop
  | due (now : Int) (passed : row.delay_until_epoch_ms.any fun delay => delay ≤ now) :
      Ends k row (.operation (.transitionDelayedWorkflows now))
  | resumed (workflowIDs : List String) (queueName : Option String) (now : Int) (here : k ∈ workflowIDs) :
      Ends k row (.operation (.resumeWorkflows workflowIDs queueName now))
  | cancelled (workflowIDs : List String) (now : Int) (here : k ∈ workflowIDs) :
      Ends k row (.operation (.cancelWorkflows workflowIDs now))
  | deleted (allIds : List String) (here : k ∈ allIds) : Ends k row (.operation (.deleteWorkflows allIds))
  | recorded (op : Op) (outcome : Outcome) (now : Int) (records : op.records = some (k,outcome,now)) : Ends k row (.operation op)
  | set (status : StatusString) (resetRecoveryAttempts : Bool) (updateName : Option String) (now : Int) :
      Ends k row (.setWorkflowStatus k status resetRecoveryAttempts updateName now)

/-- The row is still DELAYED, with its delay if the statement did not set it. -/
def Waits (k : String) (w : Write) (row : WorkflowStatus) (t : Statuses) : Prop :=
  ∃ row', t.get? k = some row' ∧ row'.status = DELAYED ∧ (postpones k w = false → row'.delay_until_epoch_ms = row.delay_until_epoch_ms)

variable {k : String} {t t' : Statuses} {row : WorkflowStatus}

theorem rewrite_waits {op : Op} {row' : WorkflowStatus} (by_ : Rewrite k row op row') (delayed : row.status = DELAYED) :
    (row'.status = DELAYED ∧ (postpones k (.operation op) = false → row'.delay_until_epoch_ms = row.delay_until_epoch_ms)) ∨
      Ends k row (.operation op) := by
  cases by_ with
  | recorded op outcome now records open_ => exact .inr (.recorded op outcome now records)
  | cancelled workflowIDs now here unsuccessful unfailed => exact .inr (.cancelled workflowIDs now here)
  | resumed workflowIDs queueName now here unsuccessful unfailed => exact .inr (.resumed workflowIDs queueName now here)
  | transitioned now waits due => exact .inr (.due now due)
  | exceeded initStatus ownerXid options now here pending => simp [delayed] at pending
  | reenqueued executorID appVersion recoveryQueueName now hit => simp [reenqueueHits,delayed] at hit
  | claimed call recent ids now here waits => simp [delayed] at waits
  | delayed delayUntilEpochMS now waits => exact .inl ⟨delayed,fun stays => by simp [postpones] at stays⟩
  | bounced params now hit => exact .inl ⟨delayed,nofun⟩
  | upserted | prioritised | forkedFrom | adopted => exact .inl ⟨delayed,fun _ => rfl⟩

/-- What a statement does to a row that is DELAYED. -/
theorem apply_waits (w : Write) (found : t.get? k = some row) (delayed : row.status = DELAYED) :
    Waits k w row (w.apply t) ∨ Ends k row w := by
  have stays : ∀ {w}, Waits k w row t := fun {w} => ⟨row,found,delayed,fun _ => rfl⟩
  cases w with
  | operation op =>
    have change := apply_changes t op k
    rw [found] at change
    generalize after : (op.apply t).get? k = new at change
    cases change with
    | kept => exact .inl ⟨row,after,delayed,fun _ => rfl⟩
    | rewritten _ row' by_ =>
      rcases rewrite_waits by_ delayed with ⟨status,same⟩ | ends
      · exact .inl ⟨row',after,status,same⟩
      · exact .inr ends
    | deleted _ allIds here deletes =>
      subst deletes
      exact .inr (.deleted allIds here)
  | setWorkflowStatus workflowID status resetRecoveryAttempts updateName now =>
    by_cases mine : workflowID = k
    · subst mine
      exact .inr (.set status resetRecoveryAttempts updateName now)
    · refine .inl ?_
      simp only [Write.apply,setWorkflowStatus,updateWorkflowStatus]
      split
      · rename_i done
        split at done <;> cases done
        refine ⟨row,?_,delayed,fun _ => rfl⟩
        simp [found,updateHits,Ne.symm mine]
      · exact stays
  | garbageCollect cutoffEpochTimestampMs =>
    refine .inl ⟨row,?_,delayed,fun _ => rfl⟩
    simp [Write.apply,found,collectHits,delayed]
  | importWorkflow workflows =>
    refine .inl ⟨row,?_,delayed,fun _ => rfl⟩
    simp only [Write.apply,importWorkflow]
    split
    · rename_i t₂ done
      obtain ⟨t₁,inserts,unique⟩ := Option.map_eq_some_iff.mp done
      unfold indexed at unique
      split at unique <;> cases unique
      exact (Table.insertRows_get? inserts k row).mpr (.inl found)
    · exact found
  | enqueue_workflow args uuid v_owner_xid v_now =>
    refine .inl ?_
    simp only [Write.apply,enqueue_workflow]
    split
    · exact stays
    · split
      · rename_i t₂ unique
        unfold indexed at unique
        split at unique <;> cases unique
        by_cases here : k = args.workflow_id.getD uuid
        · exact ⟨{ row with updated_at := v_now },by rw [Table.get?_upsert,if_pos here,← here,found]; rfl,delayed,fun _ => rfl⟩
        · exact ⟨row,by rw [Table.get?_upsert,if_neg here]; exact found,delayed,fun _ => rfl⟩
      · exact stays

/-- Only an ENQUEUED row is claimed. -/
theorem dequeues_enqueued {w : Write} (dequeues : Dequeues k t w) : ∃ row, t.get? k = some row ∧ row.status = ENQUEUED := by
  cases w with
  | operation op =>
    cases op with
    | findAndMarkStartableWorkflows call recent ids now =>
      obtain ⟨new,claims⟩ := claimLoop_claims call recent now ids [] t
      have member : k ∈ new := by
        have result := claims.result
        rw [List.nil_append] at result
        exact result ▸ dequeues
      obtain ⟨row,found,waits,_⟩ := claims.claimed k member
      exact ⟨row,found,waits⟩
    | _ => exact dequeues.elim
  | _ => exact dequeues.elim

/-- A workflow that is DELAYED is not dequeued before something has ended its delay: whatever else happens in between, some statement finds
    it DELAYED and ends that, and if nothing has set another delay until then it is the old one that has passed or was cut short. -/
theorem delayed_not_early {ws : List Write} {w : Write} (found : t.get? k = some row) (delayed : row.status = DELAYED)
    (run : Runs step t ws t') (dequeues : Dequeues k t' w) :
    ∃ first last rest u row', ws = first ++ last :: rest ∧ Runs step t first u ∧ u.get? k = some row' ∧ row'.status = DELAYED ∧
      Ends k row' last ∧ ((∀ w ∈ first, postpones k w = false) → row'.delay_until_epoch_ms = row.delay_until_epoch_ms) := by
  induction ws generalizing t row with
  | nil =>
    cases runs_nil.mp run
    obtain ⟨row',found',enqueued⟩ := dequeues_enqueued dequeues
    cases found.symm.trans found'
    rw [delayed] at enqueued
    cases enqueued
  | cons first rest ih =>
    obtain ⟨s,taken,onward⟩ := runs_cons.mp run
    cases taken
    rcases apply_waits first found delayed with ⟨row₁,found₁,delayed₁,same⟩ | ends
    · obtain ⟨before,last,after,u,row',split,reached,there,waits,ends,kept⟩ := ih found₁ delayed₁ onward
      refine ⟨first :: before,last,after,u,row',by rw [split]; rfl,runs_cons.mpr ⟨_,rfl,reached⟩,there,waits,ends,?_⟩
      intro quiet
      rw [kept fun w member => quiet w (List.mem_cons_of_mem _ member),same (quiet first List.mem_cons_self)]
    · exact ⟨[],first,rest,t,row,rfl,runs_nil.mpr rfl,found,delayed,ends,fun _ => rfl⟩

/-- A workflow that is delayed until 100. -/
def delayedTable : Statuses :=
  Table.empty.insert "w"
    { status := DELAYED,name := "f",queue_name := some "q",delay_until_epoch_ms := some 100,created_at := 1,updated_at := 1 }

/-- The delay is extended, a transition comes too early, and another one in time. -/
def extended : List Write :=
  [.operation (.setWorkflowDelay "w" 200 50),.operation (.transitionDelayedWorkflows 150),.operation (.transitionDelayedWorkflows 200)]

/-- A dequeue at 300. -/
def dequeueCall : DequeueCall := { queue := { name := "q" },executorID := "e",appVersion := "v",startTimeMs := 300 }

theorem delayed_not_early_extended : ∃ t', Runs step delayedTable extended t' ∧
    Dequeues "w" t' (.operation (.findAndMarkStartableWorkflows dequeueCall 0 ["w"] 300)) ∧
    ∃ first last rest u row', extended = first ++ last :: rest ∧ Runs step delayedTable first u ∧ u.get? "w" = some row' ∧
      row'.status = DELAYED ∧ Ends "w" row' last := by
  obtain ⟨t',run,claims⟩ : ∃ t', Runs step delayedTable extended t' ∧ (claimLoop dequeueCall 0 300 ["w"] [] t').1 = ["w"] := ⟨_,rfl,rfl⟩
  have dequeues : Dequeues "w" t' (.operation (.findAndMarkStartableWorkflows dequeueCall 0 ["w"] 300)) := by
    simp only [Dequeues,claims,List.mem_singleton]
  obtain ⟨first,last,rest,u,row',split,reached,there,waits,ends,_⟩ := delayed_not_early rfl rfl run dequeues
  exact ⟨t',run,dequeues,first,last,rest,u,row',split,reached,there,waits,ends⟩

end Dbos.Delays
