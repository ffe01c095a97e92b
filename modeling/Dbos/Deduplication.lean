import Dbos.Ops
import Mathlib.Data.List.Pairwise

/-!
The unique index on (`queue_name`, `deduplication_id`) of `workflow_status`. Only an INSERT of `initWorkflowStatus` and the
re-enqueueing of workflows for recovery can give a row a pair that it did not have, and these statements fail when
another row has it; everything else keeps the pair of a row or takes it away. So every operation keeps the index.
-/
namespace Dbos.Deduplication
open Dbos.Pg Dbos.Schema Dbos.Status Dbos.Ops StatusString

/-- The row holds the deduplication ID on the queue. -/
def Holds (q d : String) (r : WorkflowStatus) : Prop := r.queue_name = some q ∧ r.deduplication_id = some d

/-- No deduplication ID is held twice on a queue. -/
def Unique (t : Statuses) : Prop :=
  ∀ k k' r r' q d, t.get? k = some r → t.get? k' = some r' → Holds q d r → Holds q d r' → k = k'

theorem unique_empty : Unique Table.empty := by
  intro k k' r r' q d found
  cases found

theorem dedupKeys_unique {t : Statuses} (nodup : (dedupKeys t).Nodup) : Unique t := by
  intro k k' r r' q d found found' holds holds'
  by_contra other
  have apart := @List.Pairwise.forall _ _ _ ⟨fun a b differ p first p' second same => differ p' second p first same.symm⟩
    (List.pairwise_filterMap.mp nodup)
  have member := (t.get?_eq_some k r).mp found
  have member' := (t.get?_eq_some k' r').mp found'
  have different : (k,r) ≠ (k',r') := fun same => other (congrArg Prod.fst same)
  refine apart member member' different (q,d) ?_ (q,d) ?_ rfl
  · simp [holds.1,holds.2]
  · simp [holds'.1,holds'.2]

theorem indexed_unique {t t' : Statuses} (done : indexed t = .ok t') : t' = t ∧ Unique t := by
  unfold indexed at done
  split at done
  · rename_i nodup
    cases done
    exact ⟨rfl,dedupKeys_unique nodup⟩
  · cases done

/-- Whoever holds an ID afterwards held it before. -/
theorem unique_of_holders {t t' : Statuses} (unique : Unique t)
    (held : ∀ k r' q d, t'.get? k = some r' → Holds q d r' → ∃ r, t.get? k = some r ∧ Holds q d r) : Unique t' := by
  intro k k' r r' q d found found' holds holds'
  obtain ⟨old,before,one⟩ := held k r q d found holds
  obtain ⟨old',before',two⟩ := held k' r' q d found' holds'
  exact unique k k' old old' q d before before' one two

theorem unique_update {t : Statuses} (unique : Unique t) {hit : String → WorkflowStatus → Bool}
    {set : String → WorkflowStatus → WorkflowStatus} (kept : ∀ k r q d, Holds q d (set k r) → Holds q d r) :
    Unique (t.update hit set) := by
  refine unique_of_holders unique ?_
  intro k r' q d found holds
  rcases t.update_cases hit set k with same | ⟨r,before,_,after⟩
  · exact ⟨r',same ▸ found,holds⟩
  · cases after.symm.trans found
    exact ⟨r,before,kept k r q d holds⟩

theorem insertWorkflowStatus_unique {t t' : Statuses} (unique : Unique t) {initStatus : WorkflowStatusInternal}
    {ownerXid : Option String} {inc : Bool} {now : Int} {resRow : InsertWorkflowResult}
    (done : insertWorkflowStatus t initStatus ownerXid inc now = .ok (resRow,t')) : Unique t' := by
  unfold insertWorkflowStatus at done
  dsimp only at done
  split at done
  · rename_i row there
    cases done
    refine unique_of_holders unique ?_
    intro k r' q d found holds
    rw [Table.get?_upsert] at found
    by_cases here : k = initStatus.workflowUUID
    · rw [if_pos here,there] at found
      cases found
      exact ⟨row,here ▸ there,holds⟩
    · rw [if_neg here] at found
      exact ⟨r',found,holds⟩
  · split at done
    · cases done
    · rename_i passed
      cases done
      exact (indexed_unique passed).2

theorem initWorkflowStatus_unique {t : Statuses} (unique : Unique t) (initStatus : WorkflowStatusInternal)
    (ownerXid : Option String) (options : InitOptions) (now : Int) :
    Unique (initWorkflowStatus t initStatus ownerXid options now).2 := by
  unfold initWorkflowStatus
  split
  · exact unique
  · rename_i resRow t' inserted
    have unique' := insertWorkflowStatus_unique unique inserted
    cases initExit initStatus ownerXid options resRow with
    | conflict e => exact unique
    | existing r => exact unique
    | execute r => exact unique'
    | exceeded maxRetries =>
      refine unique_update unique' ?_
      intro k r q d holds
      cases holds.2

/-- A rewritten row has no pair that it did not have, except for the re-enqueueing. -/
theorem rewrite_holds {k q d : String} {op : Op} {r r' : WorkflowStatus} (by_ : Rewrite k r op r')
    (other : ∀ executorID appVersion recoveryQueueName now,
      op ≠ .reenqueueWorkflowsForRecovery executorID appVersion recoveryQueueName now)
    (holds : Holds q d r') : Holds q d r := by
  cases by_ with
  | exceeded initStatus ownerXid options now here pending => cases holds.2
  | recorded op outcome now records open_ => cases outcome <;> cases holds.2
  | reenqueued executorID appVersion recoveryQueueName now hit => exact absurd rfl (other _ _ _ _)
  | cancelled workflowIDs now here unsuccessful unfailed => cases holds.2
  | resumed workflowIDs queueName now here unsuccessful unfailed => cases holds.2
  | transitioned now waits due =>
    refine ⟨holds.1,?_⟩
    have id : (if r.is_debounced then none else r.deduplication_id) = some d := holds.2
    by_cases debounced : r.is_debounced = true
    · rw [if_pos debounced] at id
      cases id
    · rwa [if_neg debounced] at id
  | _ => exact holds

/-- Every operation keeps the index. -/
theorem apply_unique {t : Statuses} (unique : Unique t) (op : Op) : Unique (op.apply t) := by
  have general : (∀ initStatus ownerXid options now, op ≠ .initWorkflowStatus initStatus ownerXid options now) →
      (∀ executorID appVersion recoveryQueueName now,
        op ≠ .reenqueueWorkflowsForRecovery executorID appVersion recoveryQueueName now) → Unique (op.apply t) := by
    intro noInit noReenqueue
    refine unique_of_holders unique ?_
    intro k r' q d found holds
    have change := apply_changes t op k
    rw [found] at change
    generalize before : t.get? k = old at change
    cases change with
    | kept => exact ⟨r',rfl,holds⟩
    | inserted _ new =>
      cases new with
      | init initStatus ownerXid options now here => exact absurd rfl (noInit _ _ _ _)
      | enqueued statuses createdAts s createdAt member here waits => cases holds.2
      | forked originals forks options now origID ws here => cases holds.2
    | rewritten r _ by_ => exact ⟨r,rfl,rewrite_holds by_ noReenqueue holds⟩
  cases op with
  | initWorkflowStatus initStatus ownerXid options now => exact initWorkflowStatus_unique unique _ _ _ _
  | reenqueueWorkflowsForRecovery executorID appVersion recoveryQueueName now =>
    simp only [Op.apply,reenqueueWorkflowsForRecovery]
    split
    · rename_i t' passed
      obtain ⟨rfl,unique'⟩ := indexed_unique passed
      exact unique'
    · exact unique
  | _ => exact general (by simp) (by simp)

end Dbos.Deduplication
