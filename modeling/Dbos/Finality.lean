import Dbos.Ops

/-!
When a recorded outcome is final. `#recordWorkflowOutcome` spares a CANCELLED row and
overwrites every other, also one that is SUCCESS or ERROR already, where `#cancelWorkflows`
and `resumeWorkflows` spare those. Two executors of one workflow that both reach its end
therefore leave the outcome of the later one, and a row with an output and an error. Along
runs where each recording on a finished row repeats what is there, outcomes are final.
-/
namespace Dbos.Finality
open Dbos.Pg Dbos.Schema Dbos.Status Dbos.Start Dbos.Dequeue Dbos.Ops StatusString

/-- SUCCESS or ERROR. -/
def Finished (status : StatusString) : Prop := status = SUCCESS ∨ status = ERROR

instance (status : StatusString) : Decidable (Finished status) := inferInstanceAs (Decidable (_ ∨ _))

/-! ### awaitWorkflowResult -/

/-- `SystemDatabaseStoredResult`, by the field that the caller branches on. -/
inductive StoredResult
  | output (text serialization : Option String)
  | error (text serialization : Option String)
  | cancelled
  | maxRecoveryAttemptsExceeded
  deriving DecidableEq

def StoredResult.isOutcome : StoredResult → Bool
  | .output _ _ => true
  | .error _ _ => true
  | _ => false

/-- What one poll makes of the row: `none` when the status is not actionable. -/
def storedResult (row : WorkflowStatus) : Option StoredResult :=
  match row.status with
  | SUCCESS => some (.output row.output row.serialization)
  | ERROR => some (.error row.error row.serialization)
  | CANCELLED => some .cancelled
  | MAX_RECOVERY_ATTEMPTS_EXCEEDED => some .maxRecoveryAttemptsExceeded
  | _ => none

/-- The loop of `awaitWorkflowResult` over the tables its polls read until the time is up. -/
def awaitWorkflowResult (workflowID : String) : List Statuses → Option StoredResult
  | [] => none
  | t :: polls => ((t.get? workflowID).bind storedResult).or (awaitWorkflowResult workflowID polls)

theorem awaitWorkflowResult_some {workflowID : String} {polls : List Statuses} {a : StoredResult}
    (returned : awaitWorkflowResult workflowID polls = some a) :
    ∃ t ∈ polls,∃ row, t.get? workflowID = some row ∧ storedResult row = some a := by
  induction polls with
  | nil => cases returned
  | cons t polls ih =>
    rw [awaitWorkflowResult,Option.or_eq_some_iff] at returned
    rcases returned with here | ⟨_,later⟩
    · obtain ⟨row,found,stored⟩ := Option.bind_eq_some_iff.mp here
      exact ⟨t,List.mem_cons_self,row,found,stored⟩
    · obtain ⟨t',member,rest⟩ := ih later
      exact ⟨t',List.mem_cons_of_mem _ member,rest⟩

/-! ### The property and the condition -/

/-- Two rows with the same outcome. -/
structure SameOutcome (r r' : WorkflowStatus) : Prop where
  status : r'.status = r.status
  output : r'.output = r.output
  error : r'.error = r.error
  serialization : r'.serialization = r.serialization

/-- The table `t` is reached in the run `ops` from the empty table. -/
def Visits (ops : List Op) (t : Statuses) : Prop := ∃ first, first <+: ops ∧ Runs step Table.empty first t

def Deletes (ops : List Op) (workflowID : String) : Prop := ∃ allIds, Op.deleteWorkflows allIds ∈ ops ∧ workflowID ∈ allIds

/-- The outcome of a workflow is final in the run `ops`. -/
structure OutcomeFinal (ops : List Op) (workflowID : String) : Prop where
  /-- Only a deletion changes a finished row. -/
  kept : ∀ first later t t' row, first ++ later <+: ops → Runs step Table.empty first t → Runs step t later t' →
    ¬ Deletes later workflowID → t.get? workflowID = some row → Finished row.status →
    ∃ row', t'.get? workflowID = some row' ∧ row'.status = row.status ∧ row'.output = row.output ∧ row'.error = row.error
  /-- No row carries an output and an error. -/
  single : ∀ t row, Visits ops t → t.get? workflowID = some row → ¬ (row.output.isSome ∧ row.error.isSome)
  /-- Calls of `awaitWorkflowResult` that return an outcome return the same one. -/
  agree : ¬ Deletes ops workflowID → ∀ polls polls' a b, (∀ t ∈ polls,Visits ops t) → (∀ t ∈ polls',Visits ops t) →
    awaitWorkflowResult workflowID polls = some a → awaitWorkflowResult workflowID polls' = some b →
    a.isOutcome = true → b.isOutcome = true → a = b

/-- The recording writes what the finished row holds: the same kind of outcome, and a text
    that is equal or that `updateWorkflowStatus` skips. -/
def Repeats (outcome : Outcome) (row : WorkflowStatus) : Prop :=
  match outcome with
  | .output text => row.status = SUCCESS ∧ (text = none ∨ text = some "" ∨ text = row.output)
  | .error text => row.status = ERROR ∧ (text = none ∨ text = some "" ∨ text = row.error)

/-- A recording that finds its row finished repeats it. -/
def RecordsOnce (t : Statuses) (op : Op) : Prop :=
  ∀ workflowID outcome now row, op.records = some (workflowID,outcome,now) → t.get? workflowID = some row →
    Finished row.status → Repeats outcome row

/-! ### One operation -/

theorem assignIfSet_eq {text column : Option String} :
    assignIfSet text column = column ↔ text = none ∨ text = some "" ∨ text = column := by
  unfold assignIfSet
  cases text with
  | none => simp
  | some s =>
    by_cases blank : s = ""
    · simp [blank]
    · simp [blank]

/-- A recording leaves status, output and error of a row exactly when it repeats them. -/
theorem repeats_iff (outcome : Outcome) (now : Int) (r : WorkflowStatus) :
    Repeats outcome r ↔ (updatedRow outcome.status outcome.fields now r).status = r.status ∧
      (updatedRow outcome.status outcome.fields now r).output = r.output ∧
      (updatedRow outcome.status outcome.fields now r).error = r.error := by
  cases outcome with
  | output text =>
    simp only [Repeats,updatedRow,Outcome.status,Outcome.fields,assignIfSet_eq]
    simp [eq_comm]
  | error text =>
    simp only [Repeats,updatedRow,Outcome.status,Outcome.fields,assignIfSet_eq]
    simp [eq_comm]

/-- What a rewrite does to a finished row. -/
theorem rewrite_finished {k : String} {op : Op} {r r' : WorkflowStatus} (by_ : Rewrite k r op r')
    (finished : Finished r.status) (repeats : ∀ outcome now, op.records = some (k,outcome,now) → Repeats outcome r) :
    SameOutcome r r' := by
  cases by_ with
  | upserted initStatus ownerXid options now here => exact ⟨rfl,rfl,rfl,rfl⟩
  | exceeded initStatus ownerXid options now here pending => simp [Finished,pending] at finished
  | recorded _ outcome now records open_ =>
    obtain ⟨status,output,error⟩ := (repeats_iff outcome now r).mp (repeats outcome now records)
    exact ⟨status,output,error,rfl⟩
  | reenqueued executorID appVersion recoveryQueueName now hit =>
    simp only [reenqueueHits,decide_eq_true_eq] at hit
    simp [Finished,hit.1] at finished
  | cancelled workflowIDs now here unsuccessful unfailed => exact absurd finished (not_or.mpr ⟨unsuccessful,unfailed⟩)
  | resumed workflowIDs queueName now here unsuccessful unfailed =>
    exact absurd finished (not_or.mpr ⟨unsuccessful,unfailed⟩)
  | prioritised priority now waits => exact ⟨rfl,rfl,rfl,rfl⟩
  | delayed delayUntilEpochMS now waits => exact ⟨rfl,rfl,rfl,rfl⟩
  | bounced params now hit =>
    simp only [bounceHits,decide_eq_true_eq] at hit
    simp [Finished,hit.2.2.2.2.1] at finished
  | forkedFrom originals forks options now here => exact ⟨rfl,rfl,rfl,rfl⟩
  | transitioned now waits due => simp [Finished,waits] at finished
  | claimed call recent ids now here waits => simp [Finished,waits] at finished
  | adopted executorID other => exact ⟨rfl,rfl,rfl,rfl⟩

/-- A row holds at most one outcome, and none before it is finished. -/
structure Clean (r : WorkflowStatus) : Prop where
  unwritten : ¬ Finished r.status → r.output = none ∧ r.error = none
  single : r.output = none ∨ r.error = none

theorem inserted_clean {k : String} {op : Op} {r : WorkflowStatus} (new : Inserted k op r) : Clean r := by
  cases new <;> exact ⟨fun _ => ⟨rfl,rfl⟩,.inl rfl⟩

theorem sameOutcome_clean {r r' : WorkflowStatus} (same : SameOutcome r r') (clean : Clean r) : Clean r' := by
  obtain ⟨status,output,error,_⟩ := same
  refine ⟨?_,?_⟩
  · rw [status,output,error]
    exact clean.unwritten
  · rw [output,error]
    exact clean.single

/-- On an unfinished row every rewrite but a recording leaves output and error NULL, and
    a recording sets one of them. -/
theorem rewrite_unfinished {k : String} {op : Op} {r r' : WorkflowStatus} (by_ : Rewrite k r op r')
    (unset : r.output = none ∧ r.error = none) : Clean r' := by
  cases by_ with
  | recorded _ outcome now records open_ =>
    cases outcome with
    | output text =>
      refine ⟨fun unfinished => absurd (.inl rfl) unfinished,.inr ?_⟩
      simp [updatedRow,Outcome.fields,assignIfSet,unset]
    | error text =>
      refine ⟨fun unfinished => absurd (.inr rfl) unfinished,.inl ?_⟩
      simp [updatedRow,Outcome.fields,assignIfSet,unset]
  | _ => exact ⟨fun _ => unset,.inl unset.1⟩

theorem rewrite_clean {k : String} {op : Op} {r r' : WorkflowStatus} (by_ : Rewrite k r op r') (clean : Clean r)
    (repeats : Finished r.status → ∀ outcome now, op.records = some (k,outcome,now) → Repeats outcome r) : Clean r' := by
  by_cases finished : Finished r.status
  · exact sameOutcome_clean (rewrite_finished by_ finished (repeats finished)) clean
  · exact rewrite_unfinished by_ (clean.unwritten finished)

theorem apply_clean {t : Statuses} {op : Op} (all : t.All fun _ => Clean) (once : RecordsOnce t op) :
    (op.apply t).All fun _ => Clean := by
  intro k r' found
  have change := apply_changes t op k
  rw [found] at change
  generalize before : t.get? k = old at change
  cases change with
  | kept => exact all k r' before
  | inserted _ new => exact inserted_clean new
  | rewritten r _ by_ =>
    exact rewrite_clean by_ (all k r before) fun finished outcome now records =>
      once k outcome now r records before finished

theorem apply_finished {t : Statuses} {op : Op} {k : String} {r : WorkflowStatus} (once : RecordsOnce t op)
    (found : t.get? k = some r) (finished : Finished r.status) (undeleted : ∀ allIds, op = .deleteWorkflows allIds → k ∉ allIds) :
    ∃ r', (op.apply t).get? k = some r' ∧ SameOutcome r r' := by
  have change := apply_changes t op k
  rw [found] at change
  generalize after : (op.apply t).get? k = new at change
  cases change with
  | kept => exact ⟨r,rfl,rfl,rfl,rfl,rfl⟩
  | rewritten _ r' by_ =>
    exact ⟨r',rfl,rewrite_finished by_ finished fun outcome now records => once k outcome now r records found finished⟩
  | deleted _ allIds here deletes => exact absurd here (undeleted allIds deletes)

/-! ### Runs -/

theorem run_clean {ops : List Op} {t : Statuses} (once : Along step RecordsOnce Table.empty ops)
    (run : Runs step Table.empty ops t) : t.All fun _ => Clean := by
  refine along_invariant (I := fun t => t.All fun _ => Clean) ?_ Table.all_empty once run
  intro s op s' all meets taken
  cases taken
  exact apply_clean all meets

theorem run_finished {later : List Op} {t t' : Statuses} {k : String} {r : WorkflowStatus}
    (once : Along step RecordsOnce t later) (run : Runs step t later t') (undeleted : ¬ Deletes later k)
    (found : t.get? k = some r) (finished : Finished r.status) : ∃ r', t'.get? k = some r' ∧ SameOutcome r r' := by
  induction later generalizing t r with
  | nil =>
    cases runs_nil.mp run
    exact ⟨r,found,rfl,rfl,rfl,rfl⟩
  | cons op rest ih =>
    obtain ⟨s,taken,onward⟩ := runs_cons.mp run
    cases taken
    obtain ⟨here,along⟩ := once
    obtain ⟨r₁,found₁,same₁⟩ := apply_finished here found finished
      (fun allIds deletes listed => undeleted ⟨allIds,deletes ▸ List.mem_cons_self,listed⟩)
    obtain ⟨r',found',same'⟩ := ih (along _ rfl) onward
      (fun ⟨allIds,member,listed⟩ => undeleted ⟨allIds,List.mem_cons_of_mem _ member,listed⟩) found₁
      (same₁.status.symm ▸ finished)
    exact ⟨r',found',same'.status.trans same₁.status,same'.output.trans same₁.output,same'.error.trans same₁.error,
      same'.serialization.trans same₁.serialization⟩

theorem storedResult_outcome {row : WorkflowStatus} {a : StoredResult} (stored : storedResult row = some a)
    (outcome : a.isOutcome = true) : Finished row.status := by
  unfold storedResult at stored
  split at stored
  · exact .inl (by assumption)
  · exact .inr (by assumption)
  · cases stored
    cases outcome
  · cases stored
    cases outcome
  · cases stored

theorem storedResult_same {r r' : WorkflowStatus} (same : SameOutcome r r') : storedResult r' = storedResult r := by
  obtain ⟨status,output,error,serialization⟩ := same
  simp only [storedResult,status,output,error,serialization]

theorem apply_records {op : Op} {workflowID : String} {outcome : Outcome} {now : Int}
    (records : op.records = some (workflowID,outcome,now)) (t : Statuses) :
    op.apply t = recordUpdate t workflowID outcome now := by
  cases op <;> cases records <;> rfl

theorem recordUpdate_finished {t : Statuses} {workflowID : String} {row : WorkflowStatus}
    (found : t.get? workflowID = some row) (finished : Finished row.status) (outcome : Outcome) (now : Int) :
    (recordUpdate t workflowID outcome now).get? workflowID = some (updatedRow outcome.status outcome.fields now row) := by
  have open_ : row.status ≠ CANCELLED := by
    rintro status
    simp [Finished,status] at finished
  simp [recordUpdate,found,updateHits,open_]

/-- Of two tables of one run, one is reached from the other. -/
theorem visits_ordered {ops : List Op} {t t' : Statuses} (visits : Visits ops t) (visits' : Visits ops t') :
    (∃ first later, first ++ later <+: ops ∧ Runs step Table.empty first t ∧ Runs step t later t') ∨
      ∃ first later, first ++ later <+: ops ∧ Runs step Table.empty first t' ∧ Runs step t' later t := by
  obtain ⟨first,before,run⟩ := visits
  obtain ⟨first',before',run'⟩ := visits'
  have onward : ∀ {a b : List Op} {s s' : Statuses}, a <+: b → Runs step Table.empty a s → Runs step Table.empty b s' →
      ∃ later, a ++ later = b ∧ Runs step s later s' := by
    rintro a b s s' ⟨later,rfl⟩ reach reach'
    obtain ⟨s₁,reach₁,rest⟩ := runs_append.mp reach'
    cases reach.symm.trans reach₁
    exact ⟨later,rfl,rest⟩
  rcases List.prefix_or_prefix_of_prefix before before' with shorter | longer
  · obtain ⟨later,split,rest⟩ := onward shorter run run'
    exact .inl ⟨first,later,split ▸ before',run,rest⟩
  · obtain ⟨later,split,rest⟩ := onward longer run' run
    exact .inr ⟨first',later,split ▸ before,run',rest⟩

theorem finished_kept {ops : List Op} (once : Along step RecordsOnce Table.empty ops) {first later : List Op}
    {t t' : Statuses} {k : String} {r : WorkflowStatus} (within : first ++ later <+: ops)
    (reached : Runs step Table.empty first t) (onward : Runs step t later t') (undeleted : ¬ Deletes later k)
    (found : t.get? k = some r) (finished : Finished r.status) : ∃ r', t'.get? k = some r' ∧ SameOutcome r r' := by
  obtain ⟨rest,rfl⟩ := within
  have along := (along_append (along_append once).1).2 t reached
  exact run_finished along onward undeleted found finished

theorem awaits_agree {ops : List Op} (once : Along step RecordsOnce Table.empty ops) {k : String}
    (undeleted : ¬ Deletes ops k) {t t' : Statuses} {r r' : WorkflowStatus} {a b : StoredResult} (visits : Visits ops t)
    (visits' : Visits ops t') (found : t.get? k = some r) (found' : t'.get? k = some r')
    (stored : storedResult r = some a) (stored' : storedResult r' = some b) (outcome : a.isOutcome = true)
    (outcome' : b.isOutcome = true) : a = b := by
  have within : ∀ {first later : List Op}, first ++ later <+: ops → ¬ Deletes later k := by
    rintro first later ⟨rest,rfl⟩ ⟨allIds,member,listed⟩
    exact undeleted ⟨allIds,by simp [member],listed⟩
  rcases visits_ordered visits visits' with ⟨first,later,split,reached,onward⟩ | ⟨first,later,split,reached,onward⟩
  · obtain ⟨r₁,found₁,same⟩ := finished_kept once split reached onward (within split) found
      (storedResult_outcome stored outcome)
    cases found'.symm.trans found₁
    rw [storedResult_same same,stored] at stored'
    exact Option.some.inj stored'
  · obtain ⟨r₁,found₁,same⟩ := finished_kept once split reached onward (within split) found'
      (storedResult_outcome stored' outcome')
    cases found.symm.trans found₁
    rw [storedResult_same same,stored'] at stored
    exact (Option.some.inj stored).symm

/-- Outcomes are final in exactly the runs where every recording on a finished row repeats it. -/
theorem outcomes_final_iff (ops : List Op) :
    (∀ workflowID, OutcomeFinal ops workflowID) ↔ Along step RecordsOnce Table.empty ops := by
  constructor
  · intro final
    refine along_iff.mpr ?_
    intro first op rest t split run workflowID outcome now row records found finished
    -- The recording alone is a later run that must not change the row.
    have undeleted : ¬ Deletes [op] workflowID := by
      rintro ⟨allIds,member,_⟩
      cases List.mem_singleton.mp member
      cases records
    have onward : Runs step t [op] (op.apply t) := runs_cons.mpr ⟨_,rfl,runs_nil.mpr rfl⟩
    obtain ⟨row',found',same⟩ := (final workflowID).kept first [op] t _ row ⟨rest,by simp [split]⟩ run onward undeleted
      found finished
    rw [apply_records records,recordUpdate_finished found finished] at found'
    cases found'
    exact (repeats_iff outcome now row).mpr same
  · intro once workflowID
    refine ⟨?_,?_,?_⟩
    · intro first later t t' row within reached onward undeleted found finished
      obtain ⟨row',found',same⟩ := finished_kept once within reached onward undeleted found finished
      exact ⟨row',found',same.status,same.output,same.error⟩
    · rintro t row ⟨first,⟨rest,rfl⟩,run⟩ found ⟨written,failed⟩
      rcases (run_clean (along_append once).1 run workflowID row found).single with unset | unset
      · simp [unset] at written
      · simp [unset] at failed
    · intro undeleted polls polls' a b visited visited' returned returned' outcome outcome'
      obtain ⟨t,member,r,found,stored⟩ := awaitWorkflowResult_some returned
      obtain ⟨t',member',r',found',stored'⟩ := awaitWorkflowResult_some returned'
      exact awaits_agree once undeleted (visited t member) (visited' t' member') found found' stored stored' outcome outcome'

/-- A workflow started directly, with a late executor: one records an output, the other an error. -/
def zombieRun : List Op :=
  [.initWorkflowStatus ⟨{ workflowUUID := "w",status := PENDING,workflowName := "f",createdAt := 1 },
      by constructor <;> simp⟩ (some "x") {} 1,
   .recordWorkflowOutput "w" { workflowUUID := "w",status := SUCCESS,workflowName := "f",createdAt := 1,output := some "1" } 2,
   .recordWorkflowError "w" { workflowUUID := "w",status := ERROR,workflowName := "f",createdAt := 1,error := some "late" } 3]

/-- The row ends with both. -/
theorem zombieRun_not_final : ¬ OutcomeFinal zombieRun "w" := by
  intro final
  have both : ∃ row, (zombieRun.foldl Op.apply Table.empty).get? "w" = some row ∧ row.output.isSome ∧ row.error.isSome := by
    decide
  obtain ⟨row,found,carries⟩ := both
  exact final.single _ row ⟨zombieRun,List.prefix_rfl,rfl⟩ found carries

end Dbos.Finality
