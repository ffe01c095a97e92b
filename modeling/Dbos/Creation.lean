import Dbos.Ops

/-!
Who creates a workflow. Calls of `initWorkflowStatus` for one workflow ID run concurrently,
each with its own owner token, and `dbRetry` runs a call again after a lost connection or
acknowledgement. The upsert of a call locks the row, or the key that it inserts, until the
call commits or rolls back. Only the call that inserted the row executes the workflow, and
every other call rolls its upsert back.
-/
namespace Dbos.Creation
open Dbos.Pg Dbos.Schema Dbos.Status Dbos.Start Dbos.Ops StatusString

/-- Calls for one workflow ID with distinct tokens, none a recovery or a dequeue request. -/
structure Callers (ι : Type) where
  workflowID : String
  initStatus : ι → WorkflowStatusInternal
  token : ι → String
  maxRetries : ι → Option Nat
  same : ∀ i, (initStatus i).workflowUUID = workflowID
  distinct : ∀ i j, token i = token j → i = j

/-- Where a call stands: `resRow` is what its upsert returned. -/
inductive Phase
  | ready
  | upserted (resRow : InsertWorkflowResult) (now : Int)
  | done (result : Except DbosError InitResult)

/-- The committed table, the call that holds the row's lock, and the call whose committed
    INSERT created the row. -/
structure State (ι : Type) where
  table : Statuses
  holder : Option ι
  creator : Option ι
  phase : ι → Phase

/-- `finish` is the COMMIT or the ROLLBACK, whose acknowledgement may be lost; `lose` is a
    connection lost before it, which rolls back. -/
inductive Event (ι : Type)
  | upsert (i : ι) (now : Int)
  | finish (i : ι) (acknowledged : Bool)
  | lose (i : ι)
  | other (op : Op)

def Event.caller {ι : Type} : Event ι → Option ι
  | .upsert i _ => some i
  | .finish i _ => some i
  | .lose i => some i
  | .other _ => none

/-- The exits that set `shouldCommit`. -/
def commits : InitExit → Bool
  | .conflict _ => false
  | .existing _ => false
  | .exceeded _ => true
  | .execute _ => true

/-- An operation of others: no further `initWorkflowStatus` for this ID, and none that
    inserts or deletes its row. -/
def outside (workflowID : String) (t : Statuses) (op : Op) : Bool :=
  match op with
  | .initWorkflowStatus initStatus _ _ _ => initStatus.status.workflowUUID ≠ workflowID
  | op => ((op.apply t).get? workflowID).isSome = (t.get? workflowID).isSome

section
variable {ι : Type} (c : Callers ι)

/-- The row that the upsert of the call `i` leaves. -/
def upsertedRow (t : Statuses) (i : ι) (now : Int) : WorkflowStatus :=
  (t.get? c.workflowID).elim (insertedRow (c.initStatus i) (some (c.token i)) now) (conflictRow (c.initStatus i) false now)

def upsertedTable (t : Statuses) (i : ι) (now : Int) : Statuses :=
  t.upsert c.workflowID (insertedRow (c.initStatus i) (some (c.token i)) now) (conflictRow (c.initStatus i) false now)

def exitOf (i : ι) (resRow : InsertWorkflowResult) : InitExit :=
  initExit (c.initStatus i) (some (c.token i)) { maxRetries := c.maxRetries i } resRow

variable [DecidableEq ι]

def State.set (s : State ι) (i : ι) (phase : Phase) : ι → Phase := fun j => if j = i then phase else s.phase j

def step (s : State ι) : Event ι → Option (State ι)
  | .upsert i now =>
    match s.phase i,s.holder with
    | .ready,none =>
      match insertWorkflowStatus s.table (c.initStatus i) (some (c.token i)) false now with
      | .error e => some { s with phase := s.set i (.done (.error e)) }
      | .ok (resRow,_) => some { s with holder := some i,phase := s.set i (.upserted resRow now) }
    | _,_ => none
  | .finish i acknowledged =>
    match s.phase i with
    | .upserted resRow now =>
      let exit := exitOf c i resRow
      let ends := initFinish s.table (upsertedTable c s.table i now) (c.initStatus i) now exit
      some
        { table := ends.2
          holder := none
          creator := if commits exit = true ∧ s.table.get? c.workflowID = none then some i else s.creator
          phase := s.set i (if acknowledged then .done ends.1 else .ready) }
    | _ => none
  | .lose i =>
    match s.phase i with
    | .upserted _ _ => some { s with holder := none,phase := s.set i .ready }
    | _ => none
  | .other op =>
    if outside c.workflowID s.table op = true ∧
        (s.holder = none ∨ (op.apply s.table).get? c.workflowID = s.table.get? c.workflowID) then
      some { s with table := op.apply s.table }
    else none

def start (t : Statuses) : State ι := ⟨t,none,none,fun _ => .ready⟩

end

variable {ι : Type} {c : Callers ι}

/-- A row that the call `i` created, as far as its own exit reads it. -/
structure Own (c : Callers ι) (i : ι) (row : WorkflowStatus) : Prop where
  owner : row.owner_xid = some (c.token i)
  name : row.name = (c.initStatus i).workflowName
  class_name : row.class_name.getD "" = (c.initStatus i).workflowClassName
  config_name : row.config_name.getD "" = (c.initStatus i).workflowConfigName
  attempts : row.recovery_attempts ≤ 1

theorem own_inserted (i : ι) (now : Int) : Own c i (insertedRow (c.initStatus i) (some (c.token i)) now) := by
  refine ⟨rfl,rfl,nullIfEmpty_getD _,nullIfEmpty_getD _,?_⟩
  simp only [insertedRow]
  split <;> omega

theorem own_conflict {i : ι} {row : WorkflowStatus} (own : Own c i row) (initStatus : WorkflowStatusInternal) (now : Int) :
    Own c i (conflictRow initStatus false now row) := by
  refine ⟨own.owner,own.name,own.class_name,own.config_name,?_⟩
  simpa [conflictRow] using own.attempts

/-- The call that owns the row executes: a row with one attempt is under every limit. -/
theorem own_exit {i : ι} {row : WorkflowStatus} (own : Own c i row) :
    ∃ r, exitOf c i (returning row) = .execute r ∧ r.shouldExecuteOnThisExecutor = true := by
  have few := own.attempts
  unfold exitOf initExit
  simp only [returning,own.owner,own.name,own.class_name,own.config_name,ne_eq,not_true_eq_false,if_false,false_and]
  split
  · rw [if_neg (by omega)]
    exact ⟨_,rfl,rfl⟩
  · exact ⟨_,rfl,rfl⟩

/-- A call that does not own the row rolls back and does not execute. -/
theorem foreign_exit {i : ι} {row : WorkflowStatus} (foreign : row.owner_xid ≠ some (c.token i)) :
    (∃ e, exitOf c i (returning row) = .conflict e) ∨
      ∃ r, exitOf c i (returning row) = .existing r ∧ ∀ x, r = .ok x → x.shouldExecuteOnThisExecutor = false := by
  unfold exitOf initExit
  split
  · exact .inl ⟨_,rfl⟩
  split
  · exact .inl ⟨_,rfl⟩
  split
  · exact .inl ⟨_,rfl⟩
  rw [if_pos ⟨fun mine => foreign mine.symm,rfl,rfl⟩]
  split
  · exact .inr ⟨_,rfl,by simp⟩
  · exact .inr ⟨_,rfl,by rintro x ⟨⟩; rfl⟩

/-- No operation of others changes what a call compares. -/
theorem rewrite_own {k : String} {op : Op} {r r' : WorkflowStatus} (by_ : Rewrite k r op r')
    (elsewhere : ∀ initStatus ownerXid options now, op = .initWorkflowStatus initStatus ownerXid options now →
      k ≠ initStatus.status.workflowUUID) {i : ι} (own : Own c i r) : Own c i r' := by
  obtain ⟨owner,name,class_name,config_name,attempts⟩ := own
  cases by_ with
  | upserted initStatus ownerXid options now here => exact absurd here (elsewhere _ _ _ _ rfl)
  | exceeded initStatus ownerXid options now here pending => exact absurd here (elsewhere _ _ _ _ rfl)
  | recorded _ outcome now records open_ =>
    cases outcome <;> exact ⟨owner,name,class_name,config_name,attempts⟩
  | resumed workflowIDs queueName now here unsuccessful unfailed =>
    exact ⟨owner,name,class_name,config_name,Nat.zero_le _⟩
  | _ => exact ⟨owner,name,class_name,config_name,attempts⟩

theorem rewrite_owner {k : String} {op : Op} {r r' : WorkflowStatus} (by_ : Rewrite k r op r') :
    r'.owner_xid = r.owner_xid := by
  cases by_ <;> rfl

/-- What an operation of others leaves under the ID: nothing where nothing was, else a rewrite. -/
theorem outside_change {t : Statuses} {op : Op} {workflowID : String} (allowed : outside workflowID t op = true) :
    (op.apply t).get? workflowID = t.get? workflowID ∨
      ∃ r r', t.get? workflowID = some r ∧ (op.apply t).get? workflowID = some r' ∧ Rewrite workflowID r op r' ∧
        ∀ initStatus ownerXid options now, op = .initWorkflowStatus initStatus ownerXid options now →
          workflowID ≠ initStatus.status.workflowUUID := by
  have elsewhere : ∀ initStatus ownerXid options now, op = .initWorkflowStatus initStatus ownerXid options now →
      workflowID ≠ initStatus.status.workflowUUID := by
    rintro initStatus ownerXid options now rfl same
    simp [outside,same] at allowed
  have change := apply_changes t op workflowID
  generalize before : t.get? workflowID = old at change
  generalize after : (op.apply t).get? workflowID = new at change
  cases change with
  | kept => exact .inl rfl
  | inserted r new =>
    exfalso
    cases new with
    | init initStatus ownerXid options now here => exact elsewhere _ _ _ _ rfl here
    | enqueued => simp [outside,before,after] at allowed
    | forked => simp [outside,before,after] at allowed
  | rewritten r r' by_ => exact .inr ⟨r,r',rfl,rfl,by_,elsewhere⟩
  | deleted r allIds here deletes =>
    subst deletes
    simp [outside,before,after] at allowed

/-! ### The invariant -/

/-- The holder's view of the row is current, the created row is the creator's, and a call
    that has ended executes exactly if it is the creator. -/
structure Owned (c : Callers ι) (s : State ι) : Prop where
  held : ∀ i resRow now, s.phase i = .upserted resRow now →
    s.holder = some i ∧ resRow = returning (upsertedRow c s.table i now)
  mine : ∀ i, s.creator = some i → ∃ row, s.table.get? c.workflowID = some row ∧ Own c i row
  foreign : s.creator = none → ∀ row, s.table.get? c.workflowID = some row → ∀ i, row.owner_xid ≠ some (c.token i)
  ended : ∀ i result, s.phase i = .done result →
    (s.creator = some i ∧ ∃ r, result = .ok r ∧ r.shouldExecuteOnThisExecutor = true) ∨
      (s.creator ≠ some i ∧ ∀ r, result = .ok r → r.shouldExecuteOnThisExecutor = false)

theorem get?_upsertedTable (t : Statuses) (i : ι) (now : Int) :
    (upsertedTable c t i now).get? c.workflowID = some (upsertedRow c t i now) := by
  simp [upsertedTable,upsertedRow]

theorem upsertedRow_congr {t t' : Statuses} (same : t'.get? c.workflowID = t.get? c.workflowID) (i : ι) (now : Int) :
    upsertedRow c t' i now = upsertedRow c t i now := by
  unfold upsertedRow
  rw [same]

/-- How a call ends: the creator executes, any other call rolls back. -/
theorem exit_cases {s : State ι} (owned : Owned c s) (i : ι) (now : Int) :
    ((s.creator = some i ∨ s.table.get? c.workflowID = none) ∧ Own c i (upsertedRow c s.table i now) ∧
      ∃ r, exitOf c i (returning (upsertedRow c s.table i now)) = .execute r ∧ r.shouldExecuteOnThisExecutor = true) ∨
    (s.creator ≠ some i ∧ ((∃ e, exitOf c i (returning (upsertedRow c s.table i now)) = .conflict e) ∨
      ∃ r, exitOf c i (returning (upsertedRow c s.table i now)) = .existing r ∧
        ∀ x, r = .ok x → x.shouldExecuteOnThisExecutor = false)) := by
  cases found : s.table.get? c.workflowID with
  | none =>
    have own : Own c i (upsertedRow c s.table i now) := by
      rw [upsertedRow,found]
      exact own_inserted i now
    exact .inl ⟨.inr rfl,own,own_exit own⟩
  | some row =>
    have view : upsertedRow c s.table i now = conflictRow (c.initStatus i) false now row := by
      rw [upsertedRow,found]
      rfl
    rw [view]
    cases creator : s.creator with
    | none =>
      have foreign : (conflictRow (c.initStatus i) false now row).owner_xid ≠ some (c.token i) :=
        owned.foreign creator row found i
      exact .inr ⟨by simp,foreign_exit foreign⟩
    | some j =>
      obtain ⟨row',found',own⟩ := owned.mine j creator
      cases found.symm.trans found'
      by_cases here : j = i
      · subst here
        exact .inl ⟨.inl rfl,own_conflict own _ now,own_exit (own_conflict own _ now)⟩
      · refine .inr ⟨by simpa using here,foreign_exit ?_⟩
        intro mine
        have shared : some (c.token j) = some (c.token i) := own.owner.symm.trans mine
        exact here (c.distinct j i (Option.some.inj shared))

variable [DecidableEq ι]

/-- The call `i` moves to the phase `p` while table and creator stay. -/
theorem owned_set {s : State ι} (owned : Owned c s) {i : ι} {p : Phase} {holder : Option ι}
    (alone : ∀ j, j ≠ i → ∀ resRow now, s.phase j = .upserted resRow now → holder = some j)
    (held : ∀ resRow now, p = .upserted resRow now → holder = some i ∧ resRow = returning (upsertedRow c s.table i now))
    (ended : ∀ result, p = .done result →
      s.creator ≠ some i ∧ ∀ r, result = .ok r → r.shouldExecuteOnThisExecutor = false) :
    Owned c { s with holder := holder,phase := s.set i p } := by
  refine ⟨?_,owned.mine,owned.foreign,?_⟩
  · intro j resRow now upserted
    by_cases here : j = i
    · subst here
      simp only [State.set,if_true] at upserted
      exact held resRow now upserted
    · simp only [State.set,here,if_false] at upserted
      exact ⟨alone j here resRow now upserted,(owned.held j resRow now upserted).2⟩
  · intro j result done
    by_cases here : j = i
    · subst here
      simp only [State.set,if_true] at done
      exact .inr (ended result done)
    · simp only [State.set,here,if_false] at done
      exact owned.ended j result done

omit [DecidableEq ι] in
/-- No other call is in a transaction beside the one that holds the row. -/
theorem holder_alone {s : State ι} (owned : Owned c s) {i j : ι} (held : s.holder = some i) (other : j ≠ i)
    {resRow : InsertWorkflowResult} {now : Int} (upserted : s.phase j = .upserted resRow now) : False := by
  have both := held.symm.trans (owned.held j resRow now upserted).1
  exact other (Option.some.inj both).symm

/-- The creator commits: the row is its own from then on. -/
theorem owned_commit {s : State ι} (owned : Owned c s) {i : ι} {now : Int} {p : Phase}
    (held : s.holder = some i) (first : s.creator = some i ∨ s.table.get? c.workflowID = none)
    (own : Own c i (upsertedRow c s.table i now)) (idle : ∀ resRow now, p ≠ .upserted resRow now)
    (ended : ∀ result, p = .done result → ∃ r, result = .ok r ∧ r.shouldExecuteOnThisExecutor = true) :
    Owned c ⟨upsertedTable c s.table i now,none,some i,s.set i p⟩ := by
  refine ⟨?_,?_,by simp,?_⟩
  · intro j resRow now' upserted
    by_cases here : j = i
    · subst here
      simp only [State.set,if_true] at upserted
      exact absurd upserted (idle resRow now')
    · simp only [State.set,here,if_false] at upserted
      exact (holder_alone owned held here upserted).elim
  · rintro j ⟨⟩
    exact ⟨_,get?_upsertedTable s.table i now,own⟩
  · intro j result done
    by_cases here : j = i
    · subst here
      simp only [State.set,if_true] at done
      exact .inl ⟨rfl,ended result done⟩
    · simp only [State.set,here,if_false] at done
      rcases owned.ended j result done with ⟨creator,_⟩ | ⟨_,refused⟩
      · -- Another creator would have left a row of its own.
        exfalso
        obtain ⟨row,found,_⟩ := owned.mine j creator
        rcases first with mine | absent
        · exact here (Option.some.inj (creator.symm.trans mine))
        · cases absent.symm.trans found
      · exact .inr ⟨by simpa using Ne.symm here,refused⟩

/-- A call that is not the creator ends its transaction. -/
theorem owned_release {s : State ι} (owned : Owned c s) {i : ι} (held : s.holder = some i) {p : Phase}
    (idle : ∀ resRow now, p ≠ .upserted resRow now)
    (ended : ∀ result, p = .done result →
      s.creator ≠ some i ∧ ∀ r, result = .ok r → r.shouldExecuteOnThisExecutor = false) :
    Owned c { s with holder := none,phase := s.set i p } := by
  refine owned_set owned ?_ (fun resRow now upserted => absurd upserted (idle resRow now)) ended
  intro j other resRow now upserted
  exact (holder_alone owned held other upserted).elim

/-- A call that fails or finds the row of another has nothing to execute. -/
theorem owned_refused {s : State ι} (owned : Owned c s) {i : ι} (held : s.holder = some i) (refused : s.creator ≠ some i)
    {result : Except DbosError InitResult} (rests : ∀ r, result = .ok r → r.shouldExecuteOnThisExecutor = false)
    (acknowledged : Bool) :
    Owned c { s with holder := none,phase := s.set i (if acknowledged then .done result else .ready) } := by
  refine owned_release owned held ?_ ?_
  · cases acknowledged <;> simp
  · cases acknowledged
    · simp
    · rintro _ ⟨⟩
      exact ⟨refused,rests⟩

omit [DecidableEq ι] in
/-- Others change the row only while no transaction holds it, and not in what a call compares. -/
theorem owned_other {s : State ι} (owned : Owned c s) {op : Op} (allowed : outside c.workflowID s.table op = true)
    (free : s.holder = none ∨ (op.apply s.table).get? c.workflowID = s.table.get? c.workflowID) :
    Owned c { s with table := op.apply s.table } := by
  refine ⟨?_,?_,?_,owned.ended⟩
  · intro i resRow now upserted
    obtain ⟨held,view⟩ := owned.held i resRow now upserted
    rcases free with none_ | same
    · cases none_.symm.trans held
    · exact ⟨held,view.trans (by rw [upsertedRow_congr same])⟩
  · intro i creator
    obtain ⟨row,found,own⟩ := owned.mine i creator
    rcases outside_change allowed with same | ⟨r,r',before,after,by_,elsewhere⟩
    · exact ⟨row,same.trans found,own⟩
    · cases found.symm.trans before
      exact ⟨r',after,rewrite_own by_ elsewhere own⟩
  · intro creator row found i
    rcases outside_change allowed with same | ⟨r,r',before,after,by_,_⟩
    · exact owned.foreign creator row (same.symm.trans found) i
    · cases found.symm.trans after
      rw [rewrite_owner by_]
      exact owned.foreign creator r before i

theorem step_owned {s s' : State ι} {e : Event ι} (owned : Owned c s) (taken : step c s e = some s') : Owned c s' := by
  cases e with
  | upsert i now =>
    simp only [step] at taken
    split at taken
    · rename_i ready free
      have alone : ∀ j, j ≠ i → ∀ resRow now, s.phase j = .upserted resRow now → ∀ holder : Option ι, holder = some j := by
        intro j _ resRow now upserted
        have held := (owned.held j resRow now upserted).1
        rw [free] at held
        cases held
      split at taken
      · rename_i e failed
        cases taken
        -- Only the INSERT can fail, so there is no row and no creator.
        have refused : s.creator ≠ some i := by
          intro creator
          obtain ⟨row,found,_⟩ := owned.mine i creator
          simp [insertWorkflowStatus,c.same i,found] at failed
        refine owned_set owned (fun j other resRow now upserted => alone j other resRow now upserted _) (by simp) ?_
        rintro result ⟨⟩
        exact ⟨refused,by simp⟩
      · rename_i resRow t' inserted
        cases taken
        obtain ⟨_,view⟩ := insertWorkflowStatus_ok inserted
        rw [c.same i] at view
        refine owned_set owned (fun j other resRow now upserted => alone j other resRow now upserted _) ?_ (by simp)
        rintro _ _ ⟨⟩
        exact ⟨rfl,view⟩
    · cases taken
  | finish i acknowledged =>
    simp only [step] at taken
    split at taken
    · rename_i resRow now upserted
      obtain ⟨held,rfl⟩ := owned.held i resRow now upserted
      rcases exit_cases owned i now with ⟨first,own,r,exit,executes⟩ | ⟨refused,⟨e,exit⟩ | ⟨r,exit,idle⟩⟩
      · have creator : (if commits (.execute r) = true ∧ s.table.get? c.workflowID = none then some i else s.creator) =
            some i := by
          rcases first with mine | absent
          · simp [commits,mine]
          · simp [commits,absent]
        simp only [exit,creator,initFinish] at taken
        cases taken
        refine owned_commit owned held first own ?_ ?_
        · cases acknowledged <;> simp
        · cases acknowledged
          · simp
          · rintro _ ⟨⟩
            exact ⟨r,rfl,executes⟩
      · simp only [exit,commits,initFinish,Bool.false_eq_true,false_and,if_false] at taken
        cases taken
        exact owned_refused owned held refused (by simp) acknowledged
      · simp only [exit,commits,initFinish,Bool.false_eq_true,false_and,if_false] at taken
        cases taken
        exact owned_refused owned held refused idle acknowledged
    · cases taken
  | lose i =>
    simp only [step] at taken
    split at taken
    · rename_i resRow now upserted
      cases taken
      exact owned_release owned (owned.held i resRow now upserted).1 (by simp) (by simp)
    · cases taken
  | other op =>
    simp only [step] at taken
    split at taken
    · rename_i allowed
      cases taken
      exact owned_other owned allowed.1 allowed.2
    · cases taken

/-- A step of a call that is not the creator leaves the row. -/
theorem step_frame {s s' : State ι} {e : Event ι} {i : ι} (owned : Owned c s) (calls : e.caller = some i)
    (taken : step c s e = some s') (other : s'.creator ≠ some i) :
    s'.table.get? c.workflowID = s.table.get? c.workflowID := by
  cases e with
  | upsert j now =>
    simp only [step] at taken
    split at taken
    · split at taken <;> cases taken <;> rfl
    · cases taken
  | finish j acknowledged =>
    cases calls
    simp only [step] at taken
    split at taken
    · rename_i resRow now upserted
      obtain ⟨held,rfl⟩ := owned.held i resRow now upserted
      rcases exit_cases owned i now with ⟨first,own,r,exit,executes⟩ | ⟨refused,⟨e,exit⟩ | ⟨r,exit,idle⟩⟩
      · exfalso
        simp only [exit,initFinish] at taken
        cases taken
        rcases first with mine | absent
        · simp [commits,mine] at other
        · simp [commits,absent] at other
      · simp only [exit,initFinish] at taken
        cases taken
        rfl
      · simp only [exit,initFinish] at taken
        cases taken
        rfl
    · cases taken
  | lose j =>
    simp only [step] at taken
    split at taken
    · cases taken
      rfl
    · cases taken
  | other op => cases calls

/-- In every interleaving the creator alone executes, and the row is left by everyone else.
    A row that is there from the start belongs to none of the calls. -/
theorem creation_ownership {t : Statuses}
    (before : ∀ row, t.get? c.workflowID = some row → ∀ i, row.owner_xid ≠ some (c.token i)) {s : State ι}
    {events : List (Event ι)} (run : Runs (step c) (start t) events s) :
    (∀ i result, s.phase i = .done result →
      (s.creator = some i ∧ ∃ r, result = .ok r ∧ r.shouldExecuteOnThisExecutor = true) ∨
        (s.creator ≠ some i ∧ ∀ r, result = .ok r → r.shouldExecuteOnThisExecutor = false)) ∧
    (∀ i, s.creator = some i → ∃ row, s.table.get? c.workflowID = some row ∧ row.owner_xid = some (c.token i)) ∧
    ∀ i e s', e.caller = some i → step c s e = some s' → s'.creator ≠ some i →
      s'.table.get? c.workflowID = s.table.get? c.workflowID := by
  have owned : Owned c s := by
    refine runs_invariant (fun s e s' owned taken => step_owned owned taken) ?_ run
    exact ⟨by rintro i resRow now ⟨⟩,by rintro i ⟨⟩,fun _ => before,by rintro i result ⟨⟩⟩
  refine ⟨owned.ended,?_,?_⟩
  · intro i creator
    obtain ⟨row,found,own⟩ := owned.mine i creator
    exact ⟨row,found,own.owner⟩
  · intro i e s' calls taken other
    exact step_frame owned calls taken other

/-- Two callers of one workflow: the first loses the acknowledgement of its COMMIT, the second
    finds the row, and the first runs again. -/
def twoCallers : Callers Bool where
  workflowID := "w"
  initStatus first := { workflowUUID := "w",status := PENDING,workflowName := "f",createdAt := if first then 1 else 2 }
  token first := if first then "x" else "y"
  maxRetries _ := some 100
  same _ := rfl
  distinct := by decide

theorem twoCallers_ownership : ∃ s : State Bool,
    Runs (step twoCallers) (start Table.empty) [.upsert true 1,.finish true false,.upsert false 2,.finish false true,
      .upsert true 3,.finish true true] s ∧ s.creator = some true ∧
    (∀ i result, s.phase i = .done result →
      (s.creator = some i ∧ ∃ r, result = .ok r ∧ r.shouldExecuteOnThisExecutor = true) ∨
        (s.creator ≠ some i ∧ ∀ r, result = .ok r → r.shouldExecuteOnThisExecutor = false)) := by
  obtain ⟨s,run,creator⟩ : ∃ s : State Bool,
      Runs (step twoCallers) (start Table.empty) [.upsert true 1,.finish true false,.upsert false 2,.finish false true,
        .upsert true 3,.finish true true] s ∧ s.creator = some true := ⟨_,rfl,rfl⟩
  exact ⟨s,run,creator,(creation_ownership (by rintro row ⟨⟩) run).1⟩

/-- Alone in the database the call is `initWorkflowStatus`. -/
theorem alone_initWorkflowStatus (t : Statuses) (i : ι) (now : Int) :
    ∃ events s, Runs (step c) (start t) events s ∧
      s.table = (initWorkflowStatus t (c.initStatus i) (some (c.token i)) { maxRetries := c.maxRetries i } now).2 ∧
      s.phase i = .done (initWorkflowStatus t (c.initStatus i) (some (c.token i)) { maxRetries := c.maxRetries i } now).1 := by
  cases inserted : insertWorkflowStatus t (c.initStatus i) (some (c.token i)) false now with
  | error e =>
    refine ⟨[.upsert i now],⟨t,none,none,(start t).set i (.done (.error e))⟩,?_,?_,?_⟩
    · simp [runs_cons,runs_nil,step,start,inserted]
    · simp [initWorkflowStatus,inserted]
    · simp [initWorkflowStatus,inserted,State.set]
  | ok out =>
    obtain ⟨resRow,t'⟩ := out
    obtain ⟨rfl,_⟩ := insertWorkflowStatus_ok inserted
    simp only [initWorkflowStatus,Bool.or_false,inserted]
    let s₁ : State ι := ⟨t,some i,none,(start t).set i (.upserted resRow now)⟩
    have first : step c (start t) (.upsert i now) = some s₁ := by simp [step,start,inserted,s₁]
    let ends := initFinish t (upsertedTable c t i now) (c.initStatus i) now (exitOf c i resRow)
    obtain ⟨s₂,second,table,phase⟩ : ∃ s₂, step c s₁ (.finish i true) = some s₂ ∧ s₂.table = ends.2 ∧
        s₂.phase i = .done ends.1 := by
      simp [step,State.set,s₁,ends]
    refine ⟨[.upsert i now,.finish i true],s₂,?_,?_,?_⟩
    · exact runs_cons.mpr ⟨s₁,first,runs_cons.mpr ⟨s₂,second,runs_nil.mpr rfl⟩⟩
    · rw [table,c.same i]
      rfl
    · rw [phase,c.same i]
      rfl

end Dbos.Creation
