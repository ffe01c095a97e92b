import Mathlib.Data.List.Flatten
import Dbos.Fork

/-!
Everything that writes streams and events, in any interleaving: the invocations of
`Dbos.Communication`, `writeStreamFromStep`, forks, exports and imports, and deletions. They
run statement by statement, each statement on what is committed when it starts. A row of a
child table needs the row of its workflow: an INSERT without it fails, and a deletion waits for
transactions that have written rows of the workflow and takes all its rows with it.
-/
namespace Dbos.Writers
open Dbos.Pg Dbos.Schema Dbos.Status Dbos.Communication Dbos.Fork

/-! ### Calls -/

/-- A call of `writeStreamFromStep`. -/
structure StreamWrite where
  workflowID : String
  functionID : Nat
  key : String
  serializedValue : String
  serialization : Option String := none

inductive WritePhase
  | called
  | chosen (nextOffset : Nat)
  | inserted (offset : Nat)
  | returned
  | threw (e : DbosError)

inductive Call
  | invocation (inv : Invocation) (phase : Phase)
  | streamWrite (w : StreamWrite) (phase : WritePhase)

def StreamWrite.insert (w : StreamWrite) (offset : Nat) : Statement :=
  .insertStream w.workflowID w.key offset ⟨w.serializedValue,w.functionID,w.serialization⟩

/-- What the transaction of the call has written and not committed. -/
def Call.writes : Call → List Statement
  | .invocation _ phase => phase.writes
  | .streamWrite w (.inserted offset) => [w.insert offset]
  | .streamWrite _ _ => []

def Call.advance (db : Database) (input : Input) : Call → Option (Call × List Statement)
  | .invocation inv phase => (Communication.advance db inv input phase).map fun out => (.invocation inv out.1,out.2)
  | .streamWrite w .called => some (.streamWrite w (.chosen (nextOffset db.streams w.workflowID w.key)),[])
  | .streamWrite w (.chosen offset) =>
    if (db.streams.get? (w.workflowID,w.key,offset)).isSome then some (.streamWrite w (.threw (.DatabaseError "23505")),[])
    else some (.streamWrite w (.inserted offset),[])
  | .streamWrite _ _ => none

/-- COMMIT, with the call after it and what it commits. -/
def Call.commit (acknowledged : Bool) : Call → Option (Call × List Statement)
  | .invocation inv (.claimed done value) =>
    some (.invocation inv (if acknowledged then .returned value else .called),done)
  | .invocation inv (.replaying value) => some (.invocation inv (if acknowledged then .returned value else .called),[])
  | .streamWrite w (.inserted offset) =>
    some (.streamWrite w (if acknowledged then .returned else .called),[w.insert offset])
  | _ => none

/-- `dbRetry` after a lost connection. -/
def Call.restart : Call → Call
  | .invocation inv _ => .invocation inv .called
  | .streamWrite w _ => .streamWrite w .called

def Call.fail (e : DbosError) : Call → Call
  | .invocation inv _ => .invocation inv (.threw e)
  | .streamWrite w _ => .streamWrite w (.threw e)

/-- The workflow that the foreign key of the new row refers to. -/
def ownerOf : Statement → Option String
  | .insertNotification _ row => some row.destination_uuid
  | .upsertEvent workflowID _ _ => some workflowID
  | .upsertHistory workflowID _ _ _ => some workflowID
  | .insertStream workflowID _ _ _ => some workflowID
  | .insertCheckpoint key _ => some key.1
  | _ => none

def Orphaned (db : Database) (statements : List Statement) : Prop :=
  ∃ st ∈ statements,∃ w ∈ ownerOf st,db.statuses.get? w = none

instance (db : Database) (statements : List Statement) : Decidable (Orphaned db statements) :=
  inferInstanceAs (Decidable (∃ st ∈ _,∃ w ∈ _,_))

/-- No other transaction holds a row of the statements. -/
def Free (others : List Call) (statements : List Statement) : Prop :=
  ∀ other ∈ others,∀ row ∈ rowsOf statements,row ∉ rowsOf other.writes

instance (others : List Call) (statements : List Statement) : Decidable (Free others statements) :=
  inferInstanceAs (Decidable (∀ other ∈ _,_))

/-! ### Forks -/

structure ForkCall where
  mapping : List ForkMapping
  options : ForkOptions := {}
  replacementChildren : List (String × String) := []

/-- The mapping of the copies. -/
def ForkCall.copies (call : ForkCall) : List ForkMapping := call.mapping.filter fun m => 0 < m.bound

def ForkCall.targets (call : ForkCall) : List String := call.mapping.map Mapping.target

inductive ForkStage
  | marked
  | outputs
  | streams
  | history
  | events
  deriving DecidableEq

/-- A call of `bulkForkWorkflows` after a statement, with the rows it has inserted. -/
structure Forking where
  call : ForkCall
  statuses : List (String × WorkflowStatus)
  stage : ForkStage := .marked
  outputs : List ((String × Nat) × OperationOutput) := []
  streams : List ((String × String × Nat) × StreamEntry) := []
  history : List ((String × Nat × String) × WorkflowEvent) := []
  events : List ((String × String) × WorkflowEvent) := []

def Forking.next (db : Database) (ranked : List RankedEvent) (f : Forking) : Option Forking :=
  match f.stage with
  | .marked =>
    some { f with stage := .outputs
                  outputs := copied db.outputs outputHits (replaceChild f.call.replacementChildren) f.call.copies }
  | .outputs => some { f with stage := .streams,streams := copied db.streams streamHits id f.call.copies }
  | .streams => some { f with stage := .history,history := copied db.workflow_events_history historyHits id f.call.copies }
  | .history =>
    if FirstRanked partitionOf orderOf (historyJoin db.workflow_events_history f.call.copies) ranked then
      some { f with stage := .events,events := eventRows ranked }
    else none
  | .events => none

/-- The new rows of a workflow in all tables. -/
def insertOwned (db : Database) (statuses : List (String × WorkflowStatus)) (outputs : List ((String × Nat) × OperationOutput))
    (events : List ((String × String) × WorkflowEvent)) (history : List ((String × Nat × String) × WorkflowEvent))
    (streams : List ((String × String × Nat) × StreamEntry)) : Option Database :=
  match db.statuses.insertRows statuses,db.outputs.insertRows outputs,db.workflow_events.insertRows events,
    db.workflow_events_history.insertRows history,db.streams.insertRows streams with
  | some statuses,some outputs,some events,some history,some streams =>
    some ⟨statuses,outputs,db.notifications,events,history,streams⟩
  | _,_,_,_,_ => none

def markForked (sources : List String) (db : Database) : Database :=
  { db with statuses := db.statuses.update (fun k _ => k ∈ sources) fun _ row => { row with was_forked_from := true } }

def Forking.commit (db : Database) (f : Forking) : Option Database :=
  (insertOwned db f.statuses f.outputs f.events f.history f.streams).map (markForked (f.call.mapping.map Mapping.source))

/-! ### Exports, imports and deletions -/

inductive ExportStage
  | status
  | outputs
  | events
  | history
  | streams
  deriving DecidableEq

/-- A call of `exportWorkflow` for a workflow after a statement, with what it has read. Its
    SELECTs are no transaction. -/
structure Export where
  workflowID : String
  status : WorkflowStatus
  stage : ExportStage := .status
  outputs : List ((String × Nat) × OperationOutput) := []
  events : List ((String × String) × WorkflowEvent) := []
  history : List ((String × Nat × String) × WorkflowEvent) := []
  streams : List ((String × String × Nat) × StreamEntry) := []

def Export.next (db : Database) (x : Export) : Option Export :=
  match x.stage with
  | .status => some { x with stage := .outputs,outputs := db.outputs.select fun k _ => k.1 = x.workflowID }
  | .outputs => some { x with stage := .events,events := db.workflow_events.select fun k _ => k.1 = x.workflowID }
  | .events => some { x with stage := .history,history := db.workflow_events_history.select fun k _ => k.1 = x.workflowID }
  | .history => some { x with stage := .streams,streams := db.streams.select fun k _ => k.1 = x.workflowID }
  | .streams => none

/-- One workflow of `importWorkflow`; `owner_xid` is not exported. -/
def importOne (db : Database) (x : Export) : Option Database :=
  insertOwned db [(x.workflowID,{ x.status with owner_xid := none })] x.outputs x.events x.history x.streams

/-- DELETE FROM workflow_status, with ON DELETE CASCADE in the other tables. -/
def deleteCascade (db : Database) (allIds : List String) : Database where
  statuses := deleteWorkflows db.statuses allIds
  outputs := db.outputs.delete fun k _ => k.1 ∈ allIds
  notifications := db.notifications.delete fun _ row => row.destination_uuid ∈ allIds
  workflow_events := db.workflow_events.delete fun k _ => k.1 ∈ allIds
  workflow_events_history := db.workflow_events_history.delete fun k _ => k.1 ∈ allIds
  streams := db.streams.delete fun k _ => k.1 ∈ allIds

/-! ### Steps -/

structure System where
  db : Database
  calls : List Call := []
  forks : List Forking := []
  exports : List Export := []

/-- The IDs of forks that are inserted and not committed: whoever inserts one of them waits. -/
def System.reserved (s : System) : List String := s.forks.flatMap fun f => f.call.targets

/-- Nobody but finished transactions has written rows of the workflow or locked its row. -/
def Idle (s : System) (w : String) : Prop :=
  (∀ call ∈ s.calls,∀ st ∈ call.writes,ownerOf st ≠ some w) ∧
    ∀ f ∈ s.forks,∀ m ∈ f.call.mapping,m.source ≠ w ∧ m.target ≠ w

instance (s : System) (w : String) : Decidable (Idle s w) := inferInstanceAs (Decidable (_ ∧ _))

/-- `statuses` is whatever else writes `workflow_status`. -/
inductive Event
  | begin (call : Call)
  | next (i : Nat) (input : Input)
  | commit (i : Nat) (acknowledged : Bool)
  | drop (i : Nat)
  | fork (call : ForkCall) (now : Int)
  | forkNext (i : Nat) (ranked : List RankedEvent)
  | forkCommit (i : Nat)
  | forkDrop (i : Nat)
  | exportWorkflow (workflowID : String)
  | exportNext (i : Nat)
  | importWorkflow (exports : List Nat)
  | deleteWorkflows (allIds : List String)
  | statuses (t : Statuses)

def step (s : System) : Event → Option System
  | .begin call => some { s with calls := s.calls ++ [call.restart] }
  | .next i input =>
    match s.calls[i]? with
    | some call =>
      match call.advance s.db input with
      | some (call',auto) =>
        if Orphaned s.db (call'.writes ++ auto) then
          some { s with calls := s.calls.set i (call.fail (.DatabaseError "23503")) }
        else if Free (s.calls.eraseIdx i) (call'.writes ++ auto) then
          some { s with db := applyAll s.db auto,calls := s.calls.set i call' }
        else none
      | none => none
    | none => none
  | .commit i acknowledged =>
    match s.calls[i]? with
    | some call =>
      match call.commit acknowledged with
      | some (call',done) => some { s with db := applyAll s.db done,calls := s.calls.set i call' }
      | none => none
    | none => none
  | .drop i =>
    match s.calls[i]? with
    | some call => some { s with calls := s.calls.set i call.restart }
    | none => none
  | .fork call now =>
    match bulkForkStatuses s.db.statuses (call.mapping.map Mapping.source) call.targets call.options now with
    | (.error _,_) => some s
    | (.ok ids,statuses) =>
      if ∀ id ∈ ids,id ∉ s.reserved then
        some { s with forks := s.forks ++ [{ call := call,statuses := ids.filterMap fun id => (statuses.get? id).map (id,·) }] }
      else none
  | .forkNext i ranked =>
    match s.forks[i]? with
    | some f => (f.next s.db ranked).map fun f' => { s with forks := s.forks.set i f' }
    | none => none
  | .forkCommit i =>
    match s.forks[i]? with
    | some f =>
      if f.stage = .events then (f.commit s.db).map fun db => { s with db := db,forks := s.forks.eraseIdx i } else none
    | none => none
  | .forkDrop i => some { s with forks := s.forks.eraseIdx i }
  | .exportWorkflow workflowID =>
    match s.db.statuses.get? workflowID with
    | some row => some { s with exports := s.exports ++ [{ workflowID := workflowID,status := row }] }
    | none => some s
  | .exportNext i =>
    match s.exports[i]? with
    | some x => (x.next s.db).map fun x' => { s with exports := s.exports.set i x' }
    | none => none
  | .importWorkflow exports =>
    let payloads := exports.filterMap fun i => s.exports[i]?
    if ∀ x ∈ payloads,x.stage = .streams ∧ x.workflowID ∉ s.reserved then
      match payloads.foldlM importOne s.db with
      | some db => some { s with db := db }
      | none => some s
    else none
  | .deleteWorkflows allIds =>
    if ∀ w ∈ allIds,Idle s w then some { s with db := deleteCascade s.db allIds } else none
  | .statuses t =>
    if (∀ e ∈ s.db.statuses.entries,(t.get? e.1).isSome) ∧ ∀ w ∈ s.reserved,t.get? w = none then
      some { s with db := { s.db with statuses := t } }
    else none

def start (t : Statuses) : System := { db := { statuses := t } }

/-- The workflow `w` runs. -/
def running : Statuses := Table.empty.insert "w" { status := .PENDING,name := "f",created_at := 1,updated_at := 1 }

/-! ### What a step can do -/

/-- The rows of `insertOwned`, table by table. -/
structure Inserts (db : Database) (statuses : List (String × WorkflowStatus)) (outputs : List ((String × Nat) × OperationOutput))
    (events : List ((String × String) × WorkflowEvent)) (history : List ((String × Nat × String) × WorkflowEvent))
    (streams : List ((String × String × Nat) × StreamEntry)) (db' : Database) : Prop where
  statuses : db.statuses.insertRows statuses = some db'.statuses
  outputs : db.outputs.insertRows outputs = some db'.outputs
  notifications : db'.notifications = db.notifications
  events : db.workflow_events.insertRows events = some db'.workflow_events
  history : db.workflow_events_history.insertRows history = some db'.workflow_events_history
  streams : db.streams.insertRows streams = some db'.streams

theorem insertOwned_inserts {db db' : Database} {statuses : List (String × WorkflowStatus)}
    {outputs : List ((String × Nat) × OperationOutput)} {events : List ((String × String) × WorkflowEvent)}
    {history : List ((String × Nat × String) × WorkflowEvent)} {streams : List ((String × String × Nat) × StreamEntry)}
    (done : insertOwned db statuses outputs events history streams = some db') :
    Inserts db statuses outputs events history streams db' := by
  unfold insertOwned at done
  split at done
  · cases done
    exact ⟨by assumption,by assumption,rfl,by assumption,by assumption,by assumption⟩
  · cases done

/-- Everything that a step can be. -/
inductive Moves (s : System) : Event → System → Prop
  | begin (call : Call) : Moves s (.begin call) { s with calls := s.calls ++ [call.restart] }
  | fails (i : Nat) (input : Input) (call : Call) (found : s.calls[i]? = some call) :
      Moves s (.next i input) { s with calls := s.calls.set i (call.fail (.DatabaseError "23503")) }
  | next (i : Nat) (input : Input) (call call' : Call) (auto : List Statement) (found : s.calls[i]? = some call)
      (advances : call.advance s.db input = some (call',auto)) (owned : ¬ Orphaned s.db (call'.writes ++ auto))
      (free : Free (s.calls.eraseIdx i) (call'.writes ++ auto)) :
      Moves s (.next i input) { s with db := applyAll s.db auto,calls := s.calls.set i call' }
  | commit (i : Nat) (acknowledged : Bool) (call call' : Call) (done : List Statement) (found : s.calls[i]? = some call)
      (commits : call.commit acknowledged = some (call',done)) :
      Moves s (.commit i acknowledged) { s with db := applyAll s.db done,calls := s.calls.set i call' }
  | drop (i : Nat) (call : Call) (found : s.calls[i]? = some call) :
      Moves s (.drop i) { s with calls := s.calls.set i call.restart }
  | stays (event : Event) : Moves s event s
  | fork (call : ForkCall) (now : Int) (ids : List String) (statuses : Statuses)
      (inserted : bulkForkStatuses s.db.statuses (call.mapping.map Mapping.source) call.targets call.options now =
        (.ok ids,statuses)) (unreserved : ∀ id ∈ ids,id ∉ s.reserved) :
      Moves s (.fork call now)
        { s with forks := s.forks ++ [{ call := call,statuses := ids.filterMap fun id => (statuses.get? id).map (id,·) }] }
  | forkNext (i : Nat) (ranked : List RankedEvent) (f f' : Forking) (found : s.forks[i]? = some f)
      (advances : f.next s.db ranked = some f') : Moves s (.forkNext i ranked) { s with forks := s.forks.set i f' }
  | forkCommit (i : Nat) (f : Forking) (db : Database) (found : s.forks[i]? = some f) (complete : f.stage = .events)
      (inserts : Inserts s.db f.statuses f.outputs f.events f.history f.streams db) :
      Moves s (.forkCommit i)
        { s with db := markForked (f.call.mapping.map Mapping.source) db,forks := s.forks.eraseIdx i }
  | forkDrop (i : Nat) : Moves s (.forkDrop i) { s with forks := s.forks.eraseIdx i }
  | exportWorkflow (workflowID : String) (row : WorkflowStatus) (found : s.db.statuses.get? workflowID = some row) :
      Moves s (.exportWorkflow workflowID) { s with exports := s.exports ++ [{ workflowID := workflowID,status := row }] }
  | exportNext (i : Nat) (x x' : Export) (found : s.exports[i]? = some x) (advances : x.next s.db = some x') :
      Moves s (.exportNext i) { s with exports := s.exports.set i x' }
  | importWorkflow (exports : List Nat) (payloads : List Export) (db : Database) (known : ∀ x ∈ payloads,x ∈ s.exports)
      (complete : ∀ x ∈ payloads,x.stage = .streams ∧ x.workflowID ∉ s.reserved)
      (inserts : payloads.foldlM importOne s.db = some db) : Moves s (.importWorkflow exports) { s with db := db }
  | deleteWorkflows (allIds : List String) (idle : ∀ w ∈ allIds,Idle s w) :
      Moves s (.deleteWorkflows allIds) { s with db := deleteCascade s.db allIds }
  | statuses (t : Statuses) (kept : ∀ w, (s.db.statuses.get? w).isSome → (t.get? w).isSome)
      (unreserved : ∀ w ∈ s.reserved,t.get? w = none) : Moves s (.statuses t) { s with db := { s.db with statuses := t } }

theorem step_moves {s s' : System} {event : Event} (taken : step s event = some s') : Moves s event s' := by
  cases event with
  | begin call =>
    cases taken
    exact .begin call
  | next i input =>
    simp only [step] at taken
    split at taken
    · rename_i call found
      split at taken
      · rename_i call' auto advances
        split at taken
        · cases taken
          exact .fails i input call found
        · split at taken
          · cases taken
            exact .next i input call call' auto found advances (by assumption) (by assumption)
          · cases taken
      · cases taken
    · cases taken
  | commit i acknowledged =>
    simp only [step] at taken
    split at taken
    · rename_i call found
      split at taken
      · cases taken
        exact .commit i acknowledged call _ _ found (by assumption)
      · cases taken
    · cases taken
  | drop i =>
    simp only [step] at taken
    split at taken
    · cases taken
      exact .drop i _ (by assumption)
    · cases taken
  | fork call now =>
    simp only [step] at taken
    split at taken
    · cases taken
      exact .stays _
    · rename_i ids statuses inserted
      split at taken
      · cases taken
        exact .fork call now ids statuses inserted (by assumption)
      · cases taken
  | forkNext i ranked =>
    simp only [step] at taken
    split at taken
    · rename_i f found
      obtain ⟨f',advances,rfl⟩ := Option.map_eq_some_iff.mp taken
      exact .forkNext i ranked f f' found advances
    · cases taken
  | forkCommit i =>
    simp only [step] at taken
    split at taken
    · rename_i f found
      split at taken
      · rename_i complete
        obtain ⟨db,commits,rfl⟩ := Option.map_eq_some_iff.mp taken
        obtain ⟨db',inserts,rfl⟩ := Option.map_eq_some_iff.mp commits
        exact .forkCommit i f db' found complete (insertOwned_inserts inserts)
      · cases taken
    · cases taken
  | forkDrop i =>
    cases taken
    exact .forkDrop i
  | exportWorkflow workflowID =>
    simp only [step] at taken
    split at taken
    · cases taken
      exact .exportWorkflow workflowID _ (by assumption)
    · cases taken
      exact .stays _
  | exportNext i =>
    simp only [step] at taken
    split at taken
    · rename_i x found
      obtain ⟨x',advances,rfl⟩ := Option.map_eq_some_iff.mp taken
      exact .exportNext i x x' found advances
    · cases taken
  | importWorkflow exports =>
    simp only [step] at taken
    split at taken
    · rename_i complete
      split at taken
      · rename_i db inserts
        cases taken
        refine .importWorkflow exports _ db ?_ complete inserts
        intro x member
        obtain ⟨i,_,found⟩ := List.mem_filterMap.mp member
        exact List.mem_of_getElem? found
      · cases taken
        exact .stays _
    · cases taken
  | deleteWorkflows allIds =>
    simp only [step] at taken
    split at taken
    · cases taken
      exact .deleteWorkflows allIds (by assumption)
    · cases taken
  | statuses t =>
    simp only [step] at taken
    split at taken
    · rename_i keeps
      cases taken
      refine .statuses t ?_ keeps.2
      intro w present
      obtain ⟨row,found⟩ := Option.isSome_iff_exists.mp present
      exact keeps.1 _ ((Table.get?_eq_some _ _ _).mp found)
    · cases taken

/-! ### Foreign keys and locks -/

/-- A child table has a row of the workflow. -/
def HasRows (db : Database) (w : String) : Prop :=
  (∃ k, (db.outputs.get? (w,k)).isSome) ∨ (∃ k, (db.streams.get? (w,k)).isSome) ∨
    (∃ k, (db.workflow_events_history.get? (w,k)).isSome) ∨ ∃ k, (db.workflow_events.get? (w,k)).isSome

/-- The rows of the owners `owns` only. -/
structure Within (owns : String → Prop) (outputs : List ((String × Nat) × OperationOutput))
    (events : List ((String × String) × WorkflowEvent)) (history : List ((String × Nat × String) × WorkflowEvent))
    (streams : List ((String × String × Nat) × StreamEntry)) : Prop where
  outputs : ∀ e ∈ outputs,owns e.1.1
  events : ∀ e ∈ events,owns e.1.1
  history : ∀ e ∈ history,owns e.1.1
  streams : ∀ e ∈ streams,owns e.1.1

def Forking.Owned (f : Forking) : Prop :=
  f.statuses.map Prod.fst = f.call.targets ∧ Within (· ∈ f.call.targets) f.outputs f.events f.history f.streams

def Export.Owned (x : Export) : Prop := Within (· = x.workflowID) x.outputs x.events x.history x.streams

/-- Rows have their workflows, calls hold their rows apart, and the forks that are not committed
    are new. -/
structure Linked (s : System) : Prop where
  owners : ∀ w, HasRows s.db w → (s.db.statuses.get? w).isSome
  writers : ∀ (i : Nat) call, s.calls[i]? = some call → ∀ st ∈ call.writes,∀ w ∈ ownerOf st,(s.db.statuses.get? w).isSome
  exclusive : ∀ (i j : Nat) call call', i ≠ j → s.calls[i]? = some call → s.calls[j]? = some call' →
    ∀ row ∈ rowsOf call.writes,row ∉ rowsOf call'.writes
  distinct : s.reserved.Nodup
  absent : ∀ w ∈ s.reserved,s.db.statuses.get? w = none
  forks : ∀ f ∈ s.forks,f.Owned
  exports : ∀ x ∈ s.exports,x.Owned

theorem linked_start (t : Statuses) : Linked (start t) := by
  refine ⟨?_,by simp [start],by simp [start],by simp [start,System.reserved],by simp [start,System.reserved],by simp [start],
    by simp [start]⟩
  rintro w (⟨k,row⟩ | ⟨k,row⟩ | ⟨k,row⟩ | ⟨k,row⟩) <;> cases row

section
variable {db db' : Database} {s : System}

theorem apply_status_isSome (db : Database) (statement : Statement) (w : String) :
    ((statement.apply db).statuses.get? w).isSome = (db.statuses.get? w).isSome := by
  cases statement with
  | claimExecutor executorID workflowID => simp [Statement.apply,Status.claimExecutor]
  | _ => rfl

theorem applyAll_status_isSome (statements : List Statement) (db : Database) (w : String) :
    ((applyAll db statements).statuses.get? w).isSome = (db.statuses.get? w).isSome := by
  induction statements generalizing db with
  | nil => rfl
  | cons statement rest ih => exact (ih (statement.apply db)).trans (apply_status_isSome db statement w)

theorem upsert_owner {κ ρ : Type} [DecidableEq κ] {t : Table (String × κ) ρ} {key : String × κ} {new : ρ} {merge : ρ → ρ} {w : String}
    (has : ∃ k, ((t.upsert key new merge).get? (w,k)).isSome) : (∃ k, (t.get? (w,k)).isSome) ∨ key.1 = w := by
  obtain ⟨k,present⟩ := has
  rw [Table.get?_upsert] at present
  by_cases here : (w,k) = key
  · exact .inr (by rw [← here])
  · rw [if_neg here] at present
    exact .inl ⟨k,present⟩

theorem insert_owner {κ ρ : Type} [DecidableEq κ] {t : Table (String × κ) ρ} {key : String × κ} {new : ρ} {w : String}
    (has : ∃ k, ((t.insert key new).get? (w,k)).isSome) : (∃ k, (t.get? (w,k)).isSome) ∨ key.1 = w := by
  obtain ⟨k,present⟩ := has
  rcases t.insert_cases key new (w,k) with same | ⟨here,_⟩
  · rw [same] at present
    exact .inl ⟨k,present⟩
  · exact .inr (by rw [← here])

/-- A statement gives a row to no other workflow than its owner. -/
theorem apply_hasRows {statement : Statement} {w : String} (has : HasRows (statement.apply db) w) :
    HasRows db w ∨ ownerOf statement = some w := by
  cases statement with
  | insertCheckpoint key call =>
    rcases has with outputs | rest
    · rcases upsert_owner outputs with old | rfl
      · exact .inl (.inl old)
      · exact .inr rfl
    · exact .inl (.inr rest)
  | insertStream workflowID key offset entry =>
    rcases has with outputs | streams | rest
    · exact .inl (.inl outputs)
    · rcases insert_owner streams with old | rfl
      · exact .inl (.inr (.inl old))
      · exact .inr rfl
    · exact .inl (.inr (.inr rest))
  | upsertHistory workflowID functionID key event =>
    rcases has with outputs | streams | history | events
    · exact .inl (.inl outputs)
    · exact .inl (.inr (.inl streams))
    · rcases upsert_owner history with old | rfl
      · exact .inl (.inr (.inr (.inl old)))
      · exact .inr rfl
    · exact .inl (.inr (.inr (.inr events)))
  | upsertEvent workflowID key event =>
    rcases has with outputs | streams | history | events
    · exact .inl (.inl outputs)
    · exact .inl (.inr (.inl streams))
    · exact .inl (.inr (.inr (.inl history)))
    · rcases upsert_owner events with old | rfl
      · exact .inl (.inr (.inr (.inr old)))
      · exact .inr rfl
  | _ => exact .inl has

theorem applyAll_hasRows {statements : List Statement} {w : String} (has : HasRows (applyAll db statements) w) :
    HasRows db w ∨ ∃ st ∈ statements,ownerOf st = some w := by
  induction statements generalizing db with
  | nil => exact .inl has
  | cons statement rest ih =>
    rcases ih has with here | ⟨st,member,owner⟩
    · rcases apply_hasRows here with old | owner
      · exact .inl old
      · exact .inr ⟨statement,List.mem_cons_self,owner⟩
    · exact .inr ⟨st,List.mem_cons_of_mem _ member,owner⟩

theorem insertRows_isSome {κ ρ : Type} [DecidableEq κ] {t t' : Table κ ρ} {rows : List (κ × ρ)} (done : t.insertRows rows = some t')
    (k : κ) : (t'.get? k).isSome ↔ (t.get? k).isSome ∨ ∃ r, (k,r) ∈ rows := by
  simp only [Option.isSome_iff_exists,Table.insertRows_get? done]
  rw [exists_or]

/-- New rows give rows to their owners only. -/
theorem inserts_hasRows {owns : String → Prop} {statuses : List (String × WorkflowStatus)}
    {outputs : List ((String × Nat) × OperationOutput)} {events : List ((String × String) × WorkflowEvent)}
    {history : List ((String × Nat × String) × WorkflowEvent)} {streams : List ((String × String × Nat) × StreamEntry)}
    (within : Within owns outputs events history streams) (inserts : Inserts db statuses outputs events history streams db')
    {w : String} (has : HasRows db' w) : HasRows db w ∨ owns w := by
  rcases has with ⟨k,row⟩ | ⟨k,row⟩ | ⟨k,row⟩ | ⟨k,row⟩
  · rcases (insertRows_isSome inserts.outputs _).mp row with old | ⟨r,new⟩
    · exact .inl (.inl ⟨k,old⟩)
    · exact .inr (within.outputs _ new)
  · rcases (insertRows_isSome inserts.streams _).mp row with old | ⟨r,new⟩
    · exact .inl (.inr (.inl ⟨k,old⟩))
    · exact .inr (within.streams _ new)
  · rcases (insertRows_isSome inserts.history _).mp row with old | ⟨r,new⟩
    · exact .inl (.inr (.inr (.inl ⟨k,old⟩)))
    · exact .inr (within.history _ new)
  · rcases (insertRows_isSome inserts.events _).mp row with old | ⟨r,new⟩
    · exact .inl (.inr (.inr (.inr ⟨k,old⟩)))
    · exact .inr (within.events _ new)

theorem copied_within {κ ρ : Type} [DecidableEq κ] {t : Table (String × κ) ρ} {hit : Int → κ → ρ → Bool} {set : ρ → ρ}
    {call : ForkCall} {e : (String × κ) × ρ} (member : e ∈ copied t hit set call.copies) : e.1.1 ∈ call.targets := by
  obtain ⟨m,listed,target,_⟩ := mem_copied.mp (show (e.1,e.2) ∈ _ from member)
  rw [target]
  exact List.mem_map_of_mem (List.mem_of_mem_filter listed)

theorem forkNext_owned {f f' : Forking} {ranked : List RankedEvent} (owned : f.Owned) (advances : f.next db ranked = some f') :
    f'.call = f.call ∧ f'.Owned := by
  obtain ⟨keys,within⟩ := owned
  unfold Forking.next at advances
  split at advances
  · cases advances
    exact ⟨rfl,keys,fun e => copied_within,within.events,within.history,within.streams⟩
  · cases advances
    exact ⟨rfl,keys,within.outputs,within.events,within.history,fun e => copied_within⟩
  · cases advances
    exact ⟨rfl,keys,within.outputs,within.events,fun e => copied_within,within.streams⟩
  · split at advances
    · rename_i answer
      cases advances
      refine ⟨rfl,keys,within.outputs,?_,within.history,within.streams⟩
      intro e member
      obtain ⟨r,listed,rfl⟩ := List.mem_map.mp member
      have joined := (mem_historyJoin.mp (answer.1 r listed).1).1
      exact List.mem_map_of_mem (List.mem_of_mem_filter joined)
    · cases advances
  · cases advances

theorem exportNext_owned {x x' : Export} (owned : x.Owned) (advances : x.next db = some x') :
    x'.workflowID = x.workflowID ∧ x'.Owned := by
  unfold Export.next at advances
  split at advances <;> cases advances
  · refine ⟨rfl,?_,owned.events,owned.history,owned.streams⟩
    intro e member
    simpa using (List.mem_filter.mp member).2
  · refine ⟨rfl,owned.outputs,?_,owned.history,owned.streams⟩
    intro e member
    simpa using (List.mem_filter.mp member).2
  · refine ⟨rfl,owned.outputs,owned.events,?_,owned.streams⟩
    intro e member
    simpa using (List.mem_filter.mp member).2
  · refine ⟨rfl,owned.outputs,owned.events,owned.history,?_⟩
    intro e member
    simpa using (List.mem_filter.mp member).2

theorem insertForks_ok {originals t t' : Statuses} {options : ForkOptions} {now : Int} {ms : List ForkMapping}
    (done : (ms.map fun m => (m.source,m.target)).foldlM (insertFork originals options now) t = .ok t') :
    (ms.map Mapping.target).Nodup ∧ (∀ w ∈ ms.map Mapping.target,t.get? w = none) ∧
      ∀ w, (t'.get? w).isSome ↔ (t.get? w).isSome ∨ w ∈ ms.map Mapping.target := by
  induction ms generalizing t with
  | nil =>
    cases done
    simp
  | cons m rest ih =>
    rw [List.map_cons,List.foldlM_cons] at done
    unfold insertFork at done
    split at done
    · cases done
    · split at done
      · cases done
      · rename_i ws original free
        have absent : t.get? m.target = none := by simpa using free
        obtain ⟨distinct,others,all⟩ := ih done
        have fresh : m.target ∉ rest.map Mapping.target := by
          intro taken
          have missing := others _ taken
          simp [absent] at missing
        refine ⟨List.nodup_cons.mpr ⟨fresh,distinct⟩,?_,?_⟩
        · intro w member
          rcases List.mem_cons.mp member with rfl | later
          · exact absent
          · have other : w ≠ m.target := fun same => fresh (same ▸ later)
            simpa [other] using others w later
        · intro w
          rw [all,Table.get?_insert,List.map_cons,List.mem_cons]
          by_cases here : w = m.target
          · simp [here]
          · simp [here]

/-- Forks are accepted when their IDs are new. -/
theorem bulkForkStatuses_ok {t t' : Statuses} {options : ForkOptions} {now : Int} {ms : List ForkMapping} {ids : List String}
    (done : bulkForkStatuses t (ms.map Mapping.source) (ms.map Mapping.target) options now = (.ok ids,t')) :
    ids = ms.map Mapping.target ∧ ids.Nodup ∧ (∀ w ∈ ids,t.get? w = none) ∧ ∀ w ∈ ids,(t'.get? w).isSome := by
  have zipped : (ms.map Mapping.source).zip (ms.map Mapping.target) = ms.map fun m => (m.source,m.target) := List.zip_map'
  unfold bulkForkStatuses at done
  split at done
  · cases done
  split at done
  · cases done
  · rename_i t'' inserted
    cases done
    rw [zipped] at inserted
    obtain ⟨distinct,absent,all⟩ := insertForks_ok inserted
    refine ⟨rfl,distinct,absent,?_⟩
    intro w member
    rw [Table.get?_update,Option.isSome_map]
    exact (all w).mpr (.inr member)

theorem commit_writes {call call' : Call} {acknowledged : Bool} {done : List Statement}
    (commits : call.commit acknowledged = some (call',done)) : call'.writes = [] ∧ ∀ st ∈ done,st ∈ call.writes := by
  unfold Call.commit at commits
  split at commits
  · cases commits
    exact ⟨by cases acknowledged <;> rfl,fun st member => member⟩
  · cases commits
    exact ⟨by cases acknowledged <;> rfl,by simp⟩
  · cases commits
    exact ⟨by cases acknowledged <;> rfl,fun st member => member⟩
  · cases commits

theorem restart_writes (call : Call) : call.restart.writes = [] := by cases call <;> rfl

theorem fail_writes (call : Call) (e : DbosError) : (call.fail e).writes = [] := by cases call <;> rfl

/-- A call runs statements of its own and moves on, to writes that are owned and free. -/
theorem linked_set (linked : Linked s) {i : Nat} {call call' : Call} {done : List Statement} (found : s.calls[i]? = some call)
    (ran : ∀ st ∈ done,∀ w ∈ ownerOf st,(s.db.statuses.get? w).isSome)
    (owned : ∀ st ∈ call'.writes,∀ w ∈ ownerOf st,(s.db.statuses.get? w).isSome)
    (free : ∀ (j : Nat) other, j ≠ i → s.calls[j]? = some other → ∀ row ∈ rowsOf call'.writes,row ∉ rowsOf other.writes) :
    Linked { s with db := applyAll s.db done,calls := s.calls.set i call' } := by
  have same := applyAll_status_isSome done s.db
  refine ⟨?_,?_,?_,linked.distinct,?_,linked.forks,linked.exports⟩
  · intro w has
    rw [same]
    rcases applyAll_hasRows has with old | ⟨st,member,owner⟩
    · exact linked.owners w old
    · exact ran st member w owner
  · intro j other listed st member w owner
    rw [same]
    rcases party_set_cases found listed with ⟨_,rfl⟩ | ⟨_,old⟩
    · exact owned st member w owner
    · exact linked.writers j other old st member w owner
  · refine parties_apart ?_ found linked.exclusive free
    intro a b apart row member shared
    exact apart row shared member
  · intro w member
    have before : (s.db.statuses.get? w).isSome = false := by rw [linked.absent w member]; rfl
    rw [← same] at before
    simpa using before

/-- A call ends its transaction with the statements `done`. -/
theorem linked_release (linked : Linked s) {i : Nat} {call call' : Call} {done : List Statement} (found : s.calls[i]? = some call)
    (written : ∀ st ∈ done,st ∈ call.writes) (empty : call'.writes = []) :
    Linked { s with db := applyAll s.db done,calls := s.calls.set i call' } := by
  refine linked_set linked found (fun st member => linked.writers i call found st (written st member)) ?_ ?_
  · rw [empty]
    simp
  · rw [empty]
    simp [rowsOf]

theorem linked_begin (linked : Linked s) {call : Call} (empty : call.writes = []) : Linked { s with calls := s.calls ++ [call] } := by
  refine ⟨linked.owners,?_,?_,linked.distinct,linked.absent,linked.forks,linked.exports⟩
  · intro j other listed st member
    rcases party_append listed with old | ⟨_,rfl⟩
    · exact linked.writers j other old st member
    · rw [empty] at member
      cases member
  · intro j k first second differ listed listed' row member
    rcases party_append listed with old | ⟨_,rfl⟩
    · rcases party_append listed' with old' | ⟨_,rfl⟩
      · exact linked.exclusive j k first second differ old old' row member
      · rw [empty]
        exact List.not_mem_nil
    · rw [empty] at member
      cases member

/-- No workflow goes, and the forks that are not committed stay new. -/
theorem linked_rows (linked : Linked s) (owners : ∀ w, HasRows db w → (db.statuses.get? w).isSome)
    (kept : ∀ w, (s.db.statuses.get? w).isSome → (db.statuses.get? w).isSome)
    (absent : ∀ w ∈ s.reserved,db.statuses.get? w = none) : Linked { s with db := db } := by
  refine ⟨owners,?_,linked.exclusive,linked.distinct,absent,linked.forks,linked.exports⟩
  intro j call listed st member w owner
  exact kept w (linked.writers j call listed st member w owner)

theorem linked_exports (linked : Linked s) {exports : List Export} (owned : ∀ x ∈ exports,x.Owned) :
    Linked { s with exports := exports } :=
  ⟨linked.owners,linked.writers,linked.exclusive,linked.distinct,linked.absent,linked.forks,owned⟩

/-! ### Forks that are not committed -/

theorem reserved_erase (s : System) (i : Nat) :
    List.Sublist ((s.forks.eraseIdx i).flatMap fun f => f.call.targets) s.reserved :=
  (List.eraseIdx_sublist _ _).flatMap _

/-- A fork is not among the others that are not committed. -/
theorem reserved_apart {forks : List Forking} {i : Nat} {f : Forking} (distinct : (forks.flatMap fun f => f.call.targets).Nodup)
    (found : forks[i]? = some f) {w : String} (member : w ∈ f.call.targets) :
    w ∉ (forks.eraseIdx i).flatMap fun f => f.call.targets := by
  induction forks generalizing i with
  | nil => cases found
  | cons g rest ih =>
    rw [List.flatMap_cons,List.nodup_append] at distinct
    cases i with
    | zero =>
      cases found
      intro later
      exact distinct.2.2 w member w later rfl
    | succ i =>
      rw [List.getElem?_cons_succ] at found
      rw [List.eraseIdx_cons_succ,List.flatMap_cons,List.mem_append]
      rintro (here | later)
      · exact distinct.2.2 w here w (List.mem_flatMap.mpr ⟨f,List.mem_of_getElem? found,member⟩) rfl
      · exact ih distinct.2.1 found later

theorem reserved_set {i : Nat} {f f' : Forking} (found : s.forks[i]? = some f) (same : f'.call = f.call) :
    (s.forks.set i f').flatMap (fun f => f.call.targets) = s.reserved := by
  have calls : (s.forks.set i f').map Forking.call = s.forks.map Forking.call := by
    rw [List.map_set,same]
    refine List.ext_getElem? ?_
    intro j
    rw [party_set (by rw [List.getElem?_map,found]; rfl)]
    by_cases here : j = i
    · rw [if_pos here,here,List.getElem?_map,found]
      rfl
    · rw [if_neg here]
  have split : ∀ forks : List Forking, forks.flatMap (fun f => f.call.targets) =
      (forks.map Forking.call).flatMap ForkCall.targets := by
    intro forks
    rw [List.flatMap_map]
  rw [split,calls,← split]
  rfl

theorem linked_erase (linked : Linked s) (i : Nat) : Linked { s with forks := s.forks.eraseIdx i } := by
  refine ⟨linked.owners,linked.writers,linked.exclusive,linked.distinct.sublist (reserved_erase s i),?_,?_,linked.exports⟩
  · exact fun w member => linked.absent w ((reserved_erase s i).subset member)
  · exact fun g member => linked.forks g (List.mem_of_mem_eraseIdx member)

theorem linked_fork (linked : Linked s) {f : Forking} (owned : f.Owned) (distinct : f.call.targets.Nodup)
    (absent : ∀ w ∈ f.call.targets,s.db.statuses.get? w = none) (unreserved : ∀ w ∈ f.call.targets,w ∉ s.reserved) :
    Linked { s with forks := s.forks ++ [f] } := by
  have reserved : (s.forks ++ [f]).flatMap (fun f => f.call.targets) = s.reserved ++ f.call.targets := by
    simp [System.reserved]
  refine ⟨linked.owners,linked.writers,linked.exclusive,?_,?_,?_,linked.exports⟩
  · rw [System.reserved,reserved,List.nodup_append]
    refine ⟨linked.distinct,distinct,?_⟩
    rintro w old _ new rfl
    exact unreserved w new old
  · intro w member
    rw [System.reserved,reserved,List.mem_append] at member
    rcases member with old | new
    · exact linked.absent w old
    · exact absent w new
  · intro g member
    rcases List.mem_append.mp member with old | new
    · exact linked.forks g old
    · cases List.mem_singleton.mp new
      exact owned

theorem inserts_status {statuses : List (String × WorkflowStatus)} {outputs : List ((String × Nat) × OperationOutput)}
    {events : List ((String × String) × WorkflowEvent)} {history : List ((String × Nat × String) × WorkflowEvent)}
    {streams : List ((String × String × Nat) × StreamEntry)}
    (inserts : Inserts db statuses outputs events history streams db') (w : String) :
    (db'.statuses.get? w).isSome ↔ (db.statuses.get? w).isSome ∨ w ∈ statuses.map Prod.fst := by
  rw [insertRows_isSome inserts.statuses]
  simp

/-- An imported workflow is new, and it gets the exported rows. -/
theorem importOne_linked {x : Export} (inserts : importOne db x = some db') (owned : x.Owned)
    (owners : ∀ w, HasRows db w → (db.statuses.get? w).isSome) :
    db.statuses.get? x.workflowID = none ∧ (∀ w, HasRows db' w → (db'.statuses.get? w).isSome) ∧
      ∀ w, (db'.statuses.get? w).isSome ↔ (db.statuses.get? w).isSome ∨ x.workflowID = w := by
  have here := insertOwned_inserts inserts
  have status := inserts_status here
  simp only [List.map_cons,List.map_nil,List.mem_singleton] at status
  refine ⟨?_,?_,?_⟩
  · have stored := here.statuses
    rw [Table.insertRows] at stored
    split at stored
    · cases stored
    · simpa using (by assumption : ¬ (db.statuses.get? x.workflowID).isSome = true)
  · intro w has
    rw [status]
    rcases inserts_hasRows owned here has with old | same
    · exact .inl (owners w old)
    · exact .inr same
  · intro w
    rw [status,eq_comm (a := w)]

theorem imports_linked {payloads : List Export} (inserts : payloads.foldlM importOne db = some db')
    (owned : ∀ x ∈ payloads,x.Owned) (owners : ∀ w, HasRows db w → (db.statuses.get? w).isSome) :
    (∀ w, HasRows db' w → (db'.statuses.get? w).isSome) ∧
      ∀ w, (db'.statuses.get? w).isSome ↔ (db.statuses.get? w).isSome ∨ ∃ x ∈ payloads,x.workflowID = w := by
  induction payloads generalizing db with
  | nil =>
    cases inserts
    exact ⟨owners,by simp⟩
  | cons x rest ih =>
    rw [List.foldlM_cons] at inserts
    obtain ⟨between,first,onward⟩ := Option.bind_eq_some_iff.mp inserts
    obtain ⟨_,here,status⟩ := importOne_linked first (owned x List.mem_cons_self) owners
    obtain ⟨owners',status'⟩ := ih onward (fun x member => owned x (List.mem_cons_of_mem _ member)) here
    refine ⟨owners',?_⟩
    intro w
    rw [status',status,List.exists_mem_cons_iff,or_assoc]

theorem delete_owner {κ ρ : Type} [DecidableEq κ] {t : Table (String × κ) ρ} {allIds : List String} {w : String}
    (has : ∃ k, ((t.delete fun k _ => k.1 ∈ allIds).get? (w,k)).isSome) : (∃ k, (t.get? (w,k)).isSome) ∧ w ∉ allIds := by
  obtain ⟨k,present⟩ := has
  obtain ⟨r,found⟩ := Option.isSome_iff_exists.mp present
  rw [Table.get?_delete,Option.filter_eq_some_iff] at found
  exact ⟨⟨k,by rw [found.1]; rfl⟩,by simpa using found.2⟩

theorem delete_hasRows {allIds : List String} {w : String} (has : HasRows (deleteCascade db allIds) w) :
    HasRows db w ∧ w ∉ allIds := by
  rcases has with outputs | streams | history | events
  · exact ⟨.inl (delete_owner outputs).1,(delete_owner outputs).2⟩
  · exact ⟨.inr (.inl (delete_owner streams).1),(delete_owner streams).2⟩
  · exact ⟨.inr (.inr (.inl (delete_owner history).1)),(delete_owner history).2⟩
  · exact ⟨.inr (.inr (.inr (delete_owner events).1)),(delete_owner events).2⟩

theorem delete_status {allIds : List String} {w : String} (other : w ∉ allIds) :
    (deleteCascade db allIds).statuses.get? w = db.statuses.get? w := by
  cases found : db.statuses.get? w <;> simp [deleteCascade,Status.deleteWorkflows,found,other]

end

theorem step_linked {s s' : System} {event : Event} (linked : Linked s) (taken : step s event = some s') : Linked s' := by
  cases step_moves taken with
  | begin call => exact linked_begin linked (restart_writes call)
  | fails i input call found => exact linked_release linked found (List.forall_mem_nil _) (fail_writes _ _)
  | next i input call call' auto found advances owned free =>
    have owns : ∀ st ∈ call'.writes ++ auto,∀ w ∈ ownerOf st,(s.db.statuses.get? w).isSome := by
      intro st member w owner
      by_contra missing
      exact owned ⟨st,member,w,owner,by simpa using missing⟩
    refine linked_set linked found ?_ ?_ ?_
    · exact fun st member => owns st (List.mem_append_right _ member)
    · exact fun st member => owns st (List.mem_append_left _ member)
    · intro j other differ listed row member
      exact free other (List.mem_eraseIdx_iff_getElem?.mpr ⟨j,differ,listed⟩) row (mem_rowsOf_append.mpr (.inl member))
  | commit i acknowledged call call' done found commits =>
    obtain ⟨empty,written⟩ := commit_writes commits
    exact linked_release linked found written empty
  | drop i call found => exact linked_release linked found (List.forall_mem_nil _) (restart_writes _)
  | stays => exact linked
  | fork call now ids statuses inserted unreserved =>
    obtain ⟨rfl,distinct,absent,present⟩ := bulkForkStatuses_ok inserted
    have keys : ∀ id ∈ call.targets,((statuses.get? id).map (id,·)).map Prod.fst = some id := by
      intro id listed
      obtain ⟨row,found⟩ := Option.isSome_iff_exists.mp (present id listed)
      rw [found]
      rfl
    refine linked_fork linked ⟨?_,by simp,by simp,by simp,by simp⟩ distinct absent unreserved
    rw [List.map_filterMap]
    exact (List.filterMap_congr keys).trans (by simp)
  | forkNext i ranked f f' found advances =>
    obtain ⟨call,owned⟩ := forkNext_owned (linked.forks f (List.mem_of_getElem? found)) advances
    refine ⟨linked.owners,linked.writers,linked.exclusive,?_,?_,?_,linked.exports⟩
    · rw [System.reserved,reserved_set found call]
      exact linked.distinct
    · rw [System.reserved,reserved_set found call]
      exact linked.absent
    · exact all_set linked.forks owned i
  | forkCommit i f db found complete inserts =>
    obtain ⟨keys,within⟩ := linked.forks f (List.mem_of_getElem? found)
    have status : ∀ w, ((markForked (f.call.mapping.map Mapping.source) db).statuses.get? w).isSome ↔
        (s.db.statuses.get? w).isSome ∨ w ∈ f.call.targets := by
      intro w
      rw [← keys,← inserts_status inserts]
      simp [markForked]
    refine linked_rows (linked_erase linked i) ?_ (fun w old => (status w).mpr (.inl old)) ?_
    · intro w has
      rw [status]
      rcases inserts_hasRows within inserts has with old | new
      · exact .inl (linked.owners w old)
      · exact .inr new
    · intro w member
      by_contra present
      rcases (status w).mp (Option.isSome_iff_ne_none.mpr present) with old | new
      · rw [linked.absent w ((reserved_erase s i).subset member)] at old
        cases old
      · exact reserved_apart linked.distinct found new member
  | forkDrop i => exact linked_erase linked i
  | exportWorkflow workflowID row found =>
    refine linked_exports linked ?_
    intro x member
    rcases List.mem_append.mp member with old | new
    · exact linked.exports x old
    · cases List.mem_singleton.mp new
      exact ⟨by simp,by simp,by simp,by simp⟩
  | exportNext i x x' found advances =>
    have owned := (exportNext_owned (linked.exports x (List.mem_of_getElem? found)) advances).2
    exact linked_exports linked (all_set linked.exports owned i)
  | importWorkflow exports payloads db known complete inserts =>
    obtain ⟨owners,status⟩ := imports_linked inserts (fun x member => linked.exports x (known x member)) linked.owners
    refine linked_rows linked owners (fun w old => (status w).mpr (.inl old)) ?_
    intro w member
    by_contra present
    rcases (status w).mp (Option.isSome_iff_ne_none.mpr present) with old | ⟨x,listed,rfl⟩
    · rw [linked.absent w member] at old
      cases old
    · exact (complete x listed).2 member
  | deleteWorkflows allIds idle =>
    refine ⟨?_,?_,linked.exclusive,linked.distinct,?_,linked.forks,linked.exports⟩
    · intro w has
      obtain ⟨old,other⟩ := delete_hasRows has
      rw [delete_status other]
      exact linked.owners w old
    · intro j call listed st member w owner
      have other : w ∉ allIds := fun taken => (idle w taken).1 call (List.mem_of_getElem? listed) st member owner
      rw [delete_status other]
      exact linked.writers j call listed st member w owner
    · intro w member
      have before := linked.absent w member
      simp [deleteCascade,Status.deleteWorkflows,before]
  | statuses t kept unreserved => exact linked_rows linked (fun w has => kept w (linked.owners w has)) kept unreserved

end Dbos.Writers
