import Dbos.Divergence
import Dbos.ScheduleTable

/-!
Schedule operations in workflows: `runTransactionalStep` of `src/system_database.ts` under `runTransactionalInternalStep` of `src/dbos.ts`.
A workflow makes such a step in one transaction with its checkpoint. Any number of executions run statement by statement, with the same
operations from outside of workflows, `applySchedules` and the scheduler's `updateLastFiredAt` between them; a statement waits for rows that
another transaction has written.
-/
namespace Dbos.TransactionalSteps
open Dbos.Pg Dbos.Schema Dbos.Status Dbos.ScheduleTable
open Dbos.Checkpoints (CheckpointCall checkpointRow insertCheckpoint recordedEnd conflictError get?_insertCheckpoint)
open Dbos.Divergence (Observation reviveResultOrError)

/-! ### Operations -/

/-- What the callback of a step returns. -/
inductive Result
  | undefined
  | schedules (l : List WorkflowScheduleInternal)
  | schedule (found : Option WorkflowScheduleInternal)
  deriving DecidableEq

/-- The callbacks that `src/dbos.ts` gives to `runTransactionalInternalStep`. -/
inductive ScheduleOp
  | createSchedule (schedule : WorkflowScheduleInternal)
  | listSchedules (filters : ScheduleFilters)
  | getSchedule (name : String)
  | deleteSchedule (name : String)
  | pauseSchedule (name : String)
  | resumeSchedule (name : String)
  | updateSchedule (name : String) (updates : WorkflowScheduleUpdate)

def ScheduleOp.funcName : ScheduleOp → String
  | .createSchedule _ => "DBOS.createSchedule"
  | .listSchedules _ => "DBOS.listSchedules"
  | .getSchedule _ => "DBOS.getSchedule"
  | .deleteSchedule _ => "DBOS.deleteSchedule"
  | .pauseSchedule _ => "DBOS.pauseSchedule"
  | .resumeSchedule _ => "DBOS.resumeSchedule"
  | .updateSchedule _ _ => "DBOS.updateSchedule"

def funcNames : List String :=
  ["DBOS.createSchedule","DBOS.listSchedules","DBOS.getSchedule","DBOS.deleteSchedule","DBOS.pauseSchedule","DBOS.resumeSchedule",
    "DBOS.updateSchedule"]

theorem funcName_listed (op : ScheduleOp) : op.funcName ∈ funcNames := by cases op <;> simp [ScheduleOp.funcName,funcNames]

section
variable (host : Host Result)

/-- The rows that the statement writes, and what the callback returns. -/
def ScheduleOp.callback (t : Schedules) : ScheduleOp → Except DbosError (List Write × Result)
  | .createSchedule schedule => (ScheduleTable.createSchedule t schedule).map fun writes => (writes,.undefined)
  | .listSchedules filters => (ScheduleTable.listSchedules host t filters).map fun l => ([],.schedules l)
  | .getSchedule name => .ok ([],.schedule (ScheduleTable.getSchedule t name))
  | .deleteSchedule name => .ok (ScheduleTable.deleteSchedule t name,.undefined)
  | .pauseSchedule name => .ok (ScheduleTable.setScheduleStatus t name .PAUSED,.undefined)
  | .resumeSchedule name => .ok (ScheduleTable.setScheduleStatus t name .ACTIVE,.undefined)
  | .updateSchedule name updates => (ScheduleTable.updateSchedule t name updates).map fun writes => (writes,.undefined)

/-- What the statement waits for beyond the rows that it writes. -/
def ScheduleOp.waits (t : Schedules) : ScheduleOp → List Resource
  | .createSchedule schedule => insertWaits t schedule.scheduleName schedule.scheduleId
  | _ => []

/-- What writes the table. -/
inductive Work
  | operation (op : ScheduleOp)
  | applySchedules (schedules : List WorkflowScheduleInternal)
  | updateLastFiredAt (name lastFiredAt : String)

/-- The work done alone. -/
def Work.run (t : Schedules) : Work → Except DbosError (List Write × Result)
  | .operation op => op.callback host t
  | .applySchedules schedules => (ScheduleTable.applySchedules t schedules).map fun writes => (writes,.undefined)
  | .updateLastFiredAt name lastFiredAt => .ok (ScheduleTable.updateLastFiredAt t name lastFiredAt,.undefined)

end

/-! ### The system -/

structure Database extends Communication.Database where
  schedules : Schedules := Table.empty

structure Invocation where
  workflowID : String
  functionID : Nat
  executorID : String
  op : ScheduleOp

def Invocation.key (inv : Invocation) : String × Nat := (inv.workflowID,inv.functionID)

/-- Where `runTransactionalStep` stands: before the look at the status, before the SELECT of the checkpoint, before the callback, before
    the INSERT of the checkpoint, before the UPDATE of `executor_id`, before the COMMIT. -/
inductive Phase
  | called
  | uncancelled
  | missed (startTime : Int)
  | acted (startTime : Int) (writes : List Write) (result : Result)
  | recorded (writes : List Write) (result : Result) (call : CheckpointCall)
  | claimed (writes : List Write) (result : Result) (call : CheckpointCall)
  | returned (value : Observation)
  | threw (e : DbosError)

/-- A transaction: a step of a workflow, or `applySchedules` behind the schedules `before`. -/
inductive Session
  | step (inv : Invocation) (phase : Phase)
  | applying (before todo : List WorkflowScheduleInternal) (writes : List Write)
  | ended

/-- The rows of `workflow_schedules` that are written and not committed. -/
def Session.writes : Session → List Write
  | .step _ (.acted _ writes _) => writes
  | .step _ (.recorded writes _ _) => writes
  | .step _ (.claimed writes _ _) => writes
  | .applying _ _ writes => writes
  | _ => []

/-- Others may write the row of `workflow_status` at any time, so its lock is not among these. -/
def Session.holds (session : Session) : List Resource :=
  (match session with
    | .step inv (.recorded _ _ _) => [.checkpoint inv.key]
    | .step inv (.claimed _ _ _) => [.checkpoint inv.key]
    | _ => []) ++ session.writes.flatMap Write.resources

/-- What was committed: `key` is the step of a workflow that did it. -/
structure Entry where
  key : Option (String × Nat)
  work : Work
  writes : List Write
  result : Result

/-- `log` is history that nothing reads. -/
structure System where
  db : Database
  sessions : List Session := []
  log : List Entry := []

/-- A step or `applySchedules` begins, a transaction runs its next statement, commits with or without an acknowledgement that arrives, or
    loses its connection; an operation runs outside of workflows or in a step; the scheduler sets `last_fired_at`; others record
    checkpoints, under other names, and write `workflow_status`. -/
inductive Event
  | invoke (inv : Invocation)
  | applySchedules (schedules : List WorkflowScheduleInternal)
  | next (i : Nat) (now : Int)
  | commit (i : Nat) (acknowledged : Bool)
  | drop (i : Nat)
  | direct (op : ScheduleOp)
  | updateLastFiredAt (name lastFiredAt : String)
  | checkpoint (key : String × Nat) (call : CheckpointCall)
  | statuses (t : Statuses)

/-- No other transaction holds one of these. -/
def Free (others : List Session) (resources : List Resource) : Prop := ∀ other ∈ others,∀ r ∈ resources,r ∉ other.holds

instance (others : List Session) (resources : List Resource) : Decidable (Free others resources) :=
  inferInstanceAs (Decidable (∀ other ∈ _,_))

/-- The error of the driver for a connection that is lost. -/
def connectionLost : DbosError := .Error "Connection terminated unexpectedly"

section
variable (host : Host Result)

def Invocation.checkpoint (inv : Invocation) (startTime endTime : Int) (result : Result) : CheckpointCall where
  functionName := inv.op.funcName
  startTimeEpochMs := startTime
  endTimeEpochMs := endTime
  output := some (host.stringify result)

/-- The next statement, with what it waits for. -/
def Session.next (db : Database) (now : Int) : Session → Option (Session × List Resource)
  | .step inv .called =>
    match Communication.checkIfCanceled db.toDatabase inv.workflowID with
    | some e => some (.step inv (.threw e),[])
    | none => some (.step inv .uncancelled,[])
  | .step inv .uncancelled =>
    match db.outputs.get? inv.key with
    | some row =>
      if row.function_name = inv.op.funcName then some (.step inv (.returned (reviveResultOrError row)),[])
      else some (.step inv (.threw (.DBOSUnexpectedStepError inv.workflowID inv.functionID inv.op.funcName row.function_name)),[])
    | none => some (.step inv (.missed now),[])
  | .step inv (.missed startTime) =>
    match inv.op.callback host db.schedules with
    | .ok (writes,result) => some (.step inv (.acted startTime writes result),inv.op.waits db.schedules)
    | .error e => some (.step inv (.threw e),inv.op.waits db.schedules)
  | .step inv (.acted startTime writes result) =>
    let call := inv.checkpoint host startTime now result
    if recordedEnd (insertCheckpoint db.outputs inv.key call) inv.key = now then
      some (.step inv (.recorded writes result call),[])
    else some (.step inv (.threw (conflictError inv.key)),[.checkpoint inv.key])
  | .step inv (.recorded writes result call) => some (.step inv (.claimed writes result call),[])
  | .applying before (sched :: todo) writes =>
    match upsertSchedule (applyAll db.schedules writes) sched with
    | .ok w => some (.applying (before ++ [sched]) todo (writes ++ [w]),upsertWaits (applyAll db.schedules writes) sched)
    | .error _ => some (.ended,upsertWaits (applyAll db.schedules writes) sched)
  | _ => none

def System.set (s : System) (i : Nat) (session : Session) : System := { s with sessions := s.sessions.set i session }

/-- Nothing is run again when a connection or an acknowledgement is lost: the call throws. -/
def step (s : System) : Event → Option System
  | .invoke inv => some { s with sessions := s.sessions ++ [.step inv .called] }
  | .applySchedules schedules => some { s with sessions := s.sessions ++ [.applying [] schedules []] }
  | .next i now =>
    match (s.sessions[i]?).bind (Session.next host s.db now) with
    | some (session,waits) => if Free (s.sessions.eraseIdx i) (waits ++ session.holds) then some (s.set i session) else none
    | none => none
  | .commit i acknowledged =>
    match s.sessions[i]? with
    | some (.step inv (.claimed writes result call)) =>
      some { db := { s.db with
               schedules := applyAll s.db.schedules writes
               outputs := insertCheckpoint s.db.outputs inv.key call
               statuses := claimExecutor s.db.statuses inv.executorID inv.workflowID }
             sessions := s.sessions.set i (.step inv
               (if acknowledged then .returned (.value (some (host.stringify result)) none) else .threw connectionLost))
             log := s.log ++ [⟨some inv.key,.operation inv.op,writes,result⟩] }
    | some (.applying before [] writes) =>
      some { db := { s.db with schedules := applyAll s.db.schedules writes }
             sessions := s.sessions.set i .ended
             log := s.log ++ [⟨none,.applySchedules before,writes,.undefined⟩] }
    | _ => none
  | .drop i =>
    match s.sessions[i]? with
    | some (.step _ (.returned _)) => none
    | some (.step _ (.threw _)) => none
    | some (.step inv _) => some (s.set i (.step inv (.threw connectionLost)))
    | some (.applying _ _ _) => some (s.set i .ended)
    | _ => none
  | .direct op =>
    match op.callback host s.db.schedules with
    | .ok (writes,result) =>
      if Free s.sessions (op.waits s.db.schedules ++ writes.flatMap Write.resources) then
        some { s with
          db := { s.db with schedules := applyAll s.db.schedules writes }
          log := s.log ++ [⟨none,.operation op,writes,result⟩] }
      else none
    | .error _ => if Free s.sessions (op.waits s.db.schedules) then some s else none
  | .updateLastFiredAt name lastFiredAt =>
    if Free s.sessions ((updateLastFiredAt s.db.schedules name lastFiredAt).flatMap Write.resources) then
      some { s with
        db := { s.db with schedules := applyAll s.db.schedules (updateLastFiredAt s.db.schedules name lastFiredAt) }
        log := s.log ++ [⟨none,.updateLastFiredAt name lastFiredAt,updateLastFiredAt s.db.schedules name lastFiredAt,.undefined⟩] }
    else none
  | .checkpoint key call =>
    if call.functionName ∉ funcNames ∧ Free s.sessions [.checkpoint key] then
      some { s with db := { s.db with outputs := insertCheckpoint s.db.outputs key call } }
    else none
  | .statuses t => some { s with db := { s.db with statuses := t } }

end

def start (db : Database) : System := { db := db }

/-! ### What an event does -/

section
variable (host : Host Result)

inductive Moves (s : System) : Event → System → Prop
  | invoke (inv : Invocation) : Moves s (.invoke inv) { s with sessions := s.sessions ++ [.step inv .called] }
  | applySchedules (schedules : List WorkflowScheduleInternal) :
      Moves s (.applySchedules schedules) { s with sessions := s.sessions ++ [.applying [] schedules []] }
  | next (i : Nat) (now : Int) (old new : Session) (waits : List Resource) (found : s.sessions[i]? = some old)
      (runs : old.next host s.db now = some (new,waits)) (free : Free (s.sessions.eraseIdx i) (waits ++ new.holds)) :
      Moves s (.next i now) (s.set i new)
  | commitStep (i : Nat) (acknowledged : Bool) (inv : Invocation) (writes : List Write) (result : Result) (call : CheckpointCall)
      (phase : Phase) (found : s.sessions[i]? = some (.step inv (.claimed writes result call)))
      (ends : phase = .returned (.value (some (host.stringify result)) none) ∨ phase = .threw connectionLost) :
      Moves s (.commit i acknowledged)
        { db := { s.db with
            schedules := applyAll s.db.schedules writes
            outputs := insertCheckpoint s.db.outputs inv.key call
            statuses := claimExecutor s.db.statuses inv.executorID inv.workflowID }
          sessions := s.sessions.set i (.step inv phase)
          log := s.log ++ [⟨some inv.key,.operation inv.op,writes,result⟩] }
  | commitApply (i : Nat) (acknowledged : Bool) (before : List WorkflowScheduleInternal) (writes : List Write)
      (found : s.sessions[i]? = some (.applying before [] writes)) :
      Moves s (.commit i acknowledged)
        { db := { s.db with schedules := applyAll s.db.schedules writes }
          sessions := s.sessions.set i .ended
          log := s.log ++ [⟨none,.applySchedules before,writes,.undefined⟩] }
  | dropStep (i : Nat) (inv : Invocation) (phase : Phase) (found : s.sessions[i]? = some (.step inv phase)) :
      Moves s (.drop i) (s.set i (.step inv (.threw connectionLost)))
  | dropApply (i : Nat) (before todo : List WorkflowScheduleInternal) (writes : List Write)
      (found : s.sessions[i]? = some (.applying before todo writes)) : Moves s (.drop i) (s.set i .ended)
  | direct (op : ScheduleOp) (writes : List Write) (result : Result) (runs : op.callback host s.db.schedules = .ok (writes,result))
      (free : Free s.sessions (writes.flatMap Write.resources)) :
      Moves s (.direct op)
        { s with
          db := { s.db with schedules := applyAll s.db.schedules writes }
          log := s.log ++ [⟨none,.operation op,writes,result⟩] }
  | refused (op : ScheduleOp) : Moves s (.direct op) s
  | updateLastFiredAt (name lastFiredAt : String)
      (free : Free s.sessions ((ScheduleTable.updateLastFiredAt s.db.schedules name lastFiredAt).flatMap Write.resources)) :
      Moves s (.updateLastFiredAt name lastFiredAt)
        { s with
          db := { s.db with schedules := applyAll s.db.schedules (ScheduleTable.updateLastFiredAt s.db.schedules name lastFiredAt) }
          log := s.log ++ [⟨none,.updateLastFiredAt name lastFiredAt,
            ScheduleTable.updateLastFiredAt s.db.schedules name lastFiredAt,.undefined⟩] }
  | checkpoint (key : String × Nat) (call : CheckpointCall) (other : call.functionName ∉ funcNames)
      (free : Free s.sessions [.checkpoint key]) :
      Moves s (.checkpoint key call) { s with db := { s.db with outputs := insertCheckpoint s.db.outputs key call } }
  | statuses (t : Statuses) : Moves s (.statuses t) { s with db := { s.db with statuses := t } }

variable {host} {s s' : System}

theorem Free.left {others : List Session} {first second : List Resource} (free : Free others (first ++ second)) : Free others first :=
  fun other member r listed => free other member r (List.mem_append_left _ listed)

theorem Free.right {others : List Session} {first second : List Resource} (free : Free others (first ++ second)) : Free others second :=
  fun other member r listed => free other member r (List.mem_append_right _ listed)

theorem step_moves {e : Event} (taken : step host s e = some s') : Moves host s e s' := by
  cases e with
  | invoke inv =>
    cases taken
    exact .invoke inv
  | applySchedules schedules =>
    cases taken
    exact .applySchedules schedules
  | next i now =>
    simp only [step] at taken
    split at taken
    · rename_i new waits ran
      split at taken
      · rename_i free
        cases taken
        obtain ⟨old,found,runs⟩ := Option.bind_eq_some_iff.mp ran
        exact .next i now old new waits found runs free
      · cases taken
    · cases taken
  | commit i acknowledged =>
    simp only [step] at taken
    split at taken
    · rename_i inv writes result call found
      cases taken
      refine .commitStep i acknowledged inv writes result call _ found ?_
      split
      · exact .inl rfl
      · exact .inr rfl
    · rename_i before writes found
      cases taken
      exact .commitApply i acknowledged before writes found
    · cases taken
  | drop i =>
    simp only [step] at taken
    split at taken
    · cases taken
    · cases taken
    · rename_i inv phase _ _ found
      cases taken
      exact .dropStep i inv phase found
    · rename_i before todo writes found
      cases taken
      exact .dropApply i before todo writes found
    · cases taken
  | direct op =>
    simp only [step] at taken
    split at taken
    · rename_i writes result runs
      split at taken
      · rename_i free
        cases taken
        exact .direct op writes result runs free.right
      · cases taken
    · split at taken
      · cases taken
        exact .refused op
      · cases taken
  | updateLastFiredAt name lastFiredAt =>
    simp only [step] at taken
    split at taken
    · rename_i free
      cases taken
      exact .updateLastFiredAt name lastFiredAt free
    · cases taken
  | checkpoint key call =>
    simp only [step] at taken
    split at taken
    · rename_i allowed
      cases taken
      exact .checkpoint key call allowed.1 allowed.2
    · cases taken
  | statuses t =>
    cases taken
    exact .statuses t

end

/-! ### What holds of a transaction -/

variable {host : Host Result}

/-- The operation does the same on a table with the same rows where it writes. -/
theorem callback_agrees {op : ScheduleOp} {t t' : Schedules} {writes : List Write} {result : Result} {R : List Resource}
    (runs : op.callback host t = .ok (writes,result)) (changes : writes ≠ []) (within : ∀ w ∈ writes,∀ r ∈ w.resources,r ∈ R)
    (agrees : Agrees R t t') : op.callback host t' = .ok (writes,result) := by
  have row : ∀ {name w}, onRow t name w = writes → w.resources = [.name name] → onRow t' name w = writes := by
    intro name w hits single
    have member : w ∈ writes := by
      subst hits
      unfold onRow at changes ⊢
      split at changes
      · rw [if_pos ‹_›]
        exact List.mem_cons_self
      · exact absurd rfl changes
    rw [agrees.onRow (within w member _ (single ▸ List.mem_cons_self)),hits]
  cases op with
  | createSchedule schedule =>
    simp only [ScheduleOp.callback,createSchedule] at runs ⊢
    split at runs
    · cases runs
    · rename_i free
      cases runs
      have here := within _ List.mem_cons_self
      have free' := agrees.free (here _ List.mem_cons_self) (here _ (List.mem_cons_of_mem _ List.mem_cons_self)) (Bool.not_eq_true _ ▸ free)
      rw [if_neg (by rw [free']; exact Bool.false_ne_true)]
      rfl
  | listSchedules filters =>
    simp only [ScheduleOp.callback] at runs
    cases answer : listSchedules host t filters with
    | error e =>
      rw [answer] at runs
      cases runs
    | ok l =>
      rw [answer] at runs
      cases runs
      exact absurd rfl changes
  | getSchedule name =>
    cases runs
    exact absurd rfl changes
  | deleteSchedule name =>
    cases runs
    simp only [ScheduleOp.callback,deleteSchedule,row rfl rfl]
  | pauseSchedule name =>
    cases runs
    simp only [ScheduleOp.callback,setScheduleStatus,row rfl rfl]
  | resumeSchedule name =>
    cases runs
    simp only [ScheduleOp.callback,setScheduleStatus,row rfl rfl]
  | updateSchedule name updates =>
    simp only [ScheduleOp.callback,updateSchedule] at runs
    split at runs
    · cases runs
    · rename_i there
      split at runs
      · cases runs
        exact absurd rfl changes
      · rename_i some_
        cases runs
        have same := row rfl rfl
        have there' : (t'.get? name).isNone = false := by
          rw [onRow,onRow] at same
          cases absent : t.get? name with
          | none => simp [absent] at there
          | some old =>
            cases found : t'.get? name with
            | none => simp [absent,found] at same
            | some new => rfl
        simp only [ScheduleOp.callback,updateSchedule,there',same,if_neg some_]
        rfl

/-- An invocation has looked at the table in this state, and has got this. -/
def Looked (host : Host Result) (i : Nat) (inv : Invocation) (writes : List Write) (result : Result) (u : System) : Prop :=
  ∃ startTime, u.sessions[i]? = some (.step inv (.missed startTime)) ∧ inv.op.callback host u.db.schedules = .ok (writes,result)

/-- The rows that an invocation has written are what its operation makes of the table as it is now. -/
structure Acted (host : Host Result) (db : Database) (events : List Event) (s : System) (i : Nat) (inv : Invocation) (writes : List Write)
    (result : Result) : Prop where
  current : writes ≠ [] → inv.op.callback host s.db.schedules = .ok (writes,result)
  looked : Passed (step host) (start db) (Looked host i inv writes result) events

/-- The checkpoint is new. -/
structure Sealed (host : Host Result) (s : System) (inv : Invocation) (result : Result) (call : CheckpointCall) : Prop where
  fresh : s.db.outputs.get? inv.key = none
  call : ∃ startTime endTime, call = inv.checkpoint host startTime endTime result

def Valid (host : Host Result) (db : Database) (events : List Event) (s : System) (i : Nat) : Session → Prop
  | .step inv (.acted _ writes result) => Acted host db events s i inv writes result
  | .step inv (.recorded writes result call) => Acted host db events s i inv writes result ∧ Sealed host s inv result call
  | .step inv (.claimed writes result call) => Acted host db events s i inv writes result ∧ Sealed host s inv result call
  | .step inv (.returned value) =>
    ∃ row, s.db.outputs.get? inv.key = some row ∧ row.function_name = inv.op.funcName ∧ reviveResultOrError row = value
  | .applying before _ writes => ScheduleTable.applySchedules s.db.schedules before = .ok writes
  | _ => True

theorem mem_holds (session : Session) {w : Write} (member : w ∈ session.writes) : ∀ r ∈ w.resources,r ∈ session.holds :=
  fun _ listed => List.mem_append_right _ (List.mem_flatMap.mpr ⟨w,member,listed⟩)

section
variable {db : Database} {events more : List Event} {s s' : System} {i : Nat}

theorem Acted.frame {inv : Invocation} (session : Session) {result : Result} (acted : Acted host db events s i inv session.writes result)
    (agrees : Agrees session.holds s.db.schedules s'.db.schedules) : Acted host db (events ++ more) s' i inv session.writes result where
  current changes := callback_agrees (acted.current changes) changes (fun _ member => mem_holds session member) agrees
  looked := passed_append acted.looked more

/-- What holds of a transaction survives what others commit to rows that it does not hold. -/
theorem Valid.frame {session : Session} (valid : Valid host db events s i session)
    (agrees : Agrees session.holds s.db.schedules s'.db.schedules)
    (kept : ∀ key row, s.db.outputs.get? key = some row → s'.db.outputs.get? key = some row)
    (free : ∀ key, .checkpoint key ∈ session.holds → s'.db.outputs.get? key = s.db.outputs.get? key) :
    Valid host db (events ++ more) s' i session := by
  cases session with
  | ended => trivial
  | applying before todo writes =>
    have within : ∀ w ∈ writes,∀ r ∈ w.resources,r ∈ (Session.applying before todo writes).holds :=
      fun w member => mem_holds (.applying before todo writes) member
    exact applySchedules_agrees valid within agrees
  | step inv phase =>
    cases phase with
    | acted startTime writes result => exact Acted.frame (.step inv (.acted startTime writes result)) valid agrees
    | recorded writes result call =>
      have fresh := (free inv.key List.mem_cons_self).trans valid.2.fresh
      exact ⟨Acted.frame (.step inv (.recorded writes result call)) valid.1 agrees,fresh,valid.2.call⟩
    | claimed writes result call =>
      have fresh := (free inv.key List.mem_cons_self).trans valid.2.fresh
      exact ⟨Acted.frame (.step inv (.claimed writes result call)) valid.1 agrees,fresh,valid.2.call⟩
    | returned value =>
      obtain ⟨row,found,named,revived⟩ := valid
      exact ⟨row,kept inv.key row found,named,revived⟩
    | called | uncancelled | missed _ | threw _ => trivial

end

/-! ### The history -/

/-- Whatever has changed the table was done to it as its turn came. -/
def Serial (host : Host Result) : Schedules → List Entry → Schedules → Prop
  | t,[],t' => t' = t
  | t,e :: rest,t' => (e.writes ≠ [] → e.work.run host t = .ok (e.writes,e.result)) ∧ Serial host (applyAll t e.writes) rest t'

theorem serial_concat {t u : Schedules} {log : List Entry} {e : Entry} (serial : Serial host t log u)
    (runs : e.writes ≠ [] → e.work.run host u = .ok (e.writes,e.result)) : Serial host t (log ++ [e]) (applyAll u e.writes) := by
  induction log generalizing t with
  | nil =>
    cases serial
    exact ⟨runs,rfl⟩
  | cons first rest ih => exact ⟨serial.1,ih serial.2⟩

def keysOf (log : List Entry) : List (String × Nat) := log.filterMap Entry.key

theorem keysOf_concat (log : List Entry) (e : Entry) : keysOf (log ++ [e]) = keysOf log ++ e.key.toList := by
  simp only [keysOf,List.filterMap_append,List.filterMap_cons,List.filterMap_nil]
  cases e.key <;> rfl

/-- The checkpoint of a step that has made an entry, and the state in which it looked at the table. -/
def Explained (host : Host Result) (db : Database) (events : List Event) (s : System) (e : Entry) : Prop :=
  ∀ key, e.key = some key → ∃ i inv row, inv.key = key ∧ e.work = .operation inv.op ∧
    Passed (step host) (start db) (Looked host i inv e.writes e.result) events ∧
    s.db.outputs.get? key = some row ∧ row.function_name = inv.op.funcName ∧
    reviveResultOrError row = .value (some (host.stringify e.result)) none

/-- A checkpoint of an operation on schedules that was not there at the beginning. -/
def Recorded (db : Database) (s : System) (key : String × Nat) : Prop :=
  db.outputs.get? key = none ∧ ∃ row, s.db.outputs.get? key = some row ∧ row.function_name ∈ funcNames

structure Kept (host : Host Result) (db : Database) (events : List Event) (s : System) : Prop where
  serial : Serial host db.schedules s.log s.db.schedules
  apart : ∀ (i j : Nat) a b, i ≠ j → s.sessions[i]? = some a → s.sessions[j]? = some b → ∀ r ∈ a.holds,r ∉ b.holds
  valid : ∀ (i : Nat) session, s.sessions[i]? = some session → Valid host db events s i session
  once : (keysOf s.log).Nodup
  recorded : ∀ key, key ∈ keysOf s.log ↔ Recorded db s key
  explained : ∀ e ∈ s.log,Explained host db events s e
  kept : ∀ key row, db.outputs.get? key = some row → s.db.outputs.get? key = some row

theorem kept_start (db : Database) : Kept host db [] (start db) where
  serial := rfl
  apart := by intro i j a b _ found; simp [start] at found
  valid := by intro i session found; simp [start] at found
  once := List.nodup_nil
  recorded := by
    intro key
    refine ⟨nofun,?_⟩
    rintro ⟨absent,row,found,_⟩
    cases absent.symm.trans found
  explained := by intro e member; cases member
  kept _ _ found := found

section
variable {db : Database} {events : List Event} {s : System}

theorem Explained.mono {s' : System} {e : Entry} (explained : Explained host db events s e)
    (kept : ∀ key row, s.db.outputs.get? key = some row → s'.db.outputs.get? key = some row) (more : List Event) :
    Explained host db (events ++ more) s' e := by
  intro key keyed
  obtain ⟨i,inv,row,same,work,looked,found,named,revived⟩ := explained key keyed
  exact ⟨i,inv,row,same,work,passed_append looked more,kept key row found,named,revived⟩

theorem insertCheckpoint_kept {outputs : OperationOutputs} (key : String × Nat) (call : CheckpointCall) (key' : String × Nat)
    (row : OperationOutput) (found : outputs.get? key' = some row) : (insertCheckpoint outputs key call).get? key' = some row := by
  rw [get?_insertCheckpoint,found]
  split
  · rename_i same
    subst same
    rw [found]
    rfl
  · rfl

/-- Nothing is committed: transactions come in, or one of them moves. -/
theorem Kept.moved (kept : Kept host db events s) {sessions : List Session} (more : List Event)
    (apart : ∀ (i j : Nat) a b, i ≠ j → sessions[i]? = some a → sessions[j]? = some b → ∀ r ∈ a.holds,r ∉ b.holds)
    (valid : ∀ (i : Nat) session, sessions[i]? = some session →
      s.sessions[i]? = some session ∨ Valid host db (events ++ more) { s with sessions := sessions } i session) :
    Kept host db (events ++ more) { s with sessions := sessions } where
  serial := kept.serial
  apart := apart
  valid := by
    intro i session listed
    rcases valid i session listed with old | new
    · exact (kept.valid i session old).frame (Agrees.refl _ _) (fun _ _ found => found) fun _ _ => rfl
    · exact new
  once := kept.once
  recorded := kept.recorded
  explained e member := (kept.explained e member).mono (fun _ _ found => found) more
  kept := kept.kept

theorem Kept.append (kept : Kept host db events s) (more : List Event) {session : Session} (nothing : session.holds = [])
    (valid : ∀ i, Valid host db (events ++ more) { s with sessions := s.sessions ++ [session] } i session) :
    Kept host db (events ++ more) { s with sessions := s.sessions ++ [session] } := by
  refine kept.moved more ?_ ?_
  · intro i j a b differ listed listed' r held
    rcases party_append listed with old | ⟨_,rfl⟩
    · rcases party_append listed' with old' | ⟨_,rfl⟩
      · exact kept.apart i j a b differ old old' r held
      · simp [nothing]
    · simp [nothing] at held
  · intro i party listed
    rcases party_append listed with old | ⟨_,rfl⟩
    · exact .inl old
    · exact .inr (valid i)

theorem Kept.set (kept : Kept host db events s) (more : List Event) {i : Nat} {old new : Session} (found : s.sessions[i]? = some old)
    (free : Free (s.sessions.eraseIdx i) new.holds) (valid : Valid host db (events ++ more) (s.set i new) i new) :
    Kept host db (events ++ more) (s.set i new) := by
  have others : ∀ (j : Nat) party, j ≠ i → s.sessions[j]? = some party → ∀ r ∈ new.holds,r ∉ party.holds := by
    intro j party differ listed r held
    exact free party (List.mem_eraseIdx_iff_getElem?.mpr ⟨j,differ,listed⟩) r held
  refine kept.moved more ?_ ?_
  · refine parties_apart (R := fun a b => ∀ r ∈ a.holds,r ∉ b.holds) ?_ found kept.apart others
    exact fun a b apart r held held' => apart r held' held
  · intro j party listed
    rcases party_set_cases found listed with ⟨rfl,rfl⟩ | ⟨_,there⟩
    · exact .inr valid
    · exact .inl there

/-- Work outside of steps is committed; `.ended` is the transaction that has done it. -/
theorem Kept.wrote (kept : Kept host db events s) (more : List Event) {work : Work} {writes : List Write} {result : Result}
    (runs : work.run host s.db.schedules = .ok (writes,result)) {sessions : List Session}
    (old : ∀ (j : Nat) session, sessions[j]? = some session →
      session = .ended ∨ (s.sessions[j]? = some session ∧ ∀ r ∈ writes.flatMap Write.resources,r ∉ session.holds)) :
    Kept host db (events ++ more)
      { db := { s.db with schedules := applyAll s.db.schedules writes }
        sessions := sessions
        log := s.log ++ [⟨none,work,writes,result⟩] } where
  serial := serial_concat (e := ⟨none,work,writes,result⟩) kept.serial fun _ => runs
  apart := by
    intro i j a b differ listed listed' r held
    rcases old i a listed with rfl | ⟨before,_⟩
    · exact nomatch held
    · rcases old j b listed' with rfl | ⟨before',_⟩
      · exact nofun
      · exact kept.apart i j a b differ before before' r held
  valid := by
    intro j session listed
    rcases old j session listed with rfl | ⟨before,apart⟩
    · trivial
    · refine (kept.valid j session before).frame ?_ (fun _ _ found => found) fun _ _ => rfl
      exact agrees_applyAll (fun w member r listed => apart r (List.mem_flatMap.mpr ⟨w,member,listed⟩)) _
  once := by
    rw [keysOf_concat]
    exact (List.append_nil _).symm ▸ kept.once
  recorded := by
    intro key
    rw [keysOf_concat]
    exact (List.append_nil (keysOf s.log)).symm ▸ kept.recorded key
  explained := by
    intro e member
    rcases List.mem_append.mp member with before | last
    · exact (kept.explained e before).mono (fun _ _ found => found) more
    · cases List.mem_singleton.mp last
      nofun
  kept := kept.kept

/-- A step is committed. -/
theorem Kept.committed (kept : Kept host db events s) (more : List Event) {i : Nat} {inv : Invocation} {writes : List Write}
    {result : Result} {call : CheckpointCall} {phase : Phase} (found : s.sessions[i]? = some (.step inv (.claimed writes result call)))
    (ends : phase = .returned (.value (some (host.stringify result)) none) ∨ phase = .threw connectionLost) (statuses : Statuses) :
    Kept host db (events ++ more)
      { db := { s.db with
          schedules := applyAll s.db.schedules writes
          outputs := insertCheckpoint s.db.outputs inv.key call
          statuses := statuses }
        sessions := s.sessions.set i (.step inv phase)
        log := s.log ++ [⟨some inv.key,.operation inv.op,writes,result⟩] } := by
  obtain ⟨acted,closed⟩ := kept.valid i _ found
  obtain ⟨startTime,endTime,rfl⟩ := closed.call
  have nothing : (Session.step inv phase).holds = [] := by rcases ends with rfl | rfl <;> rfl
  have stored : (insertCheckpoint s.db.outputs inv.key (inv.checkpoint host startTime endTime result)).get? inv.key =
      some (checkpointRow (inv.checkpoint host startTime endTime result)) := by
    rw [get?_insertCheckpoint,if_pos rfl,closed.fresh]
    rfl
  have lasts : ∀ key row, s.db.outputs.get? key = some row →
      (insertCheckpoint s.db.outputs inv.key (inv.checkpoint host startTime endTime result)).get? key = some row :=
    insertCheckpoint_kept inv.key _
  have new : inv.key ∉ keysOf s.log := by
    intro member
    obtain ⟨_,row,there,_⟩ := (kept.recorded inv.key).mp member
    cases closed.fresh.symm.trans there
  constructor
  · exact serial_concat (e := ⟨some inv.key,.operation inv.op,writes,result⟩) kept.serial acted.current
  · refine parties_apart (R := fun a b => ∀ r ∈ a.holds,r ∉ b.holds) ?_ found kept.apart ?_
    · exact fun a b apart r held held' => apart r held' held
    · intro j party _ _ r held
      simp [nothing] at held
  · intro j session listed
    rcases party_set_cases found listed with ⟨rfl,rfl⟩ | ⟨differ,there⟩
    · rcases ends with rfl | rfl
      · exact ⟨_,stored,rfl,rfl⟩
      · trivial
    · have apart := kept.apart i j _ _ (Ne.symm differ) found there
      refine (kept.valid j session there).frame ?_ lasts ?_
      · exact agrees_applyAll (fun w member r listed => apart r (mem_holds (.step inv (.claimed writes result _)) member r listed)) _
      · intro key held
        have other : key ≠ inv.key := by
          rintro rfl
          exact apart _ List.mem_cons_self held
        simp only [get?_insertCheckpoint,if_neg other]
  · rw [keysOf_concat]
    refine List.nodup_append.mpr ⟨kept.once,List.nodup_singleton _,?_⟩
    rintro a member b last rfl
    cases List.mem_singleton.mp last
    exact new member
  · intro key
    rw [keysOf_concat]
    by_cases mine : key = inv.key
    · subst mine
      refine ⟨fun _ => ⟨?_,_,stored,funcName_listed inv.op⟩,fun _ => List.mem_append_right _ List.mem_cons_self⟩
      cases before : db.outputs.get? inv.key with
      | none => rfl
      | some row => cases closed.fresh.symm.trans (kept.kept inv.key row before)
    · have same : key ∈ keysOf s.log ++ [inv.key] ↔ key ∈ keysOf s.log := by simp [mine]
      refine same.trans ((kept.recorded key).trans ?_)
      simp only [Recorded,get?_insertCheckpoint,if_neg mine]
  · intro e member
    rcases List.mem_append.mp member with before | last
    · exact (kept.explained e before).mono lasts more
    · cases List.mem_singleton.mp last
      intro key keyed
      cases keyed
      exact ⟨i,inv,_,rfl,rfl,passed_append acted.looked more,stored,rfl,rfl⟩
  · exact fun key row before => lasts key row (kept.kept key row before)

/-- Others write checkpoints and `workflow_status`. -/
theorem Kept.others (kept : Kept host db events s) (more : List Event) {outputs : OperationOutputs} {statuses : Statuses}
    (lasts : ∀ key row, s.db.outputs.get? key = some row → outputs.get? key = some row)
    (free : ∀ (i : Nat) session, s.sessions[i]? = some session → ∀ key, .checkpoint key ∈ session.holds →
      outputs.get? key = s.db.outputs.get? key)
    (other : ∀ key row, outputs.get? key = some row → row.function_name ∈ funcNames → s.db.outputs.get? key = some row) :
    Kept host db (events ++ more) { s with db := { s.db with outputs := outputs,statuses := statuses } } where
  serial := kept.serial
  apart := kept.apart
  valid i session listed := (kept.valid i session listed).frame (Agrees.refl _ _) lasts (free i session listed)
  once := kept.once
  recorded := by
    intro key
    refine (kept.recorded key).trans (and_congr_right fun _ => ?_)
    constructor
    · rintro ⟨row,found,named⟩
      exact ⟨row,lasts key row found,named⟩
    · rintro ⟨row,found,named⟩
      exact ⟨row,other key row found named,named⟩
  explained e member := (kept.explained e member).mono lasts more
  kept key row before := lasts key row (kept.kept key row before)

end

/-- The condition on the steps: an invocation that runs its INSERT finds no checkpoint with its end time. -/
def distinct (s : System) : Event → Bool
  | .next i now =>
    match s.sessions[i]? with
    | some (.step inv (.acted _ _ _)) => (s.db.outputs.get? inv.key).all fun row => row.completed_at_epoch_ms.getD 0 ≠ now
    | _ => true
  | _ => true

section
variable {db : Database} {events : List Event} {s s' : System}

/-- A statement takes what holds of a transaction to what holds behind it. -/
theorem next_valid {i : Nat} {now : Int} {old new : Session} {waits : List Resource} (reached : Runs (step host) (start db) events s)
    (found : s.sessions[i]? = some old) (valid : Valid host db events s i old) (differs : distinct s (.next i now) = true)
    (runs : old.next host s.db now = some (new,waits)) (more : List Event) : Valid host db (events ++ more) (s.set i new) i new := by
  have same : Valid host db (events ++ more) (s.set i new) i old :=
    valid.frame (Agrees.refl _ _) (fun _ _ found => found) fun _ _ => rfl
  cases old with
  | ended => cases runs
  | applying before todo writes =>
    cases todo with
    | nil => cases runs
    | cons sched todo =>
      simp only [Session.next] at runs
      split at runs
      · rename_i w upserts
        cases runs
        exact applySchedules_concat valid upserts
      · cases runs
        trivial
  | step inv phase =>
    cases phase with
    | called =>
      simp only [Session.next] at runs
      split at runs
      · cases runs
        trivial
      · cases runs
        trivial
    | uncancelled =>
      simp only [Session.next] at runs
      split at runs
      · rename_i row stored
        split at runs
        · rename_i named
          cases runs
          exact ⟨row,stored,named,rfl⟩
        · cases runs
          trivial
      · cases runs
        trivial
    | missed startTime =>
      simp only [Session.next] at runs
      split at runs
      · rename_i writes result acts
        cases runs
        exact ⟨fun _ => acts,passed_append (passed_here reached ⟨startTime,found,acts⟩) more⟩
      · cases runs
        trivial
    | acted startTime writes result =>
      simp only [Session.next] at runs
      split at runs
      · rename_i own
        cases runs
        refine ⟨same,?_,startTime,now,rfl⟩
        -- A checkpoint that was there has another end time.
        simp only [distinct,found] at differs
        simp only [recordedEnd,get?_insertCheckpoint,if_true,Option.bind_some] at own
        show s.db.outputs.get? inv.key = none
        cases there : s.db.outputs.get? inv.key with
        | none => rfl
        | some row =>
          simp only [there,Option.getD_some] at own
          simp only [there,Option.all_some,decide_eq_true_eq] at differs
          exact absurd own differs
      · cases runs
        trivial
    | recorded writes result call =>
      cases runs
      exact same
    | claimed writes result call | returned value | threw e => cases runs

theorem Kept.step {e : Event} (kept : Kept host db events s) (reached : Runs (step host) (start db) events s)
    (differs : distinct s e = true) (taken : TransactionalSteps.step host s e = some s') : Kept host db (events ++ [e]) s' := by
  have free_nothing : ∀ others, Free others [] := fun _ _ _ _ listed => nomatch listed
  cases step_moves taken with
  | invoke inv => exact kept.append _ rfl fun _ => trivial
  | applySchedules schedules => exact kept.append _ rfl fun _ => rfl
  | next i now old new waits found runs free =>
    exact kept.set _ found free.right (next_valid reached found (kept.valid i old found) differs runs _)
  | commitStep i acknowledged inv writes result call phase found ends => exact kept.committed _ found ends _
  | commitApply i acknowledged before writes found =>
    have applies : ScheduleTable.applySchedules s.db.schedules before = .ok writes := kept.valid i _ found
    refine kept.wrote _ (by simp only [Work.run,applies,Except.map]) ?_
    intro j session listed
    rcases party_set_cases found listed with ⟨_,rfl⟩ | ⟨differ,there⟩
    · exact .inl rfl
    · exact .inr ⟨there,kept.apart i j _ _ (Ne.symm differ) found there⟩
  | dropStep i inv phase found => exact kept.set _ found (free_nothing _) trivial
  | dropApply i before todo writes found => exact kept.set _ found (free_nothing _) trivial
  | direct op writes result runs free =>
    have done : (Work.operation op).run host s.db.schedules = .ok (writes,result) := runs
    exact kept.wrote _ done fun j session listed => .inr ⟨listed,free session (List.mem_of_getElem? listed)⟩
  | refused op => exact kept.moved _ kept.apart fun i session listed => .inl listed
  | updateLastFiredAt name lastFiredAt free =>
    exact kept.wrote _ rfl fun j session listed => .inr ⟨listed,free session (List.mem_of_getElem? listed)⟩
  | checkpoint key call other free =>
    refine kept.others _ (insertCheckpoint_kept key call) ?_ ?_
    · intro i session listed key' held
      have differ : key' ≠ key := by
        rintro rfl
        exact free session (List.mem_of_getElem? listed) _ List.mem_cons_self held
      rw [get?_insertCheckpoint,if_neg differ]
    · intro key' row stored named
      rw [get?_insertCheckpoint] at stored
      split at stored
      · rename_i here
        subst here
        cases there : s.db.outputs.get? key' with
        | some old => rw [← stored,there]; rfl
        | none =>
          rw [there] at stored
          cases stored
          exact absurd named other
      · exact stored
  | statuses t => exact kept.others _ (fun _ _ found => found) (fun _ _ _ _ _ => rfl) fun _ _ found _ => found

theorem kept_runs (run : Runs (TransactionalSteps.step host) (start db) events s)
    (along : Along (TransactionalSteps.step host) (fun s e => distinct s e = true) (start db) events) : Kept host db events s := by
  refine runs_history (I := fun events s =>
    Along (TransactionalSteps.step host) (fun s e => distinct s e = true) (start db) events → Kept host db events s) ?_ ?_ run along
  · exact fun _ => kept_start db
  · intro first u e u' reached held taken onward
    obtain ⟨before,last⟩ := along_append onward
    exact (held before).step reached (last u reached).1 taken

/-- The table is that of a serial history, in the order of the commits, of whatever has changed it. A step of a workflow is in it at most
    once, and it is in it exactly if its checkpoint has been recorded, with what the operation returned in a state in which an invocation
    has looked at the table; and whatever an invocation returns is what is recorded. -/
theorem steps_serial (run : Runs (TransactionalSteps.step host) (start db) events s)
    (along : Along (TransactionalSteps.step host) (fun s e => distinct s e = true) (start db) events) :
    Serial host db.schedules s.log s.db.schedules ∧ (keysOf s.log).Nodup ∧ (∀ key, key ∈ keysOf s.log ↔ Recorded db s key) ∧
      (∀ e ∈ s.log, Explained host db events s e) ∧
      ∀ (i : Nat) inv value, s.sessions[i]? = some (.step inv (.returned value)) →
        ∃ row, s.db.outputs.get? inv.key = some row ∧ row.function_name = inv.op.funcName ∧ reviveResultOrError row = value := by
  have kept := kept_runs run along
  refine ⟨kept.serial,kept.once,kept.recorded,kept.explained,?_⟩
  intro i inv value listed
  exact kept.valid i _ listed

end

/-- A host whose texts do not matter. -/
def plainHost : Host Result where
  nameAtMost a b := decide (a ≤ b)
  stringify _ := "null"

def daily : WorkflowScheduleInternal where
  scheduleId := "id"
  scheduleName := "daily"
  workflowName := "report"
  workflowClassName := ""
  schedule := "0 0 * * *"
  status := .ACTIVE
  context := "null"
  lastFiredAt := none
  automaticBackfill := false
  cronTimezone := none
  queueName := none

/-- One step of a workflow, executed by two processes. -/
def creates (executorID : String) : Invocation := ⟨"w",0,executorID,.createSchedule daily⟩

/-- Both look before the first one commits; the second one is refused by the index on the name, is recovered, and reads the checkpoint. Then
    the schedule is paused. -/
def createdOnce : List Event :=
  [.invoke (creates "a"),.invoke (creates "b"),.next 0 1,.next 1 1,.next 0 2,.next 1 2,.next 0 3,.next 0 4,.next 0 5,.commit 0 true,
    .next 1 6,.invoke (creates "b"),.next 2 7,.next 2 8,.direct (.pauseSchedule "daily")]

theorem steps_serial_created : ∃ s, Runs (TransactionalSteps.step plainHost) (start {}) createdOnce s ∧ keysOf s.log = [("w",0)] ∧
    s.sessions[1]? = some (.step (creates "b") (.threw (.Error "Schedule 'daily' already exists"))) ∧
    s.sessions[2]? = some (.step (creates "b") (.returned (.value (some "null") none))) ∧
    Serial plainHost Table.empty s.log s.db.schedules ∧ Recorded {} s ("w",0) := by
  obtain ⟨s,run,along,keys,second,third⟩ : ∃ s, Runs (TransactionalSteps.step plainHost) (start {}) createdOnce s ∧
      Along (TransactionalSteps.step plainHost) (fun s e => distinct s e = true) (start {}) createdOnce ∧ keysOf s.log = [("w",0)] ∧
      s.sessions[1]? = some (.step (creates "b") (.threw (.Error "Schedule 'daily' already exists"))) ∧
      s.sessions[2]? = some (.step (creates "b") (.returned (.value (some "null") none))) :=
    ⟨_,rfl,of_decide_eq_true rfl,rfl,rfl,rfl⟩
  obtain ⟨serial,_,recorded,_,_⟩ := steps_serial run along
  exact ⟨s,run,keys,second,third,serial,(recorded ("w",0)).mp (keys ▸ List.mem_singleton_self _)⟩

def pauses (executorID : String) : Invocation := ⟨"w",0,executorID,.pauseSchedule "daily"⟩

/-- Both look before the first one commits, and both end at 9; between the two the schedule is resumed. -/
def equalEnds : List Event :=
  [.direct (.createSchedule daily),.invoke (pauses "a"),.invoke (pauses "b"),.next 0 1,.next 1 1,.next 0 2,.next 1 2,.next 0 3,.next 0 9,
    .next 0 9,.commit 0 true,.direct (.resumeSchedule "daily"),.next 1 9,.next 1 9,.next 1 9,.commit 1 true]

/-- With equal end times one step pauses the schedule twice. -/
theorem equal_ends_repeat : ∃ s, Runs (TransactionalSteps.step plainHost) (start {}) equalEnds s ∧
    keysOf s.log = [("w",0),("w",0)] ∧ (s.db.schedules.get? "daily").map WorkflowSchedule.status = some .PAUSED :=
  ⟨_,rfl,rfl,rfl⟩

end Dbos.TransactionalSteps
