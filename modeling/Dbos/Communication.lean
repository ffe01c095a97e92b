import Dbos.Checkpoints

/-!
The operations by which a workflow communicates: `send`, `setEvent`,
`writeStreamFromWorkflow`, `closeStream` and `recv` of `src/system_database.ts`. An
invocation is followed statement by statement, since a connection can be lost and a process
can die between any two of them, and other transactions commit in between. All of them but
`recv` run in one transaction (`#runAndRecordResult`); `recv` looks for its checkpoint and
records its deadline (`#durableSleep`) outside of the transaction that consumes the message.
What a transaction has written is kept with the invocation until its COMMIT.
-/
namespace Dbos.Communication
open Dbos.Pg Dbos.Schema Dbos.Status Dbos.Checkpoints

def DBOS_FUNCNAME_SEND : String := "DBOS.send"
def DBOS_FUNCNAME_RECV : String := "DBOS.recv"
def DBOS_FUNCNAME_SETEVENT : String := "DBOS.setEvent"
def DBOS_FUNCNAME_SLEEP : String := "DBOS.sleep"
def DBOS_FUNCNAME_WRITESTREAM : String := "DBOS.writeStream"
def DBOS_FUNCNAME_CLOSESTREAM : String := "DBOS.closeStream"
def DBOS_STREAM_CLOSED_SENTINEL : String := "__DBOS_STREAM_CLOSED__"
def nullTopic : String := "__null__topic__"

/-- `DBOSPortableJSON.name()`. -/
def portableJSON : String := "portable_json"

/-- The tables that the operations read and write. -/
structure Database where
  statuses : Statuses := Table.empty
  outputs : OperationOutputs := Table.empty
  notifications : Notifications := Table.empty
  workflow_events : WorkflowEvents := Table.empty
  workflow_events_history : WorkflowEventsHistory := Table.empty
  streams : Streams := Table.empty

/-! ### Statements that write -/

inductive Statement
  | insertNotification (messageUUID : String) (row : Notification)
  | consume (messageUUID : String)
  | upsertEvent (workflowID key : String) (event : WorkflowEvent)
  | upsertHistory (workflowID : String) (functionID : Nat) (key : String) (event : WorkflowEvent)
  | insertStream (workflowID key : String) (offset : Nat) (entry : StreamEntry)
  | insertCheckpoint (key : String × Nat) (call : CheckpointCall)
  | claimExecutor (executorID workflowID : String)
  deriving DecidableEq

def consumeHits (messageUUID : String) (k : String) (row : Notification) : Bool := k = messageUUID ∧ row.consumed = false

def Statement.apply (db : Database) : Statement → Database
  | .insertNotification messageUUID row => { db with notifications := db.notifications.insert messageUUID row }
  | .consume messageUUID =>
    { db with notifications := db.notifications.update (consumeHits messageUUID) fun _ row => { row with consumed := true } }
  | .upsertEvent workflowID key event =>
    { db with workflow_events := db.workflow_events.upsert (workflowID,key) event fun _ => event }
  | .upsertHistory workflowID functionID key event =>
    { db with
      workflow_events_history := db.workflow_events_history.upsert (workflowID,functionID,key) event fun _ => event }
  | .insertStream workflowID key offset entry => { db with streams := db.streams.insert (workflowID,key,offset) entry }
  | .insertCheckpoint key call => { db with outputs := Checkpoints.insertCheckpoint db.outputs key call }
  | .claimExecutor executorID workflowID =>
    { db with statuses := Status.claimExecutor db.statuses executorID workflowID }

def applyAll (db : Database) (statements : List Statement) : Database := statements.foldl Statement.apply db

/-- The rows that a statement locks. The executor marker is left out, so that nobody waits for it. -/
inductive Row
  | notification (messageUUID : String)
  | event (workflowID key : String)
  | history (workflowID : String) (functionID : Nat) (key : String)
  | stream (workflowID key : String) (offset : Nat)
  | checkpoint (key : String × Nat)
  deriving DecidableEq

def rowOf : Statement → Option Row
  | .insertNotification messageUUID _ => some (.notification messageUUID)
  | .consume messageUUID => some (.notification messageUUID)
  | .upsertEvent workflowID key _ => some (.event workflowID key)
  | .upsertHistory workflowID functionID key _ => some (.history workflowID functionID key)
  | .insertStream workflowID key offset _ => some (.stream workflowID key offset)
  | .insertCheckpoint key _ => some (.checkpoint key)
  | .claimExecutor _ _ => none

def rowsOf (statements : List Statement) : List Row := statements.filterMap rowOf

theorem apply_outputs_kept (db : Database) (statement : Statement) {key : String × Nat} {row : OperationOutput}
    (found : db.outputs.get? key = some row) : (statement.apply db).outputs.get? key = some row := by
  cases statement with
  | insertCheckpoint key' call =>
    simp only [Statement.apply,get?_insertCheckpoint]
    by_cases here : key = key'
    · rw [if_pos here,← here,found]
      rfl
    · rw [if_neg here]
      exact found
  | _ => exact found

theorem apply_consumed_kept (db : Database) (statement : Statement) {messageUUID : String} {note : Notification}
    (found : db.notifications.get? messageUUID = some note) (consumed : note.consumed = true) :
    (statement.apply db).notifications.get? messageUUID = some note := by
  cases statement with
  | insertNotification m new =>
    rcases db.notifications.insert_cases m new messageUUID with same | ⟨_,absent,_⟩
    · exact same.trans found
    · cases found.symm.trans absent
  | consume m =>
    simp [Statement.apply,found,consumeHits,consumed]
  | _ => exact found

/-- A statement changes only the notification that it names. -/
theorem apply_notification_frame (db : Database) (statement : Statement) {messageUUID : String}
    (elsewhere : rowOf statement ≠ some (.notification messageUUID)) :
    (statement.apply db).notifications.get? messageUUID = db.notifications.get? messageUUID := by
  cases statement with
  | insertNotification m new =>
    have other : messageUUID ≠ m := fun same => elsewhere (by rw [same]; rfl)
    simp [Statement.apply,other]
  | consume m =>
    have other : messageUUID ≠ m := fun same => elsewhere (by rw [same]; rfl)
    simp [Statement.apply,consumeHits,other]
  | _ => rfl

theorem apply_checkpoint_frame (db : Database) (statement : Statement) {key : String × Nat}
    (elsewhere : rowOf statement ≠ some (.checkpoint key)) :
    (statement.apply db).outputs.get? key = db.outputs.get? key := by
  cases statement with
  | insertCheckpoint key' call =>
    have other : key ≠ key' := fun same => elsewhere (by rw [same]; rfl)
    simp [Statement.apply,other]
  | _ => rfl

theorem rowOf_ne {statement : Statement} {statements : List Statement} {row : Row} (free : row ∉ rowsOf (statement :: statements)) :
    rowOf statement ≠ some row ∧ row ∉ rowsOf statements := by
  refine ⟨?_,?_⟩
  · intro same
    exact free (List.mem_filterMap.mpr ⟨statement,List.mem_cons_self,same⟩)
  · intro member
    obtain ⟨other,listed,same⟩ := List.mem_filterMap.mp member
    exact free (List.mem_filterMap.mpr ⟨other,List.mem_cons_of_mem _ listed,same⟩)

theorem applyAll_notification_frame (db : Database) (statements : List Statement) {messageUUID : String}
    (free : .notification messageUUID ∉ rowsOf statements) :
    (applyAll db statements).notifications.get? messageUUID = db.notifications.get? messageUUID := by
  induction statements generalizing db with
  | nil => rfl
  | cons statement rest ih =>
    obtain ⟨here,later⟩ := rowOf_ne free
    exact (ih (statement.apply db) later).trans (apply_notification_frame db statement here)

theorem applyAll_checkpoint_frame (db : Database) (statements : List Statement) {key : String × Nat}
    (free : .checkpoint key ∉ rowsOf statements) :
    (applyAll db statements).outputs.get? key = db.outputs.get? key := by
  induction statements generalizing db with
  | nil => rfl
  | cons statement rest ih =>
    obtain ⟨here,later⟩ := rowOf_ne free
    exact (ih (statement.apply db) later).trans (apply_checkpoint_frame db statement here)

theorem mem_rowsOf_append {row : Row} {first rest : List Statement} :
    row ∈ rowsOf (first ++ rest) ↔ row ∈ rowsOf first ∨ row ∈ rowsOf rest := by
  rw [rowsOf,List.filterMap_append,List.mem_append]
  rfl

/-! ### Operations -/

/-- `timeoutms` is `timeoutSeconds * 1000`. -/
inductive Operation
  | send (destinationID : String) (message : Option String) (topic serialization idempotencyKey : Option String)
  | setEvent (key : String) (message serialization : Option String)
  | writeStream (key serializedValue : String) (serialization : Option String)
  | closeStream (key : String)
  | recv (topic : Option String) (timeoutms : Int)
  deriving DecidableEq

def Operation.functionName : Operation → String
  | .send .. => DBOS_FUNCNAME_SEND
  | .setEvent .. => DBOS_FUNCNAME_SETEVENT
  | .writeStream .. => DBOS_FUNCNAME_WRITESTREAM
  | .closeStream .. => DBOS_FUNCNAME_CLOSESTREAM
  | .recv .. => DBOS_FUNCNAME_RECV

/-- What an invocation returns: the message of `recv`, nothing for the others. -/
structure Result where
  serializedValue : Option String := none
  serialization : Option String := none
  deriving DecidableEq

structure Invocation where
  executorID : String
  workflowID : String
  functionID : Nat
  timeoutFunctionID : Nat
  op : Operation
  deriving DecidableEq

/-- What a statement gets from outside: the clock, `randomUUID()`, and the row with which the
    subselect of `recv` answers. -/
structure Input where
  now : Int := 0
  randomUUID : String := ""
  chosen : Option String := none

/-- `idempotencyKey ? ... : randomUUID()`. -/
def messageUUIDOf (idempotencyKey : Option String) (destinationID randomUUID : String) : String :=
  match idempotencyKey with
  | some key => if key = "" then randomUUID else s!"{key}::{destinationID}"
  | none => randomUUID

/-- `#checkIfCanceled`. -/
def checkIfCanceled (db : Database) (workflowID : String) : Option DbosError :=
  if (db.statuses.get? workflowID).any fun row => row.status = .CANCELLED then
    some (.DBOSWorkflowCancelledError workflowID)
  else none

/-- One more than the largest offset of the stream, or 0. -/
def nextOffset (streams : Streams) (workflowID key : String) : Nat :=
  (streams.keys fun k _ => k.1 = workflowID ∧ k.2.1 = key).foldr (fun k next => max (k.2.2 + 1) next) 0

/-- The messages of the workflow on the topic that are still to be consumed. -/
def unconsumedHits (workflowID topic : String) (_ : String) (row : Notification) : Bool :=
  row.destination_uuid = workflowID ∧ row.topic = topic ∧ row.consumed = false

/-- The subselect of `recv`: `ORDER BY created_at_epoch_ms ASC LIMIT 1`. -/
def isOldest (notifications : Notifications) (workflowID topic : String) (chosen : Option String) : Bool :=
  let waiting := notifications.select (unconsumedHits workflowID topic)
  match chosen with
  | none => waiting.isEmpty
  | some messageUUID => waiting.any fun e => e.1 = messageUUID ∧
      ∀ e' ∈ waiting,e.2.created_at_epoch_ms ≤ e'.2.created_at_epoch_ms

/-- Where an invocation stands. `done` has been written in its transaction, and `todo` is what
    is left of its own statements before the checkpoint. -/
inductive Phase
  | called
  | uncancelled (startTime : Int)
  | missed (startTime : Int)
  | sleeping (startTime endTimeMs : Int)
  | sleepUncancelled (startTime endTimeMs : Int)
  | sleepMissed (startTime endTimeMs : Int)
  | sleepRecorded (startTime endTimeMs : Int)
  | polling (startTime finishTime : Int)
  | pollUncancelled (startTime finishTime : Int)
  | arrived (startTime : Int)
  | cleared (startTime : Int)
  | locking (startTime : Int) (messageUUID : String)
  | acting (startTime : Int) (todo done : List Statement) (value : Result)
  | recorded (done : List Statement) (value : Result)
  | claimed (done : List Statement) (value : Result)
  | replaying (value : Result)
  | returned (value : Result)
  | threw (e : DbosError)
  deriving DecidableEq

/-- What the transaction of the invocation has written and not committed. -/
def Phase.writes : Phase → List Statement
  | .acting _ _ done _ => done
  | .recorded done _ => done
  | .claimed done _ => done
  | _ => []

def Invocation.key (inv : Invocation) : String × Nat := (inv.workflowID,inv.functionID)

/-- The checkpoint of the operation. -/
def Invocation.checkpoint (inv : Invocation) (startTime endTime : Int) (value : Result) : CheckpointCall where
  functionName := inv.op.functionName
  startTimeEpochMs := startTime
  endTimeEpochMs := endTime
  output := value.serializedValue
  serialization := value.serialization

/-- The checkpoint of the deadline. -/
def sleepCheckpoint (now endTimeMs : Int) : CheckpointCall where
  functionName := DBOS_FUNCNAME_SLEEP
  startTimeEpochMs := now
  endTimeEpochMs := now
  output := some (toString endTimeMs)
  serialization := some portableJSON

/-- A stream entry; `SELECT MAX` comes first and the INSERT is left to do. -/
def streamEntry (db : Database) (inv : Invocation) (startTime : Int) (key value : String) (serialization : Option String) :
    Phase :=
  .acting startTime [.insertStream inv.workflowID key (nextOffset db.streams inv.workflowID key)
    ⟨value,inv.functionID,serialization⟩] [] {}

/-- INSERT INTO notifications ... ON CONFLICT (message_uuid) DO NOTHING, as `send` and `sendDirect`
    run it: what it writes, or what they throw. -/
def insertMessage (db : Database) (destinationID : String) (message topic serialization idempotencyKey : Option String)
    (input : Input) : Except DbosError (List Statement) :=
  match message with
  | none => .error (.DatabaseError "23502")
  | some message =>
    let messageUUID := messageUUIDOf idempotencyKey destinationID input.randomUUID
    if (db.notifications.get? messageUUID).isSome then .ok []
    else if (db.statuses.get? destinationID).isNone then
      .error (.DBOSNonExistentWorkflowError s!"Sent to non-existent destination workflow UUID: {destinationID}")
    else .ok [.insertNotification messageUUID
      ⟨destinationID,topic.getD nullTopic,message,input.now,false,serialization⟩]

/-- The first statement of the operation after no checkpoint was found. -/
def firstStatement (db : Database) (inv : Invocation) (input : Input) (startTime : Int) : Phase :=
  match inv.op with
  | .send destinationID message topic serialization idempotencyKey =>
    match insertMessage db destinationID message topic serialization idempotencyKey input with
    | .ok statements => .acting startTime [] statements {}
    | .error e => .threw e
  | .setEvent key message serialization =>
    match message with
    | none => .threw (.DatabaseError "23502")
    | some message => .acting startTime [.upsertHistory inv.workflowID inv.functionID key ⟨message,serialization⟩]
        [.upsertEvent inv.workflowID key ⟨message,serialization⟩] {}
  | .writeStream key serializedValue serialization => streamEntry db inv startTime key serializedValue serialization
  | .closeStream key => streamEntry db inv startTime key DBOS_STREAM_CLOSED_SENTINEL (some portableJSON)
  | .recv _ timeoutms =>
    if timeoutms = 0 then .polling startTime (input.now + timeoutms) else .sleeping startTime (input.now + timeoutms)

def Operation.topic : Operation → String
  | .recv topic _ => topic.getD nullTopic
  | _ => nullTopic

/-- The next statement of the invocation, with the phase after it and what it commits by
    itself. `none`: there is no such statement, or `input` is no answer to it. -/
def advance (db : Database) (inv : Invocation) (input : Input) : Phase → Option (Phase × List Statement)
  | .called =>
    match checkIfCanceled db inv.workflowID with
    | some e => some (.threw e,[])
    | none => some (.uncancelled input.now,[])
  | .uncancelled startTime =>
    match db.outputs.get? inv.key with
    | some row =>
      if row.function_name = inv.op.functionName then some (.replaying ⟨row.output,row.serialization⟩,[])
      else some (.threw (.DBOSUnexpectedStepError inv.workflowID inv.functionID inv.op.functionName row.function_name),[])
    | none => some (.missed startTime,[])
  | .missed startTime => some (firstStatement db inv input startTime,[])
  | .sleeping startTime endTimeMs =>
    match checkIfCanceled db inv.workflowID with
    | some e => some (.threw e,[])
    | none => some (.sleepUncancelled startTime endTimeMs,[])
  | .sleepUncancelled startTime endTimeMs =>
    match db.outputs.get? (inv.workflowID,inv.timeoutFunctionID) with
    | some row =>
      if row.function_name = DBOS_FUNCNAME_SLEEP then
        some (.polling startTime ((row.output.bind String.toInt?).getD 0),[])
      else some (.threw (.DBOSUnexpectedStepError inv.workflowID inv.timeoutFunctionID DBOS_FUNCNAME_SLEEP
        row.function_name),[])
    | none => some (.sleepMissed startTime endTimeMs,[])
  | .sleepMissed startTime endTimeMs =>
    -- `checkConflict` is false, so the row that comes back is not looked at but for the marker.
    let outputs := insertCheckpoint db.outputs (inv.workflowID,inv.timeoutFunctionID) (sleepCheckpoint input.now endTimeMs)
    some (if recordedEnd outputs (inv.workflowID,inv.timeoutFunctionID) = input.now then .sleepRecorded startTime endTimeMs
      else .polling startTime endTimeMs,
      [.insertCheckpoint (inv.workflowID,inv.timeoutFunctionID) (sleepCheckpoint input.now endTimeMs)])
  | .sleepRecorded startTime endTimeMs =>
    some (.polling startTime endTimeMs,[.claimExecutor inv.executorID inv.workflowID])
  | .polling startTime finishTime =>
    match checkIfCanceled db inv.workflowID with
    | some e => some (.threw e,[])
    | none => some (.pollUncancelled startTime finishTime,[])
  | .pollUncancelled startTime finishTime =>
    if 0 < db.notifications.count (unconsumedHits inv.workflowID inv.op.topic) then some (.arrived startTime,[])
    else if finishTime ≠ 0 ∧ finishTime < input.now then some (.arrived startTime,[])
    else some (.polling startTime finishTime,[])
  | .arrived startTime =>
    match checkIfCanceled db inv.workflowID with
    | some e => some (.threw e,[])
    | none => some (.cleared startTime,[])
  | .cleared startTime =>
    if isOldest db.notifications inv.workflowID inv.op.topic input.chosen then
      match input.chosen with
      | some messageUUID => some (.locking startTime messageUUID,[])
      | none => some (.acting startTime [] [] {},[])
    else none
  | .locking startTime messageUUID =>
    -- With the lock the condition is tested again; a message consumed since then is no row.
    match db.notifications.get? messageUUID with
    | some row =>
      if unconsumedHits inv.workflowID inv.op.topic messageUUID row then
        some (.acting startTime [] [.consume messageUUID] ⟨some row.message,row.serialization⟩,[])
      else some (.acting startTime [] [] {},[])
    | none => some (.acting startTime [] [] {},[])
  | .acting startTime (.insertStream workflowID key offset entry :: rest) done value =>
    if (db.streams.get? (workflowID,key,offset)).isSome then some (.threw (.DatabaseError "23505"),[])
    else some (.acting startTime rest (done ++ [.insertStream workflowID key offset entry]) value,[])
  | .acting startTime (statement :: rest) done value => some (.acting startTime rest (done ++ [statement]) value,[])
  | .acting startTime [] done value =>
    let call := inv.checkpoint startTime input.now value
    if recordedEnd (insertCheckpoint db.outputs inv.key call) inv.key = input.now then
      some (.recorded (done ++ [.insertCheckpoint inv.key call]) value,[])
    else some (.threw (conflictError inv.key),[])
  | .recorded done value => some (.claimed (done ++ [.claimExecutor inv.executorID inv.workflowID]) value,[])
  | _ => none

/-! ### What a statement does -/

/-- The INSERT of a message adds one that is not there and not consumed, or nothing. -/
theorem insertMessage_ok {db : Database} {destinationID : String} {message topic serialization idempotencyKey : Option String}
    {input : Input} {statements : List Statement}
    (writes : insertMessage db destinationID message topic serialization idempotencyKey input = .ok statements) :
    ∃ text, message = some text ∧
      ((statements = [] ∧ (db.notifications.get? (messageUUIDOf idempotencyKey destinationID input.randomUUID)).isSome) ∨
        (statements = [.insertNotification (messageUUIDOf idempotencyKey destinationID input.randomUUID)
            ⟨destinationID,topic.getD nullTopic,text,input.now,false,serialization⟩] ∧
          ¬ (db.notifications.get? (messageUUIDOf idempotencyKey destinationID input.randomUUID)).isSome)) := by
  unfold insertMessage at writes
  split at writes
  · cases writes
  · rename_i text
    dsimp only at writes
    split at writes
    · cases writes
      exact ⟨text,rfl,.inl ⟨rfl,by assumption⟩⟩
    · split at writes <;> cases writes
      exact ⟨text,rfl,.inr ⟨rfl,by assumption⟩⟩

/-- Everything that the next statement can do, with what it read. -/
inductive Advances (db : Database) (inv : Invocation) (input : Input) : Phase → Phase → List Statement → Prop
  | throws (phase : Phase) (e : DbosError) : Advances db inv input phase (.threw e) []
  | checks : Advances db inv input .called (.uncancelled input.now) []
  | replays (startTime : Int) (row : OperationOutput) (found : db.outputs.get? inv.key = some row)
      (named : row.function_name = inv.op.functionName) :
      Advances db inv input (.uncancelled startTime) (.replaying ⟨row.output,row.serialization⟩) []
  | misses (startTime : Int) (absent : db.outputs.get? inv.key = none) :
      Advances db inv input (.uncancelled startTime) (.missed startTime) []
  | starts (startTime : Int) : Advances db inv input (.missed startTime) (firstStatement db inv input startTime) []
  | sleepChecks (startTime endTimeMs : Int) :
      Advances db inv input (.sleeping startTime endTimeMs) (.sleepUncancelled startTime endTimeMs) []
  | sleepReplays (startTime endTimeMs finishTime : Int) :
      Advances db inv input (.sleepUncancelled startTime endTimeMs) (.polling startTime finishTime) []
  | sleepMisses (startTime endTimeMs : Int) (absent : db.outputs.get? (inv.workflowID,inv.timeoutFunctionID) = none) :
      Advances db inv input (.sleepUncancelled startTime endTimeMs) (.sleepMissed startTime endTimeMs) []
  | sleeps (startTime endTimeMs : Int) (phase : Phase)
      (after : phase = .sleepRecorded startTime endTimeMs ∨ phase = .polling startTime endTimeMs) :
      Advances db inv input (.sleepMissed startTime endTimeMs) phase
        [.insertCheckpoint (inv.workflowID,inv.timeoutFunctionID) (sleepCheckpoint input.now endTimeMs)]
  | sleepClaims (startTime endTimeMs : Int) :
      Advances db inv input (.sleepRecorded startTime endTimeMs) (.polling startTime endTimeMs)
        [.claimExecutor inv.executorID inv.workflowID]
  | pollChecks (startTime finishTime : Int) :
      Advances db inv input (.polling startTime finishTime) (.pollUncancelled startTime finishTime) []
  | waits (startTime finishTime : Int) :
      Advances db inv input (.pollUncancelled startTime finishTime) (.polling startTime finishTime) []
  | arrives (startTime finishTime : Int) :
      Advances db inv input (.pollUncancelled startTime finishTime) (.arrived startTime) []
  | clears (startTime : Int) : Advances db inv input (.arrived startTime) (.cleared startTime) []
  | chooses (startTime : Int) (messageUUID : String)
      (oldest : isOldest db.notifications inv.workflowID inv.op.topic (some messageUUID) = true) :
      Advances db inv input (.cleared startTime) (.locking startTime messageUUID) []
  | finds_none (startTime : Int) (none_ : isOldest db.notifications inv.workflowID inv.op.topic none = true) :
      Advances db inv input (.cleared startTime) (.acting startTime [] [] {}) []
  | takes (startTime : Int) (messageUUID : String) (row : Notification)
      (found : db.notifications.get? messageUUID = some row)
      (waiting : unconsumedHits inv.workflowID inv.op.topic messageUUID row = true) :
      Advances db inv input (.locking startTime messageUUID)
        (.acting startTime [] [.consume messageUUID] ⟨some row.message,row.serialization⟩) []
  | loses (startTime : Int) (messageUUID : String) :
      Advances db inv input (.locking startTime messageUUID) (.acting startTime [] [] {}) []
  | executes (startTime : Int) (statement : Statement) (rest done : List Statement) (value : Result) :
      Advances db inv input (.acting startTime (statement :: rest) done value)
        (.acting startTime rest (done ++ [statement]) value) []
  | records (startTime : Int) (done : List Statement) (value : Result)
      (mine : recordedEnd (insertCheckpoint db.outputs inv.key (inv.checkpoint startTime input.now value)) inv.key = input.now) :
      Advances db inv input (.acting startTime [] done value)
        (.recorded (done ++ [.insertCheckpoint inv.key (inv.checkpoint startTime input.now value)]) value) []
  | claims (done : List Statement) (value : Result) :
      Advances db inv input (.recorded done value)
        (.claimed (done ++ [.claimExecutor inv.executorID inv.workflowID]) value) []

theorem advance_cases {db : Database} {inv : Invocation} {input : Input} {phase phase' : Phase} {auto : List Statement}
    (taken : advance db inv input phase = some (phase',auto)) : Advances db inv input phase phase' auto := by
  cases phase with
  | called =>
    simp only [advance] at taken
    split at taken <;> cases taken
    · exact .throws _ _
    · exact .checks
  | uncancelled startTime =>
    simp only [advance] at taken
    split at taken
    · split at taken <;> cases taken
      · exact .replays startTime _ (by assumption) (by assumption)
      · exact .throws _ _
    · cases taken
      exact .misses startTime (by assumption)
  | missed startTime =>
    cases taken
    exact .starts startTime
  | sleeping startTime endTimeMs =>
    simp only [advance] at taken
    split at taken <;> cases taken
    · exact .throws _ _
    · exact .sleepChecks startTime endTimeMs
  | sleepUncancelled startTime endTimeMs =>
    simp only [advance] at taken
    split at taken
    · split at taken <;> cases taken
      · exact .sleepReplays startTime endTimeMs _
      · exact .throws _ _
    · cases taken
      exact .sleepMisses startTime endTimeMs (by assumption)
  | sleepMissed startTime endTimeMs =>
    simp only [advance,Option.some.injEq,Prod.mk.injEq] at taken
    obtain ⟨after,rfl⟩ := taken
    refine .sleeps startTime endTimeMs phase' ?_
    split at after
    · exact .inl after.symm
    · exact .inr after.symm
  | sleepRecorded startTime endTimeMs =>
    cases taken
    exact .sleepClaims startTime endTimeMs
  | polling startTime finishTime =>
    simp only [advance] at taken
    split at taken <;> cases taken
    · exact .throws _ _
    · exact .pollChecks startTime finishTime
  | pollUncancelled startTime finishTime =>
    simp only [advance] at taken
    split at taken
    · cases taken
      exact .arrives startTime finishTime
    · split at taken <;> cases taken
      · exact .arrives startTime finishTime
      · exact .waits startTime finishTime
  | arrived startTime =>
    simp only [advance] at taken
    split at taken <;> cases taken
    · exact .throws _ _
    · exact .clears startTime
  | cleared startTime =>
    simp only [advance] at taken
    split at taken
    · rename_i oldest
      split at taken <;> rename_i chosen <;> cases taken <;> rw [chosen] at oldest
      · exact .chooses startTime _ oldest
      · exact .finds_none startTime oldest
    · cases taken
  | locking startTime messageUUID =>
    simp only [advance] at taken
    split at taken
    · split at taken <;> cases taken
      · exact .takes startTime messageUUID _ (by assumption) (by assumption)
      · exact .loses startTime messageUUID
    · cases taken
      exact .loses startTime messageUUID
  | acting startTime todo done value =>
    cases todo with
    | nil =>
      simp only [advance] at taken
      split at taken <;> cases taken
      · exact .records startTime done value (by assumption)
      · exact .throws _ _
    | cons statement rest =>
      cases statement with
      | insertStream workflowID key offset entry =>
        simp only [advance] at taken
        split at taken <;> cases taken
        · exact .throws _ _
        · exact .executes startTime _ rest done value
      | _ =>
        cases taken
        exact .executes startTime _ rest done value
  | recorded done value =>
    cases taken
    exact .claims done value
  | claimed => cases taken
  | replaying => cases taken
  | returned => cases taken
  | threw => cases taken

end Dbos.Communication
