import Dbos.Messages
import Dbos.Pg.Order

/-!
What is sent and received on a channel: a sender, a destination and a topic. The system of
`Dbos.Messages` runs with two logs, of the messages that the sender has committed and of those that
the destination has consumed. This module says what each invocation stands for, phase by
phase, what the logs say about the database, and what a commit does to both.
-/
namespace Dbos.MessageFlow
open Dbos.Pg Dbos.Schema Dbos.Communication
open Dbos.Messages (Session Event Free Moves step_moves Neutral Exclusive step_exclusive)
open Dbos.Checkpoints (insertCheckpoint checkpointRow recordedEnd get?_insertCheckpoint)

/-! ### What is sent and received -/

/-- A sender, and where its messages go. -/
structure Channel where
  sender : String
  destination : String
  topic : String

def Channel.carries (c : Channel) : Operation → Bool
  | .send destinationID _ topic _ _ => destinationID = c.destination ∧ topic.getD nullTopic = c.topic
  | _ => false

def Channel.delivers (c : Channel) : Operation → Bool
  | .recv topic _ => topic.getD nullTopic = c.topic
  | _ => false

/-- The invocation is a `send` or a `recv` of the channel. -/
def Channel.Uses (c : Channel) (inv : Invocation) : Prop :=
  inv.workflowID = c.sender ∧ c.carries inv.op = true ∨ inv.workflowID = c.destination ∧ c.delivers inv.op = true

instance (c : Channel) (inv : Invocation) : Decidable (c.Uses inv) := inferInstanceAs (Decidable (_ ∨ _))

def insertedMessage : Statement → Option (String × Notification)
  | .insertNotification messageUUID row => some (messageUUID,row)
  | _ => none

def takenMessage : Statement → Option String
  | .consume messageUUID => some messageUUID
  | _ => none

/-- The system with the function IDs and the messages of the calls that have sent and received,
    in the order of the commits. -/
structure Traced where
  sys : Messages.System
  sent : List (Nat × String) := []
  received : List (Nat × String) := []

def sentBy (c : Channel) (session : Session) : List (Nat × String) :=
  if session.inv.workflowID = c.sender ∧ c.carries session.inv.op = true then
    (session.phase.writes.filterMap insertedMessage).map fun e => (session.inv.functionID,e.1)
  else []

def receivedBy (c : Channel) (session : Session) : List (Nat × String) :=
  if session.inv.workflowID = c.destination ∧ c.delivers session.inv.op = true then
    (session.phase.writes.filterMap takenMessage).map fun m => (session.inv.functionID,m)
  else []

/-- The session that commits. -/
def committing (s : Messages.System) : Event → Option Session
  | .commit i _ => s.sessions[i]?
  | _ => none

def step (c : Channel) (t : Traced) (e : Event) : Option Traced :=
  (Messages.step t.sys e).map fun sys =>
    { sys := sys
      sent := t.sent ++ (committing t.sys e).elim [] (sentBy c)
      received := t.received ++ (committing t.sys e).elim [] (receivedBy c) }

def start (t : Statuses) : Traced := { sys := Messages.start { statuses := t } }

def isReturned : Phase → Bool
  | .returned _ => true
  | _ => false

def Returned (s : Messages.System) (workflowID : String) (functionID : Nat) : Prop :=
  ∃ session ∈ s.sessions,session.inv.workflowID = workflowID ∧ session.inv.functionID = functionID ∧ isReturned session.phase = true

/-- The sender and the destination run their programs, and they await each call of the channel
    before the next. -/
def Awaited (program : String → Nat → Option Operation) (c : Channel) (t : Traced) : Event → Prop
  | .invoke inv =>
    (inv.workflowID = c.sender ∨ inv.workflowID = c.destination → program inv.workflowID inv.functionID = some inv.op) ∧
    (inv.workflowID = c.sender → c.carries inv.op = true → ∀ n < inv.functionID,(program c.sender n).any c.carries = true →
      Returned t.sys c.sender n) ∧
    (inv.workflowID = c.destination → c.delivers inv.op = true → ∀ n < inv.functionID,
      (program c.destination n).any c.delivers = true → Returned t.sys c.destination n)
  | _ => True

/-- The INSERT of the checkpoint comes next. -/
def recordsNext : Phase → Bool
  | .acting _ [] _ _ => true
  | _ => false

/-- The condition on the steps: a message of the sender is committed when those of its messages
    that are still waiting are older, and a call of the channel finds at its INSERT no checkpoint with
    its own end time. -/
def Orderly (c : Channel) (t : Traced) : Event → Prop
  | .next i input => ∀ session ∈ t.sys.sessions[i]?,c.Uses session.inv → recordsNext session.phase = true →
      ∀ row ∈ t.sys.db.outputs.get? session.inv.key,row.completed_at_epoch_ms.getD 0 ≠ input.now
  | .commit i _ => ∀ session ∈ t.sys.sessions[i]?,session.inv.workflowID = c.sender → c.carries session.inv.op = true →
      ∀ new ∈ session.phase.writes.filterMap insertedMessage,∀ old ∈ t.sent,∀ note ∈ t.sys.db.notifications.get? old.2,
        note.consumed = false → note.created_at_epoch_ms < new.2.created_at_epoch_ms
  | _ => True

/-! ### What holds of an invocation in each phase -/

/-- The statement writes neither a notification nor a checkpoint. -/
def Quiet : Statement → Prop
  | .insertNotification .. => False
  | .consume .. => False
  | .insertCheckpoint .. => False
  | _ => True

theorem quiet_spec {st : Statement} (quiet : Quiet st) (db : Database) :
    insertedMessage st = none ∧ takenMessage st = none ∧ (st.apply db).outputs = db.outputs := by
  cases st with
  | insertNotification m row => exact quiet.elim
  | consume m => exact quiet.elim
  | insertCheckpoint key call => exact quiet.elim
  | _ => exact ⟨rfl,rfl,rfl⟩

/-- What an invocation has written of notifications before its checkpoint. -/
inductive Noted (db : Database) (inv : Invocation) : List Statement → Result → Prop
  | quiet (done : List Statement) (value : Result) (quiet : ∀ st ∈ done,Quiet st) : Noted db inv done value
  | sends (messageUUID : String) (row : Notification) (topic key : Option String) (value : Result)
      (absent : db.notifications.get? messageUUID = none) (unconsumed : row.consumed = false)
      (carried : inv.op = .send row.destination_uuid (some row.message) topic row.serialization key)
      (named : row.topic = topic.getD nullTopic) : Noted db inv [.insertNotification messageUUID row] value
  | takes (messageUUID : String) (note : Notification) (found : db.notifications.get? messageUUID = some note)
      (waiting : unconsumedHits inv.workflowID inv.op.topic messageUUID note = true)
      (receives : inv.op.functionName = DBOS_FUNCNAME_RECV) :
      Noted db inv [.consume messageUUID] ⟨some note.message,note.serialization⟩

/-- The checkpoint is written too; on the channel it is new. -/
inductive Closed (c : Channel) (db : Database) (inv : Invocation) : List Statement → Result → Prop
  | closed (done : List Statement) (value : Result) (startTime endTime : Int) (noted : Noted db inv done value)
      (fresh : c.Uses inv → db.outputs.get? inv.key = none) :
      Closed c db inv (done ++ [.insertCheckpoint inv.key (inv.checkpoint startTime endTime value)]) value

/-- The checkpoint is there; on the channel it holds the value. -/
def Stored (c : Channel) (db : Database) (inv : Invocation) (value : Result) : Prop :=
  ∃ row, db.outputs.get? inv.key = some row ∧
    (c.Uses inv → row.function_name = inv.op.functionName ∧ value = ⟨row.output,row.serialization⟩)

def Standing (c : Channel) (db : Database) (inv : Invocation) : Phase → Prop
  | .acting _ todo done value => Noted db inv done value ∧ (todo ≠ [] → ∀ st ∈ done ++ todo,Quiet st)
  | .recorded done value => Closed c db inv done value
  | .claimed done value => ∃ before, done = before ++ [.claimExecutor inv.executorID inv.workflowID] ∧
    Closed c db inv before value
  | .replaying value => Stored c db inv value
  | .returned value => Stored c db inv value
  | .sleeping _ _ => inv.op.functionName = DBOS_FUNCNAME_RECV
  | .sleepUncancelled _ _ => inv.op.functionName = DBOS_FUNCNAME_RECV
  | .sleepMissed _ _ => inv.op.functionName = DBOS_FUNCNAME_RECV
  | .sleepRecorded _ _ => inv.op.functionName = DBOS_FUNCNAME_RECV
  | .polling _ _ => inv.op.functionName = DBOS_FUNCNAME_RECV
  | .pollUncancelled _ _ => inv.op.functionName = DBOS_FUNCNAME_RECV
  | .arrived _ => inv.op.functionName = DBOS_FUNCNAME_RECV
  | .cleared _ => inv.op.functionName = DBOS_FUNCNAME_RECV
  | .locking _ _ => inv.op.functionName = DBOS_FUNCNAME_RECV
  | _ => True

section
variable {c : Channel} {db db' : Database} {inv : Invocation}

theorem noted_frame {done : List Statement} {value : Result} (noted : Noted db inv done value)
    (same : ∀ m, .notification m ∈ rowsOf done → db'.notifications.get? m = db.notifications.get? m) :
    Noted db' inv done value := by
  cases noted with
  | quiet done value quiet => exact .quiet done value quiet
  | sends m row topic key value absent unconsumed carried named =>
    have here : .notification m ∈ rowsOf [.insertNotification m row] := by simp [rowsOf,rowOf]
    exact .sends m row topic key value ((same m here).trans absent) unconsumed carried named
  | takes m note found waiting receives =>
    have here : .notification m ∈ rowsOf [.consume m] := by simp [rowsOf,rowOf]
    exact .takes m note ((same m here).trans found) waiting receives

theorem closed_frame {done : List Statement} {value : Result} (closed : Closed c db inv done value)
    (same : ∀ m, .notification m ∈ rowsOf done → db'.notifications.get? m = db.notifications.get? m)
    (same' : ∀ k, .checkpoint k ∈ rowsOf done → db'.outputs.get? k = db.outputs.get? k) : Closed c db' inv done value := by
  obtain ⟨before,value,startTime,endTime,noted,fresh⟩ := closed
  refine .closed before value startTime endTime (noted_frame noted ?_) ?_
  · intro m member
    exact same m (mem_rowsOf_append.mpr (.inl member))
  · intro uses
    have here : .checkpoint inv.key ∈ rowsOf [.insertCheckpoint inv.key (inv.checkpoint startTime endTime value)] := by
      simp [rowsOf,rowOf]
    rw [same' inv.key (mem_rowsOf_append.mpr (.inr here))]
    exact fresh uses

theorem stored_kept {value : Result} (stored : Stored c db inv value)
    (kept : ∀ k row, db.outputs.get? k = some row → db'.outputs.get? k = some row) : Stored c db' inv value := by
  obtain ⟨row,found,holds⟩ := stored
  exact ⟨row,kept _ _ found,holds⟩

theorem standing_frame {phase : Phase} (standing : Standing c db inv phase)
    (same : ∀ m, .notification m ∈ rowsOf phase.writes → db'.notifications.get? m = db.notifications.get? m)
    (same' : ∀ k, .checkpoint k ∈ rowsOf phase.writes → db'.outputs.get? k = db.outputs.get? k)
    (kept : ∀ k row, db.outputs.get? k = some row → db'.outputs.get? k = some row) : Standing c db' inv phase := by
  cases phase with
  | acting startTime todo done value => exact ⟨noted_frame standing.1 same,standing.2⟩
  | recorded done value => exact closed_frame standing same same'
  | claimed done value =>
    obtain ⟨before,rfl,closed⟩ := standing
    refine ⟨before,rfl,closed_frame closed ?_ ?_⟩
    · intro m member
      exact same m (mem_rowsOf_append.mpr (.inl member))
    · intro k member
      exact same' k (mem_rowsOf_append.mpr (.inl member))
  | replaying value => exact stored_kept standing kept
  | returned value => exact stored_kept standing kept
  | _ => exact standing

theorem applyAll_outputs_kept (db : Database) (statements : List Statement) {key : String × Nat} {row : OperationOutput}
    (found : db.outputs.get? key = some row) : (applyAll db statements).outputs.get? key = some row := by
  induction statements generalizing db with
  | nil => exact found
  | cons statement rest ih => exact ih (statement.apply db) (apply_outputs_kept db statement found)

theorem standing_frame_all {phase : Phase} (standing : Standing c db inv phase) {statements : List Statement}
    (free : ∀ row ∈ rowsOf phase.writes,row ∉ rowsOf statements) : Standing c (applyAll db statements) inv phase := by
  refine standing_frame standing ?_ ?_ fun k row found => applyAll_outputs_kept db statements found
  · intro m member
    exact applyAll_notification_frame db statements (free _ member)
  · intro k member
    exact applyAll_checkpoint_frame db statements (free _ member)

theorem standing_firstStatement (input : Input) (startTime : Int) :
    Standing c db inv (firstStatement db inv input startTime) := by
  unfold firstStatement
  split
  · rename_i op
    split
    · rename_i writes
      obtain ⟨text,rfl,⟨rfl,_⟩ | ⟨rfl,free⟩⟩ := insertMessage_ok writes
      · exact ⟨.quiet [] _ (by simp),by simp⟩
      · refine ⟨.sends _ _ _ _ _ ?_ rfl op rfl,by simp⟩
        simpa using free
    · trivial
  · split
    · trivial
    · exact ⟨.quiet _ _ (by simp [Quiet]),by simp [Quiet]⟩
  · exact ⟨.quiet [] _ (by simp),by simp [Quiet]⟩
  · exact ⟨.quiet [] _ (by simp),by simp [Quiet]⟩
  · rename_i op
    have receives : inv.op.functionName = DBOS_FUNCNAME_RECV := by rw [op]; rfl
    split
    · exact receives
    · exact receives

theorem standing_advance {input : Input} {phase phase' : Phase} {auto : List Statement} (standing : Standing c db inv phase)
    (apart : c.Uses inv → recordsNext phase = true → ∀ row ∈ db.outputs.get? inv.key,
      row.completed_at_epoch_ms.getD 0 ≠ input.now)
    (advances : Advances db inv input phase phase' auto) : Standing c (applyAll db auto) inv phase' := by
  cases advances with
  | throws => trivial
  | checks => trivial
  | replays startTime row found named => exact ⟨row,found,fun _ => ⟨named,rfl⟩⟩
  | misses => trivial
  | starts startTime => exact standing_firstStatement input startTime
  | sleeps startTime endTimeMs phase after =>
    rcases after with rfl | rfl
    · exact standing
    · exact standing
  | sleepClaims => exact standing
  | finds_none => exact ⟨.quiet [] _ (by simp),by simp⟩
  | takes startTime messageUUID note found waiting => exact ⟨.takes messageUUID note found waiting standing,by simp⟩
  | loses => exact ⟨.quiet [] _ (by simp),by simp⟩
  | executes startTime statement rest done value =>
    have quiet := standing.2 (by simp)
    refine ⟨.quiet _ _ ?_,fun _ => by simpa using quiet⟩
    intro st member
    refine quiet st ?_
    rcases List.mem_append.mp member with old | new
    · exact List.mem_append_left _ old
    · rw [List.mem_singleton.mp new]
      simp
  | records startTime done value mine =>
    refine .closed done value startTime input.now standing.1 ?_
    intro uses
    show db.outputs.get? inv.key = none
    cases found : db.outputs.get? inv.key with
    | none => rfl
    | some row =>
      have other := apart uses rfl row found
      simp [recordedEnd,found] at mine
      exact absurd mine other
  | claims done value => exact ⟨done,rfl,standing⟩
  | _ => exact standing

/-- The messages that an invocation is about to consume. -/
def reaches : Phase → List String
  | .locking _ messageUUID => [messageUUID]
  | phase => phase.writes.filterMap takenMessage

theorem quiet_messages {statements : List Statement} (quiet : ∀ st ∈ statements,Quiet st) :
    statements.filterMap insertedMessage = [] ∧ statements.filterMap takenMessage = [] :=
  ⟨List.filterMap_eq_nil_iff.mpr fun st member => (quiet_spec (quiet st member) {}).1,
    List.filterMap_eq_nil_iff.mpr fun st member => (quiet_spec (quiet st member) {}).2.1⟩

theorem quiet_outputs (db : Database) {statements : List Statement} (quiet : ∀ st ∈ statements,Quiet st) :
    (applyAll db statements).outputs = db.outputs := by
  induction statements generalizing db with
  | nil => rfl
  | cons st rest ih =>
    have here := (quiet_spec (quiet st List.mem_cons_self) db).2.2
    exact (ih (st.apply db) fun st member => quiet st (List.mem_cons_of_mem _ member)).trans here

theorem reaches_firstStatement (input : Input) (startTime : Int) : reaches (firstStatement db inv input startTime) = [] := by
  unfold firstStatement
  split
  · split
    · rename_i writes
      obtain ⟨text,rfl,⟨rfl,_⟩ | ⟨rfl,_⟩⟩ := insertMessage_ok writes
      · rfl
      · rfl
    · rfl
  · split
    · rfl
    · rfl
  · rfl
  · rfl
  · split
    · rfl
    · rfl

/-- An invocation keeps the message that it is about to consume, or it has just found the oldest. -/
theorem reaches_advance {input : Input} {phase phase' : Phase} {auto : List Statement} (standing : Standing c db inv phase)
    (advances : Advances db inv input phase phase' auto) {m : String} (member : m ∈ reaches phase') :
    m ∈ reaches phase ∨ isOldest db.notifications inv.workflowID inv.op.topic (some m) = true := by
  cases advances with
  | starts startTime =>
    rw [reaches_firstStatement] at member
    cases member
  | sleeps startTime endTimeMs phase after =>
    rcases after with rfl | rfl
    · cases member
    · cases member
  | chooses startTime messageUUID oldest =>
    rw [List.mem_singleton.mp member]
    exact .inr oldest
  | takes startTime messageUUID note found waiting => exact .inl member
  | executes startTime statement rest done value =>
    refine .inl ?_
    have quiet := standing.2 (by simp) statement (by simp)
    simpa [reaches,Phase.writes,(quiet_spec quiet db).2.1] using member
  | records startTime done value mine => exact .inl (by simpa [reaches,Phase.writes,takenMessage] using member)
  | claims done value => exact .inl (by simpa [reaches,Phase.writes,takenMessage] using member)
  | _ => cases member

end
/-! ### Calls in the order of their function IDs -/

section
variable {outputs outputs' : OperationOutputs} {w : String} {selected : Nat → Prop} {log : List (Nat × String)}

/-- The function IDs of the log increase, and the calls up to the last have their checkpoints. -/
structure Increasing (outputs : OperationOutputs) (w : String) (selected : Nat → Prop) (log : List (Nat × String)) : Prop where
  sorted : (log.map Prod.fst).Pairwise (· < ·)
  recorded : ∀ e ∈ log,∀ n ≤ e.1,n = e.1 ∨ selected n → (outputs.get? (w,n)).isSome

theorem increasing_kept (increasing : Increasing outputs w selected log)
    (kept : ∀ k row, outputs.get? k = some row → outputs'.get? k = some row) : Increasing outputs' w selected log := by
  refine ⟨increasing.sorted,?_⟩
  intro e member n le which
  obtain ⟨row,found⟩ := Option.isSome_iff_exists.mp (increasing.recorded e member n le which)
  rw [kept _ _ found]
  rfl

/-- A call that is new and was made after the earlier ones had returned comes last. -/
theorem increasing_append (increasing : Increasing outputs w selected log)
    (kept : ∀ k row, outputs.get? k = some row → outputs'.get? k = some row) {n : Nat} {m : String} (chosen : selected n)
    (waited : ∀ n' < n,selected n' → (outputs.get? (w,n')).isSome) (fresh : outputs.get? (w,n) = none)
    (stored : (outputs'.get? (w,n)).isSome) : Increasing outputs' w selected (log ++ [(n,m)]) := by
  have after := increasing_kept increasing kept
  have last : ∀ e ∈ log,e.1 < n := by
    intro e member
    by_contra above
    have present := increasing.recorded e member n (by omega) (.inr chosen)
    rw [fresh] at present
    cases present
  refine ⟨?_,?_⟩
  · rw [List.map_append,List.pairwise_append]
    refine ⟨increasing.sorted,by simp,?_⟩
    intro a member b same
    obtain ⟨e,listed,rfl⟩ := List.mem_map.mp member
    rw [List.mem_singleton.mp same]
    exact last e listed
  · intro e member n' le which
    rcases List.mem_append.mp member with old | new
    · exact after.recorded e old n' le which
    · cases List.mem_singleton.mp new
      rcases which with rfl | chosen'
      · exact stored
      · rcases Nat.lt_or_eq_of_le le with earlier | rfl
        · obtain ⟨row,found⟩ := Option.isSome_iff_exists.mp (waited n' earlier chosen')
          rw [kept _ _ found]
          rfl
        · exact stored

end
/-! ### The invariant -/

def messages (log : List (Nat × String)) : List String := log.map Prod.snd

/-- What others do to the database: nothing that is there changes, and what is new is not consumed. -/
structure Grows (db db' : Database) : Prop where
  notes : ∀ m note, db.notifications.get? m = some note → db'.notifications.get? m = some note
  unconsumed : ∀ m note, db'.notifications.get? m = some note → note.consumed = true → db.notifications.get? m = some note
  outputs : ∀ k row, db.outputs.get? k = some row → db'.outputs.get? k = some row

def Harmless (st : Statement) : Prop := takenMessage st = none ∧ ∀ e ∈ insertedMessage st,e.2.consumed = false

theorem grows_apply (db : Database) {st : Statement} (harmless : Harmless st) : Grows db (st.apply db) := by
  have outputs : ∀ k row, db.outputs.get? k = some row → (st.apply db).outputs.get? k = some row :=
    fun k row found => apply_outputs_kept db st found
  cases st with
  | insertNotification m new =>
    refine ⟨?_,?_,outputs⟩
    · intro x note found
      rcases db.notifications.insert_cases m new x with same | ⟨_,absent,_⟩
      · exact same.trans found
      · cases found.symm.trans absent
    · intro x note found consumed
      rcases db.notifications.insert_cases m new x with same | ⟨_,_,inserted⟩
      · exact same.symm.trans found
      · cases inserted.symm.trans found
        have unconsumed := harmless.2 (m,new) rfl
        rw [consumed] at unconsumed
        cases unconsumed
  | consume m => cases harmless.1
  | _ => exact ⟨fun _ _ found => found,fun _ _ found _ => found,outputs⟩

theorem grows_applyAll (db : Database) {statements : List Statement} (harmless : ∀ st ∈ statements,Harmless st) :
    Grows db (applyAll db statements) := by
  induction statements generalizing db with
  | nil => exact ⟨fun _ _ found => found,fun _ _ found _ => found,fun _ _ found => found⟩
  | cons st rest ih =>
    have first := grows_apply db (harmless st List.mem_cons_self)
    have later := ih (st.apply db) fun st member => harmless st (List.mem_cons_of_mem _ member)
    refine ⟨?_,?_,fun k row found => later.outputs k row (first.outputs k row found)⟩
    · exact fun m note found => later.notes m note (first.notes m note found)
    · exact fun m note found consumed => first.unconsumed m note (later.unconsumed m note found consumed) consumed

theorem harmless_neutral {st : Statement} (neutral : Neutral st) : Harmless st := by
  cases st with
  | insertNotification m row => exact ⟨rfl,fun e same => by cases same; exact neutral⟩
  | consume m => exact neutral.elim
  | _ => exact ⟨rfl,by simp [insertedMessage]⟩

theorem harmless_quiet {st : Statement} (quiet : Quiet st) : Harmless st :=
  ⟨(quiet_spec quiet {}).2.1,by simp [(quiet_spec quiet {}).1]⟩

section
variable (program : String → Nat → Option Operation) (c : Channel)

/-- The notification is on the channel. -/
def Channel.holds (note : Notification) : Prop := note.destination_uuid = c.destination ∧ note.topic = c.topic

/-- The message that the program of the sender sends at the function ID. -/
def SentAt (n : Nat) (note : Notification) : Prop :=
  ∃ topic key, program c.sender n = some (.send note.destination_uuid (some note.message) topic note.serialization key)

/-- What is sent and received, and what of it is in the database. -/
structure Flows (db : Database) (sent received : List (Nat × String)) : Prop where
  distinct : (messages sent).Nodup
  stored : ∀ e ∈ sent,∃ note, db.notifications.get? e.2 = some note ∧ c.holds note ∧ SentAt program c e.1 note
  spaced : ∀ a b, Before (messages sent) a b → ∀ older newer, db.notifications.get? a = some older →
    db.notifications.get? b = some newer → older.consumed = false → older.created_at_epoch_ms < newer.created_at_epoch_ms
  consumed : ∀ m, m ∈ messages received ↔ ∃ note, db.notifications.get? m = some note ∧ c.holds note ∧ note.consumed = true
  fifo : (messages received).filter (· ∈ messages sent) <+: messages sent
  sends : Increasing db.outputs c.sender (fun n => (program c.sender n).any c.carries = true) sent
  receives : Increasing db.outputs c.destination (fun n => (program c.destination n).any c.delivers = true) received
  results : ∀ e ∈ received,∃ note row, db.notifications.get? e.2 = some note ∧ db.outputs.get? (c.destination,e.1) = some row ∧
    row.function_name = DBOS_FUNCNAME_RECV ∧ row.output = some note.message ∧ row.serialization = note.serialization

/-- Everything sent before the message is received. -/
def First (db : Database) (sent received : List (Nat × String)) (m : String) : Prop :=
  (db.notifications.get? m).isSome ∧ ∀ a, Before (messages sent) a m → a ∈ messages received

/-- The calls that the program makes before have their checkpoints. -/
def Waited (db : Database) (w : String) (selected : Operation → Bool) (inv : Invocation) : Prop :=
  inv.workflowID = w → selected inv.op = true → program w inv.functionID = some inv.op ∧
    ∀ n < inv.functionID,(program w n).any selected = true → (db.outputs.get? (w,n)).isSome

structure Ordered (t : Traced) : Prop where
  exclusive : Exclusive t.sys.sessions
  standing : ∀ (i : Nat) session, t.sys.sessions[i]? = some session → Standing c t.sys.db session.inv session.phase
  first : ∀ (i : Nat) session, t.sys.sessions[i]? = some session → ∀ m ∈ reaches session.phase,
    First t.sys.db t.sent t.received m
  sender : ∀ session ∈ t.sys.sessions,Waited program t.sys.db c.sender c.carries session.inv
  destination : ∀ session ∈ t.sys.sessions,Waited program t.sys.db c.destination c.delivers session.inv
  flows : Flows program c t.sys.db t.sent t.received

end
section
variable {program : String → Nat → Option Operation} {c : Channel} {db db' : Database} {sent received : List (Nat × String)}

theorem flows_grows (flows : Flows program c db sent received) (grows : Grows db db') :
    Flows program c db' sent received := by
  have known : ∀ m ∈ messages sent,∃ note, db.notifications.get? m = some note ∧ db'.notifications.get? m = some note := by
    intro m member
    obtain ⟨e,listed,rfl⟩ := List.mem_map.mp member
    obtain ⟨note,found,_⟩ := flows.stored e listed
    exact ⟨note,found,grows.notes _ _ found⟩
  refine ⟨flows.distinct,?_,?_,?_,flows.fifo,increasing_kept flows.sends grows.outputs,
    increasing_kept flows.receives grows.outputs,?_⟩
  · intro e member
    obtain ⟨note,found,rest⟩ := flows.stored e member
    exact ⟨note,grows.notes _ _ found,rest⟩
  · intro a b before older newer found found' unconsumed
    obtain ⟨na,old,new⟩ := known a (before_mem before).1
    obtain ⟨nb,old',new'⟩ := known b (before_mem before).2
    cases found.symm.trans new
    cases found'.symm.trans new'
    exact flows.spaced a b before _ _ old old' unconsumed
  · intro m
    rw [flows.consumed]
    constructor
    · rintro ⟨note,found,rest⟩
      exact ⟨note,grows.notes _ _ found,rest⟩
    · rintro ⟨note,found,held,consumed⟩
      exact ⟨note,grows.unconsumed _ _ found consumed,held,consumed⟩
  · intro e member
    obtain ⟨note,row,found,stored,rest⟩ := flows.results e member
    exact ⟨note,row,grows.notes _ _ found,grows.outputs _ _ stored,rest⟩

theorem first_grows {m : String} (first : First db sent received m) (grows : Grows db db') : First db' sent received m := by
  obtain ⟨note,found⟩ := Option.isSome_iff_exists.mp first.1
  exact ⟨by rw [grows.notes _ _ found]; rfl,first.2⟩

theorem waited_kept {w : String} {selected : Operation → Bool} {inv : Invocation} (waited : Waited program db w selected inv)
    (kept : ∀ k row, db.outputs.get? k = some row → db'.outputs.get? k = some row) : Waited program db' w selected inv := by
  intro same chosen
  obtain ⟨op,earlier⟩ := waited same chosen
  refine ⟨op,?_⟩
  intro n lower which
  obtain ⟨row,found⟩ := Option.isSome_iff_exists.mp (earlier n lower which)
  rw [kept _ _ found]
  rfl

/-- The oldest message that waits comes after what was sent before it. -/
theorem first_oldest (flows : Flows program c db sent received) {w topic m : String}
    (oldest : isOldest db.notifications w topic (some m) = true) : First db sent received m := by
  simp only [isOldest,List.any_eq_true,decide_eq_true_eq] at oldest
  obtain ⟨⟨m',note⟩,listed,rfl,least⟩ := oldest
  obtain ⟨entry,hits⟩ := List.mem_filter.mp listed
  simp only [unconsumedHits,decide_eq_true_eq] at hits
  have found := (db.notifications.get?_eq_some _ _).mpr entry
  refine ⟨by rw [found]; rfl,?_⟩
  intro a before
  obtain ⟨memberA,memberB⟩ := before_mem before
  obtain ⟨ea,listedA,rfl⟩ := List.mem_map.mp memberA
  obtain ⟨eb,listedB,same⟩ := List.mem_map.mp memberB
  obtain ⟨older,foundA,heldA,_⟩ := flows.stored ea listedA
  obtain ⟨newer,foundB,heldB,_⟩ := flows.stored eb listedB
  rw [same] at foundB
  cases found.symm.trans foundB
  rw [flows.consumed]
  refine ⟨older,foundA,heldA,?_⟩
  -- One that waits would be the oldest itself.
  by_contra waiting
  have unconsumed : older.consumed = false := by simpa using waiting
  have earlier := flows.spaced _ _ before older note foundA found unconsumed
  have later := least (ea.2,older) (List.mem_filter.mpr ⟨(db.notifications.get?_eq_some _ _).mp foundA,by
    simp only [unconsumedHits,decide_eq_true_eq]
    exact ⟨heldA.1.trans (heldB.1.symm.trans hits.1),heldA.2.trans (heldB.2.symm.trans hits.2.1),unconsumed⟩⟩)
  simp only at later
  omega

/-! ### Commits -/

variable {inv : Invocation}

/-- The last two statements of a transaction. -/
def ending (inv : Invocation) (startTime endTime : Int) (value : Result) : List Statement :=
  [.insertCheckpoint inv.key (inv.checkpoint startTime endTime value),.claimExecutor inv.executorID inv.workflowID]

theorem grows_ending {before : List Statement} {value : Result} (harmless : ∀ st ∈ before,Harmless st) (startTime endTime : Int) :
    Grows db (applyAll db (before ++ ending inv startTime endTime value)) := by
  refine grows_applyAll db ?_
  intro st member
  rcases List.mem_append.mp member with early | late
  · exact harmless st early
  · have last : ∀ st ∈ ending inv startTime endTime value,Harmless st := by
      simp [ending,Harmless,takenMessage,insertedMessage]
    exact last st late

/-- The commit of a call stores its checkpoint. -/
theorem commit_outputs {before : List Statement} {value : Result} (noted : Noted db inv before value) (startTime endTime : Int) :
    (applyAll db (before ++ ending inv startTime endTime value)).outputs =
      insertCheckpoint db.outputs inv.key (inv.checkpoint startTime endTime value) := by
  have same : (applyAll db before).outputs = db.outputs := by
    cases noted with
    | quiet done value quiet => exact quiet_outputs db quiet
    | sends => rfl
    | takes => rfl
  rw [applyAll] at same
  rw [applyAll,List.foldl_append]
  simp only [ending,List.foldl_cons,List.foldl_nil,Statement.apply,same]

theorem commit_kept {k : String × Nat} {row : OperationOutput} {call : Checkpoints.CheckpointCall}
    (found : db.outputs.get? k = some row) : (insertCheckpoint db.outputs inv.key call).get? k = some row :=
  apply_outputs_kept db (.insertCheckpoint inv.key call) found

theorem stored_commit {startTime endTime : Int} {value : Result}
    (outputs : db'.outputs = insertCheckpoint db.outputs inv.key (inv.checkpoint startTime endTime value))
    (fresh : c.Uses inv → db.outputs.get? inv.key = none) : Stored c db' inv value := by
  cases found : db.outputs.get? inv.key with
  | none =>
    refine ⟨checkpointRow (inv.checkpoint startTime endTime value),?_,fun _ => ⟨rfl,rfl⟩⟩
    rw [outputs,get?_insertCheckpoint,if_pos rfl,found]
    rfl
  | some row =>
    refine ⟨row,by rw [outputs]; exact commit_kept found,?_⟩
    intro uses
    cases (fresh uses).symm.trans found

/-- A message of the sender comes last. -/
theorem flows_send (flows : Flows program c db sent received) (grows : Grows db db') {n : Nat} {m : String} {row : Notification}
    (absent : db.notifications.get? m = none) (inserted : db'.notifications.get? m = some row) (held : c.holds row)
    (programmed : SentAt program c n row)
    (spaced : ∀ old ∈ sent,∀ note, db.notifications.get? old.2 = some note → note.consumed = false →
      note.created_at_epoch_ms < row.created_at_epoch_ms)
    (sends : Increasing db'.outputs c.sender (fun n => (program c.sender n).any c.carries = true) (sent ++ [(n,m)])) :
    Flows program c db' (sent ++ [(n,m)]) received := by
  have after := flows_grows flows grows
  have grown : messages (sent ++ [(n,m)]) = messages sent ++ [m] := by simp [messages]
  have unsent : m ∉ messages sent := by
    intro member
    obtain ⟨e,listed,same⟩ := List.mem_map.mp member
    obtain ⟨note,found,_⟩ := flows.stored e listed
    rw [same] at found
    cases absent.symm.trans found
  have unreceived : m ∉ messages received := by
    intro member
    obtain ⟨note,found,_⟩ := (flows.consumed m).mp member
    cases absent.symm.trans found
  refine ⟨?_,?_,?_,after.consumed,?_,sends,after.receives,after.results⟩
  · rw [grown,← List.concat_eq_append,List.nodup_concat]
    exact ⟨unsent,flows.distinct⟩
  · intro e member
    rcases List.mem_append.mp member with old | new
    · exact after.stored e old
    · cases List.mem_singleton.mp new
      exact ⟨row,inserted,held,programmed⟩
  · intro a b before older newer found found' unconsumed
    rw [grown] at before
    rcases before_append before with old | ⟨rfl,member⟩
    · exact after.spaced a b old older newer found found' unconsumed
    · cases inserted.symm.trans found'
      obtain ⟨e,listed,rfl⟩ := List.mem_map.mp member
      obtain ⟨note,stored,_⟩ := flows.stored e listed
      cases (grows.notes _ _ stored).symm.trans found
      exact spaced e listed older stored unconsumed
  · rw [grown]
    have same : (messages received).filter (· ∈ messages sent ++ [m]) = (messages received).filter (· ∈ messages sent) := by
      refine List.filter_congr ?_
      intro x member
      have other : x ≠ m := fun same => unreceived (same ▸ member)
      simp [other]
    rw [same]
    exact flows.fifo.trans (List.prefix_append _ _)

/-- A message is consumed. -/
structure Takes (db db' : Database) (m : String) (note : Notification) : Prop where
  found : db.notifications.get? m = some note
  unconsumed : note.consumed = false
  notes : ∀ x, db'.notifications.get? x = if x = m then some { note with consumed := true } else db.notifications.get? x
  outputs : ∀ k row, db.outputs.get? k = some row → db'.outputs.get? k = some row

/-- Only `consumed` of a notification changes. -/
theorem takes_get {m : String} {note : Notification} (takes : Takes db db' m note) {x : String} {old : Notification}
    (found : db.notifications.get? x = some old) :
    ∃ consumed, db'.notifications.get? x = some { old with consumed := consumed } ∧ (old.consumed = true → consumed = true) := by
  by_cases same : x = m
  · cases (same ▸ takes.found).symm.trans found
    exact ⟨true,by rw [takes.notes,if_pos same],fun _ => rfl⟩
  · exact ⟨old.consumed,by rw [takes.notes,if_neg same,found],id⟩

theorem first_takes {m : String} {note : Notification} (takes : Takes db db' m note) {received' : List (Nat × String)}
    (more : ∀ a ∈ messages received,a ∈ messages received') {x : String} (first : First db sent received x) :
    First db' sent received' x := by
  obtain ⟨old,found⟩ := Option.isSome_iff_exists.mp first.1
  obtain ⟨_,stored,_⟩ := takes_get takes found
  exact ⟨by rw [stored]; rfl,fun a before => more a (first.2 a before)⟩

/-- What a consumed message leaves as it was. -/
theorem flows_takes (flows : Flows program c db sent received) {m : String} {note : Notification} (takes : Takes db db' m note)
    {received' : List (Nat × String)}
    (consumed : ∀ x, x ∈ messages received' ↔ x ∈ messages received ∨ x = m ∧ c.holds note)
    (fifo : (messages received').filter (· ∈ messages sent) <+: messages sent)
    (receives : Increasing db'.outputs c.destination (fun n => (program c.destination n).any c.delivers = true) received')
    (results : ∀ e ∈ received',∃ note row, db'.notifications.get? e.2 = some note ∧
      db'.outputs.get? (c.destination,e.1) = some row ∧ row.function_name = DBOS_FUNCNAME_RECV ∧
      row.output = some note.message ∧ row.serialization = note.serialization) : Flows program c db' sent received' := by
  refine ⟨flows.distinct,?_,?_,?_,fifo,increasing_kept flows.sends takes.outputs,receives,results⟩
  · intro e member
    obtain ⟨old,found,held,programmed⟩ := flows.stored e member
    obtain ⟨_,stored,_⟩ := takes_get takes found
    exact ⟨_,stored,held,programmed⟩
  · intro a b before older newer found found' unconsumed
    obtain ⟨ea,listedA,rfl⟩ := List.mem_map.mp (before_mem before).1
    obtain ⟨eb,listedB,rfl⟩ := List.mem_map.mp (before_mem before).2
    obtain ⟨na,oldA,_⟩ := flows.stored ea listedA
    obtain ⟨nb,oldB,_⟩ := flows.stored eb listedB
    obtain ⟨ca,newA,keepsA⟩ := takes_get takes oldA
    obtain ⟨cb,newB,_⟩ := takes_get takes oldB
    cases newA.symm.trans found
    cases newB.symm.trans found'
    have waiting : na.consumed = false := by
      by_contra was
      have now := keepsA (by simpa using was)
      rw [now] at unconsumed
      cases unconsumed
    exact flows.spaced _ _ before na nb oldA oldB waiting
  · intro x
    rw [consumed,flows.consumed,takes.notes]
    by_cases same : x = m
    · subst same
      simp [takes.found,takes.unconsumed,Channel.holds]
    · simp [same]

theorem results_takes (flows : Flows program c db sent received) {m : String} {note : Notification} (takes : Takes db db' m note) :
    ∀ e ∈ received,∃ note row, db'.notifications.get? e.2 = some note ∧ db'.outputs.get? (c.destination,e.1) = some row ∧
      row.function_name = DBOS_FUNCNAME_RECV ∧ row.output = some note.message ∧ row.serialization = note.serialization := by
  intro e member
  obtain ⟨old,row,found,stored,rest⟩ := flows.results e member
  obtain ⟨_,after,_⟩ := takes_get takes found
  exact ⟨_,row,after,takes.outputs _ _ stored,rest⟩

/-- A message that is taken on the channel, after everything sent before it. -/
theorem flows_receive (flows : Flows program c db sent received) {m : String} {note : Notification} (takes : Takes db db' m note)
    (held : c.holds note) (first : First db sent received m) {n : Nat} {row : OperationOutput}
    (receives : Increasing db'.outputs c.destination (fun n => (program c.destination n).any c.delivers = true) (received ++ [(n,m)]))
    (stored : db'.outputs.get? (c.destination,n) = some row)
    (result : row.function_name = DBOS_FUNCNAME_RECV ∧ row.output = some note.message ∧ row.serialization = note.serialization) :
    Flows program c db' sent (received ++ [(n,m)]) := by
  have grown : messages (received ++ [(n,m)]) = messages received ++ [m] := by simp [messages]
  have unreceived : m ∉ messages received := by
    intro member
    obtain ⟨note',found,_,consumed⟩ := (flows.consumed m).mp member
    cases takes.found.symm.trans found
    rw [takes.unconsumed] at consumed
    cases consumed
  refine flows_takes flows takes ?_ ?_ receives ?_
  · intro x
    rw [grown,List.mem_append,List.mem_singleton]
    exact or_congr_right ⟨fun same => ⟨same,held⟩,And.left⟩
  · rw [grown,List.filter_append]
    by_cases member : m ∈ messages sent
    · have last : [m].filter (· ∈ messages sent) = [m] := by simp [member]
      rw [last]
      refine taken_next flows.distinct flows.fifo member ?_ ?_
      · exact fun taken => unreceived (List.mem_of_mem_filter taken)
      · intro a before
        exact List.mem_filter.mpr ⟨first.2 a before,by simpa using (before_mem before).1⟩
    · have nothing : [m].filter (· ∈ messages sent) = [] := by simp [member]
      rw [nothing,List.append_nil]
      exact flows.fifo
  · intro e member
    rcases List.mem_append.mp member with old | new
    · exact results_takes flows takes e old
    · cases List.mem_singleton.mp new
      exact ⟨{ note with consumed := true },row,by rw [takes.notes,if_pos rfl],stored,result⟩

end
end Dbos.MessageFlow
