import Dbos.Communication
import Dbos.Pg.Pairing

/-!
Messages under concurrent execution. Any number of invocations of the operations, of `recv`
above all, run statement by statement in one database; a transaction waits for rows that
another one has written. The consumed notifications and the checkpoints of `recv` that hold a
message are paired one to one, as long as no invocation that has taken a message finds at its
INSERT a checkpoint with its own end time: it would take that row for its own and commit,
and its message would be consumed and never delivered.
-/
namespace Dbos.Messages
open Dbos.Pg Dbos.Schema Dbos.Communication
open Dbos.Checkpoints (insertCheckpoint checkpointRow recordedEnd get?_insertCheckpoint)

structure Session where
  inv : Invocation
  phase : Phase := .called

structure System where
  db : Database
  sessions : List Session := []

/-- An invocation begins, runs its next statement, commits with or without an acknowledgement
    that arrives, or loses its connection; a client sends a message (`sendDirect`); others write
    `workflow_status`. -/
inductive Event
  | invoke (inv : Invocation)
  | next (i : Nat) (input : Input)
  | commit (i : Nat) (acknowledged : Bool)
  | drop (i : Nat)
  | sendDirect (destinationID : String) (message topic serialization idempotencyKey : Option String) (input : Input)
  | statuses (t : Statuses)

/-- No other transaction holds a row of the statements. -/
def Free (others : List Session) (statements : List Statement) : Prop :=
  ∀ other ∈ others,∀ row ∈ rowsOf statements,row ∉ rowsOf other.phase.writes

instance (others : List Session) (statements : List Statement) : Decidable (Free others statements) :=
  inferInstanceAs (Decidable (∀ other ∈ _,_))

/-- After a lost connection or acknowledgement `dbRetry` runs the invocation again. -/
def step (s : System) : Event → Option System
  | .invoke inv => some { s with sessions := s.sessions ++ [{ inv := inv }] }
  | .next i input =>
    match s.sessions[i]? with
    | some session =>
      match advance s.db session.inv input session.phase with
      | some (phase,auto) =>
        if Free (s.sessions.eraseIdx i) (phase.writes ++ auto) then
          some { db := applyAll s.db auto,sessions := s.sessions.set i { session with phase := phase } }
        else none
      | none => none
    | none => none
  | .commit i acknowledged =>
    match s.sessions[i]? with
    | some session =>
      match session.phase with
      | .claimed done value =>
        some { db := applyAll s.db done
               sessions := s.sessions.set i { session with phase := if acknowledged then .returned value else .called } }
      | .replaying value =>
        some { s with
               sessions := s.sessions.set i { session with phase := if acknowledged then .returned value else .called } }
      | _ => none
    | none => none
  | .drop i =>
    match s.sessions[i]? with
    | some session => some { s with sessions := s.sessions.set i { session with phase := .called } }
    | none => none
  | .sendDirect destinationID message topic serialization idempotencyKey input =>
    match insertMessage s.db destinationID message topic serialization idempotencyKey input with
    | .ok statements => if Free s.sessions statements then some { s with db := applyAll s.db statements } else none
    | .error _ => some s
  | .statuses t => some { s with db := { s.db with statuses := t } }

def start (db : Database) : System := { db := db }

/-! ### Conservation -/

/-- The notification is consumed. -/
def Consumed (db : Database) (messageUUID : String) : Prop :=
  ∃ note, db.notifications.get? messageUUID = some note ∧ note.consumed = true

/-- The checkpoint is one of `recv` that recorded a message. -/
def Delivered (db : Database) (key : String × Nat) : Prop :=
  ∃ row, db.outputs.get? key = some row ∧ row.function_name = DBOS_FUNCNAME_RECV ∧ row.output.isSome

/-- The checkpoint records the message of the notification, in the workflow it was sent to. -/
def Records (db : Database) (messageUUID : String) (key : String × Nat) : Prop :=
  ∃ note row, db.notifications.get? messageUUID = some note ∧ db.outputs.get? key = some row ∧
    key.1 = note.destination_uuid ∧ row.output = some note.message ∧ row.serialization = note.serialization

/-- Consumed notifications and delivered messages correspond one to one. -/
def Conserved (db : Database) : Prop :=
  ∃ delivery : {m // Consumed db m} → {k // Delivered db k},
    Function.Bijective delivery ∧ ∀ m, Records db m.1 (delivery m).1

/-- The condition on the steps: an invocation that has taken a message and runs its INSERT
    finds no checkpoint with its end time. -/
def distinct (s : System) : Event → Bool
  | .next i input =>
    match s.sessions[i]? with
    | some session =>
      match session.phase with
      | .acting _ [] [.consume _] _ =>
        (s.db.outputs.get? session.inv.key).all fun row => row.completed_at_epoch_ms.getD 0 ≠ input.now
      | _ => true
    | none => true
  | _ => true

/-! ### Statements that consume and deliver nothing -/

def Neutral : Statement → Prop
  | .insertNotification _ row => row.consumed = false
  | .consume _ => False
  | .insertCheckpoint _ call => call.functionName ≠ DBOS_FUNCNAME_RECV ∨ call.output = none
  | _ => True

theorem consumed_neutral (db : Database) {statement : Statement} (neutral : Neutral statement) (messageUUID : String) :
    Consumed (statement.apply db) messageUUID ↔ Consumed db messageUUID := by
  constructor
  · rintro ⟨note,found,consumed⟩
    cases statement with
    | insertNotification m new =>
      rcases db.notifications.insert_cases m new messageUUID with same | ⟨_,_,inserted⟩
      · exact ⟨note,same.symm.trans found,consumed⟩
      · cases inserted.symm.trans found
        cases neutral.symm.trans consumed
    | consume m => exact neutral.elim
    | _ => exact ⟨note,found,consumed⟩
  · rintro ⟨note,found,consumed⟩
    exact ⟨note,apply_consumed_kept db statement found consumed,consumed⟩

theorem delivered_neutral (db : Database) {statement : Statement} (neutral : Neutral statement) (key : String × Nat) :
    Delivered (statement.apply db) key ↔ Delivered db key := by
  constructor
  · rintro ⟨row,found,named,holds⟩
    cases statement with
    | insertCheckpoint key' call =>
      simp only [Statement.apply,get?_insertCheckpoint] at found
      by_cases here : key = key'
      · subst here
        rw [if_pos rfl] at found
        cases before : db.outputs.get? key with
        | some old =>
          rw [before] at found
          cases found
          exact ⟨_,before,named,holds⟩
        | none =>
          rw [before] at found
          cases found
          rcases neutral with other | none_
          · exact absurd named other
          · simp [checkpointRow,none_] at holds
      · rw [if_neg here] at found
        exact ⟨row,found,named,holds⟩
    | _ => exact ⟨row,found,named,holds⟩
  · rintro ⟨row,found,named,holds⟩
    exact ⟨row,apply_outputs_kept db statement found,named,holds⟩

/-- The invariant form of `Conserved`, with the pairs as a relation. -/
def Paired (db : Database) : Prop :=
  ∃ delivery, Pairing (Consumed db) (Delivered db) delivery ∧ ∀ m k, delivery m k → Records db m k

theorem conserved_iff (db : Database) : Conserved db ↔ Paired db := by
  constructor
  · rintro ⟨delivery,⟨injective,surjective⟩,records⟩
    refine ⟨fun m k => ∃ consumed, (delivery ⟨m,consumed⟩).1 = k,⟨?_,?_,?_,?_,?_⟩,?_⟩
    · rintro m k ⟨consumed,rfl⟩
      exact ⟨consumed,(delivery ⟨m,consumed⟩).2⟩
    · intro m consumed
      exact ⟨_,consumed,rfl⟩
    · intro k delivered
      obtain ⟨m,same⟩ := surjective ⟨k,delivered⟩
      exact ⟨m.1,m.2,congrArg Subtype.val same⟩
    · rintro m k k' ⟨_,rfl⟩ ⟨_,rfl⟩
      rfl
    · rintro m m' k ⟨consumed,same⟩ ⟨consumed',same'⟩
      exact congrArg Subtype.val (injective (Subtype.ext (same.trans same'.symm)))
    · rintro m k ⟨consumed,rfl⟩
      exact records ⟨m,consumed⟩
  · rintro ⟨delivery,pairing,records⟩
    obtain ⟨f,bijective,related⟩ := pairing_bijection pairing
    exact ⟨f,bijective,fun m => records _ _ (related m)⟩

/-- What is recorded stays so. -/
theorem records_kept {db : Database} (statement : Statement) {messageUUID : String} {key : String × Nat}
    (consumed : Consumed db messageUUID) (records : Records db messageUUID key) :
    Records (statement.apply db) messageUUID key := by
  obtain ⟨note,row,found,stored,same⟩ := records
  obtain ⟨note',found',holds⟩ := consumed
  cases found.symm.trans found'
  exact ⟨note,row,apply_consumed_kept db statement found holds,apply_outputs_kept db statement stored,same⟩

theorem paired_neutral {db : Database} (paired : Paired db) {statements : List Statement}
    (neutral : ∀ st ∈ statements,Neutral st) : Paired (applyAll db statements) := by
  induction statements generalizing db with
  | nil => exact paired
  | cons statement rest ih =>
    refine ih ?_ fun st member => neutral st (List.mem_cons_of_mem _ member)
    obtain ⟨delivery,pairing,records⟩ := paired
    have here := neutral statement List.mem_cons_self
    refine ⟨delivery,pairing_congr pairing (consumed_neutral db here) (delivered_neutral db here),?_⟩
    intro m k related
    exact records_kept statement (pairing.within m k related).1 (records m k related)

/-- A message that is taken and recorded in a new checkpoint makes a new pair. -/
theorem paired_deliver {db : Database} (paired : Paired db) {inv : Invocation} {messageUUID : String} {note : Notification}
    (found : db.notifications.get? messageUUID = some note)
    (waiting : unconsumedHits inv.workflowID inv.op.topic messageUUID note = true)
    (receives : inv.op.functionName = DBOS_FUNCNAME_RECV) (fresh : db.outputs.get? inv.key = none)
    (startTime endTime : Int) :
    Paired (applyAll db [.consume messageUUID,
      .insertCheckpoint inv.key (inv.checkpoint startTime endTime ⟨some note.message,note.serialization⟩)]) := by
  obtain ⟨delivery,pairing,records⟩ := paired
  simp only [unconsumedHits,decide_eq_true_eq] at waiting
  obtain ⟨destination,_,unconsumed⟩ := waiting
  have taken : (applyAll db [.consume messageUUID,.insertCheckpoint inv.key
      (inv.checkpoint startTime endTime ⟨some note.message,note.serialization⟩)]).notifications.get? messageUUID =
      some { note with consumed := true } := by
    simp [applyAll,Statement.apply,found,consumeHits,unconsumed]
  have recorded : (applyAll db [.consume messageUUID,.insertCheckpoint inv.key
      (inv.checkpoint startTime endTime ⟨some note.message,note.serialization⟩)]).outputs.get? inv.key =
      some (checkpointRow (inv.checkpoint startTime endTime ⟨some note.message,note.serialization⟩)) := by
    simp [applyAll,Statement.apply,fresh]
  refine ⟨_,pairing_add (a := messageUUID) (b := inv.key) pairing ?_ ?_ ?_ ?_,?_⟩
  · rintro ⟨note',found',consumed⟩
    cases found.symm.trans found'
    rw [unconsumed] at consumed
    cases consumed
  · rintro ⟨row,stored,_⟩
    cases fresh.symm.trans stored
  · intro m
    by_cases here : m = messageUUID
    · subst here
      exact ⟨fun _ => .inr rfl,fun _ => ⟨_,taken,rfl⟩⟩
    · have same : (applyAll db [.consume messageUUID,.insertCheckpoint inv.key
          (inv.checkpoint startTime endTime ⟨some note.message,note.serialization⟩)]).notifications.get? m =
          db.notifications.get? m := applyAll_notification_frame db _ (by simp [rowsOf,rowOf,here])
      simp only [Consumed,same,here,or_false]
  · intro k
    by_cases here : k = inv.key
    · subst here
      refine ⟨fun _ => .inr rfl,fun _ => ⟨_,recorded,?_,rfl⟩⟩
      exact receives
    · have same : (applyAll db [.consume messageUUID,.insertCheckpoint inv.key
          (inv.checkpoint startTime endTime ⟨some note.message,note.serialization⟩)]).outputs.get? k =
          db.outputs.get? k := applyAll_checkpoint_frame db _ (by simp [rowsOf,rowOf,here])
      simp only [Delivered,same,here,or_false]
  · rintro m k (old | ⟨rfl,rfl⟩)
    · have consumed := (pairing.within m k old).1
      obtain ⟨note',found',holds⟩ := consumed
      have consumed' : Consumed (Statement.apply db (.consume messageUUID)) m :=
        ⟨note',apply_consumed_kept db _ found' holds,holds⟩
      have first := records_kept (.consume messageUUID) ⟨note',found',holds⟩ (records m k old)
      exact records_kept (.insertCheckpoint inv.key
        (inv.checkpoint startTime endTime ⟨some note.message,note.serialization⟩)) consumed' first
    · exact ⟨_,_,taken,recorded,destination.symm,rfl,rfl⟩

/-! ### What holds of an invocation in each phase -/

/-- What an invocation has written before its checkpoint: it has taken a message, or nothing
    of what it has written consumes or delivers one. -/
inductive Prepared (db : Database) (inv : Invocation) : List Statement → Result → Prop
  | took (messageUUID : String) (note : Notification) (found : db.notifications.get? messageUUID = some note)
      (waiting : unconsumedHits inv.workflowID inv.op.topic messageUUID note = true)
      (receives : inv.op.functionName = DBOS_FUNCNAME_RECV) :
      Prepared db inv [.consume messageUUID] ⟨some note.message,note.serialization⟩
  | plain (done : List Statement) (neutral : ∀ st ∈ done,Neutral st) : Prepared db inv done {}

/-- The checkpoint is written too; it is new when a message was taken. -/
inductive Sealed (db : Database) (inv : Invocation) : List Statement → Result → Prop
  | sealed (done : List Statement) (value : Result) (startTime endTime : Int) (prepared : Prepared db inv done value)
      (fresh : ∀ m, done = [.consume m] → db.outputs.get? inv.key = none) :
      Sealed db inv (done ++ [.insertCheckpoint inv.key (inv.checkpoint startTime endTime value)]) value

def Holds (db : Database) (inv : Invocation) : Phase → Prop
  | .acting _ todo done value => Prepared db inv done value ∧ (∀ st ∈ todo,Neutral st) ∧
    (todo ≠ [] → ∀ st ∈ done,Neutral st)
  | .recorded done value => Sealed db inv done value
  | .claimed done value => ∃ before, done = before ++ [.claimExecutor inv.executorID inv.workflowID] ∧
    Sealed db inv before value
  | .sleeping _ _ => inv.op.functionName = DBOS_FUNCNAME_RECV
  | .sleepUncancelled _ _ => inv.op.functionName = DBOS_FUNCNAME_RECV
  | .sleepMissed _ _ => inv.op.functionName = DBOS_FUNCNAME_RECV
  | .sleepRecorded _ _ => inv.op.functionName = DBOS_FUNCNAME_RECV
  | .polling _ _ => inv.op.functionName = DBOS_FUNCNAME_RECV
  | .pollUncancelled _ _ => inv.op.functionName = DBOS_FUNCNAME_RECV
  | .arrived _ => inv.op.functionName = DBOS_FUNCNAME_RECV
  | .cleared _ => inv.op.functionName = DBOS_FUNCNAME_RECV
  | .locking _ _ => inv.op.functionName = DBOS_FUNCNAME_RECV
  | _ => True

section
variable {db db' : Database} {inv : Invocation}

theorem prepared_frame {done : List Statement} {value : Result} (prepared : Prepared db inv done value)
    (same : ∀ m, .notification m ∈ rowsOf done → db'.notifications.get? m = db.notifications.get? m) :
    Prepared db' inv done value := by
  cases prepared with
  | took messageUUID note found waiting receives =>
    have here : .notification messageUUID ∈ rowsOf [.consume messageUUID] := by simp [rowsOf,rowOf]
    exact .took messageUUID note ((same messageUUID here).trans found) waiting receives
  | plain done neutral => exact .plain done neutral

theorem sealed_frame {done : List Statement} {value : Result} (closed : Sealed db inv done value)
    (same : ∀ m, .notification m ∈ rowsOf done → db'.notifications.get? m = db.notifications.get? m)
    (same' : ∀ k, .checkpoint k ∈ rowsOf done → db'.outputs.get? k = db.outputs.get? k) : Sealed db' inv done value := by
  obtain ⟨before,value,startTime,endTime,prepared,fresh⟩ := closed
  refine .sealed before value startTime endTime (prepared_frame prepared ?_) ?_
  · intro m member
    exact same m (mem_rowsOf_append.mpr (.inl member))
  · intro m took
    have here : .checkpoint inv.key ∈ rowsOf [.insertCheckpoint inv.key (inv.checkpoint startTime endTime value)] := by
      simp [rowsOf,rowOf]
    rw [same' inv.key (mem_rowsOf_append.mpr (.inr here))]
    exact fresh m took

/-- The facts of an invocation survive what others commit to rows that it has not written. -/
theorem holds_frame {phase : Phase} (holds : Holds db inv phase)
    (same : ∀ m, .notification m ∈ rowsOf phase.writes → db'.notifications.get? m = db.notifications.get? m)
    (same' : ∀ k, .checkpoint k ∈ rowsOf phase.writes → db'.outputs.get? k = db.outputs.get? k) :
    Holds db' inv phase := by
  cases phase with
  | acting startTime todo done value => exact ⟨prepared_frame holds.1 same,holds.2⟩
  | recorded done value => exact sealed_frame holds same same'
  | claimed done value =>
    obtain ⟨before,rfl,closed⟩ := holds
    refine ⟨before,rfl,sealed_frame closed ?_ ?_⟩
    · intro m member
      exact same m (mem_rowsOf_append.mpr (.inl member))
    · intro k member
      exact same' k (mem_rowsOf_append.mpr (.inl member))
  | _ => exact holds

theorem holds_frame_all {phase : Phase} (holds : Holds db inv phase) {statements : List Statement}
    (free : ∀ row ∈ rowsOf phase.writes,row ∉ rowsOf statements) : Holds (applyAll db statements) inv phase := by
  refine holds_frame holds ?_ ?_
  · intro m member
    exact applyAll_notification_frame db statements (free _ member)
  · intro k member
    exact applyAll_checkpoint_frame db statements (free _ member)

theorem insertMessage_neutral {destinationID : String} {message topic serialization idempotencyKey : Option String}
    {input : Input} {statements : List Statement}
    (writes : insertMessage db destinationID message topic serialization idempotencyKey input = .ok statements) :
    ∀ st ∈ statements,Neutral st := by
  obtain ⟨text,_,⟨rfl,_⟩ | ⟨rfl,_⟩⟩ := insertMessage_ok writes
  · simp
  · simp [Neutral]

theorem holds_firstStatement (input : Input) (startTime : Int) : Holds db inv (firstStatement db inv input startTime) := by
  unfold firstStatement
  split
  · split
    · rename_i writes
      exact ⟨.plain _ (insertMessage_neutral writes),by simp,by simp⟩
    · trivial
  · split
    · trivial
    · exact ⟨.plain _ (by simp [Neutral]),by simp [Neutral],by simp [Neutral]⟩
  · exact ⟨.plain [] (by simp),by simp [Neutral],by simp⟩
  · exact ⟨.plain [] (by simp),by simp [Neutral],by simp⟩
  · rename_i op
    have receives : inv.op.functionName = DBOS_FUNCNAME_RECV := by rw [op]; rfl
    split
    · exact receives
    · exact receives

/-- What a statement commits by itself consumes and delivers nothing. -/
theorem advances_auto {input : Input} {phase phase' : Phase} {auto : List Statement}
    (advances : Advances db inv input phase phase' auto) : ∀ st ∈ auto,Neutral st := by
  cases advances with
  | sleeps startTime endTimeMs phase after => simp [Neutral,sleepCheckpoint,DBOS_FUNCNAME_SLEEP,DBOS_FUNCNAME_RECV]
  | sleepClaims => simp [Neutral]
  | _ => simp

theorem holds_advance {input : Input} {phase phase' : Phase} {auto : List Statement} (holds : Holds db inv phase)
    (apart : ∀ startTime m value row, phase = .acting startTime [] [.consume m] value →
      db.outputs.get? inv.key = some row → row.completed_at_epoch_ms.getD 0 ≠ input.now)
    (advances : Advances db inv input phase phase' auto) : Holds (applyAll db auto) inv phase' := by
  cases advances with
  | throws => trivial
  | checks => trivial
  | replays => trivial
  | misses => trivial
  | starts startTime => exact holds_firstStatement input startTime
  | sleeps startTime endTimeMs phase after =>
    rcases after with rfl | rfl
    · exact holds
    · exact holds
  | sleepClaims => exact holds
  | finds_none => exact ⟨.plain [] (by simp),by simp,by simp⟩
  | takes startTime messageUUID note found waiting => exact ⟨.took messageUUID note found waiting holds,by simp,by simp⟩
  | loses => exact ⟨.plain [] (by simp),by simp,by simp⟩
  | executes startTime statement rest done value =>
    obtain ⟨prepared,todo,plain⟩ := holds
    have neutral := plain (by simp)
    have here := todo statement List.mem_cons_self
    have grown : ∀ st ∈ done ++ [statement],Neutral st := by
      intro st member
      rcases List.mem_append.mp member with old | new
      · exact neutral st old
      · rw [List.mem_singleton.mp new]
        exact here
    refine ⟨?_,fun st member => todo st (List.mem_cons_of_mem _ member),fun _ => grown⟩
    cases prepared with
    | took m => exact (neutral _ List.mem_cons_self).elim
    | plain done _ => exact .plain _ grown
  | records startTime done value mine =>
    refine .sealed done value startTime input.now holds.1 ?_
    rintro m rfl
    show db.outputs.get? inv.key = none
    cases found : db.outputs.get? inv.key with
    | none => rfl
    | some row =>
      have other := apart startTime m value row rfl found
      simp [recordedEnd,found] at mine
      exact absurd mine other
  | claims done value => exact ⟨done,rfl,holds⟩
  | _ => exact holds

end
/-! ### Steps -/

/-- Everything that a step can be. -/
inductive Moves (s : System) : Event → System → Prop
  | invoke (inv : Invocation) : Moves s (.invoke inv) { s with sessions := s.sessions ++ [{ inv := inv }] }
  | next (i : Nat) (input : Input) (session : Session) (phase : Phase) (auto : List Statement)
      (found : s.sessions[i]? = some session) (advances : Advances s.db session.inv input session.phase phase auto)
      (free : Free (s.sessions.eraseIdx i) (phase.writes ++ auto)) :
      Moves s (.next i input)
        { db := applyAll s.db auto,sessions := s.sessions.set i { session with phase := phase } }
  | commit (i : Nat) (acknowledged : Bool) (session : Session) (done : List Statement) (value : Result) (phase : Phase)
      (found : s.sessions[i]? = some session) (claimed : session.phase = .claimed done value)
      (after : phase = .returned value ∨ phase = .called) :
      Moves s (.commit i acknowledged)
        { db := applyAll s.db done,sessions := s.sessions.set i { session with phase := phase } }
  | replay (i : Nat) (acknowledged : Bool) (session : Session) (value : Result) (phase : Phase)
      (found : s.sessions[i]? = some session) (after : phase = .returned value ∨ phase = .called) :
      Moves s (.commit i acknowledged) { s with sessions := s.sessions.set i { session with phase := phase } }
  | drop (i : Nat) (session : Session) (found : s.sessions[i]? = some session) :
      Moves s (.drop i) { s with sessions := s.sessions.set i { session with phase := .called } }
  | sendDirect (destinationID : String) (message topic serialization idempotencyKey : Option String) (input : Input)
      (statements : List Statement) (neutral : ∀ st ∈ statements,Neutral st) (free : Free s.sessions statements) :
      Moves s (.sendDirect destinationID message topic serialization idempotencyKey input)
        { s with db := applyAll s.db statements }
  | statuses (t : Statuses) : Moves s (.statuses t) { s with db := { s.db with statuses := t } }

theorem step_moves {s s' : System} {e : Event} (taken : step s e = some s') : Moves s e s' := by
  cases e with
  | invoke inv =>
    cases taken
    exact .invoke inv
  | next i input =>
    simp only [step] at taken
    split at taken
    · rename_i session found
      split at taken
      · rename_i phase auto advanced
        split at taken
        · cases taken
          exact .next i input session phase auto found (advance_cases advanced) (by assumption)
        · cases taken
      · cases taken
    · cases taken
  | commit i acknowledged =>
    simp only [step] at taken
    split at taken
    · rename_i session found
      split at taken
      · rename_i done value claimed
        cases taken
        exact .commit i acknowledged session done value _ found claimed (by cases acknowledged <;> simp)
      · rename_i value _
        cases taken
        exact .replay i acknowledged session value _ found (by cases acknowledged <;> simp)
      · cases taken
    · cases taken
  | drop i =>
    simp only [step] at taken
    split at taken
    · cases taken
      exact .drop i _ (by assumption)
    · cases taken
  | sendDirect destinationID message topic serialization idempotencyKey input =>
    simp only [step] at taken
    split at taken
    · rename_i statements writes
      split at taken <;> cases taken
      exact .sendDirect _ _ _ _ _ _ statements (insertMessage_neutral writes) (by assumption)
    · -- Nothing is written when the INSERT fails.
      cases taken
      exact .sendDirect _ _ _ _ _ _ [] (by simp) fun _ _ => by simp [rowsOf]
  | statuses t =>
    cases taken
    exact .statuses t

/-- No two transactions have written the same row. -/
def Exclusive (sessions : List Session) : Prop :=
  ∀ (i j : Nat) session session', i ≠ j → sessions[i]? = some session → sessions[j]? = some session' →
    ∀ row ∈ rowsOf session.phase.writes,row ∉ rowsOf session'.phase.writes

/-- A session moves to a phase whose rows are free. -/
theorem exclusive_set {sessions : List Session} (exclusive : Exclusive sessions) {i : Nat} {session : Session}
    (found : sessions[i]? = some session) {phase : Phase}
    (free : ∀ (j : Nat) other, j ≠ i → sessions[j]? = some other → ∀ row ∈ rowsOf phase.writes,row ∉ rowsOf other.phase.writes) :
    Exclusive (sessions.set i { session with phase := phase }) := by
  refine parties_apart ?_ found exclusive free
  intro a b apart row member shared
  exact apart row shared member

/-- A session gives up its transaction, or ends without one. -/
theorem exclusive_release {sessions : List Session} (exclusive : Exclusive sessions) {i : Nat} {session : Session}
    (found : sessions[i]? = some session) {phase : Phase} (value : Result) (after : phase = .returned value ∨ phase = .called) :
    Exclusive (sessions.set i { session with phase := phase }) := by
  have empty : phase.writes = [] := by rcases after with rfl | rfl <;> rfl
  refine exclusive_set exclusive found ?_
  intro j other _ _ row member
  rw [empty] at member
  cases member

theorem step_exclusive {s s' : System} {e : Event} (exclusive : Exclusive s.sessions) (taken : step s e = some s') :
    Exclusive s'.sessions := by
  cases step_moves taken with
  | invoke inv =>
    intro j k session session' differ listed listed' row member
    rcases party_append listed with old | ⟨_,rfl⟩
    · rcases party_append listed' with old' | ⟨_,rfl⟩
      · exact exclusive j k session session' differ old old' row member
      · exact List.not_mem_nil
    · cases member
  | next i input session phase auto found advances free =>
    refine exclusive_set exclusive found ?_
    intro j other differ listed row member
    exact free other (List.mem_eraseIdx_iff_getElem?.mpr ⟨j,differ,listed⟩) row (mem_rowsOf_append.mpr (.inl member))
  | commit i acknowledged session done value phase found claimed after => exact exclusive_release exclusive found value after
  | replay i acknowledged session value phase found after => exact exclusive_release exclusive found value after
  | drop i session found => exact exclusive_release exclusive found {} (.inr rfl)
  | sendDirect => exact exclusive
  | statuses t => exact exclusive

/-- Messages are paired, and the transactions under way hold what they have read and written
    apart from each other. -/
structure Good (s : System) : Prop where
  paired : Paired s.db
  holds : ∀ (i : Nat) session, s.sessions[i]? = some session → Holds s.db session.inv session.phase
  exclusive : ∀ (i j : Nat) session session', i ≠ j → s.sessions[i]? = some session → s.sessions[j]? = some session' →
    ∀ row ∈ rowsOf session.phase.writes,row ∉ rowsOf session'.phase.writes

theorem holds_after {db : Database} {inv : Invocation} {phase : Phase} (value : Result)
    (after : phase = .returned value ∨ phase = .called) : Holds db inv phase := by
  rcases after with rfl | rfl <;> trivial

/-- A commit delivers the message that the transaction has taken, if it has. -/
theorem paired_commit {db : Database} (paired : Paired db) {inv : Invocation} {done : List Statement} {value : Result}
    (holds : Holds db inv (.claimed done value)) : Paired (applyAll db done) := by
  obtain ⟨before,rfl,closed⟩ := holds
  obtain ⟨writes,value,startTime,endTime,prepared,fresh⟩ := closed
  have marker : ∀ st ∈ [Statement.claimExecutor inv.executorID inv.workflowID],Neutral st := by simp [Neutral]
  cases prepared with
  | took messageUUID note found waiting receives =>
    have delivered := paired_deliver paired found waiting receives (fresh messageUUID rfl) startTime endTime
    exact paired_neutral delivered marker
  | plain done neutral =>
    refine paired_neutral paired ?_
    intro st member
    rcases List.mem_append.mp member with earlier | last
    · rcases List.mem_append.mp earlier with written | checkpoint
      · exact neutral st written
      · rw [List.mem_singleton.mp checkpoint]
        exact .inr rfl
    · exact marker st last

theorem step_good {s s' : System} {e : Event} (good : Good s) (apart : distinct s e = true) (taken : step s e = some s') :
    Good s' := by
  have exclusive := step_exclusive good.exclusive taken
  cases step_moves taken with
  | invoke inv =>
    refine ⟨good.paired,?_,exclusive⟩
    intro j session listed
    rcases party_append listed with old | ⟨_,rfl⟩
    · exact good.holds j session old
    · trivial
  | next i input session phase auto found advances free =>
    have here : Holds (applyAll s.db auto) session.inv phase := by
      refine holds_advance (good.holds i session found) ?_ advances
      intro startTime m value row acting stored
      simp only [distinct,found,acting,stored,Option.all_some,decide_eq_true_eq] at apart
      exact apart
    refine ⟨paired_neutral good.paired (advances_auto advances),parties_set found here ?_,exclusive⟩
    intro j other differ listed
    refine holds_frame_all (good.holds j other listed) ?_
    intro row member shared
    exact free other (List.mem_eraseIdx_iff_getElem?.mpr ⟨j,differ,listed⟩) row (mem_rowsOf_append.mpr (.inr shared)) member
  | commit i acknowledged session done value phase found claimed after =>
    have holds := good.holds i session found
    rw [claimed] at holds
    refine ⟨paired_commit good.paired holds,parties_set found (holds_after value after) ?_,exclusive⟩
    intro j other differ listed
    refine holds_frame_all (good.holds j other listed) ?_
    have rows := good.exclusive j i other session differ listed found
    rw [claimed] at rows
    exact rows
  | replay i acknowledged session value phase found after =>
    exact ⟨good.paired,parties_set found (holds_after value after) fun j other _ listed => good.holds j other listed,exclusive⟩
  | drop i session found =>
    exact ⟨good.paired,parties_set found trivial fun j other _ listed => good.holds j other listed,exclusive⟩
  | sendDirect destinationID message topic serialization idempotencyKey input statements neutral free =>
    refine ⟨paired_neutral good.paired neutral,?_,exclusive⟩
    intro j session listed
    refine holds_frame_all (good.holds j session listed) ?_
    intro row member shared
    exact free session (List.mem_of_getElem? listed) row shared member
  | statuses t =>
    refine ⟨good.paired,?_,exclusive⟩
    intro j session listed
    exact holds_frame (good.holds j session listed) (fun _ _ => rfl) fun _ _ => rfl

/-- In every run whose steps meet the condition, consumed notifications and delivered messages
    stay in one-to-one correspondence. -/
theorem messages_conserved {db : Database} (begins : Conserved db) {events : List Event}
    (apart : Along step (fun s e => distinct s e = true) (start db) events) {s : System} (run : Runs step (start db) events s) :
    Conserved s.db := by
  have good : Good s := by
    refine along_invariant (fun _ _ _ => step_good) ?_ apart run
    exact ⟨(conserved_iff db).mp begins,by simp [start],by simp [start]⟩
  exact (conserved_iff s.db).mpr good.paired

def note (message : String) (createdAt : Int) : Notification :=
  { destination_uuid := "w",topic := nullTopic,message := message,created_at_epoch_ms := createdAt }

/-- Two messages for one workflow. -/
def twoMessages : Database := { notifications := (Table.empty.insert "m1" (note "1" 1)).insert "m2" (note "2" 2) }

/-- The same `recv` on two executors. -/
def recvOn (executorID : String) : Invocation :=
  { executorID := executorID,workflowID := "w",functionID := 0,timeoutFunctionID := 1,op := .recv none 0 }

/-- Both look for the checkpoint and the message before the first consumes "m1" and commits at 10;
    the second then consumes "m2" and records it at `endTime`. -/
def racing (endTime : Int) : List Event :=
  [Event.invoke (recvOn "e1"),.invoke (recvOn "e2")] ++ List.replicate 6 (Event.next 0 {}) ++ List.replicate 6 (Event.next 1 {}) ++
    [Event.next 0 { chosen := some "m1" },.next 0 {},.next 0 { now := 10 },.next 0 {},.commit 0 true,
     .next 1 { chosen := some "m2" },.next 1 {},.next 1 { now := endTime }]

def bothCommit : List Event := racing 10 ++ [Event.next 1 {},.commit 1 true]

/-- In the same millisecond the second commits too: both messages are consumed, one is delivered. -/
theorem sameMillisecond_lost : ∃ s, Runs step (start twoMessages) bothCommit s ∧
    Consumed s.db "m1" ∧ Consumed s.db "m2" ∧ (∀ key, Delivered s.db key → key = ("w",0)) ∧ ¬ Conserved s.db := by
  obtain ⟨s,run,first,second,rows⟩ : ∃ s, Runs step (start twoMessages) bothCommit s ∧
      Consumed s.db "m1" ∧ Consumed s.db "m2" ∧ s.db.outputs.entries.map Prod.fst = [("w",0)] :=
    ⟨_,rfl,⟨_,rfl,rfl⟩,⟨_,rfl,rfl⟩,rfl⟩
  have only : ∀ key, Delivered s.db key → key = ("w",0) := by
    rintro key ⟨row,found,_⟩
    have member := List.mem_map_of_mem (f := Prod.fst) ((s.db.outputs.get?_eq_some key row).mp found)
    rw [rows] at member
    exact List.mem_singleton.mp member
  refine ⟨s,run,first,second,only,?_⟩
  rintro ⟨delivery,⟨injective,_⟩,_⟩
  have same : delivery ⟨"m1",first⟩ = delivery ⟨"m2",second⟩ :=
    Subtype.ext ((only _ (delivery ⟨"m1",first⟩).2).trans (only _ (delivery ⟨"m2",second⟩).2).symm)
  have equal : "m1" = "m2" := congrArg Subtype.val (injective same)
  exact absurd equal (by decide)

theorem nothing_consumed : Conserved twoMessages := by
  have unconsumed : ∀ m, ¬ Consumed twoMessages m := by
    rintro m ⟨row,found,consumed⟩
    have member := (twoMessages.notifications.get?_eq_some m row).mp found
    have all : ∀ e ∈ twoMessages.notifications.entries,e.2.consumed = false := by decide
    rw [all _ member] at consumed
    cases consumed
  have undelivered : ∀ k, ¬ Delivered twoMessages k := by
    rintro k ⟨row,found,_⟩
    cases found
  exact ⟨fun m => (unconsumed m.1 m.2).elim,⟨fun m => (unconsumed m.1 m.2).elim,fun k => (undelivered k.1 k.2).elim⟩,
    fun m => (unconsumed m.1 m.2).elim⟩

/-- A millisecond later the second gives up, and "m2" stays for the next `recv`. -/
theorem racing_conserved : ∃ s, Runs step (start twoMessages) (racing 11) s ∧ Consumed s.db "m1" ∧ ¬ Consumed s.db "m2" ∧
    Conserved s.db := by
  obtain ⟨s,run,first,second⟩ : ∃ s, Runs step (start twoMessages) (racing 11) s ∧ Consumed s.db "m1" ∧
      s.db.notifications.get? "m2" = some (note "2" 2) := ⟨_,rfl,⟨_,rfl,rfl⟩,rfl⟩
  refine ⟨s,run,first,?_,messages_conserved nothing_consumed (by decide) run⟩
  rintro ⟨row,found,consumed⟩
  cases second.symm.trans found
  cases consumed

end Dbos.Messages
