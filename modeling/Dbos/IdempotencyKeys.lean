import Dbos.Messages
import Dbos.Pg.Fields

/-!
Sends with an idempotency key. The key and the destination are joined by `::`, which both may have themselves, so that sends to two
destinations can have one `message_uuid`; the second one is then taken for a retry of the first and writes nothing. The system of
`Dbos.Messages` runs with two counters for one keyed send: the calls of it that have been completed, and the rows that were created under
its `message_uuid`.
-/
namespace Dbos.IdempotencyKeys
open Dbos.Pg Dbos.Schema Dbos.Communication
open Dbos.Messages (Session Event Free Moves step_moves Exclusive step_exclusive)

/-! ### Two keys -/

/-- The key of `q` goes on where the one of `p` ends, with `::` and perhaps more, and the destination of `p` starts with what is left of it. -/
def Shifted (p q : String × String) : Prop :=
  (q.1 = p.1 ++ ":" ∧ p.2 = ":" ++ q.2) ∨ ∃ middle,q.1 = p.1 ++ "::" ++ middle ∧ p.2 = middle ++ "::" ++ q.2

def Collide (p q : String × String) : Prop := Shifted p q ∨ Shifted q p

/-- The `message_uuid` of a send with a key. -/
def keyedUUID (p : String × String) : String := s!"{p.1}::{p.2}"

theorem keyedUUID_toList (p : String × String) : (keyedUUID p).toList = p.1.toList ++ ':' :: ':' :: p.2.toList := by
  simp [keyedUUID,toString]

theorem messageUUIDOf_keyed {key : String} (some_ : key ≠ "") (destinationID randomUUID : String) :
    messageUUIDOf (some key) destinationID randomUUID = keyedUUID (key,destinationID) := if_neg some_

theorem shifted_iff (p q : String × String) :
    Shifted p q ↔ ∃ gap,gap ≠ [] ∧ q.1.toList = p.1.toList ++ gap ∧ ':' :: ':' :: p.2.toList = gap ++ ':' :: ':' :: q.2.toList := by
  unfold Shifted
  simp only [← String.toList_inj,String.toList_append]
  constructor
  · rintro (⟨key,destination⟩ | ⟨middle,key,destination⟩)
    · exact ⟨[':'],by simp,key,by simp [destination]⟩
    · exact ⟨':' :: ':' :: middle.toList,by simp,by simp [key],by simp [destination]⟩
  · rintro ⟨gap,some_,key,rest⟩
    match gap with
    | [] => exact absurd rfl some_
    | [c] =>
      simp only [List.cons_append,List.nil_append,List.cons.injEq] at rest
      obtain ⟨rfl,_,destination⟩ := rest
      exact .inl ⟨key,by simpa using destination⟩
    | c :: d :: middle =>
      simp only [List.cons_append,List.cons.injEq] at rest
      obtain ⟨rfl,rfl,destination⟩ := rest
      exact .inr ⟨String.ofList middle,by simp [key],by simp [destination]⟩

theorem keyedUUID_eq_iff (p q : String × String) : keyedUUID p = keyedUUID q ↔ p = q ∨ Collide p q := by
  rw [← String.toList_inj,keyedUUID_toList,keyedUUID_toList]
  unfold Collide
  rw [shifted_iff,shifted_iff]
  constructor
  · intro same
    rcases List.append_eq_append_iff.mp same with ⟨gap,key,rest⟩ | ⟨gap,key,rest⟩
    · by_cases none_ : gap = []
      · subst none_
        rw [List.append_nil] at key
        rw [List.nil_append,List.cons.injEq,List.cons.injEq] at rest
        exact .inl (Prod.ext (String.toList_inj.mp key.symm) (String.toList_inj.mp rest.2.2))
      · exact .inr (.inl ⟨gap,none_,key,rest⟩)
    · by_cases none_ : gap = []
      · subst none_
        rw [List.append_nil] at key
        rw [List.nil_append,List.cons.injEq,List.cons.injEq] at rest
        exact .inl (Prod.ext (String.toList_inj.mp key) (String.toList_inj.mp rest.2.2.symm))
      · exact .inr (.inr ⟨gap,none_,key,rest⟩)
  · rintro (rfl | ⟨gap,_,key,rest⟩ | ⟨gap,_,key,rest⟩)
    · rfl
    · rw [key,rest,List.append_assoc]
    · rw [key,rest,List.append_assoc]

/-- A pair does not collide with itself. -/
theorem not_collide_self (p : String × String) : ¬ Collide p p := by
  unfold Collide
  rw [shifted_iff,or_self]
  rintro ⟨gap,some_,key,_⟩
  exact some_ (List.append_right_eq_self.mp key.symm)

/-- After a first send has been written the second is suppressed if and only if it has its key and its destination. -/
def SuppressedExactly (first second : String × String) : Prop :=
  ∀ (db : Database) (statements : List Statement) (message message' : String) (topic topic' serialization serialization' : Option String)
    (input input' : Input),
    db.notifications.get? (keyedUUID first) = none → db.notifications.get? (keyedUUID second) = none →
    insertMessage db first.2 (some message) topic serialization (some first.1) input = .ok statements →
    (insertMessage (applyAll db statements) second.2 (some message') topic' serialization' (some second.1) input' = .ok [] ↔
      first.1 = second.1 ∧ first.2 = second.2)

/-- The INSERT of a keyed send writes nothing if there is a row, and only then. -/
theorem suppressed_iff {db : Database} {p : String × String} (key : p.1 ≠ "") {message : String} {topic serialization : Option String}
    {input : Input} : insertMessage db p.2 (some message) topic serialization (some p.1) input = .ok [] ↔
      (db.notifications.get? (keyedUUID p)).isSome = true := by
  constructor
  · intro quiet
    obtain ⟨_,_,⟨_,there⟩ | ⟨some_,_⟩⟩ := insertMessage_ok quiet
    · rwa [messageUUIDOf_keyed key] at there
    · cases some_
  · intro there
    unfold insertMessage
    dsimp only
    rw [messageUUIDOf_keyed key,if_pos there]

/-- After the INSERT there is a row under its `message_uuid`, and those that were there before. -/
theorem insertMessage_rows {db : Database} {destinationID : String} {message topic serialization idempotencyKey : Option String} {input : Input}
    {statements : List Statement} (writes : insertMessage db destinationID message topic serialization idempotencyKey input = .ok statements)
    (messageUUID : String) : ((applyAll db statements).notifications.get? messageUUID).isSome = true ↔
      messageUUID = messageUUIDOf idempotencyKey destinationID input.randomUUID ∨ (db.notifications.get? messageUUID).isSome = true := by
  obtain ⟨text,_,⟨rfl,there⟩ | ⟨rfl,_⟩⟩ := insertMessage_ok writes
  · refine ⟨.inr,?_⟩
    rintro (rfl | old)
    · exact there
    · exact old
  · simp only [applyAll,List.foldl_cons,List.foldl_nil,Statement.apply,Table.get?_insert]
    split
    · rename_i same
      simp [same]
    · rename_i other
      simp [other]

theorem suppressedExactly_iff {first second : String × String} (key : first.1 ≠ "") (key' : second.1 ≠ "") :
    SuppressedExactly first second ↔ ¬ Collide first second := by
  constructor
  · intro exactly collide
    -- the destination of the first send is there, and no message
    let db : Database := { statuses := Table.empty.insert first.2 { status := .PENDING,name := "f",created_at := 0,updated_at := 0 } }
    obtain ⟨statements,writes⟩ : ∃ statements,insertMessage db first.2 (some "m") none none (some first.1) {} = .ok statements := by
      unfold insertMessage
      simp [db]
    have same := (keyedUUID_eq_iff first second).mpr (.inr collide)
    have answer := exactly db statements "m" "m" none none none none {} {} rfl rfl writes
    rw [suppressed_iff key',insertMessage_rows writes,messageUUIDOf_keyed key] at answer
    have equal := answer.mp (.inl same.symm)
    exact not_collide_self first ((Prod.ext equal.1 equal.2 : first = second) ▸ collide)
  · intro apart db statements message message' topic topic' serialization serialization' input input' absent absent' writes
    rw [suppressed_iff key',insertMessage_rows writes,messageUUIDOf_keyed key,absent']
    constructor
    · rintro (same | none_)
      · rcases (keyedUUID_eq_iff first second).mp same.symm with rfl | collide
        · exact ⟨rfl,rfl⟩
        · exact absurd collide apart
      · cases none_
    · rintro ⟨key,destination⟩
      exact .inl (by rw [show first = second from Prod.ext key destination])

/-! ### One send, over and over -/

/-- The operation is the send `p`. -/
def isSend (p : String × String) : Operation → Bool
  | .send destinationID _ _ _ idempotencyKey => destinationID = p.2 ∧ idempotencyKey = some p.1
  | _ => false

/-- The system, the calls of one send that have been completed, and the rows created under its `message_uuid`. -/
structure Traced where
  sys : Messages.System
  completed : Nat := 0
  created : Nat := 0

/-- The event completes the send: its transaction commits, or `sendDirect` is done. -/
def completes (p : String × String) (s : Messages.System) : Event → Bool
  | .commit i _ => s.sessions[i]?.any fun session =>
    match session.phase with
    | .claimed _ _ => isSend p session.inv.op
    | _ => false
  | .sendDirect destinationID message topic serialization idempotencyKey input =>
    destinationID = p.2 ∧ idempotencyKey = some p.1 ∧
      (insertMessage s.db destinationID message topic serialization idempotencyKey input).toOption.isSome
  | _ => false

def hasRow (p : String × String) (s : Messages.System) : Bool := (s.db.notifications.get? (keyedUUID p)).isSome

def step (p : String × String) (t : Traced) (e : Event) : Option Traced :=
  (Messages.step t.sys e).map fun sys =>
    { sys := sys
      completed := t.completed + if completes p t.sys e then 1 else 0
      created := t.created + if !hasRow p t.sys && hasRow p sys then 1 else 0 }

def start (statuses : Statuses) : Traced := { sys := Messages.start { statuses := statuses } }

/-- The destination and the key of the send that the event runs the INSERT of, and the random number it has. -/
def sends (s : Messages.System) : Event → Option (String × Option String × String)
  | .next i input =>
    match s.sessions[i]? with
    | some session =>
      match session.phase,session.inv.op with
      | .missed _,.send destinationID _ _ _ idempotencyKey => some (destinationID,idempotencyKey,input.randomUUID)
      | _,_ => none
    | none => none
  | .sendDirect destinationID _ _ _ idempotencyKey input => some (destinationID,idempotencyKey,input.randomUUID)
  | _ => none

/-- The condition on the steps: no other send collides with `p`, by its key and its destination or, if it has no key, by its random number. -/
def Apart (p : String × String) (t : Traced) (e : Event) : Prop :=
  ∀ destinationID idempotencyKey randomUUID,sends t.sys e = some (destinationID,idempotencyKey,randomUUID) →
    match idempotencyKey with
    | some key => if key = "" then randomUUID ≠ keyedUUID p else ¬ Collide p (key,destinationID)
    | none => randomUUID ≠ keyedUUID p

section
variable {p : String × String}

/-- Where sends do not collide, one that has the `message_uuid` of `p` is `p`. -/
theorem apart_uuid {t : Traced} {e : Event} (apart : Apart p t e) {destinationID : String} {idempotencyKey : Option String} {randomUUID : String}
    (sent : sends t.sys e = some (destinationID,idempotencyKey,randomUUID))
    (same : messageUUIDOf idempotencyKey destinationID randomUUID = keyedUUID p) : destinationID = p.2 ∧ idempotencyKey = some p.1 := by
  have condition := apart destinationID idempotencyKey randomUUID sent
  cases idempotencyKey with
  | none => exact absurd same condition
  | some key =>
    by_cases empty : key = ""
    · subst empty
      exact absurd same condition
    · rw [messageUUIDOf_keyed empty] at same
      dsimp only at condition
      rw [if_neg empty] at condition
      rcases (keyedUUID_eq_iff _ _).mp same.symm with equal | collide
      · rw [equal]
        exact ⟨rfl,rfl⟩
      · exact absurd collide condition

/-! ### Rows of notifications -/

theorem applyAll_some_kept (db : Database) {messageUUID : String} (there : (db.notifications.get? messageUUID).isSome = true)
    (statements : List Statement) : ((applyAll db statements).notifications.get? messageUUID).isSome = true := by
  induction statements generalizing db with
  | nil => exact there
  | cons statement rest ih =>
    refine ih (statement.apply db) ?_
    cases statement with
    | insertNotification m row =>
      rcases db.notifications.insert_cases m row messageUUID with same | ⟨_,absent,_⟩
      · exact (congrArg Option.isSome same).trans there
      · rw [absent] at there
        cases there
    | consume m => simpa [Statement.apply] using there
    | _ => exact there

/-- A row has the destination that it had, or that it was inserted with. -/
theorem applyAll_destination (db : Database) {messageUUID : String} {statements : List Statement} {row : Notification}
    (found : (applyAll db statements).notifications.get? messageUUID = some row) :
    (∃ old,db.notifications.get? messageUUID = some old ∧ old.destination_uuid = row.destination_uuid) ∨
      ∃ new,.insertNotification messageUUID new ∈ statements ∧ new.destination_uuid = row.destination_uuid := by
  induction statements generalizing db with
  | nil => exact .inl ⟨row,found,rfl⟩
  | cons statement rest ih =>
    rcases ih (statement.apply db) found with ⟨old,before,same⟩ | ⟨new,listed,same⟩
    · cases statement with
      | insertNotification m new =>
        rcases db.notifications.insert_cases m new messageUUID with kept | ⟨rfl,_,inserted⟩
        · exact .inl ⟨old,kept.symm.trans before,same⟩
        · cases inserted.symm.trans before
          exact .inr ⟨old,List.mem_cons_self,same⟩
      | consume m =>
        rcases db.notifications.update_cases (consumeHits m) (fun _ row => { row with consumed := true }) messageUUID with kept | ⟨r,there,_,updated⟩
        · exact .inl ⟨old,kept.symm.trans before,same⟩
        · cases updated.symm.trans before
          exact .inl ⟨r,there,same⟩
      | _ => exact .inl ⟨old,before,same⟩
    · exact .inr ⟨new,List.mem_cons_of_mem _ listed,same⟩

theorem applyAll_inserted {db : Database} {messageUUID : String} {statements : List Statement} {new : Notification}
    (listed : .insertNotification messageUUID new ∈ statements) : ((applyAll db statements).notifications.get? messageUUID).isSome = true := by
  induction statements generalizing db with
  | nil => cases listed
  | cons statement rest ih =>
    rcases List.mem_cons.mp listed with rfl | later
    · refine applyAll_some_kept (Statement.apply db (.insertNotification messageUUID new)) ?_ rest
      cases found : db.notifications.get? messageUUID <;> simp [Statement.apply,found]
    · exact ih later

/-! ### What holds of a call in each phase -/

def transacting : Phase → Bool
  | .acting .. => true
  | .recorded .. => true
  | .claimed .. => true
  | _ => false

/-- The phases of `recv` before it has taken a message. -/
def receiving : Phase → Bool
  | .sleeping .. => true
  | .sleepUncancelled .. => true
  | .sleepMissed .. => true
  | .sleepRecorded .. => true
  | .polling .. => true
  | .pollUncancelled .. => true
  | .arrived _ => true
  | .cleared _ => true
  | .locking .. => true
  | _ => false

/-- Only a call of the send `p` writes a row under its `message_uuid`, if none was there, and it writes one or has found one. -/
structure Standing (p : String × String) (db : Database) (inv : Invocation) (phase : Phase) : Prop where
  mine : ∀ row,.insertNotification (keyedUUID p) row ∈ phase.writes →
    isSend p inv.op = true ∧ row.destination_uuid = p.2 ∧ db.notifications.get? (keyedUUID p) = none
  written : isSend p inv.op = true → transacting phase = true →
    (∃ row,.insertNotification (keyedUUID p) row ∈ phase.writes) ∨ (db.notifications.get? (keyedUUID p)).isSome = true
  todo : ∀ startTime todo done value,phase = .acting startTime todo done value → ∀ row,.insertNotification (keyedUUID p) row ∉ todo
  receives : receiving phase = true → isSend p inv.op = false

variable {db : Database} {inv : Invocation} {phase phase' : Phase}

theorem standing_quiet (quiet : transacting phase = false) (receives : receiving phase = true → isSend p inv.op = false) :
    Standing p db inv phase := by
  have empty : phase.writes = [] := by cases phase <;> first | rfl | cases quiet
  refine ⟨by simp [empty],by simp [quiet],?_,receives⟩
  rintro startTime todo done value rfl
  cases quiet

theorem todo_acting {startTime : Int} {todo done : List Statement} {value : Result}
    (free : ∀ row,.insertNotification (keyedUUID p) row ∉ todo) : ∀ startTime' todo' done' value',
    Phase.acting startTime todo done value = .acting startTime' todo' done' value' → ∀ row,.insertNotification (keyedUUID p) row ∉ todo' := by
  rintro _ _ _ _ same
  cases same
  exact free

/-- What others commit to rows that the call has not written. -/
theorem standing_frame (standing : Standing p db inv phase) {statements : List Statement}
    (free : ∀ row ∈ rowsOf phase.writes,row ∉ rowsOf statements) : Standing p (applyAll db statements) inv phase where
  mine row member := by
    obtain ⟨send,destination,absent⟩ := standing.mine row member
    have held : .notification (keyedUUID p) ∈ rowsOf phase.writes := List.mem_filterMap.mpr ⟨_,member,rfl⟩
    exact ⟨send,destination,(applyAll_notification_frame db statements (free _ held)).trans absent⟩
  written send busy := (standing.written send busy).imp id fun there => applyAll_some_kept _ there statements
  todo := standing.todo
  receives := standing.receives

theorem standing_notifications {db' : Database} (standing : Standing p db inv phase) (same : db'.notifications = db.notifications) :
    Standing p db' inv phase := by
  obtain ⟨mine,written,todo,receives⟩ := standing
  exact ⟨by rwa [same],by rwa [same],todo,receives⟩

/-- What a statement of a call commits by itself is no notification. -/
theorem advances_notifications {input : Input} {auto : List Statement} (advances : Advances db inv input phase phase' auto) :
    (applyAll db auto).notifications = db.notifications := by
  cases advances <;> rfl

/-- A call that writes one statement more, which is no notification under the `message_uuid`. -/
theorem standing_more (standing : Standing p db inv phase) (statement : Statement) (busy : transacting phase = true)
    (other : ∀ row,statement ≠ .insertNotification (keyedUUID p) row) (writes : phase'.writes = phase.writes ++ [statement])
    (todo : ∀ startTime todo done value,phase' = .acting startTime todo done value → ∀ row,.insertNotification (keyedUUID p) row ∉ todo)
    (quiet : receiving phase' = false) : Standing p db inv phase' where
  mine row member := by
    rw [writes] at member
    rcases List.mem_append.mp member with old | new
    · exact standing.mine row old
    · exact absurd (List.mem_singleton.mp new).symm (other row)
  written send _ := by
    rcases standing.written send busy with ⟨row,member⟩ | there
    · exact .inl ⟨row,by rw [writes]; exact List.mem_append_left _ member⟩
    · exact .inr there
  todo := todo
  receives here := by
    rw [quiet] at here
    cases here

theorem standing_firstStatement (key : p.1 ≠ "") (input : Input) (startTime : Int)
    (apart : ∀ destinationID message topic serialization idempotencyKey,inv.op = .send destinationID message topic serialization idempotencyKey →
      messageUUIDOf idempotencyKey destinationID input.randomUUID = keyedUUID p → destinationID = p.2 ∧ idempotencyKey = some p.1) :
    Standing p db inv (firstStatement db inv input startTime) := by
  unfold firstStatement
  split
  · rename_i destinationID message topic serialization idempotencyKey op
    split
    · rename_i statements writes
      obtain ⟨text,_,⟨rfl,there⟩ | ⟨rfl,absent⟩⟩ := insertMessage_ok writes
      · refine ⟨by simp [Phase.writes],fun send _ => .inr ?_,?_,by simp [receiving]⟩
        · obtain ⟨rfl,rfl⟩ : destinationID = p.2 ∧ idempotencyKey = some p.1 := by simpa [isSend,op] using send
          rwa [messageUUIDOf_keyed key] at there
        · exact todo_acting fun _ => List.not_mem_nil
      · refine ⟨?_,fun send _ => .inl ?_,?_,by simp [receiving]⟩
        · intro row member
          obtain ⟨same,rfl⟩ : keyedUUID p = messageUUIDOf idempotencyKey destinationID input.randomUUID ∧ row = _ := by
            simpa [Phase.writes] using member
          obtain ⟨rfl,rfl⟩ := apart _ _ _ _ _ op same.symm
          refine ⟨by simp [isSend,op],rfl,?_⟩
          rw [same]
          simpa using absent
        · obtain ⟨rfl,rfl⟩ : destinationID = p.2 ∧ idempotencyKey = some p.1 := by simpa [isSend,op] using send
          rw [messageUUIDOf_keyed key]
          exact ⟨_,List.mem_cons_self⟩
        · exact todo_acting fun _ => List.not_mem_nil
    · exact standing_quiet rfl (by simp [receiving])
  · rename_i op
    split
    · exact standing_quiet rfl (by simp [receiving])
    · refine ⟨by simp [Phase.writes],by simp [isSend,op],?_,by simp [receiving]⟩
      exact todo_acting fun row => by simp
  · rename_i op
    refine ⟨by simp [Phase.writes,streamEntry],by simp [isSend,op],?_,by simp [receiving,streamEntry]⟩
    exact todo_acting fun row => by simp
  · rename_i op
    refine ⟨by simp [Phase.writes,streamEntry],by simp [isSend,op],?_,by simp [receiving,streamEntry]⟩
    exact todo_acting fun row => by simp
  · rename_i op
    split
    · exact standing_quiet rfl fun _ => by simp [isSend,op]
    · exact standing_quiet rfl fun _ => by simp [isSend,op]

theorem standing_advance (key : p.1 ≠ "") {input : Input} {auto : List Statement} (standing : Standing p db inv phase)
    (apart : ∀ startTime destinationID message topic serialization idempotencyKey,phase = .missed startTime →
      inv.op = .send destinationID message topic serialization idempotencyKey →
      messageUUIDOf idempotencyKey destinationID input.randomUUID = keyedUUID p → destinationID = p.2 ∧ idempotencyKey = some p.1)
    (advances : Advances db inv input phase phase' auto) : Standing p (applyAll db auto) inv phase' := by
  refine standing_notifications ?_ (advances_notifications advances)
  cases advances with
  | starts startTime => exact standing_firstStatement key input startTime fun _ _ _ _ _ => apart startTime _ _ _ _ _ rfl
  | takes startTime messageUUID row found waiting =>
    have receives := standing.receives rfl
    refine ⟨by simp [Phase.writes],by simp [receives],?_,by simp [receiving]⟩
    exact todo_acting fun _ => List.not_mem_nil
  | loses startTime messageUUID =>
    have receives := standing.receives rfl
    refine ⟨by simp [Phase.writes],by simp [receives],?_,by simp [receiving]⟩
    exact todo_acting fun _ => List.not_mem_nil
  | finds_none startTime none_ =>
    have receives := standing.receives rfl
    refine ⟨by simp [Phase.writes],by simp [receives],?_,by simp [receiving]⟩
    exact todo_acting fun _ => List.not_mem_nil
  | executes startTime statement rest done value =>
    have todo := standing.todo startTime _ done value rfl
    refine standing_more standing statement rfl ?_ rfl ?_ rfl
    · rintro row rfl
      exact todo row List.mem_cons_self
    · exact todo_acting fun row member => todo row (List.mem_cons_of_mem _ member)
  | records startTime done value mine => exact standing_more standing _ rfl (by simp) rfl (by simp) rfl
  | claims done value => exact standing_more standing _ rfl (by simp) rfl (by simp) rfl
  | sleeps startTime endTimeMs phase after =>
    rcases after with rfl | rfl
    · exact standing_quiet rfl fun _ => standing.receives rfl
    · exact standing_quiet rfl fun _ => standing.receives rfl
  | throws => exact standing_quiet rfl (by simp [receiving])
  | checks => exact standing_quiet rfl (by simp [receiving])
  | replays => exact standing_quiet rfl (by simp [receiving])
  | misses => exact standing_quiet rfl (by simp [receiving])
  | _ => exact standing_quiet rfl fun _ => standing.receives rfl

/-! ### Steps -/

/-- There is a row once the send has been completed, with its destination, and it was created once. -/
structure Kept (p : String × String) (t : Traced) : Prop where
  standing : ∀ (i : Nat) session,t.sys.sessions[i]? = some session → Standing p t.sys.db session.inv session.phase
  exclusive : Exclusive t.sys.sessions
  destination : ∀ row,t.sys.db.notifications.get? (keyedUUID p) = some row → row.destination_uuid = p.2
  completed : hasRow p t.sys = true ↔ 0 < t.completed
  created : t.created = if hasRow p t.sys then 1 else 0

/-- What a step has to do: a row appears with a completed call only, and the calls stay in order. -/
theorem kept_of {t : Traced} {e : Event} {sys : Messages.System} (kept : Kept p t) (taken : Messages.step t.sys e = some sys)
    (standing : ∀ (i : Nat) session,sys.sessions[i]? = some session → Standing p sys.db session.inv session.phase)
    (destination : ∀ row,sys.db.notifications.get? (keyedUUID p) = some row → row.destination_uuid = p.2)
    (rows : hasRow p sys = true ↔ hasRow p t.sys = true ∨ completes p t.sys e = true) :
    Kept p { sys := sys
             completed := t.completed + if completes p t.sys e then 1 else 0
             created := t.created + if !hasRow p t.sys && hasRow p sys then 1 else 0 } := by
  refine ⟨standing,step_exclusive kept.exclusive taken,destination,?_,?_⟩
  · show hasRow p sys = true ↔ _
    rw [rows,kept.completed]
    cases completes p t.sys e <;> simp
  · show _ = if hasRow p sys = true then 1 else 0
    rw [kept.created]
    cases before : hasRow p t.sys with
    | false => simp
    | true => simp [rows.mpr (.inl before)]

theorem standing_after (value : Result) (after : phase = .returned value ∨ phase = .called) : Standing p db inv phase := by
  rcases after with rfl | rfl
  · exact standing_quiet rfl (by simp [receiving])
  · exact standing_quiet rfl (by simp [receiving])

/-- A step after which the notifications are as they were, and no call is completed. -/
theorem kept_same {t : Traced} {e : Event} {sys : Messages.System} (kept : Kept p t) (taken : Messages.step t.sys e = some sys)
    (standing : ∀ (i : Nat) session,sys.sessions[i]? = some session → Standing p sys.db session.inv session.phase)
    (same : sys.db.notifications = t.sys.db.notifications) (incomplete : completes p t.sys e = false) :
    Kept p { sys := sys
             completed := t.completed + if completes p t.sys e then 1 else 0
             created := t.created + if !hasRow p t.sys && hasRow p sys then 1 else 0 } := by
  refine kept_of kept taken standing ?_ ?_
  · rw [same]
    exact kept.destination
  · simp [hasRow,same,incomplete]

theorem commit_kept {t : Traced} {i : Nat} {acknowledged : Bool} {sys : Messages.System} (kept : Kept p t)
    (moved : Messages.step t.sys (.commit i acknowledged) = some sys) :
    Kept p { sys := sys
             completed := t.completed + if completes p t.sys (.commit i acknowledged) then 1 else 0
             created := t.created + if !hasRow p t.sys && hasRow p sys then 1 else 0 } := by
  have taken := moved
  simp only [Messages.step] at moved
  split at moved
  · rename_i session found
    have standing := kept.standing i session found
    split at moved
    · rename_i done value claimed
      cases moved
      rw [claimed] at standing
      have send : completes p t.sys (.commit i acknowledged) = isSend p session.inv.op := by simp [completes,found,claimed]
      refine kept_of kept taken ?_ ?_ ?_
      · refine parties_set found (standing_after value (by cases acknowledged <;> simp)) ?_
        intro j other differ listed
        refine standing_frame (kept.standing j other listed) ?_
        have rows := kept.exclusive j i other session differ listed found
        rwa [claimed] at rows
      · intro row there
        rcases applyAll_destination _ there with ⟨old,before,same⟩ | ⟨new,listed,same⟩
        · exact same ▸ kept.destination old before
        · exact same ▸ (standing.mine new listed).2.1
      · rw [send]
        constructor
        · intro there
          obtain ⟨row,found'⟩ := Option.isSome_iff_exists.mp there
          rcases applyAll_destination _ found' with ⟨old,before,_⟩ | ⟨new,listed,_⟩
          · exact .inl (Option.isSome_iff_exists.mpr ⟨old,before⟩)
          · exact .inr (standing.mine new listed).1
        · rintro (before | send)
          · exact applyAll_some_kept _ before done
          · rcases standing.written send rfl with ⟨row,listed⟩ | before
            · exact applyAll_inserted listed
            · exact applyAll_some_kept _ before done
    · rename_i value replaying
      cases moved
      refine kept_same kept taken ?_ rfl (by simp [completes,found,replaying])
      exact parties_set found (standing_after value (by cases acknowledged <;> simp)) fun j other _ listed => kept.standing j other listed
    · cases moved
  · cases moved

theorem sendDirect_kept (key : p.1 ≠ "") {t : Traced} {destinationID : String} {message topic serialization idempotencyKey : Option String}
    {input : Input} {sys : Messages.System} (kept : Kept p t)
    (apart : Apart p t (.sendDirect destinationID message topic serialization idempotencyKey input))
    (moved : Messages.step t.sys (.sendDirect destinationID message topic serialization idempotencyKey input) = some sys) :
    Kept p { sys := sys
             completed := t.completed +
               if completes p t.sys (.sendDirect destinationID message topic serialization idempotencyKey input) then 1 else 0
             created := t.created + if !hasRow p t.sys && hasRow p sys then 1 else 0 } := by
  have taken := moved
  simp only [Messages.step] at moved
  split at moved
  · rename_i statements writes
    split at moved
    · rename_i free
      cases moved
      have mine : keyedUUID p = messageUUIDOf idempotencyKey destinationID input.randomUUID ↔
          completes p t.sys (.sendDirect destinationID message topic serialization idempotencyKey input) = true := by
        simp only [completes,writes,Except.toOption,Option.isSome_some,and_true,decide_eq_true_eq]
        constructor
        · intro same
          exact apart_uuid apart rfl same.symm
        · rintro ⟨rfl,rfl⟩
          exact (messageUUIDOf_keyed key _ _).symm
      refine kept_of kept taken ?_ ?_ ?_
      · intro j session listed
        refine standing_frame (kept.standing j session listed) ?_
        intro row member shared
        exact free session (List.mem_of_getElem? listed) row shared member
      · intro row there
        rcases applyAll_destination _ there with ⟨old,before,same⟩ | ⟨new,listed,same⟩
        · exact same ▸ kept.destination old before
        · obtain ⟨text,_,⟨rfl,_⟩ | ⟨rfl,_⟩⟩ := insertMessage_ok writes
          · cases listed
          · obtain ⟨uuid,rfl⟩ : keyedUUID p = messageUUIDOf idempotencyKey destinationID input.randomUUID ∧ new = _ := by simpa using listed
            rw [← same]
            exact (apart_uuid apart rfl uuid.symm).1
      · exact (insertMessage_rows writes (keyedUUID p)).trans (or_comm.trans (or_congr_right mine))
    · cases moved
  · rename_i e failed
    cases moved
    exact kept_same kept taken kept.standing rfl (by simp [completes,failed,Except.toOption])

theorem step_kept (key : p.1 ≠ "") {t t' : Traced} {e : Event} (kept : Kept p t) (apart : Apart p t e) (taken : step p t e = some t') : Kept p t' := by
  obtain ⟨sys,moved,rfl⟩ := Option.map_eq_some_iff.mp taken
  cases e with
  | invoke inv =>
    cases moved
    refine kept_same kept rfl ?_ rfl rfl
    intro j session listed
    rcases party_append listed with old | ⟨_,rfl⟩
    · exact kept.standing j session old
    · exact standing_quiet rfl (by simp [receiving])
  | next i input =>
    cases step_moves moved with
    | next _ _ session phase auto found advances free =>
      refine kept_same kept moved ?_ (advances_notifications advances) rfl
      refine parties_set found ?_ ?_
      · refine standing_advance key (kept.standing i session found) ?_ advances
        intro startTime destinationID message topic serialization idempotencyKey missed op same
        refine apart_uuid apart ?_ same
        have op' : session.inv.op = .send destinationID message topic serialization idempotencyKey := op
        simp only [sends,found,missed,op']
      · intro j other differ listed
        exact standing_notifications (kept.standing j other listed) (advances_notifications advances)
  | commit i acknowledged => exact commit_kept kept moved
  | drop i =>
    cases step_moves moved with
    | drop _ session found =>
      refine kept_same kept moved ?_ rfl rfl
      exact parties_set found (standing_quiet rfl (by simp [receiving])) fun j other _ listed => kept.standing j other listed
  | sendDirect destinationID message topic serialization idempotencyKey input => exact sendDirect_kept key kept apart moved
  | statuses statuses =>
    cases moved
    refine kept_same kept rfl ?_ rfl rfl
    exact fun j session listed => standing_notifications (kept.standing j session listed) rfl

theorem kept_start (p : String × String) (statuses : Statuses) : Kept p (start statuses) where
  standing i session listed := by simp [start,Messages.start] at listed
  exclusive i j session session' _ listed := by simp [start,Messages.start] at listed
  destination row found := by simp [start,Messages.start] at found
  completed := by simp [start,Messages.start,hasRow]
  created := by simp [start,Messages.start,hasRow]

/-- Of two keyed sends the second is suppressed for the first exactly if they are one send, unless their keys and destinations collide.
    Whatever is sent otherwise, however often a keyed send is tried and completed, one row is created for it, at its first completion,
    and from then on it is suppressed. -/
theorem keyed_sends {first second : String × String} (key : first.1 ≠ "") (key' : second.1 ≠ "") :
    (SuppressedExactly first second ↔ ¬ Collide first second) ∧
    ∀ (statuses : Statuses) (events : List Event) (t : Traced),Along (step first) (Apart first) (start statuses) events →
      Runs (step first) (start statuses) events t →
      t.created = min t.completed 1 ∧
      (∀ row,t.sys.db.notifications.get? (keyedUUID first) = some row → row.destination_uuid = first.2) ∧
      ∀ message topic serialization input,
        insertMessage t.sys.db first.2 (some message) topic serialization (some first.1) input = .ok [] ↔ 0 < t.completed := by
  refine ⟨suppressedExactly_iff key key',?_⟩
  intro statuses events t apart run
  have kept : Kept first t := along_invariant (fun _ _ _ => step_kept key) (kept_start first statuses) apart run
  refine ⟨?_,kept.destination,fun message topic serialization input => (suppressed_iff key).trans kept.completed⟩
  rw [kept.created]
  by_cases there : hasRow first t.sys = true
  · have some_ := kept.completed.mp there
    rw [if_pos there]
    omega
  · have none_ : ¬ 0 < t.completed := fun some_ => there (kept.completed.mpr some_)
    rw [if_neg there]
    omega

end

/-! ### Two destinations -/

/-- Two workflows that wait for messages. -/
def receivers : Statuses :=
  (Table.empty.insert "c" { status := .PENDING,name := "f",created_at := 1,updated_at := 1 }).insert "b::c"
    { status := .PENDING,name := "f",created_at := 1,updated_at := 1 }

/-- A send and its retry, and a message without a key. -/
def retries : List Event :=
  [.sendDirect "c" (some "1") none none (some "a") {},.sendDirect "c" (some "1") none none (some "a") {},
   .sendDirect "c" (some "2") none none none { randomUUID := "r" }]

theorem keyed_sends_retried : SuppressedExactly ("a","c") ("b","c") ∧
    ∃ t,Runs (step ("a","c")) (start receivers) retries t ∧ t.completed = 2 ∧ t.created = 1 := by
  have sends_ := @keyed_sends ("a","c") ("b","c") (by decide) (by decide)
  have distinct : ¬ Collide ("a","c") ("b","c") := by
    unfold Collide
    rw [shifted_iff,shifted_iff]
    rintro (⟨gap,_,same,_⟩ | ⟨gap,_,same,_⟩) <;> simp at same
  refine ⟨sends_.1.mpr distinct,_,rfl,rfl,?_⟩
  refine (sends_.2 receivers retries _ (along_iff.mpr ?_) rfl).1
  intro before e after t split _
  have listed : e ∈ retries := by simp [split]
  simp only [retries,List.mem_cons,List.not_mem_nil,or_false] at listed
  rintro destinationID idempotencyKey randomUUID sent
  rcases listed with rfl | rfl | rfl
  · cases sent
    exact not_collide_self _
  · cases sent
    exact not_collide_self _
  · cases sent
    decide

/-- The same sender uses "a" for one of them and "a::b" for the other. -/
def twoSends : List Event :=
  [.sendDirect "b::c" (some "1") none none (some "a") {},.sendDirect "c" (some "2") none none (some "a::b") {}]

/-- Both calls succeed, and the second workflow never gets its message. -/
theorem twoSends_suppressed : ∃ s,Runs Messages.step (Messages.start { statuses := receivers }) twoSends s ∧
    s.db.notifications.entries.map (fun e => (e.1,e.2.destination_uuid)) = [("a::b::c","b::c")] ∧
    ¬ SuppressedExactly ("a","b::c") ("a::b","c") := by
  refine ⟨_,rfl,rfl,?_⟩
  rw [suppressedExactly_iff (by decide) (by decide),not_not]
  exact .inl (.inr ⟨"b",rfl,rfl⟩)

end Dbos.IdempotencyKeys
