import Dbos.MessageFlow

/-!
The order of messages. A workflow sends to one destination on one topic, each call after the one
before has returned, and the destination calls `recv` again and again. The notifications are
ordered by `created_at_epoch_ms`, the clock of the database in whole milliseconds: the
messages come in the order in which they were sent as long as no message of the sender that is
still waiting has the time of a later one. In one millisecond they come in either order.
-/
namespace Dbos.MessageOrder
open Dbos.Pg Dbos.Schema Dbos.Communication Dbos.MessageFlow
open Dbos.Messages (Session Event step_moves Exclusive step_exclusive)

section
variable {program : String → Nat → Option Operation} {c : Channel} {db db' : Database} {sent received : List (Nat × String)}
  {inv : Invocation}

/-! ### Steps -/

/-- The two ways of a commit. -/
theorem commit_cases {s s' : Messages.System} {i : Nat} {acknowledged : Bool}
    (taken : Messages.step s (.commit i acknowledged) = some s') : ∃ session value phase, s.sessions[i]? = some session ∧
      (phase = .returned value ∨ phase = .called) ∧
      ((∃ done, session.phase = .claimed done value ∧
        s' = { db := applyAll s.db done,sessions := s.sessions.set i { session with phase := phase } }) ∨
      session.phase = .replaying value ∧ s' = { s with sessions := s.sessions.set i { session with phase := phase } }) := by
  simp only [Messages.step] at taken
  split at taken
  · rename_i session found
    split at taken
    · rename_i done value claimed
      cases taken
      exact ⟨session,value,_,found,by cases acknowledged <;> simp,.inl ⟨done,claimed,rfl⟩⟩
    · rename_i value replaying
      cases taken
      exact ⟨session,value,_,found,by cases acknowledged <;> simp,.inr ⟨replaying,rfl⟩⟩
    · cases taken
  · cases taken

variable {t : Traced}

/-- A session moves on, and the database and the logs with it. -/
theorem ordered_set (ordered : Ordered program c t) {i : Nat} {session : Session} (found : t.sys.sessions[i]? = some session)
    {phase : Phase} (exclusive : Exclusive (t.sys.sessions.set i { session with phase := phase }))
    (kept : ∀ k row, t.sys.db.outputs.get? k = some row → db.outputs.get? k = some row)
    (here : Standing c db session.inv phase)
    (there : ∀ (j : Nat) other, j ≠ i → t.sys.sessions[j]? = some other → Standing c db other.inv other.phase)
    (first : ∀ m ∈ reaches phase,First db sent received m)
    (others : ∀ m, First t.sys.db t.sent t.received m → First db sent received m) (flows : Flows program c db sent received) :
    Ordered program c ⟨{ db := db,sessions := t.sys.sessions.set i { session with phase := phase } },sent,received⟩ := by
  have listed := List.mem_of_getElem? found
  refine ⟨exclusive,?_,?_,?_,?_,flows⟩
  · exact parties_set found here there
  · refine parties_set found first ?_
    intro j other _ old m member
    exact others m (ordered.first j other old m member)
  · refine all_set (fun other old => waited_kept (ordered.sender other old) kept) ?_ i
    exact waited_kept (ordered.sender session listed) kept
  · refine all_set (fun other old => waited_kept (ordered.destination other old) kept) ?_ i
    exact waited_kept (ordered.destination session listed) kept

/-- A session moves on, and what is there stays. -/
theorem ordered_grows (ordered : Ordered program c t) {i : Nat} {session : Session} (found : t.sys.sessions[i]? = some session)
    {phase : Phase} (exclusive : Exclusive (t.sys.sessions.set i { session with phase := phase })) (grows : Grows t.sys.db db)
    (here : Standing c db session.inv phase)
    (there : ∀ (j : Nat) other, j ≠ i → t.sys.sessions[j]? = some other → Standing c db other.inv other.phase)
    (first : ∀ m ∈ reaches phase,First t.sys.db t.sent t.received m) :
    Ordered program c ⟨{ db := db,sessions := t.sys.sessions.set i { session with phase := phase } },t.sent,t.received⟩ :=
  ordered_set ordered found exclusive grows.outputs here there (fun m member => first_grows (first m member) grows)
    (fun _ first => first_grows first grows) (flows_grows ordered.flows grows)

theorem grows_refl (db : Database) : Grows db db := ⟨fun _ _ found => found,fun _ _ found _ => found,fun _ _ found => found⟩

theorem reaches_after {phase : Phase} {value : Result} (after : phase = .returned value ∨ phase = .called) :
    reaches phase = [] := by
  rcases after with rfl | rfl <;> rfl

theorem standing_after {phase : Phase} {value : Result} (after : phase = .returned value ∨ phase = .called)
    (stored : Stored c db inv value) : Standing c db inv phase := by
  rcases after with rfl | rfl
  · exact stored
  · trivial

/-- A message of the sender is committed. -/
theorem flows_sent (ordered : Ordered program c t) {session : Session} (listed : session ∈ t.sys.sessions)
    (on : session.inv.workflowID = c.sender ∧ c.carries session.inv.op = true) (grows : Grows t.sys.db db') {m : String}
    {row : Notification} {topic key : Option String}
    (carried : session.inv.op = .send row.destination_uuid (some row.message) topic row.serialization key)
    (named : row.topic = topic.getD nullTopic) (absent : t.sys.db.notifications.get? m = none)
    (inserted : db'.notifications.get? m = some row) (fresh : t.sys.db.outputs.get? session.inv.key = none)
    (stored : (db'.outputs.get? session.inv.key).isSome)
    (spaced : ∀ old ∈ t.sent,∀ note, t.sys.db.notifications.get? old.2 = some note → note.consumed = false →
      note.created_at_epoch_ms < row.created_at_epoch_ms) :
    Flows program c db' (t.sent ++ [(session.inv.functionID,m)]) t.received := by
  obtain ⟨op,waited⟩ := ordered.sender session listed on.1 on.2
  have chosen : (program c.sender session.inv.functionID).any c.carries = true := by simp [op,on.2]
  have key' : session.inv.key = (c.sender,session.inv.functionID) := by rw [Invocation.key,on.1]
  rw [key'] at fresh stored
  have held : c.holds row := by
    have carries := on.2
    rw [carried] at carries
    simp only [Channel.carries,decide_eq_true_eq] at carries
    exact ⟨carries.1,named.trans carries.2⟩
  refine flows_send ordered.flows grows absent inserted held ⟨topic,key,?_⟩ spaced ?_
  · rw [op,carried]
  · exact increasing_append ordered.flows.sends grows.outputs chosen waited fresh stored

theorem delivers_iff {op : Operation} (receives : op.functionName = DBOS_FUNCNAME_RECV) :
    c.delivers op = true ↔ op.topic = c.topic := by
  cases op with
  | recv topic timeoutms => simp [Channel.delivers,Operation.topic]
  | _ =>
    simp [Operation.functionName,DBOS_FUNCNAME_RECV,DBOS_FUNCNAME_SEND,DBOS_FUNCNAME_SETEVENT,DBOS_FUNCNAME_WRITESTREAM,
      DBOS_FUNCNAME_CLOSESTREAM] at receives

/-- A message is received. -/
theorem flows_received (ordered : Ordered program c t) {session : Session} (listed : session ∈ t.sys.sessions)
    (on : session.inv.workflowID = c.destination ∧ c.delivers session.inv.op = true) {m : String} {note : Notification}
    (takes : Takes t.sys.db db' m note) (receives : session.inv.op.functionName = DBOS_FUNCNAME_RECV)
    (waiting : note.destination_uuid = session.inv.workflowID ∧ note.topic = session.inv.op.topic)
    (first : First t.sys.db t.sent t.received m) (fresh : t.sys.db.outputs.get? session.inv.key = none)
    (stored : Stored c db' session.inv ⟨some note.message,note.serialization⟩) :
    Flows program c db' t.sent (t.received ++ [(session.inv.functionID,m)]) := by
  obtain ⟨op,waited⟩ := ordered.destination session listed on.1 on.2
  have chosen : (program c.destination session.inv.functionID).any c.delivers = true := by simp [op,on.2]
  obtain ⟨row,present,values⟩ := stored
  obtain ⟨named,value⟩ := values (.inr on)
  have key' : session.inv.key = (c.destination,session.inv.functionID) := by rw [Invocation.key,on.1]
  rw [key'] at fresh present
  have increasing := increasing_append (m := m) ordered.flows.receives takes.outputs chosen waited fresh (by rw [present]; rfl)
  refine flows_receive ordered.flows takes ⟨waiting.1.trans on.1,waiting.2.trans ((delivers_iff receives).mp on.2)⟩ first
    increasing present ⟨named.trans receives,?_,?_⟩
  · exact (congrArg Result.serializedValue value).symm
  · exact (congrArg Result.serialization value).symm

section
variable {i : Nat} {session : Session} {phase : Phase} {value : Result} {startTime endTime : Int}

/-- The commit of a `send`. -/
theorem ordered_sends (ordered : Ordered program c t) (found : t.sys.sessions[i]? = some session)
    (after : phase = .returned value ∨ phase = .called)
    (exclusive : Exclusive (t.sys.sessions.set i { session with phase := phase })) {m : String} {row : Notification}
    {topic key : Option String} (absent : t.sys.db.notifications.get? m = none) (unconsumed : row.consumed = false)
    (carried : session.inv.op = .send row.destination_uuid (some row.message) topic row.serialization key)
    (named : row.topic = topic.getD nullTopic) (fresh : c.Uses session.inv → t.sys.db.outputs.get? session.inv.key = none)
    (spaced : session.inv.workflowID = c.sender → c.carries session.inv.op = true → ∀ old ∈ t.sent,∀ note,
      t.sys.db.notifications.get? old.2 = some note → note.consumed = false → note.created_at_epoch_ms < row.created_at_epoch_ms)
    (same : db = applyAll t.sys.db ([.insertNotification m row] ++ ending session.inv startTime endTime value))
    (stored : Stored c db session.inv value)
    (there : ∀ (j : Nat) other, j ≠ i → t.sys.sessions[j]? = some other → Standing c db other.inv other.phase) :
    Ordered program c ⟨{ db := db,sessions := t.sys.sessions.set i { session with phase := phase } },
      t.sent ++ if session.inv.workflowID = c.sender ∧ c.carries session.inv.op = true then [(session.inv.functionID,m)] else [],
      t.received⟩ := by
  have here := standing_after after stored
  have grows : Grows t.sys.db db := by
    rw [same]
    refine grows_ending ?_ startTime endTime
    simp [Harmless,takenMessage,insertedMessage,unconsumed]
  have inserted : db.notifications.get? m = some row := by
    rw [same]
    simp [applyAll,ending,Statement.apply,absent]
  by_cases on : session.inv.workflowID = c.sender ∧ c.carries session.inv.op = true
  · rw [if_pos on]
    obtain ⟨row',present,_⟩ := stored
    have flows := flows_sent ordered (List.mem_of_getElem? found) on grows carried named absent inserted (fresh (.inl on))
      (by rw [present]; rfl) (spaced on.1 on.2)
    refine ordered_set ordered found exclusive grows.outputs here there ?_ ?_ flows
    · rw [reaches_after after]
      simp
    · -- What a call is about to consume was there before the new message.
      intro x first
      obtain ⟨exists_,earlier⟩ := first_grows first grows
      refine ⟨exists_,?_⟩
      intro a before
      rw [messages,List.map_append] at before
      rcases before_append before with old | ⟨rfl,_⟩
      · exact earlier a old
      · have known := first.1
        rw [absent] at known
        cases known
  · rw [if_neg on,List.append_nil]
    refine ordered_grows ordered found exclusive grows here there ?_
    rw [reaches_after after]
    simp

/-- The commit of a `recv` that has taken a message. -/
theorem ordered_takes (ordered : Ordered program c t) (found : t.sys.sessions[i]? = some session) {m : String}
    {note : Notification} (after : phase = .returned ⟨some note.message,note.serialization⟩ ∨ phase = .called)
    (exclusive : Exclusive (t.sys.sessions.set i { session with phase := phase }))
    (present : t.sys.db.notifications.get? m = some note)
    (waiting : unconsumedHits session.inv.workflowID session.inv.op.topic m note = true)
    (receives : session.inv.op.functionName = DBOS_FUNCNAME_RECV)
    (fresh : c.Uses session.inv → t.sys.db.outputs.get? session.inv.key = none)
    (first : First t.sys.db t.sent t.received m)
    (same : db = applyAll t.sys.db ([.consume m] ++ ending session.inv startTime endTime ⟨some note.message,note.serialization⟩))
    (stored : Stored c db session.inv ⟨some note.message,note.serialization⟩)
    (there : ∀ (j : Nat) other, j ≠ i → t.sys.sessions[j]? = some other → Standing c db other.inv other.phase) :
    Ordered program c ⟨{ db := db,sessions := t.sys.sessions.set i { session with phase := phase } },t.sent,
      t.received ++ if session.inv.workflowID = c.destination ∧ c.delivers session.inv.op = true then
        [(session.inv.functionID,m)] else []⟩ := by
  have here := standing_after after stored
  simp only [unconsumedHits,decide_eq_true_eq] at waiting
  have takes : Takes t.sys.db db m note := by
    rw [same]
    refine ⟨present,waiting.2.2,?_,fun k row old => applyAll_outputs_kept _ _ old⟩
    intro x
    by_cases here : x = m
    · simp [applyAll,ending,Statement.apply,here,present,consumeHits,waiting.2.2]
    · simp [applyAll,ending,Statement.apply,here,consumeHits]
  by_cases on : session.inv.workflowID = c.destination ∧ c.delivers session.inv.op = true
  · rw [if_pos on]
    have flows := flows_received ordered (List.mem_of_getElem? found) on takes receives ⟨waiting.1,waiting.2.1⟩ first
      (fresh (.inr on)) stored
    refine ordered_set ordered found exclusive takes.outputs here there ?_ ?_ flows
    · rw [reaches_after after]
      simp
    · have more : ∀ a ∈ messages t.received,a ∈ messages (t.received ++ [(session.inv.functionID,m)]) := by
        intro a member
        rw [messages,List.map_append]
        exact List.mem_append_left _ member
      exact fun x first => first_takes takes more first
  · rw [if_neg on,List.append_nil]
    -- A message of the channel is taken by a call of the channel.
    have elsewhere : ¬ c.holds note := by
      rintro ⟨destination,topic⟩
      exact on ⟨waiting.1.symm.trans destination,(delivers_iff receives).mpr (waiting.2.1.symm.trans topic)⟩
    have flows : Flows program c db t.sent t.received := by
      refine flows_takes ordered.flows takes ?_ ordered.flows.fifo (increasing_kept ordered.flows.receives takes.outputs)
        (results_takes ordered.flows takes)
      intro x
      simp [elsewhere]
    refine ordered_set ordered found exclusive takes.outputs here there ?_ ?_ flows
    · rw [reaches_after after]
      simp
    · exact fun x first => first_takes takes (fun _ member => member) first

theorem ordered_commit (ordered : Ordered program c t) (found : t.sys.sessions[i]? = some session)
    {done : List Statement} (claimed : session.phase = .claimed done value)
    (after : phase = .returned value ∨ phase = .called)
    (exclusive : Exclusive (t.sys.sessions.set i { session with phase := phase }))
    (spaced : session.inv.workflowID = c.sender → c.carries session.inv.op = true → ∀ new ∈ done.filterMap insertedMessage,
      ∀ old ∈ t.sent,∀ note, t.sys.db.notifications.get? old.2 = some note → note.consumed = false →
        note.created_at_epoch_ms < new.2.created_at_epoch_ms) :
    Ordered program c ⟨{ db := applyAll t.sys.db done,sessions := t.sys.sessions.set i { session with phase := phase } },
      t.sent ++ sentBy c session,t.received ++ receivedBy c session⟩ := by
  have standing := ordered.standing i session found
  have there : ∀ (j : Nat) other, j ≠ i → t.sys.sessions[j]? = some other →
      Standing c (applyAll t.sys.db done) other.inv other.phase := by
    intro j other differ party
    refine standing_frame_all (ordered.standing j other party) ?_
    have rows := ordered.exclusive j i other session differ party found
    rw [claimed] at rows
    exact rows
  have reached := ordered.first i session found
  have writes : session.phase.writes = done := by rw [claimed]; rfl
  rw [claimed] at standing reached
  rw [sentBy,receivedBy,writes]
  obtain ⟨_,rfl,⟨before,value,startTime,endTime,noted,fresh⟩⟩ := standing
  have stored := stored_commit (commit_outputs noted startTime endTime) fresh
  have ends : before ++ [.insertCheckpoint session.inv.key (session.inv.checkpoint startTime endTime value)] ++
      [.claimExecutor session.inv.executorID session.inv.workflowID] = before ++ ending session.inv startTime endTime value := by
    simp [ending]
  rw [ends] at there spaced ⊢
  have last : (ending session.inv startTime endTime value).filterMap insertedMessage = [] ∧
      (ending session.inv startTime endTime value).filterMap takenMessage = [] := ⟨rfl,rfl⟩
  cases noted with
  | quiet before value quiet =>
    obtain ⟨unsent,untaken⟩ := quiet_messages quiet
    simp only [List.filterMap_append,unsent,untaken,last,List.append_nil,List.map_nil,ite_self]
    refine ordered_grows ordered found exclusive ?_ (standing_after after stored) there ?_
    · exact grows_ending (fun st member => harmless_quiet (quiet st member)) startTime endTime
    rw [reaches_after after]
    simp
  | sends m row topic key value absent unconsumed carried named =>
    have ordered' := ordered_sends ordered found after exclusive absent unconsumed carried named fresh
      (fun sender carries => spaced sender carries (m,row) (by simp [insertedMessage])) rfl stored there
    simpa only [List.filterMap_append,last,insertedMessage,takenMessage,List.filterMap_cons,List.filterMap_nil,List.append_nil,
      List.map_nil,List.map_cons,ite_self] using ordered'
  | takes m note present waiting receives =>
    have ordered' := ordered_takes ordered found after exclusive present waiting receives fresh
      (reached m (by simp [reaches,Phase.writes,takenMessage])) rfl stored there
    simpa only [List.filterMap_append,last,insertedMessage,takenMessage,List.filterMap_cons,List.filterMap_nil,List.append_nil,
      List.map_nil,List.map_cons,ite_self] using ordered'

end

/-- A call that has returned has its checkpoint. -/
theorem returned_stored (ordered : Ordered program c t) {w : String} {n : Nat} (returned : Returned t.sys w n) :
    (t.sys.db.outputs.get? (w,n)).isSome := by
  obtain ⟨session,listed,rfl,rfl,ended⟩ := returned
  obtain ⟨i,party⟩ := List.getElem?_of_mem listed
  have standing := ordered.standing i session party
  cases phase : session.phase with
  | returned value =>
    rw [phase] at standing
    obtain ⟨row,found,_⟩ := standing
    rw [Invocation.key] at found
    rw [found]
    rfl
  | _ =>
    rw [phase] at ended
    cases ended

/-- A call of a program that awaits what comes before. -/
theorem waited_invoke (ordered : Ordered program c t) {w : String} {selected : Operation → Bool} {inv : Invocation}
    (follows : inv.workflowID = w → program inv.workflowID inv.functionID = some inv.op)
    (awaited : inv.workflowID = w → selected inv.op = true → ∀ n < inv.functionID,(program w n).any selected = true →
      Returned t.sys w n) : Waited program t.sys.db w selected inv := by
  rintro rfl chosen
  refine ⟨follows rfl,?_⟩
  intro n lower which
  exact returned_stored ordered (awaited rfl chosen n lower which)

theorem step_ordered {t' : Traced} {e : Event} (ordered : Ordered program c t)
    (meets : Awaited program c t e ∧ Orderly c t e) (taken : step c t e = some t') : Ordered program c t' := by
  obtain ⟨sys,moved,rfl⟩ := Option.map_eq_some_iff.mp taken
  obtain ⟨awaited,orderly⟩ := meets
  have exclusive := step_exclusive ordered.exclusive moved
  have flows := ordered.flows
  cases e with
  | commit i acknowledged =>
    obtain ⟨session,value,phase,found,after,⟨done,claimed,rfl⟩ | ⟨replaying,rfl⟩⟩ := commit_cases moved
    · simp only [committing,found,Option.elim_some]
      refine ordered_commit ordered found claimed after exclusive ?_
      have spaced := orderly session found
      rw [claimed] at spaced
      exact spaced
    · have standing := ordered.standing i session found
      have sent : sentBy c session = [] := by simp [sentBy,replaying,Phase.writes]
      have received : receivedBy c session = [] := by simp [receivedBy,replaying,Phase.writes]
      rw [replaying] at standing
      simp only [committing,found,Option.elim_some,sent,received,List.append_nil]
      refine ordered_grows ordered found exclusive (grows_refl _) (standing_after after standing)
        (fun j other _ party => ordered.standing j other party) ?_
      rw [reaches_after after]
      simp
  | invoke inv =>
    cases moved
    simp only [committing,Option.elim_none,List.append_nil]
    refine ⟨exclusive,?_,?_,?_,?_,flows⟩
    · intro j session party
      rcases party_append party with old | ⟨_,rfl⟩
      · exact ordered.standing j session old
      · trivial
    · intro j session party m member
      rcases party_append party with old | ⟨_,rfl⟩
      · exact ordered.first j session old m member
      · cases member
    · intro session member
      rcases List.mem_append.mp member with old | new
      · exact ordered.sender session old
      · rw [List.mem_singleton.mp new]
        exact waited_invoke ordered (fun same => awaited.1 (.inl same)) awaited.2.1
    · intro session member
      rcases List.mem_append.mp member with old | new
      · exact ordered.destination session old
      · rw [List.mem_singleton.mp new]
        exact waited_invoke ordered (fun same => awaited.1 (.inr same)) awaited.2.2
  | next i input =>
    simp only [committing,Option.elim_none,List.append_nil]
    cases step_moves moved with
    | next _ _ session phase auto found advances free =>
      have standing := ordered.standing i session found
      have grows := grows_applyAll t.sys.db fun st member => harmless_neutral (Messages.advances_auto advances st member)
      refine ordered_grows ordered found exclusive grows (standing_advance standing (orderly session found) advances) ?_ ?_
      · intro j other differ party
        refine standing_frame_all (ordered.standing j other party) ?_
        intro row member shared
        exact free other (List.mem_eraseIdx_iff_getElem?.mpr ⟨j,differ,party⟩) row (mem_rowsOf_append.mpr (.inr shared)) member
      · intro m member
        rcases reaches_advance standing advances member with old | oldest
        · exact ordered.first i session found m old
        · exact first_oldest flows oldest
  | drop i =>
    simp only [committing,Option.elim_none,List.append_nil]
    cases step_moves moved with
    | drop _ session found =>
      refine ordered_grows ordered found exclusive (grows_refl _) trivial (fun j other _ party => ordered.standing j other party) ?_
      simp [reaches,Phase.writes]
  | sendDirect destinationID message topic serialization idempotencyKey input =>
    simp only [committing,Option.elim_none,List.append_nil]
    cases step_moves moved with
    | sendDirect _ _ _ _ _ _ statements neutral free =>
      have grows := grows_applyAll t.sys.db fun st member => harmless_neutral (neutral st member)
      refine ⟨exclusive,?_,?_,?_,?_,flows_grows flows grows⟩
      · intro j session party
        refine standing_frame_all (ordered.standing j session party) ?_
        intro row member shared
        exact free session (List.mem_of_getElem? party) row shared member
      · exact fun j session party m member => first_grows (ordered.first j session party m member) grows
      · exact fun session member => waited_kept (ordered.sender session member) grows.outputs
      · exact fun session member => waited_kept (ordered.destination session member) grows.outputs
  | statuses statuses =>
    cases moved
    simp only [committing,Option.elim_none,List.append_nil]
    have grows : Grows t.sys.db { t.sys.db with statuses := statuses } :=
      ⟨fun _ _ found => found,fun _ _ found _ => found,fun _ _ found => found⟩
    refine ⟨exclusive,?_,?_,ordered.sender,ordered.destination,flows_grows flows grows⟩
    · intro j session party
      exact standing_frame (ordered.standing j session party) (fun _ _ => rfl) (fun _ _ => rfl) fun _ _ found => found
    · exact fun j session party m member => first_grows (ordered.first j session party m member) grows

theorem ordered_start (statuses : Statuses) : Ordered program c (start statuses) := by
  refine ⟨by simp [start,Messages.start,Exclusive],by simp [start,Messages.start],by simp [start,Messages.start],
    by simp [start,Messages.start],by simp [start,Messages.start],?_⟩
  refine ⟨List.nodup_nil,by simp [start],?_,?_,List.nil_prefix,⟨List.Pairwise.nil,by simp [start]⟩,
    ⟨List.Pairwise.nil,by simp [start]⟩,by simp [start]⟩
  · intro a b before
    exact absurd (before_mem before).1 List.not_mem_nil
  · intro m
    simp [start,Messages.start,messages]

end

/-- The messages of the sender are sent in the order of its calls, and successive calls of `recv`
    return them in that order. -/
structure InOrder (program : String → Nat → Option Operation) (c : Channel) (t : Traced) : Prop where
  sends : (t.sent.map Prod.fst).Pairwise (· < ·)
  sent : ∀ e ∈ t.sent,∃ note, t.sys.db.notifications.get? e.2 = some note ∧ SentAt program c e.1 note
  receives : (t.received.map Prod.fst).Pairwise (· < ·)
  returns : ∀ e ∈ t.received,∃ note, t.sys.db.notifications.get? e.2 = some note ∧ ∀ session ∈ t.sys.sessions,
    session.inv.workflowID = c.destination → session.inv.functionID = e.1 → c.delivers session.inv.op = true →
    ∀ value, session.phase = .returned value → value = ⟨some note.message,note.serialization⟩
  fifo : (messages t.received).filter (· ∈ messages t.sent) <+: messages t.sent

/-- In every run whose steps are orderly, the messages of a sender that awaits its calls are
    received in the order in which it sent them. -/
theorem messages_in_order (program : String → Nat → Option Operation) (c : Channel) {statuses : Statuses} {events : List Event}
    (meets : Along (step c) (fun t e => Awaited program c t e ∧ Orderly c t e) (start statuses) events) {t : Traced}
    (run : Runs (step c) (start statuses) events t) : InOrder program c t := by
  have ordered := along_invariant (I := Ordered program c) (fun _ _ _ => step_ordered) (ordered_start statuses) meets run
  have flows := ordered.flows
  refine ⟨flows.sends.sorted,?_,flows.receives.sorted,?_,flows.fifo⟩
  · intro e member
    obtain ⟨note,found,_,programmed⟩ := flows.stored e member
    exact ⟨note,found,programmed⟩
  · intro e member
    obtain ⟨note,row,found,stored,_,output,serialization⟩ := flows.results e member
    refine ⟨note,found,?_⟩
    intro session listed workflow function delivers value returned
    obtain ⟨i,party⟩ := List.getElem?_of_mem listed
    have standing := ordered.standing i session party
    rw [returned] at standing
    obtain ⟨row',stored',values⟩ := standing
    rw [Invocation.key,workflow,function] at stored'
    cases stored.symm.trans stored'
    rw [(values (.inr ⟨workflow,delivers⟩)).2,output,serialization]

instance (s : Messages.System) (workflowID : String) (functionID : Nat) : Decidable (Returned s workflowID functionID) :=
  inferInstanceAs (Decidable (∃ session ∈ _,_))

instance decidableAwaited (program : String → Nat → Option Operation) (c : Channel) (t : Traced) (e : Event) :
    Decidable (Awaited program c t e) :=
  match e with
  | .invoke _ => inferInstanceAs (Decidable ((_ → _) ∧ (_ → _ → ∀ n < _,_) ∧ (_ → _ → ∀ n < _,_)))
  | .next .. => isTrue trivial
  | .commit .. => isTrue trivial
  | .drop .. => isTrue trivial
  | .sendDirect .. => isTrue trivial
  | .statuses .. => isTrue trivial

instance decidableOrderly (c : Channel) (t : Traced) (e : Event) : Decidable (Orderly c t e) :=
  match e with
  | .next .. => inferInstanceAs (Decidable (∀ session ∈ _,_ → _ → ∀ row ∈ _,_))
  | .commit .. => inferInstanceAs (Decidable (∀ session ∈ _,_ → _ → ∀ new ∈ _,∀ old ∈ _,∀ note ∈ _,_ → _))
  | .invoke .. => isTrue trivial
  | .drop .. => isTrue trivial
  | .sendDirect .. => isTrue trivial
  | .statuses .. => isTrue trivial

def sending (message : String) : Operation := .send "d" (some message) none none none

/-- The workflow `s` sends "1" and "2" to `d`, which receives twice. -/
def twoMessages : String → Nat → Option Operation
  | "s",0 => some (sending "1")
  | "s",1 => some (sending "2")
  | "d",0 => some (.recv none 0)
  | "d",2 => some (.recv none 0)
  | _,_ => none

def channel : Channel := ⟨"s","d",nullTopic⟩

def receiver : Statuses := Table.empty.insert "d" { status := .PENDING,name := "f",created_at := 1,updated_at := 1 }

/-- The `i`-th call sends a message at the given time. -/
def sends (i functionID : Nat) (message messageUUID : String) (now : Int) : List Event :=
  [.invoke ⟨"e","s",functionID,functionID,sending message⟩,.next i {},.next i {},
    .next i { now := now,randomUUID := messageUUID },.next i { now := now },.next i {},.commit i true]

/-- The `i`-th call receives a message. -/
def receives (i functionID : Nat) (messageUUID : String) : List Event :=
  [Event.invoke ⟨"e","d",functionID,functionID + 1,.recv none 0⟩] ++ List.replicate 6 (Event.next i {}) ++
    [Event.next i { chosen := some messageUUID },.next i {},.next i { now := 9 },.next i {},.commit i true]

/-- Messages of different milliseconds. -/
theorem messages_in_order_spaced : ∃ t, Runs (step channel) (start receiver)
      (sends 0 0 "1" "m1" 5 ++ sends 1 1 "2" "m2" 6 ++ receives 2 0 "m1" ++ receives 3 2 "m2") t ∧
    t.sent = [(0,"m1"),(1,"m2")] ∧ t.received = [(0,"m1"),(2,"m2")] ∧ InOrder twoMessages channel t := by
  obtain ⟨t,run,sent,received⟩ : ∃ t, Runs (step channel) (start receiver)
      (sends 0 0 "1" "m1" 5 ++ sends 1 1 "2" "m2" 6 ++ receives 2 0 "m1" ++ receives 3 2 "m2") t ∧
      t.sent = [(0,"m1"),(1,"m2")] ∧ t.received = [(0,"m1"),(2,"m2")] := ⟨_,rfl,rfl,rfl⟩
  exact ⟨t,run,sent,received,messages_in_order twoMessages channel (by decide) run⟩

/-- Messages of one millisecond: both calls are awaited, and the second message comes first. -/
theorem sameMillisecond_reordered :
    (∃ t, Runs (step channel) (start receiver)
        (sends 0 0 "1" "m1" 5 ++ sends 1 1 "2" "m2" 5 ++ receives 2 0 "m2" ++ receives 3 2 "m1") t ∧
      Along (step channel) (Awaited twoMessages channel) (start receiver)
        (sends 0 0 "1" "m1" 5 ++ sends 1 1 "2" "m2" 5 ++ receives 2 0 "m2" ++ receives 3 2 "m1") ∧
      t.sent = [(0,"m1"),(1,"m2")] ∧ t.received = [(0,"m2"),(2,"m1")]) ∧
    ¬ ∀ program c statuses events t, Along (step c) (Awaited program c) (start statuses) events →
      Runs (step c) (start statuses) events t → InOrder program c t := by
  have reordered : ∃ t, Runs (step channel) (start receiver)
        (sends 0 0 "1" "m1" 5 ++ sends 1 1 "2" "m2" 5 ++ receives 2 0 "m2" ++ receives 3 2 "m1") t ∧
      Along (step channel) (Awaited twoMessages channel) (start receiver)
        (sends 0 0 "1" "m1" 5 ++ sends 1 1 "2" "m2" 5 ++ receives 2 0 "m2" ++ receives 3 2 "m1") ∧
      t.sent = [(0,"m1"),(1,"m2")] ∧ t.received = [(0,"m2"),(2,"m1")] := ⟨_,rfl,by decide,rfl,rfl⟩
  refine ⟨reordered,?_⟩
  intro always
  obtain ⟨t,run,awaited,sent,received⟩ := reordered
  have fifo := (always _ _ _ _ t awaited run).fifo
  rw [sent,received] at fifo
  exact absurd fifo (by decide)

end Dbos.MessageOrder
