import Dbos.BatchInsert

/-!
A consumer of Kafka messages: `#eachBatch` of `packages/kafkajs-receive/index.ts`. It takes a batch in chunks, prepares a workflow
for each message or drops the message, enqueues the chunk until that succeeds, and then resolves the offsets of the
chunk. Consumers run beside each other and beside everything else that writes `workflow_status`; a batch may be delivered again,
an enqueue fails at any point or succeeds unseen, and a consumer is stopped, aborted or loses its partition at any await.
-/
namespace Dbos.Kafka
open Dbos.Pg Dbos.Schema Dbos.Status Dbos.Ops Dbos.BatchInsert StatusString

inductive KafkaOrdering
  | none
  | partition
  | topic
  deriving DecidableEq

structure KafkaMessage where
  offset : String
  deriving DecidableEq

/-- A batch and the consumer that gets it. -/
structure Payload where
  topic : String
  partition : Nat
  messages : List KafkaMessage
  groupId : String
  ordering : KafkaOrdering := .none
  batchSize : Nat
  queueName : String := "_dbos_kafkajs_queue"
  workflowName : String
  workflowClassName : String := ""
  executorId : String := "local"
  applicationVersion : Option String := none

def workflowID (topic : String) (partition : Nat) (groupId offset : String) : String :=
  s!"kafkajs-{topic}-{partition}-{groupId}-{offset}"

def partitionKeyFor (ordering : KafkaOrdering) (groupId topic : String) (partition : Nat) : Option String :=
  match ordering with
  | .partition => some s!"{groupId}:{topic}:{partition}"
  | .topic => some s!"{groupId}:{topic}"
  | .none => none

def Payload.workflowID (p : Payload) (message : KafkaMessage) : String :=
  Kafka.workflowID p.topic p.partition p.groupId message.offset

/-- The end of the chunk that starts at `start`: `batch.messages.slice(start, start + batchSize)`. -/
def Payload.chunkEnd (p : Payload) (start : Nat) : Nat := min (start + p.batchSize) p.messages.length

/-- `prepareEnqueuedWorkflow`, with the arguments it has serialized. -/
def Payload.prepared (p : Payload) (message : KafkaMessage) (input serialization : Option String) (now : Int) : WorkflowStatusInternal where
  workflowUUID := p.workflowID message
  status := ENQUEUED
  workflowName := p.workflowName
  workflowClassName := p.workflowClassName
  queueName := some p.queueName
  executorId := p.executorId
  applicationVersion := p.applicationVersion
  createdAt := now
  input := input
  queuePartitionKey := partitionKeyFor p.ordering p.groupId p.topic p.partition
  serialization := serialization

/-- `other` are the errors that `rethrowIfNotPerMessage` throws on. -/
inductive Preparation
  | prepared (input serialization : Option String) (now : Int)
  | DBOSInvalidWorkflowInputError
  | other

/-- Where a consumer stands: at the top of the loop, before a message of the chunk, at the top of `retryUntilSuccess`, in a call of
    `enqueueWorkflows`, in the wait after one that failed, or before resolving an offset. -/
inductive Phase
  | top (start : Nat)
  | preparing (start next : Nat) (prepared : List WorkflowStatusInternal)
  | retrying (start : Nat) (prepared : List WorkflowStatusInternal)
  | calling (start : Nat) (prepared : List WorkflowStatusInternal) (tx : Transaction)
  | waiting (start : Nat) (prepared : List WorkflowStatusInternal)
  | resolving (start next : Nat)
  | stopped

/-- `dropped` and `resolved` are positions in the batch. -/
structure Consumer where
  payload : Payload
  phase : Phase := .top 0
  dropped : List Nat := []
  resolved : List Nat := []

/-- What a consumer does without the database. `begin` is given whether the runner is still to go on. -/
inductive Act
  | begin (running : Bool)
  | prepare (result : Preparation)
  | prepared
  | abort
  | wait (heartbeatThrows : Bool)
  | resolveOffset
  | heartbeat (throws : Bool)

def Consumer.act (c : Consumer) : Act → Option Consumer
  | .begin running =>
    match c.phase with
    | .top start =>
      some { c with phase := if start < c.payload.messages.length ∧ running = true then .preparing start start [] else .stopped }
    | _ => none
  | .prepare result =>
    match c.phase with
    | .preparing start next prepared =>
      if next < c.payload.chunkEnd start then
        c.payload.messages[next]?.map fun message =>
          match result with
          | .prepared input serialization now =>
            { c with phase := .preparing start (next + 1) (prepared ++ [c.payload.prepared message input serialization now]) }
          | .DBOSInvalidWorkflowInputError =>
            { c with phase := .preparing start (next + 1) prepared,dropped := c.dropped ++ [next] }
          | .other => { c with phase := .stopped }
      else none
    | _ => none
  | .prepared =>
    match c.phase with
    | .preparing start next prepared =>
      if next = c.payload.chunkEnd start then
        some { c with phase := if prepared.length > 0 then .retrying start prepared else .resolving start start }
      else none
    | _ => none
  | .abort =>
    match c.phase with
    | .retrying _ _ => some { c with phase := .stopped }
    | _ => none
  | .wait heartbeatThrows =>
    match c.phase with
    | .waiting start prepared => some { c with phase := if heartbeatThrows then .stopped else .retrying start prepared }
    | _ => none
  | .resolveOffset =>
    match c.phase with
    | .resolving start next =>
      if next < c.payload.chunkEnd start then
        some { c with phase := .resolving start (next + 1),resolved := c.resolved ++ [next] }
      else none
    | _ => none
  | .heartbeat throws =>
    match c.phase with
    | .resolving start next =>
      if next = c.payload.chunkEnd start then
        some { c with phase := if throws then .stopped else .top (start + c.payload.batchSize) }
      else none
    | _ => none

/-- A call of `enqueueWorkflows` that has ended, with the table before and after its end. -/
structure Call where
  prepared : List WorkflowStatusInternal
  inserted : List String
  committed : Bool
  returned : Option (List String)
  before : Statuses
  after : Statuses

structure System where
  table : Statuses := Table.empty
  consumers : List Consumer := []
  calls : List Call := []

/-- How a COMMIT goes: `lost` takes effect and `dropped` does not, and the client of both sees an error. -/
inductive CommitResult
  | done
  | lost
  | dropped
  deriving DecidableEq

inductive Event
  | deliver (payload : Payload)
  | act (i : Nat) (act : Act)
  | enqueueWorkflows (i : Nat) (createdAts : List Int)
  | insert (i : Nat)
  | commit (i : Nat) (result : CommitResult)
  | fail (i : Nat)
  | other (op : Op)

/-- The IDs of rows that are not committed. Whoever is to insert one of them waits. -/
def Consumer.pending (c : Consumer) : List String :=
  match c.phase with
  | .calling _ _ tx => tx.inserted
  | _ => []

def System.put (s : System) (i : Nat) (c : Consumer) : System := { s with consumers := s.consumers.set i c }

/-- A call ends: the connection is released and its transaction committed or not. -/
def System.ended (s : System) (i : Nat) (c : Consumer) (start : Nat) (prepared : List WorkflowStatusInternal) (tx : Transaction)
    (result : CommitResult) : System :=
  let after := if result = .dropped then s.table else BatchInsert.commit s.table tx
  { s with
    table := after
    consumers := s.consumers.set i { c with phase := if result = .done then .resolving start start else .waiting start prepared }
    calls := s.calls ++ [{
      prepared := prepared
      inserted := if result = .dropped then [] else tx.inserted
      committed := result ≠ .dropped
      returned := if result = .done then some tx.inserted else none
      before := s.table
      after := after }] }

def step (s : System) : Event → Option System
  | .deliver payload => some { s with consumers := s.consumers ++ [{ payload := payload }] }
  | .act i act =>
    match s.consumers[i]? with
    | some c => (c.act act).map (s.put i)
    | none => none
  | .enqueueWorkflows i createdAts =>
    match s.consumers[i]? with
    | some ⟨p,.retrying start prepared,dropped,resolved⟩ =>
      match refusedStatus prepared with
      | some _ => some (s.put i ⟨p,.waiting start prepared,dropped,resolved⟩)
      | none =>
        if createdAts.length = prepared.length then
          some (s.put i ⟨p,.calling start prepared { statuses := prepared.zip createdAts },dropped,resolved⟩)
        else none
    | _ => none
  | .insert i =>
    match s.consumers[i]? with
    | some ⟨p,.calling start prepared tx,dropped,resolved⟩ =>
      if ((s.consumers.eraseIdx i).all fun c => c.pending.all fun k => k ∉ tx.next) = true then
        some (s.put i ⟨p,.calling start prepared (statement s.table tx),dropped,resolved⟩)
      else none
    | _ => none
  | .commit i result =>
    match s.consumers[i]? with
    | some ⟨p,.calling start prepared tx,dropped,resolved⟩ =>
      if tx.statuses.length = 0 then some (s.ended i ⟨p,.calling start prepared tx,dropped,resolved⟩ start prepared tx result) else none
    | _ => none
  | .fail i =>
    match s.consumers[i]? with
    | some ⟨p,.calling start prepared tx,dropped,resolved⟩ =>
      some (s.ended i ⟨p,.calling start prepared tx,dropped,resolved⟩ start prepared tx .dropped)
    | _ => none
  | .other op =>
    if (s.consumers.all fun c => c.pending.all fun k => ((op.apply s.table).get? k).isNone) = true then
      some { s with table := op.apply s.table }
    else none

/-! ### What is promised -/

/-- The row has been committed. -/
def Durable (t : Statuses) (events : List Event) (id : String) : Prop :=
  Passed step { table := t } (fun s => (s.table.get? id).isSome = true) events

/-- The message was dropped, or its row is durable (`D`). -/
def Handled (D : String → Prop) (c : Consumer) (j : Nat) : Prop :=
  ∀ message, c.payload.messages[j]? = some message → j ∈ c.dropped ∨ D (c.payload.workflowID message)

/-- A call inserts all of its rows or none, each once, and returns the IDs it inserted. -/
structure Call.Exact (D : String → Prop) (call : Call) : Prop where
  returned : ∀ ids, call.returned = some ids → call.committed = true ∧ ids = call.inserted
  distinct : call.inserted.Nodup
  new : ∀ k ∈ call.inserted, call.before.get? k = none ∧ ∃ status ∈ call.prepared, ∃ createdAt,
    status.workflowUUID = k ∧ call.after.get? k = some (enqueuedRow status createdAt)
  others : ∀ k, k ∉ call.inserted → call.after.get? k = call.before.get? k
  all : call.committed = true → ∀ status ∈ call.prepared, status.workflowUUID ∈ call.inserted ∨ D status.workflowUUID
  nothing : call.committed = false → call.inserted = []

/-- A message whose offset is resolved is handled, and so are those before it; every call is exact; and no ID is inserted twice
    when nobody deletes workflows. -/
structure AtLeastOnce (t : Statuses) (events : List Event) (s : System) : Prop where
  resolved : ∀ c ∈ s.consumers, ∀ j ∈ c.resolved, ∀ j' ≤ j, Handled (Durable t events) c j'
  calls : ∀ call ∈ s.calls, call.Exact (Durable t events)
  once : (∀ op, .other op ∈ events → keepsRows op = true) → (s.calls.flatMap Call.inserted).Nodup

/-! ### Consumers -/

/-- What a consumer does without the database, by what comes of it. -/
inductive Acts : Consumer → Consumer → Prop
  | begun (p : Payload) (start : Nat) (dropped resolved : List Nat) :
      Acts ⟨p,.top start,dropped,resolved⟩ ⟨p,.preparing start start [],dropped,resolved⟩
  | prepared (p : Payload) (start next : Nat) (prepared : List WorkflowStatusInternal) (dropped resolved : List Nat)
      (message : KafkaMessage) (found : p.messages[next]? = some message) (status : WorkflowStatusInternal)
      (named : status.workflowUUID = p.workflowID message) :
      Acts ⟨p,.preparing start next prepared,dropped,resolved⟩ ⟨p,.preparing start (next + 1) (prepared ++ [status]),dropped,resolved⟩
  | dropped (p : Payload) (start next : Nat) (prepared : List WorkflowStatusInternal) (dropped resolved : List Nat) :
      Acts ⟨p,.preparing start next prepared,dropped,resolved⟩ ⟨p,.preparing start (next + 1) prepared,dropped ++ [next],resolved⟩
  | chunk (p : Payload) (start : Nat) (prepared : List WorkflowStatusInternal) (dropped resolved : List Nat) :
      Acts ⟨p,.preparing start (p.chunkEnd start) prepared,dropped,resolved⟩ ⟨p,.retrying start prepared,dropped,resolved⟩
  | nothing (p : Payload) (start : Nat) (dropped resolved : List Nat) :
      Acts ⟨p,.preparing start (p.chunkEnd start) [],dropped,resolved⟩ ⟨p,.resolving start start,dropped,resolved⟩
  | waited (p : Payload) (start : Nat) (prepared : List WorkflowStatusInternal) (dropped resolved : List Nat) :
      Acts ⟨p,.waiting start prepared,dropped,resolved⟩ ⟨p,.retrying start prepared,dropped,resolved⟩
  | resolved (p : Payload) (start next : Nat) (dropped resolved : List Nat) (inside : next < p.chunkEnd start) :
      Acts ⟨p,.resolving start next,dropped,resolved⟩ ⟨p,.resolving start (next + 1),dropped,resolved ++ [next]⟩
  | next (p : Payload) (start : Nat) (dropped resolved : List Nat) :
      Acts ⟨p,.resolving start (p.chunkEnd start),dropped,resolved⟩ ⟨p,.top (start + p.batchSize),dropped,resolved⟩
  | stopped (c : Consumer) (idle : c.pending = []) : Acts c { c with phase := .stopped }

theorem act_acts {c c' : Consumer} {act : Act} (taken : c.act act = some c') : Acts c c' := by
  obtain ⟨p,phase,dropped,resolved⟩ := c
  cases act with
  | begin running =>
    cases phase with
    | top start =>
      cases taken
      dsimp only
      split
      · exact .begun p start dropped resolved
      · exact .stopped _ rfl
    | _ => cases taken
  | prepare result =>
    cases phase with
    | preparing start next prepared =>
      simp only [Consumer.act] at taken
      split at taken
      · obtain ⟨message,found,same⟩ := Option.map_eq_some_iff.mp taken
        cases result with
        | prepared input serialization now =>
          cases same
          exact .prepared p start next prepared dropped resolved message found _ rfl
        | DBOSInvalidWorkflowInputError =>
          cases same
          exact .dropped p start next prepared dropped resolved
        | other =>
          cases same
          exact .stopped _ rfl
      · cases taken
    | _ => cases taken
  | prepared =>
    cases phase with
    | preparing start next prepared =>
      simp only [Consumer.act] at taken
      split at taken
      · rename_i done
        cases done
        cases taken
        cases prepared with
        | nil => exact .nothing p start dropped resolved
        | cons status rest => exact .chunk p start _ dropped resolved
      · cases taken
    | _ => cases taken
  | abort =>
    cases phase with
    | retrying start prepared =>
      cases taken
      exact .stopped _ rfl
    | _ => cases taken
  | wait heartbeatThrows =>
    cases phase with
    | waiting start prepared =>
      cases taken
      cases heartbeatThrows with
      | true => exact .stopped _ rfl
      | false => exact .waited p start prepared dropped resolved
    | _ => cases taken
  | resolveOffset =>
    cases phase with
    | resolving start next =>
      simp only [Consumer.act] at taken
      split at taken
      · rename_i inside
        cases taken
        exact .resolved p start next dropped resolved inside
      · cases taken
    | _ => cases taken
  | heartbeat throws =>
    cases phase with
    | resolving start next =>
      simp only [Consumer.act] at taken
      split at taken
      · rename_i done
        cases done
        cases taken
        cases throws with
        | true => exact .stopped _ rfl
        | false => exact .next p start dropped resolved
      · cases taken
    | _ => cases taken

theorem Acts.idle {c c' : Consumer} (acts : Acts c c') : c.pending = [] ∧ c'.pending = [] := by
  cases acts with
  | stopped _ idle => exact ⟨idle,rfl⟩
  | _ => exact ⟨rfl,rfl⟩

/-- The messages of a part of the batch are dropped or prepared. -/
def Chunked (c : Consumer) (prepared : List WorkflowStatusInternal) (start past : Nat) : Prop :=
  ∀ j, start ≤ j → j < past → ∀ message, c.payload.messages[j]? = some message →
    j ∈ c.dropped ∨ ∃ status ∈ prepared, status.workflowUUID = c.payload.workflowID message

/-- What holds of a call under way. -/
structure Calling (D : String → Prop) (prepared : List WorkflowStatusInternal) (tx : Transaction) : Prop where
  left : ∀ s ∈ tx.statuses, s.1 ∈ prepared
  distinct : tx.inserted.Nodup
  rows : ∀ row ∈ tx.rows, ∃ status ∈ prepared, ∃ createdAt, row = (status.workflowUUID,enqueuedRow status createdAt)
  covered : ∀ status ∈ prepared,
    (∃ s ∈ tx.statuses, s.1 = status) ∨ status.workflowUUID ∈ tx.inserted ∨ status.workflowUUID ∈ tx.skipped
  skipped : ∀ k ∈ tx.skipped, D k ∨ k ∈ tx.inserted

/-- Everything before the chunk is handled, and of the chunk what has been prepared is known. -/
def Standing (D : String → Prop) (c : Consumer) : Prop :=
  match c.phase with
  | .top start => ∀ j < start, Handled D c j
  | .preparing start next prepared => (∀ j < start, Handled D c j) ∧ Chunked c prepared start next
  | .retrying start prepared => (∀ j < start, Handled D c j) ∧ Chunked c prepared start (c.payload.chunkEnd start)
  | .waiting start prepared => (∀ j < start, Handled D c j) ∧ Chunked c prepared start (c.payload.chunkEnd start)
  | .calling start prepared tx =>
    (∀ j < start, Handled D c j) ∧ Chunked c prepared start (c.payload.chunkEnd start) ∧ Calling D prepared tx
  | .resolving start _ => ∀ j < c.payload.chunkEnd start, Handled D c j
  | .stopped => True

structure Steady (D : String → Prop) (c : Consumer) : Prop where
  resolved : ∀ j ∈ c.resolved, ∀ j' ≤ j, Handled D c j'
  standing : Standing D c

theorem Handled.mono {D D' : String → Prop} (grows : ∀ k, D k → D' k) {c : Consumer} {j : Nat} (handled : Handled D c j) :
    Handled D' c j :=
  fun message found => (handled message found).imp_right (grows _)

theorem Calling.mono {D D' : String → Prop} (grows : ∀ k, D k → D' k) {prepared : List WorkflowStatusInternal} {tx : Transaction}
    (calling : Calling D prepared tx) : Calling D' prepared tx :=
  ⟨calling.left,calling.distinct,calling.rows,calling.covered,fun k there => (calling.skipped k there).imp_left (grows k)⟩

theorem Steady.mono {D D' : String → Prop} (grows : ∀ k, D k → D' k) {c : Consumer} (steady : Steady D c) : Steady D' c := by
  refine ⟨fun j listed j' upTo => (steady.resolved j listed j' upTo).mono grows,?_⟩
  have standing := steady.standing
  unfold Standing at standing ⊢
  split at standing
  · exact fun j before => (standing j before).mono grows
  · exact ⟨fun j before => (standing.1 j before).mono grows,standing.2⟩
  · exact ⟨fun j before => (standing.1 j before).mono grows,standing.2⟩
  · exact ⟨fun j before => (standing.1 j before).mono grows,standing.2⟩
  · exact ⟨fun j before => (standing.1 j before).mono grows,standing.2.1,standing.2.2.mono grows⟩
  · exact fun j before => (standing j before).mono grows
  · trivial

/-- The chunk is handled when each of its workflows is durable. -/
theorem handled_of_chunked {D : String → Prop} {c : Consumer} {prepared : List WorkflowStatusInternal} {start past : Nat}
    (before : ∀ j < start, Handled D c j) (chunked : Chunked c prepared start past)
    (durable : ∀ status ∈ prepared, D status.workflowUUID) (j : Nat) (inside : j < past) : Handled D c j := by
  by_cases earlier : j < start
  · exact before j earlier
  · intro message found
    rcases chunked j (by omega) inside message found with dropped | ⟨status,listed,same⟩
    · exact .inl dropped
    · exact .inr (same ▸ durable status listed)

/-- What a consumer does without the database keeps what it has handled. -/
theorem Steady.act {D : String → Prop} {c c' : Consumer} (steady : Steady D c) (acts : Acts c c') : Steady D c' := by
  obtain ⟨sent,standing⟩ := steady
  cases acts with
  | begun p start dropped resolved => exact ⟨sent,standing,fun j after before => by omega⟩
  | prepared p start next prepared dropped resolved message found status named =>
    obtain ⟨before,chunked⟩ := standing
    refine ⟨sent,before,?_⟩
    intro j after upTo message' found'
    by_cases last : j = next
    · subst last
      cases found.symm.trans found'
      exact .inr ⟨status,List.mem_append_right _ List.mem_cons_self,named⟩
    · rcases chunked j after (by omega) message' found' with gone | ⟨status',listed,same⟩
      · exact .inl gone
      · exact .inr ⟨status',List.mem_append_left _ listed,same⟩
  | dropped p start next prepared dropped resolved =>
    obtain ⟨before,chunked⟩ := standing
    have more : ∀ j, Handled D ⟨p,.preparing start next prepared,dropped,resolved⟩ j →
        Handled D ⟨p,.preparing start (next + 1) prepared,dropped ++ [next],resolved⟩ j :=
      fun j handled message found => (handled message found).imp_left (List.mem_append_left _)
    refine ⟨fun j listed j' upTo => more j' (sent j listed j' upTo),fun j earlier => more j (before j earlier),?_⟩
    intro j after upTo message' found'
    by_cases last : j = next
    · exact .inl (List.mem_append_right _ (last ▸ List.mem_cons_self))
    · exact (chunked j after (by omega) message' found').imp_left (List.mem_append_left _)
  | chunk p start prepared dropped resolved => exact ⟨sent,standing⟩
  | nothing p start dropped resolved =>
    obtain ⟨before,chunked⟩ := standing
    refine ⟨sent,?_⟩
    intro j inside
    refine handled_of_chunked before chunked ?_ j inside
    intro status listed
    cases listed
  | waited p start prepared dropped resolved => exact ⟨sent,standing⟩
  | resolved p start next dropped resolved inside =>
    refine ⟨?_,standing⟩
    intro j listed j' upTo
    rcases List.mem_append.mp listed with old | new
    · exact sent j old j' upTo
    · cases List.mem_singleton.mp new
      exact standing j' (Nat.lt_of_le_of_lt upTo inside)
  | next p start dropped resolved =>
    refine ⟨sent,?_⟩
    intro j before message found
    -- the chunk ends where the batch does, or where the next one starts
    have exists_ : j < p.messages.length := (List.getElem?_eq_some_iff.mp found).1
    have inside : j < p.chunkEnd start := by
      unfold Payload.chunkEnd
      exact Nat.lt_min.mpr ⟨before,exists_⟩
    exact standing j inside message found
  | stopped => exact ⟨sent,trivial⟩

/-! ### Calls -/

theorem calling_begins {D : String → Prop} {prepared : List WorkflowStatusInternal} {createdAts : List Int}
    (length : createdAts.length = prepared.length) : Calling D prepared { statuses := prepared.zip createdAts } := by
  refine ⟨fun s listed => (List.of_mem_zip listed).1,List.nodup_nil,?_,?_,?_⟩ <;> intro status listed
  · cases listed
  swap
  · cases listed
  have both : (prepared.zip createdAts).map Prod.fst = prepared := List.map_fst_zip (Nat.le_of_eq length.symm)
  rw [← both] at listed
  obtain ⟨s,member,same⟩ := List.mem_map.mp listed
  exact .inl ⟨s,member,same⟩

/-- A statement of the call: what it skips is in the table, or the call has inserted it itself. -/
theorem Calling.statement {D : String → Prop} {prepared : List WorkflowStatusInternal} {tx : Transaction} {t : Statuses}
    (calling : Calling D prepared tx) (there : ∀ k, (t.get? k).isSome → D k) : Calling D prepared (BatchInsert.statement t tx) := by
  have inserts := statement_inserts (t := t) tx
  generalize BatchInsert.statement t tx = tx' at inserts
  constructor
  · rw [inserts.statuses]
    exact fun s listed => calling.left s (List.mem_of_mem_drop listed)
  · exact inserts.distinct calling.distinct
  · intro row listed
    rcases inserts.rows row listed with old | ⟨_,s,member,same⟩
    · exact calling.rows row old
    · exact ⟨s.1,calling.left s (List.mem_of_mem_take member),s.2,same⟩
  · intro status listed
    rcases calling.covered status listed with ⟨s,left,same⟩ | inserted | skipped
    · rw [← List.take_append_drop chunkSize tx.statuses] at left
      rcases List.mem_append.mp left with now | later
      · exact .inr (same ▸ inserts.handled s now)
      · exact .inl ⟨s,inserts.statuses ▸ later,same⟩
    · exact .inr (.inl (inserts.kept _ inserted))
    · exact .inr (.inr (inserts.passed _ skipped))
  · intro k listed
    rcases inserts.skipped k listed with old | found | inserted
    · exact (calling.skipped k old).imp_right (inserts.kept k)
    · exact .inl (there k found)
    · exact .inr inserted

/-- The call that ends has been exact. -/
theorem Calling.exact {D D' : String → Prop} {prepared : List WorkflowStatusInternal} {tx : Transaction} {t : Statuses}
    (calling : Calling D prepared tx) (grows : ∀ k, D k → D' k) (absent : ∀ k ∈ tx.inserted, t.get? k = none)
    (done : tx.statuses.length = 0) (result : CommitResult) :
    Call.Exact D' ⟨prepared,tx.inserted,true,if result = .done then some tx.inserted else none,t,BatchInsert.commit t tx⟩ := by
  have none_ : tx.statuses = [] := List.eq_nil_of_length_eq_zero done
  constructor
  · intro ids returned
    by_cases here : result = .done
    · rw [if_pos here] at returned
      exact ⟨rfl,(Option.some.inj returned).symm⟩
    · rw [if_neg here] at returned
      cases returned
  · exact calling.distinct
  · intro k inserted
    obtain ⟨row,listed,rfl⟩ := List.mem_map.mp inserted
    obtain ⟨status,member,createdAt,same⟩ := calling.rows row listed
    refine ⟨absent _ inserted,status,member,createdAt,?_,?_⟩
    · rw [same]
    · exact commit_row calling.distinct (by rw [same] at listed ⊢; exact listed) (absent _ inserted)
  · exact fun k other => commit_other other
  · intro _ status listed
    rcases calling.covered status listed with ⟨s,left,_⟩ | inserted | skipped
    · rw [none_] at left
      cases left
    · exact .inl inserted
    · exact (calling.skipped _ skipped).elim (fun durable => .inr (grows _ durable)) .inl
  · intro open_
    cases open_

theorem exact_dropped (D : String → Prop) (prepared : List WorkflowStatusInternal) (t : Statuses) :
    Call.Exact D ⟨prepared,[],false,none,t,t⟩ := by
  refine ⟨?_,List.nodup_nil,?_,fun k _ => rfl,?_,fun _ => rfl⟩
  · intro ids returned
    cases returned
  · intro k listed
    cases listed
  · intro committed
    cases committed

theorem Call.Exact.mono {D D' : String → Prop} (grows : ∀ k, D k → D' k) {call : Call} (exact_ : call.Exact D) : call.Exact D' :=
  ⟨exact_.returned,exact_.distinct,exact_.new,exact_.others,
    fun committed status listed => (exact_.all committed status listed).imp_right (grows _),exact_.nothing⟩

/-! ### Runs -/

/-- What holds in every run: the consumers are steady, and no row that is not committed is in the table or pending twice. -/
structure Sound (t : Statuses) (events : List Event) (s : System) : Prop where
  steady : ∀ c ∈ s.consumers, Steady (Durable t events) c
  absent : ∀ c ∈ s.consumers, ∀ k ∈ c.pending, s.table.get? k = none
  apart : ∀ (i j : Nat) (c c' : Consumer), i ≠ j → s.consumers[i]? = some c → s.consumers[j]? = some c' →
    ∀ k ∈ c.pending, k ∉ c'.pending
  calls : ∀ call ∈ s.calls, call.Exact (Durable t events)
  there : (∀ op, .other op ∈ events → keepsRows op = true) → ∀ k ∈ s.calls.flatMap Call.inserted, (s.table.get? k).isSome
  once : (∀ op, .other op ∈ events → keepsRows op = true) → (s.calls.flatMap Call.inserted).Nodup

theorem Durable.grows {t : Statuses} {events : List Event} (e : Event) (k : String) (durable : Durable t events k) :
    Durable t (events ++ [e]) k :=
  passed_append durable [e]

theorem keeps_before {events : List Event} {e : Event} (keeps : ∀ op, .other op ∈ events ++ [e] → keepsRows op = true) (op : Op)
    (listed : .other op ∈ events) : keepsRows op = true :=
  keeps op (List.mem_append_left _ listed)

/-- Rows that are not committed are not pending twice, as those of the consumer that goes on are not pending elsewhere. -/
theorem apart_set {consumers : List Consumer} {i : Nat} {c c' : Consumer} (found : consumers[i]? = some c)
    (apart : ∀ (i j : Nat) (c c' : Consumer), i ≠ j → consumers[i]? = some c → consumers[j]? = some c' →
      ∀ k ∈ c.pending, k ∉ c'.pending)
    (free : ∀ (j : Nat) other, j ≠ i → consumers[j]? = some other → ∀ k ∈ c'.pending, k ∉ other.pending)
    (j k : Nat) (first second : Consumer) (differ : j ≠ k) (listed : (consumers.set i c')[j]? = some first)
    (listed' : (consumers.set i c')[k]? = some second) : ∀ x ∈ first.pending, x ∉ second.pending :=
  parties_apart (R := fun a b => ∀ x ∈ a.pending, x ∉ b.pending) (fun _ _ apart x there here => apart x here there) found apart free
    j k first second differ listed listed'

/-- A consumer goes on, and nothing else changes. -/
theorem Sound.put {t : Statuses} {events : List Event} {s : System} (sound : Sound t events s) {i : Nat} {c c' : Consumer}
    (found : s.consumers[i]? = some c) (e : Event) (steady : Steady (Durable t (events ++ [e])) c')
    (absent : ∀ k ∈ c'.pending, s.table.get? k = none)
    (free : ∀ (j : Nat) other, j ≠ i → s.consumers[j]? = some other → ∀ k ∈ c'.pending, k ∉ other.pending) :
    Sound t (events ++ [e]) (s.put i c') := by
  constructor
  · exact all_set (fun other listed => (sound.steady other listed).mono (Durable.grows e)) steady i
  · exact all_set sound.absent absent i
  · exact apart_set found sound.apart free
  · exact fun call listed => (sound.calls call listed).mono (Durable.grows e)
  · exact fun keeps => sound.there (keeps_before keeps)
  · exact fun keeps => sound.once (keeps_before keeps)

/-- A consumer goes on to where it has no rows that are not committed. -/
theorem Sound.put_idle {t : Statuses} {events : List Event} {s : System} (sound : Sound t events s) {i : Nat} {c c' : Consumer}
    (found : s.consumers[i]? = some c) (e : Event) (steady : Steady (Durable t (events ++ [e])) c') (idle : c'.pending = []) :
    Sound t (events ++ [e]) (s.put i c') := by
  refine sound.put found e steady ?_ ?_
  · rw [idle]
    intro k there
    cases there
  · rw [idle]
    intro j other _ _ k there
    cases there

/-- A consumer of another batch comes along. -/
theorem Sound.deliver {t : Statuses} {events : List Event} {s s' : System} {payload : Payload} (sound : Sound t events s)
    (taken : step s (.deliver payload) = some s') : Sound t (events ++ [.deliver payload]) s' := by
  cases taken
  constructor
  · intro c listed
    rcases List.mem_append.mp listed with old | new
    · exact (sound.steady c old).mono (Durable.grows _)
    · cases List.mem_singleton.mp new
      constructor
      · intro j resolved
        cases resolved
      · intro j before
        omega
  · intro c listed k there
    rcases List.mem_append.mp listed with old | new
    · exact sound.absent c old k there
    · cases List.mem_singleton.mp new
      cases there
  · intro i j c c' differ found found' k there
    rcases party_append found with old | ⟨_,rfl⟩
    · rcases party_append found' with old' | ⟨_,rfl⟩
      · exact sound.apart i j c c' differ old old' k there
      · exact List.not_mem_nil
    · cases there
  · exact fun call listed => (sound.calls call listed).mono (Durable.grows _)
  · exact fun keeps => sound.there (keeps_before keeps)
  · exact fun keeps => sound.once (keeps_before keeps)

/-- A call inserts rows that no other call has pending. -/
theorem Sound.inserts {t : Statuses} {events : List Event} {s : System} (reached : Runs step { table := t } events s)
    (sound : Sound t events s) {i start : Nat} {p : Payload} {prepared : List WorkflowStatusInternal} {tx : Transaction}
    {dropped resolved : List Nat} (found : s.consumers[i]? = some ⟨p,.calling start prepared tx,dropped,resolved⟩)
    (free : ((s.consumers.eraseIdx i).all fun c => c.pending.all fun k => k ∉ tx.next) = true) :
    Sound t (events ++ [.insert i]) (s.put i ⟨p,.calling start prepared (statement s.table tx),dropped,resolved⟩) := by
  have steady := (sound.steady _ (List.mem_of_getElem? found)).mono (Durable.grows (.insert i))
  have absent := sound.absent _ (List.mem_of_getElem? found)
  obtain ⟨before,chunked,calling⟩ := steady.standing
  have inserts := statement_inserts (t := s.table) tx
  have there : ∀ k, (s.table.get? k).isSome → Durable t (events ++ [.insert i]) k :=
    fun k found => passed_append (passed_here reached found) _
  refine sound.put found _ ⟨steady.resolved,before,chunked,calling.statement there⟩ ?_ ?_
  · intro k inserted
    obtain ⟨row,listed,rfl⟩ := List.mem_map.mp inserted
    rcases inserts.rows row listed with old | ⟨none_,_⟩
    · exact absent _ (List.mem_map.mpr ⟨row,old,rfl⟩)
    · exact none_
  · intro j other differ found' k inserted there'
    obtain ⟨row,listed,rfl⟩ := List.mem_map.mp inserted
    rcases inserts.rows row listed with old | ⟨_,status,member,same⟩
    · exact sound.apart i j _ other (Ne.symm differ) found found' _ (List.mem_map.mpr ⟨row,old,rfl⟩) there'
    · -- another call that has it pending would have made this statement wait
      have elsewhere := List.all_eq_true.mp free other (List.mem_eraseIdx_iff_getElem?.mpr ⟨j,differ,found'⟩)
      have unlisted := List.all_eq_true.mp elsewhere _ there'
      refine of_decide_eq_true unlisted (List.mem_map.mpr ⟨status,member,?_⟩)
      rw [same]

/-- What stands while a consumer's call is under way. -/
theorem Sound.calling {t : Statuses} {events : List Event} {s : System} (sound : Sound t events s) {c : Consumer} {start : Nat}
    {prepared : List WorkflowStatusInternal} {tx : Transaction} (member : c ∈ s.consumers) (calls : c.phase = .calling start prepared tx) :
    (∀ j < start, Handled (Durable t events) c j) ∧ Chunked c prepared start (c.payload.chunkEnd start) ∧
      Calling (Durable t events) prepared tx := by
  have standing := (sound.steady c member).standing
  unfold Standing at standing
  rwa [calls] at standing

/-- After its call the consumer waits to try again. -/
theorem Sound.waits {t : Statuses} {events : List Event} {s : System} (sound : Sound t events s) {c : Consumer} {start : Nat}
    {prepared : List WorkflowStatusInternal} {tx : Transaction} (member : c ∈ s.consumers) (calls : c.phase = .calling start prepared tx)
    (e : Event) : Steady (Durable t (events ++ [e])) { c with phase := .waiting start prepared } := by
  obtain ⟨before,chunked,_⟩ := sound.calling member calls
  have grows : ∀ k, Durable t events k → Durable t (events ++ [e]) k := Durable.grows e
  exact ⟨fun j listed j' upTo => ((sound.steady c member).resolved j listed j' upTo).mono grows,
    fun j earlier => (before j earlier).mono grows,chunked⟩

/-- A call ends and its rows are dropped. -/
theorem Sound.rolledBack {t : Statuses} {events : List Event} {s : System} (sound : Sound t events s) {i : Nat} {c : Consumer}
    {start : Nat} {prepared : List WorkflowStatusInternal} {tx : Transaction} (found : s.consumers[i]? = some c)
    (calls : c.phase = .calling start prepared tx) (e : Event) : Sound t (events ++ [e]) (s.ended i c start prepared tx .dropped) := by
  have member := List.mem_of_getElem? found
  have grows : ∀ k, Durable t events k → Durable t (events ++ [e]) k := Durable.grows e
  have nothing : ((s.ended i c start prepared tx .dropped).calls.flatMap Call.inserted) = s.calls.flatMap Call.inserted := by
    simp [System.ended]
  constructor
  · exact all_set (fun other listed => (sound.steady other listed).mono grows) (sound.waits member calls e) i
  · refine all_set sound.absent ?_ i
    intro k there
    cases there
  · refine apart_set found sound.apart ?_
    intro j other _ _ k there
    cases there
  · intro call listed
    rcases List.mem_append.mp listed with old | new
    · exact (sound.calls call old).mono grows
    · cases List.mem_singleton.mp new
      exact exact_dropped _ prepared s.table
  · rw [nothing]
    exact fun keeps => sound.there (keeps_before keeps)
  · rw [nothing]
    exact fun keeps => sound.once (keeps_before keeps)

/-- A call ends and its rows are committed. -/
theorem Sound.committed {t : Statuses} {events : List Event} {s : System} (sound : Sound t events s) {i : Nat} {c : Consumer}
    {start : Nat} {prepared : List WorkflowStatusInternal} {tx : Transaction} (found : s.consumers[i]? = some c)
    (calls : c.phase = .calling start prepared tx) (e : Event) {result : CommitResult} (dropped : result ≠ .dropped)
    (done : tx.statuses.length = 0) (run : Runs step { table := t } (events ++ [e]) (s.ended i c start prepared tx result)) :
    Sound t (events ++ [e]) (s.ended i c start prepared tx result) := by
  have member := List.mem_of_getElem? found
  have steady := sound.steady c member
  obtain ⟨before,chunked,calling⟩ := sound.calling member calls
  have pending : c.pending = tx.inserted := by simp only [Consumer.pending,calls]
  have fresh : ∀ k ∈ tx.inserted, s.table.get? k = none := pending ▸ sound.absent c member
  have grows : ∀ k, Durable t events k → Durable t (events ++ [e]) k := Durable.grows e
  have ended : s.ended i c start prepared tx result =
      { table := BatchInsert.commit s.table tx
        consumers := s.consumers.set i { c with phase := if result = .done then .resolving start start else .waiting start prepared }
        calls := s.calls ++ [⟨prepared,tx.inserted,true,if result = .done then some tx.inserted else none,s.table,
          BatchInsert.commit s.table tx⟩] } := by
    simp [System.ended,dropped]
  rw [ended] at run ⊢
  have keeps : ∀ k, (s.table.get? k).isSome → ((BatchInsert.commit s.table tx).get? k).isSome :=
    fun k there => (commit_isSome tx k).mpr (.inl there)
  have durable : ∀ k ∈ tx.inserted, Durable t (events ++ [e]) k :=
    fun k inserted => passed_here run ((commit_isSome tx k).mpr (.inr inserted))
  have idle : ∀ phase, phase = .resolving start start ∨ phase = .waiting start prepared →
      ({ c with phase := phase } : Consumer).pending = [] := by
    rintro phase (rfl | rfl) <;> rfl
  have next : ({ c with phase := if result = .done then .resolving start start else .waiting start prepared } : Consumer).pending = [] := by
    refine idle _ ?_
    split
    · exact .inl rfl
    · exact .inr rfl
  constructor
  · refine all_set (fun other listed => (sound.steady other listed).mono grows) ?_ i
    split
    · refine ⟨fun j listed j' upTo => (steady.resolved j listed j' upTo).mono grows,?_⟩
      intro j inside
      refine handled_of_chunked (fun j earlier => (before j earlier).mono grows) chunked ?_ j inside
      intro status listed
      have exhausted : tx.statuses = [] := List.eq_nil_of_length_eq_zero done
      rcases calling.covered status listed with ⟨_,left,_⟩ | inserted | skipped
      · rw [exhausted] at left
        cases left
      · exact durable _ inserted
      · exact (calling.skipped _ skipped).elim (grows _) (durable _)
    · exact sound.waits member calls e
  · intro other listed k there
    obtain ⟨j,found'⟩ := List.mem_iff_getElem?.mp listed
    rcases party_set_cases found found' with ⟨_,rfl⟩ | ⟨differ,found'⟩
    · rw [next] at there
      cases there
    · -- the rows of another call are not among those that are committed
      have apart := sound.apart j i other c differ found' found k there
      rw [pending] at apart
      dsimp only
      rw [commit_other apart]
      exact sound.absent other (List.mem_of_getElem? found') k there
  · refine apart_set found sound.apart ?_
    intro j other _ _ k there
    rw [next] at there
    cases there
  · intro call listed
    rcases List.mem_append.mp listed with old | new
    · exact (sound.calls call old).mono grows
    · cases List.mem_singleton.mp new
      exact calling.exact grows fresh done result
  · intro kept k listed
    rw [List.flatMap_append] at listed
    rcases List.mem_append.mp listed with old | new
    · exact keeps k (sound.there (keeps_before kept) k old)
    · exact (commit_isSome tx k).mpr (.inr (by simpa using new))
  · intro kept
    have there := sound.there (keeps_before kept)
    rw [List.flatMap_append,List.nodup_append]
    refine ⟨sound.once (keeps_before kept),by simpa using calling.distinct,?_⟩
    intro k old k' new same
    have inserted : k ∈ tx.inserted := by simpa [same] using new
    have found' := there k old
    rw [fresh k inserted] at found'
    cases found'

/-- A call ends. -/
theorem Sound.ended {t : Statuses} {events : List Event} {s : System} (sound : Sound t events s) {i : Nat} {c : Consumer}
    {start : Nat} {prepared : List WorkflowStatusInternal} {tx : Transaction} (found : s.consumers[i]? = some c)
    (calls : c.phase = .calling start prepared tx) (e : Event) (result : CommitResult)
    (done : result ≠ .dropped → tx.statuses.length = 0)
    (run : Runs step { table := t } (events ++ [e]) (s.ended i c start prepared tx result)) :
    Sound t (events ++ [e]) (s.ended i c start prepared tx result) := by
  by_cases dropped : result = .dropped
  · subst dropped
    exact sound.rolledBack found calls e
  · exact sound.committed found calls e dropped (done dropped) run

theorem step_sound {t : Statuses} {events : List Event} {s s' : System} {e : Event} (reached : Runs step { table := t } events s)
    (sound : Sound t events s) (taken : step s e = some s') : Sound t (events ++ [e]) s' := by
  have run : Runs step { table := t } (events ++ [e]) s' :=
    runs_append.mpr ⟨s,reached,runs_cons.mpr ⟨s',taken,runs_nil.mpr rfl⟩⟩
  have grows : ∀ k, Durable t events k → Durable t (events ++ [e]) k := Durable.grows e
  cases e with
  | deliver payload => exact sound.deliver taken
  | act i act =>
    simp only [step] at taken
    split at taken
    · rename_i c found
      obtain ⟨c',acted,rfl⟩ := Option.map_eq_some_iff.mp taken
      have acts := act_acts acted
      exact sound.put_idle found _ (((sound.steady c (List.mem_of_getElem? found)).act acts).mono grows) acts.idle.2
    · cases taken
  | enqueueWorkflows i createdAts =>
    simp only [step] at taken
    split at taken
    · rename_i p start prepared dropped resolved found
      have steady := (sound.steady _ (List.mem_of_getElem? found)).mono grows
      obtain ⟨before,chunked⟩ := steady.standing
      split at taken
      · cases taken
        exact sound.put_idle found _ ⟨steady.resolved,before,chunked⟩ rfl
      · split at taken
        · rename_i length
          cases taken
          exact sound.put_idle found _ ⟨steady.resolved,before,chunked,calling_begins length⟩ rfl
        · cases taken
    · cases taken
  | insert i =>
    simp only [step] at taken
    split at taken
    · rename_i p start prepared tx dropped resolved found
      split at taken
      · rename_i free
        cases taken
        exact sound.inserts reached found free
      · cases taken
    · cases taken
  | commit i result =>
    simp only [step] at taken
    split at taken
    · rename_i p start prepared tx dropped resolved found
      split at taken
      · rename_i done
        cases taken
        exact sound.ended found rfl _ result (fun _ => done) run
      · cases taken
    · cases taken
  | fail i =>
    simp only [step] at taken
    split at taken
    · rename_i p start prepared tx dropped resolved found
      cases taken
      exact sound.ended found rfl _ .dropped (fun seen => absurd rfl seen) run
    · cases taken
  | other op =>
    simp only [step] at taken
    split at taken
    · rename_i waits
      cases taken
      refine ⟨fun c listed => (sound.steady c listed).mono grows,?_,sound.apart,
        fun call listed => (sound.calls call listed).mono grows,?_,fun keeps => sound.once (keeps_before keeps)⟩
      · intro c listed k there
        have free := List.all_eq_true.mp (List.all_eq_true.mp waits c listed) k there
        simpa using free
      · intro keeps k listed
        exact apply_keeps op (keeps op (List.mem_append_right _ List.mem_cons_self)) (sound.there (keeps_before keeps) k listed)
    · cases taken

/-- An offset is resolved only when its message and those before it are handled; a call inserts all or nothing and returns what it
    inserted; and nothing is inserted twice. -/
theorem batches_at_least_once {t : Statuses} {events : List Event} {s : System} (run : Runs step { table := t } events s) :
    AtLeastOnce t events s := by
  have begins : Sound t [] { table := t } := by
    refine ⟨?_,?_,?_,?_,?_,fun _ => List.nodup_nil⟩
    · intro c listed
      cases listed
    · intro c listed
      cases listed
    · intro i j c c' differ found
      simp at found
    · intro call listed
      cases listed
    · intro _ k listed
      cases listed
  have sound : Sound t events s := runs_history begins (fun _ _ _ _ reached sound taken => step_sound reached sound taken) run
  exact ⟨fun c listed => (sound.steady c listed).resolved,sound.calls,sound.once⟩

/-- Three messages in chunks of two. -/
def threeMessages : Payload where
  topic := "t"
  partition := 0
  messages := [⟨"0"⟩,⟨"1"⟩,⟨"2"⟩]
  groupId := "g"
  batchSize := 2
  workflowName := "w"

/-- The first chunk, of which the second message is not processable, up to the statement of its call. -/
def firstChunk (i : Nat) : List Event :=
  [.act i (.begin true),.act i (.prepare (.prepared (some "[]") none 5)),.act i (.prepare .DBOSInvalidWorkflowInputError),
    .act i .prepared,.enqueueWorkflows i [5],.insert i]

/-- The first call fails, the second is committed without an answer, the third finds the row; the partition is lost at the end and the
    batch delivered again. -/
def delivered : List Event :=
  [Event.deliver threeMessages] ++ firstChunk 0 ++
  [Event.fail 0,.act 0 (.wait false),.enqueueWorkflows 0 [6],.insert 0,.commit 0 .lost,.act 0 (.wait false),.enqueueWorkflows 0 [7],.insert 0,
    .commit 0 .done,.act 0 .resolveOffset,.act 0 .resolveOffset,.act 0 (.heartbeat false),.act 0 (.begin true),
    .act 0 (.prepare (.prepared (some "[]") none 8)),.act 0 .prepared,.enqueueWorkflows 0 [8],.insert 0,.commit 0 .done,
    .act 0 .resolveOffset,.act 0 (.heartbeat true),.deliver threeMessages] ++ firstChunk 1 ++ [Event.commit 1 .done,.act 1 .resolveOffset]

theorem batches_at_least_once_delivered : ∃ s, Runs step { table := Table.empty } delivered s ∧
    s.consumers.map Consumer.resolved = [[0,1,2],[0]] ∧
    s.calls.map Call.inserted = [[],["kafkajs-t-0-g-0"],[],["kafkajs-t-0-g-2"],[]] ∧ AtLeastOnce Table.empty delivered s := by
  have ran : (delivered.foldlM step { table := Table.empty }).map (fun s => (s.consumers.map Consumer.resolved,s.calls.map Call.inserted)) =
      some ([[0,1,2],[0]],[[],["kafkajs-t-0-g-0"],[],["kafkajs-t-0-g-2"],[]]) := by decide +kernel
  obtain ⟨s,run,ends⟩ := Option.map_eq_some_iff.mp ran
  exact ⟨s,run,congrArg Prod.fst ends,congrArg Prod.snd ends,batches_at_least_once run⟩

end Dbos.Kafka
