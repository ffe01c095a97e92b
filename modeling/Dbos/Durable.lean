import Dbos.Communication

/-!
Exactly-once effects of a durable workflow. One executor at a time runs a deterministic
program of operations; its connection is lost, its commits go unacknowledged, its process
dies between any two statements, and a recovery runs the program again from the start. Each
of its runs is, in the database and for everybody else, a run of an ideal workflow that never
fails and performs every operation once, effect and checkpoint in one step; and whatever an
invocation returns, at first or in a replay, is what that checkpoint holds. A program does not go
on after an operation that throws: such an execution waits for a recovery.
-/
namespace Dbos.Durable
open Dbos.Pg Dbos.Schema Dbos.Communication
open Dbos.Checkpoints (insertCheckpoint checkpointRow recordedEnd get?_insertCheckpoint)

/-- The next operation, given what the earlier ones returned. -/
abbrev Program := List Result → Option Operation

/-- The function IDs that an operation reserves. -/
def ids : Operation → Nat
  | .recv _ _ => 2
  | _ => 1

/-! ### The executor -/

structure Executor where
  executorID : String
  results : List Result := []
  curWFFunctionId : Nat := 0
  phase : Phase := .called

/-- `commits` and `returned` are kept for the record: the committed transactions of the
    operations and the completed invocations, each with its function ID. -/
structure System where
  db : Database
  executor : Executor
  commits : List (Nat × List Statement) := []
  returned : List (Nat × Result) := []

/-- What others do: their statements, and any change of `workflow_status`. -/
inductive Environment
  | foreign (statement : Statement)
  | statuses (t : Statuses)

/-- A statement runs, a COMMIT with or without an acknowledgement that arrives, the connection
    is lost, the process dies and an executor recovers the workflow. -/
inductive Event
  | next (input : Input)
  | commit (acknowledged : Bool)
  | drop
  | recover (executorID : String)
  | environment (e : Environment)

/-- The statement writes rows that only the workflow itself writes. -/
def owned (db : Database) (w : String) : Statement → Bool
  | .insertNotification _ _ => false
  | .consume messageUUID => (db.notifications.get? messageUUID).any fun note => note.destination_uuid = w
  | .upsertEvent workflowID _ _ => workflowID = w
  | .upsertHistory workflowID _ _ _ => workflowID = w
  | .insertStream workflowID _ _ _ => workflowID = w
  | .insertCheckpoint key _ => key.1 = w
  | .claimExecutor _ _ => false

def Environment.apply (db : Database) : Environment → Database
  | .foreign statement => statement.apply db
  | .statuses t => { db with statuses := t }

/-- Others leave the rows of the workflow alone, and wait for the rows that it has written. -/
def Environment.allowed (db : Database) (w : String) (held : List Statement) : Environment → Bool
  | .foreign statement => owned db w statement = false ∧ ∀ row ∈ rowOf statement,row ∉ rowsOf held
  | .statuses _ => true

section
variable (prog : Program) (w : String)

def invocationOf (e : Executor) (op : Operation) : Invocation :=
  ⟨e.executorID,w,e.curWFFunctionId,e.curWFFunctionId + 1,op⟩

/-- The invocation returns and the program goes on. -/
def complete (e : Executor) (op : Operation) (value : Result) : Executor :=
  { e with results := e.results ++ [value],curWFFunctionId := e.curWFFunctionId + ids op,phase := .called }

def threw : Phase → Bool
  | .threw _ => true
  | _ => false

def step (s : System) : Event → Option System
  | .next input =>
    match prog s.executor.results with
    | some op =>
      match advance s.db (invocationOf w s.executor op) input s.executor.phase with
      | some (phase,auto) =>
        some { s with db := applyAll s.db auto,executor := { s.executor with phase := phase } }
      | none => none
    | none => none
  | .commit acknowledged =>
    match prog s.executor.results,s.executor.phase with
    | some op,.claimed done value =>
      let s' := { s with db := applyAll s.db done,commits := s.commits ++ [(s.executor.curWFFunctionId,done)] }
      if acknowledged then
        some { s' with
               executor := complete s.executor op value
               returned := s.returned ++ [(s.executor.curWFFunctionId,value)] }
      else some { s' with executor := { s.executor with phase := .called } }
    | some op,.replaying value =>
      if acknowledged then
        some { s with
               executor := complete s.executor op value
               returned := s.returned ++ [(s.executor.curWFFunctionId,value)] }
      else some { s with executor := { s.executor with phase := .called } }
    | _,_ => none
  | .drop => if threw s.executor.phase then none else some { s with executor := { s.executor with phase := .called } }
  | .recover executorID => some { s with executor := { executorID := executorID } }
  | .environment e =>
    if e.allowed s.db w s.executor.phase.writes then some { s with db := e.apply s.db } else none

def start (db : Database) (executorID : String) : System := { db := db,executor := { executorID := executorID } }

end

/-! ### The ideal workflow -/

def streamEffect (db : Database) (inv : Invocation) (key value : String) (serialization : Option String) : List Statement :=
  [.insertStream inv.workflowID key (nextOffset db.streams inv.workflowID key) ⟨value,inv.functionID,serialization⟩]

/-- What an operation does to the database and returns; `recv` may take any message that waits,
    or none. -/
def effect (db : Database) (inv : Invocation) (input : Input) : Option (List Statement × Result) :=
  match inv.op with
  | .send destinationID message topic serialization idempotencyKey =>
    message.map fun message =>
      let messageUUID := messageUUIDOf idempotencyKey destinationID input.randomUUID
      if (db.notifications.get? messageUUID).isSome then ([],{})
      else ([.insertNotification messageUUID
        ⟨destinationID,topic.getD nullTopic,message,input.now,false,serialization⟩],{})
  | .setEvent key message serialization =>
    message.map fun message => ([.upsertEvent inv.workflowID key ⟨message,serialization⟩,
      .upsertHistory inv.workflowID inv.functionID key ⟨message,serialization⟩],{})
  | .writeStream key serializedValue serialization => some (streamEffect db inv key serializedValue serialization,{})
  | .closeStream key => some (streamEffect db inv key DBOS_STREAM_CLOSED_SENTINEL (some portableJSON),{})
  | .recv _ _ =>
    match input.chosen with
    | none => some ([],{})
    | some messageUUID =>
      (db.notifications.get? messageUUID).bind fun note =>
        if unconsumedHits inv.workflowID inv.op.topic messageUUID note then
          some ([.consume messageUUID],⟨some note.message,note.serialization⟩)
        else none

/-- The operations performed so far, with what they returned. -/
structure Ideal where
  db : Database
  history : List (Operation × Result) := []
  commits : List (Nat × List Statement) := []

/-- An operation is performed, the deadline of a `recv` is recorded before it and the marker
    with it, and others do what they do. -/
inductive IdealEvent
  | perform (executorID : String) (input : Input) (startTime endTime : Int)
  | deadline (now endTimeMs : Int)
  | marker (executorID : String)
  | environment (e : Environment)

/-- What an event does on behalf of others. -/
def Event.outside : Event → Option Environment
  | .environment e => some e
  | _ => none

def IdealEvent.outside : IdealEvent → Option Environment
  | .environment e => some e
  | _ => none

/-- The function ID that comes after the operations. -/
def idAfter (history : List (Operation × Result)) : Nat := history.foldr (fun e id => ids e.1 + id) 0

/-- The transaction of an operation: its effect, its checkpoint and the marker. -/
def transaction (inv : Invocation) (effect : List Statement) (value : Result) (startTime endTime : Int) : List Statement :=
  effect ++ [.insertCheckpoint inv.key (inv.checkpoint startTime endTime value),.claimExecutor inv.executorID inv.workflowID]

def waits : Operation → Bool
  | .recv _ timeoutms => timeoutms ≠ 0
  | _ => false

section
variable (prog : Program) (w : String)

def idealStep (t : Ideal) : IdealEvent → Option Ideal
  | .perform executorID input startTime endTime =>
    match prog (t.history.map Prod.snd) with
    | some op =>
      let inv : Invocation := ⟨executorID,w,idAfter t.history,idAfter t.history + 1,op⟩
      match effect t.db inv input with
      | some (statements,value) =>
        some { db := applyAll t.db (transaction inv statements value startTime endTime)
               history := t.history ++ [(op,value)]
               commits := t.commits ++ [(idAfter t.history,transaction inv statements value startTime endTime)] }
      | none => none
    | none => none
  | .deadline now endTimeMs =>
    if (prog (t.history.map Prod.snd)).any waits ∧ t.db.outputs.get? (w,idAfter t.history + 1) = none then
      some { t with
             db := Statement.apply t.db (.insertCheckpoint (w,idAfter t.history + 1) (sleepCheckpoint now endTimeMs)) }
    else none
  | .marker executorID => some { t with db := Statement.apply t.db (.claimExecutor executorID w) }
  | .environment e => if e.allowed t.db w [] then some { t with db := e.apply t.db } else none

def idealStart (db : Database) : Ideal := { db := db }

end

/-! ### What the ideal workflow has recorded -/

/-- The checkpoint is the one of the operation and holds what it returned. -/
def Agrees (row : OperationOutput) (op : Operation) (value : Result) : Prop :=
  row.function_name = op.functionName ∧ row.output = value.serializedValue ∧ row.serialization = value.serialization

/-- The commit is the transaction of an operation with that function ID. -/
def Together (w : String) (c : Nat × List Statement) : Prop :=
  ∃ db inv input statements value startTime endTime, inv.workflowID = w ∧ inv.functionID = c.1 ∧
    effect db inv input = some (statements,value) ∧ c.2 = transaction inv statements value startTime endTime

/-- Every operation performed has its checkpoint and its one commit, and beyond them there is
    at most the deadline of the operation that comes next. -/
structure Journal (prog : Program) (w : String) (t : Ideal) : Prop where
  entries : ∀ first e rest, t.history = first ++ e :: rest → prog (first.map Prod.snd) = some e.1 ∧
    ∃ row, t.db.outputs.get? (w,idAfter first) = some row ∧ Agrees row e.1 e.2
  frontier : ∀ id, idAfter t.history ≤ id → t.db.outputs.get? (w,id) = none ∨
    (id = idAfter t.history + 1 ∧ (prog (t.history.map Prod.snd)).any waits = true)
  recorded : ∀ id row, t.db.outputs.get? (w,id) = some row →
    row.function_name = DBOS_FUNCNAME_SLEEP ∨ id ∈ t.commits.map Prod.fst
  below : ∀ c ∈ t.commits,c.1 < idAfter t.history
  once : (t.commits.map Prod.fst).Nodup
  together : ∀ c ∈ t.commits,Together w c

theorem functionName_ne_sleep (op : Operation) : op.functionName ≠ DBOS_FUNCNAME_SLEEP := by
  cases op <;> simp [Operation.functionName,DBOS_FUNCNAME_SLEEP,DBOS_FUNCNAME_SEND,DBOS_FUNCNAME_SETEVENT,
    DBOS_FUNCNAME_WRITESTREAM,DBOS_FUNCNAME_CLOSESTREAM,DBOS_FUNCNAME_RECV]

theorem ids_pos (op : Operation) : 0 < ids op := by cases op <;> simp [ids]

theorem ids_waits {op : Operation} (waiting : waits op = true) : ids op = 2 := by
  cases op with
  | recv => rfl
  | _ => cases waiting

theorem idAfter_append (first rest : List (Operation × Result)) :
    idAfter (first ++ rest) = idAfter first + idAfter rest := by
  induction first with
  | nil => simp [idAfter]
  | cons e first ih =>
    rw [List.cons_append]
    show ids e.1 + idAfter (first ++ rest) = ids e.1 + idAfter first + idAfter rest
    omega

theorem idAfter_single (op : Operation) (value : Result) : idAfter [(op,value)] = ids op := by simp [idAfter]

/-- The effect of an operation is not on `operation_outputs`. -/
theorem effect_no_checkpoint {db : Database} {inv : Invocation} {input : Input} {statements : List Statement} {value : Result}
    (does : effect db inv input = some (statements,value)) (k : String × Nat) : .checkpoint k ∉ rowsOf statements := by
  unfold effect at does
  split at does
  · obtain ⟨message,_,same⟩ := Option.map_eq_some_iff.mp does
    dsimp only at same
    split at same <;> cases same <;> simp [rowsOf,rowOf]
  · obtain ⟨message,_,same⟩ := Option.map_eq_some_iff.mp does
    cases same
    simp [rowsOf,rowOf]
  · cases does
    simp [streamEffect,rowsOf,rowOf]
  · cases does
    simp [streamEffect,rowsOf,rowOf]
  · split at does
    · cases does
      simp [rowsOf]
    · obtain ⟨note,_,same⟩ := Option.bind_eq_some_iff.mp does
      split at same <;> cases same
      simp [rowsOf,rowOf]

theorem applyAll_append (db : Database) (first rest : List Statement) :
    applyAll db (first ++ rest) = applyAll (applyAll db first) rest := List.foldl_append

/-- A transaction adds its checkpoint, if there is none, and no other. -/
theorem transaction_outputs {db : Database} {inv : Invocation} {input : Input} {statements : List Statement} {value : Result}
    (does : effect db inv input = some (statements,value)) (startTime endTime : Int) (k : String × Nat) :
    (applyAll db (transaction inv statements value startTime endTime)).outputs.get? k =
      if k = inv.key then some ((db.outputs.get? k).getD (checkpointRow (inv.checkpoint startTime endTime value)))
      else db.outputs.get? k := by
  have same : ∀ k, (applyAll db statements).outputs.get? k = db.outputs.get? k :=
    fun k => applyAll_checkpoint_frame db statements (effect_no_checkpoint does k)
  rw [transaction,applyAll_append]
  show (insertCheckpoint (applyAll db statements).outputs inv.key (inv.checkpoint startTime endTime value)).get? k = _
  rw [get?_insertCheckpoint,same,same]
  by_cases here : k = inv.key
  · rw [if_pos here,if_pos here,here]
  · rw [if_neg here,if_neg here]

theorem environment_outputs {db : Database} {w : String} {held : List Statement} {e : Environment}
    (allowed : e.allowed db w held = true) (id : Nat) : (e.apply db).outputs.get? (w,id) = db.outputs.get? (w,id) := by
  cases e with
  | statuses t => rfl
  | foreign statement =>
    refine apply_checkpoint_frame db statement ?_
    intro same
    simp only [Environment.allowed,decide_eq_true_eq] at allowed
    cases statement with
    | insertCheckpoint key call =>
      cases same
      simp [owned] at allowed
    | claimExecutor => cases same
    | _ => cases same

theorem allowed_less {db : Database} {w : String} {held : List Statement} {e : Environment}
    (allowed : e.allowed db w held = true) : e.allowed db w [] = true := by
  cases e with
  | statuses t => rfl
  | foreign statement =>
    simp only [Environment.allowed,decide_eq_true_eq] at allowed ⊢
    exact ⟨allowed.1,fun _ _ => List.not_mem_nil⟩

section
variable {prog : Program} {w : String} {t : Ideal}

theorem journal_outputs (journal : Journal prog w t) {db : Database}
    (same : ∀ id, db.outputs.get? (w,id) = t.db.outputs.get? (w,id)) : Journal prog w { t with db := db } := by
  refine ⟨?_,?_,?_,journal.below,journal.once,journal.together⟩
  · intro first e rest split
    rw [same]
    exact journal.entries first e rest split
  · intro id beyond
    rw [same]
    exact journal.frontier id beyond
  · intro id row found
    rw [same] at found
    exact journal.recorded id row found

theorem journal_deadline (journal : Journal prog w t) {now endTimeMs : Int}
    (waiting : (prog (t.history.map Prod.snd)).any waits = true) :
    Journal prog w { t with
      db := Statement.apply t.db (.insertCheckpoint (w,idAfter t.history + 1) (sleepCheckpoint now endTimeMs)) } := by
  have after : ∀ id, (Statement.apply t.db (.insertCheckpoint (w,idAfter t.history + 1)
      (sleepCheckpoint now endTimeMs))).outputs.get? (w,id) = if id = idAfter t.history + 1 then
        some ((t.db.outputs.get? (w,idAfter t.history + 1)).getD (checkpointRow (sleepCheckpoint now endTimeMs)))
      else t.db.outputs.get? (w,id) := by
    intro id
    simp [Statement.apply]
  refine ⟨?_,?_,?_,journal.below,journal.once,journal.together⟩
  · intro first e rest split
    obtain ⟨next,row,found,agrees⟩ := journal.entries first e rest split
    exact ⟨next,row,apply_outputs_kept t.db _ found,agrees⟩
  · intro id beyond
    by_cases here : id = idAfter t.history + 1
    · exact .inr ⟨here,waiting⟩
    · rw [after,if_neg here]
      exact journal.frontier id beyond
  · intro id row found
    rw [after] at found
    by_cases here : id = idAfter t.history + 1
    · rw [if_pos here] at found
      cases before : t.db.outputs.get? (w,idAfter t.history + 1) with
      | none =>
        rw [before] at found
        cases found
        exact .inl rfl
      | some old =>
        rw [before] at found
        cases found
        exact journal.recorded id _ (here ▸ before)
    · rw [if_neg here] at found
      exact journal.recorded id row found

/-- There is no checkpoint yet for the operation that comes next. -/
theorem journal_fresh (journal : Journal prog w t) : t.db.outputs.get? (w,idAfter t.history) = none := by
  rcases journal.frontier _ (Nat.le_refl _) with none_ | ⟨impossible,_⟩
  · exact none_
  · omega

theorem journal_perform (journal : Journal prog w t) {op : Operation} (next : prog (t.history.map Prod.snd) = some op)
    {executorID : String} {input : Input} {statements : List Statement} {value : Result}
    (does : effect t.db ⟨executorID,w,idAfter t.history,idAfter t.history + 1,op⟩ input = some (statements,value))
    (startTime endTime : Int) :
    Journal prog w
      { db := applyAll t.db (transaction ⟨executorID,w,idAfter t.history,idAfter t.history + 1,op⟩ statements value
          startTime endTime)
        history := t.history ++ [(op,value)]
        commits := t.commits ++ [(idAfter t.history,
          transaction ⟨executorID,w,idAfter t.history,idAfter t.history + 1,op⟩ statements value startTime endTime)] } := by
  have after := fun id => transaction_outputs does startTime endTime (w,id)
  have positive := ids_pos op
  have width : idAfter (t.history ++ [(op,value)]) = idAfter t.history + ids op := by
    rw [idAfter_append,idAfter_single]
  have mine : ∀ id, (w,id) = Invocation.key ⟨executorID,w,idAfter t.history,idAfter t.history + 1,op⟩ ↔
      id = idAfter t.history := by simp [Invocation.key]
  refine ⟨?_,?_,?_,?_,?_,?_⟩
  · intro first e rest split
    rcases List.eq_nil_or_concat rest with rfl | ⟨earlier,last,rfl⟩
    · -- The entry is the new one.
      obtain ⟨rfl,same⟩ := List.append_inj' split rfl
      cases same
      refine ⟨next,checkpointRow (Invocation.checkpoint ⟨executorID,w,idAfter t.history,idAfter t.history + 1,op⟩
        startTime endTime value),?_,rfl,rfl,rfl⟩
      rw [after,if_pos ((mine _).mpr rfl),journal_fresh journal]
      rfl
    · have shorter : t.history ++ [(op,value)] = (first ++ e :: earlier) ++ [last] := by simpa using split
      obtain ⟨grown,_⟩ := List.append_inj' shorter rfl
      obtain ⟨named,row,found,agrees⟩ := journal.entries first e earlier grown
      refine ⟨named,row,?_,agrees⟩
      rw [after]
      split
      · rw [found]
        rfl
      · exact found
  · intro id beyond
    rw [width] at beyond
    have other : id ≠ idAfter t.history := by omega
    left
    rw [after,if_neg (fun same => other ((mine id).mp same))]
    rcases journal.frontier id (by omega) with none_ | ⟨here,waiting⟩
    · exact none_
    · rw [next,Option.any_some] at waiting
      have two := ids_waits waiting
      omega
  · intro id row found
    rw [after] at found
    by_cases here : id = idAfter t.history
    · right
      simp [here]
    · rw [if_neg (fun same => here ((mine id).mp same))] at found
      rcases journal.recorded id row found with slept | listed
      · exact .inl slept
      · right
        rw [List.map_append]
        exact List.mem_append_left _ listed
  · intro c member
    rw [width]
    rcases List.mem_append.mp member with old | new
    · have bound := journal.below c old
      omega
    · rw [List.mem_singleton.mp new]
      show idAfter t.history < _
      omega
  · rw [List.map_append,List.map_singleton,← List.concat_eq_append,List.nodup_concat]
    refine ⟨?_,journal.once⟩
    intro listed
    obtain ⟨c,member,same⟩ := List.mem_map.mp listed
    have bound := journal.below c member
    dsimp only at same
    omega
  · intro c member
    rcases List.mem_append.mp member with old | new
    · exact journal.together c old
    · rw [List.mem_singleton.mp new]
      exact ⟨t.db,_,input,statements,value,startTime,endTime,rfl,rfl,does,rfl⟩

end

/-! ### Effects stay what they were -/

theorem nextOffset_insert (streams : Streams) {w key : String} {k : String × String × Nat} (entry : StreamEntry)
    (elsewhere : k.1 ≠ w) : nextOffset (streams.insert k entry) w key = nextOffset streams w key := by
  unfold nextOffset Table.keys Table.select Table.insert
  split
  · rw [List.filter_append]
    simp [elsewhere]
  · rfl

/-- The effect of an operation depends on the messages it names, on which messages there are,
    and on the streams of the workflow. -/
theorem effect_stable {db db' : Database} {inv : Invocation} {input : Input} {statements : List Statement} {value : Result}
    (does : effect db inv input = some (statements,value))
    (named : ∀ m, .notification m ∈ rowsOf statements → db'.notifications.get? m = db.notifications.get? m)
    (present : ∀ m, (db.notifications.get? m).isSome → (db'.notifications.get? m).isSome)
    (streams : ∀ key, nextOffset db'.streams inv.workflowID key = nextOffset db.streams inv.workflowID key) :
    effect db' inv input = some (statements,value) := by
  unfold effect at does ⊢
  split at does
  · rename_i destinationID message topic serialization idempotencyKey op
    obtain ⟨text,some_,same⟩ := Option.map_eq_some_iff.mp does
    refine Option.map_eq_some_iff.mpr ⟨text,some_,?_⟩
    dsimp only at same ⊢
    split at same
    · rename_i there
      rw [if_pos (present _ there)]
      exact same
    · rename_i missing
      cases same
      rw [named (messageUUIDOf idempotencyKey destinationID input.randomUUID) (by simp [rowsOf,rowOf]),if_neg missing]
  · exact does
  · cases does
    simp only [streamEffect,streams]
  · cases does
    simp only [streamEffect,streams]
  · split at does
    · exact does
    · rename_i messageUUID chosen
      obtain ⟨note,found,same⟩ := Option.bind_eq_some_iff.mp does
      refine Option.bind_eq_some_iff.mpr ⟨note,?_,same⟩
      split at same
      · cases same
        rw [named messageUUID (by simp [rowsOf,rowOf])]
        exact found
      · cases same

theorem apply_present (db : Database) (statement : Statement) {m : String} (there : (db.notifications.get? m).isSome) :
    ((statement.apply db).notifications.get? m).isSome := by
  obtain ⟨note,found⟩ := Option.isSome_iff_exists.mp there
  cases statement with
  | insertNotification m' new =>
    rcases db.notifications.insert_cases m' new m with same | ⟨_,_,inserted⟩
    · exact same ▸ there
    · exact Option.isSome_iff_exists.mpr ⟨new,inserted⟩
  | consume m' => simp [Statement.apply,found]
  | _ => exact there

/-- What others do does not change the effect of an operation that has written its messages. -/
theorem effect_environment {db : Database} {inv : Invocation} {input : Input} {statements held : List Statement}
    {value : Result} {e : Environment} (does : effect db inv input = some (statements,value))
    (allowed : e.allowed db inv.workflowID held = true)
    (written : ∀ m, .notification m ∈ rowsOf statements → .notification m ∈ rowsOf held) :
    effect (e.apply db) inv input = some (statements,value) := by
  cases e with
  | statuses t => exact effect_stable does (fun _ _ => rfl) (fun _ there => there) fun _ => rfl
  | foreign statement =>
    simp only [Environment.allowed,decide_eq_true_eq] at allowed
    obtain ⟨other,waiting⟩ := allowed
    refine effect_stable does ?_ (fun m there => apply_present db statement there) ?_
    · intro m member
      refine apply_notification_frame db statement ?_
      intro same
      exact waiting _ same (written m member)
    · intro key
      cases statement with
      | insertStream workflowID key' offset entry =>
        have elsewhere : workflowID ≠ inv.workflowID := by simpa [owned] using other
        exact nextOffset_insert db.streams entry elsewhere
      | _ => rfl

/-! ### What holds of the executor in each phase -/

def Receives (op : Operation) : Prop := ∃ topic timeoutms, op = .recv topic timeoutms

theorem receives_waits {op : Operation} (waiting : waits op = true) : Receives op := by
  cases op with
  | recv topic timeoutms => exact ⟨topic,timeoutms,rfl⟩
  | _ => cases waiting

/-- `ahead` are the operations that are performed and not yet replayed. Past the look for its
    checkpoint the executor is at the first operation that is not performed, and what it has
    written is the transaction of that operation as far as it has come. -/
def Facts (db : Database) (inv : Invocation) (ahead : List (Operation × Result)) : Phase → Prop
  | .replaying value => ∃ e rest, ahead = e :: rest ∧ value = e.2
  | .missed _ => ahead = []
  | .sleeping _ _ => ahead = [] ∧ waits inv.op = true
  | .sleepUncancelled _ _ => ahead = [] ∧ waits inv.op = true
  | .sleepMissed _ _ => ahead = [] ∧ waits inv.op = true ∧ db.outputs.get? (inv.workflowID,inv.timeoutFunctionID) = none
  | .sleepRecorded _ _ => ahead = [] ∧ Receives inv.op
  | .polling _ _ => ahead = [] ∧ Receives inv.op
  | .pollUncancelled _ _ => ahead = [] ∧ Receives inv.op
  | .arrived _ => ahead = [] ∧ Receives inv.op
  | .cleared _ => ahead = [] ∧ Receives inv.op
  | .locking _ _ => ahead = [] ∧ Receives inv.op
  | .acting _ todo done value => ahead = [] ∧ (∃ input, effect db inv input = some (done ++ todo,value)) ∧
    ∀ m, .notification m ∉ rowsOf todo
  | .recorded done value => ahead = [] ∧ ∃ input statements startTime endTime,
    effect db inv input = some (statements,value) ∧
      done = statements ++ [.insertCheckpoint inv.key (inv.checkpoint startTime endTime value)]
  | .claimed done value => ahead = [] ∧ ∃ input statements startTime endTime,
    effect db inv input = some (statements,value) ∧ done = transaction inv statements value startTime endTime
  | _ => True

section
variable {db : Database} {inv : Invocation} {ahead : List (Operation × Result)}

theorem facts_environment {phase : Phase} {e : Environment} (facts : Facts db inv ahead phase)
    (allowed : e.allowed db inv.workflowID phase.writes = true) : Facts (e.apply db) inv ahead phase := by
  cases phase with
  | sleepMissed startTime endTimeMs =>
    obtain ⟨last,waiting,absent⟩ := facts
    exact ⟨last,waiting,(environment_outputs allowed _).trans absent⟩
  | acting startTime todo done value =>
    obtain ⟨last,⟨input,does⟩,unnamed⟩ := facts
    refine ⟨last,⟨input,effect_environment does allowed ?_⟩,unnamed⟩
    intro m member
    rcases mem_rowsOf_append.mp member with written | left
    · exact written
    · exact absurd left (unnamed m)
  | recorded done value =>
    obtain ⟨last,input,statements,startTime,endTime,does,rfl⟩ := facts
    refine ⟨last,input,statements,startTime,endTime,effect_environment does allowed ?_,rfl⟩
    intro m member
    exact mem_rowsOf_append.mpr (.inl member)
  | claimed done value =>
    obtain ⟨last,input,statements,startTime,endTime,does,rfl⟩ := facts
    refine ⟨last,input,statements,startTime,endTime,effect_environment does allowed ?_,rfl⟩
    intro m member
    exact mem_rowsOf_append.mpr (.inl member)
  | _ => exact facts

theorem facts_firstStatement (input : Input) (startTime : Int) (last : ahead = []) :
    Facts db inv ahead (firstStatement db inv input startTime) := by
  unfold firstStatement
  split
  · rename_i destinationID message topic serialization idempotencyKey op
    split
    · rename_i statements writes
      refine ⟨last,⟨input,?_⟩,by simp [rowsOf]⟩
      obtain ⟨text,rfl,⟨rfl,there⟩ | ⟨rfl,missing⟩⟩ := insertMessage_ok writes
      · simp [effect,op,there]
      · simp [effect,op,missing]
    · trivial
  · rename_i key message serialization op
    split
    · trivial
    · refine ⟨last,⟨input,?_⟩,by simp [rowsOf,rowOf]⟩
      simp [effect,op]
  · rename_i key value serialization op
    refine ⟨last,⟨input,?_⟩,by simp [rowsOf,rowOf]⟩
    simp [effect,op,streamEffect]
  · rename_i key op
    refine ⟨last,⟨input,?_⟩,by simp [rowsOf,rowOf]⟩
    simp [effect,op,streamEffect]
  · rename_i topic timeoutms op
    split
    · exact ⟨last,topic,timeoutms,op⟩
    · rename_i nonzero
      refine ⟨last,?_⟩
      simp [waits,op,nonzero]

/-- A statement keeps the facts, given what is stored under the key of the operation. -/
theorem facts_advance {input : Input} {phase phase' : Phase} {auto : List Statement} (facts : Facts db inv ahead phase)
    (fresh : ahead = [] → db.outputs.get? inv.key = none)
    (kept : ∀ e rest, ahead = e :: rest → ∃ row, db.outputs.get? inv.key = some row ∧ Agrees row e.1 e.2)
    (advances : Advances db inv input phase phase' auto) : Facts (applyAll db auto) inv ahead phase' := by
  cases advances with
  | throws => trivial
  | checks => trivial
  | replays startTime row found named =>
    cases ahead with
    | nil => cases (fresh rfl).symm.trans found
    | cons e rest =>
      obtain ⟨row',found',_,output,serialization⟩ := kept e rest rfl
      cases found.symm.trans found'
      exact ⟨e,rest,rfl,by rw [output,serialization]⟩
  | misses startTime absent =>
    cases ahead with
    | nil => rfl
    | cons e rest =>
      obtain ⟨row,found,_⟩ := kept e rest rfl
      cases absent.symm.trans found
  | starts startTime => exact facts_firstStatement input startTime facts
  | sleepReplays startTime endTimeMs finishTime => exact ⟨facts.1,receives_waits facts.2⟩
  | sleepMisses startTime endTimeMs absent => exact ⟨facts.1,facts.2,absent⟩
  | sleeps startTime endTimeMs phase after =>
    have receives := receives_waits facts.2.1
    rcases after with rfl | rfl
    · exact ⟨facts.1,receives⟩
    · exact ⟨facts.1,receives⟩
  | finds_none startTime none_ =>
    obtain ⟨last,topic,timeoutms,op⟩ := facts
    refine ⟨last,⟨{},?_⟩,by simp [rowsOf]⟩
    simp [effect,op]
  | takes startTime messageUUID note found waiting =>
    obtain ⟨last,topic,timeoutms,op⟩ := facts
    refine ⟨last,⟨{ chosen := some messageUUID },?_⟩,by simp [rowsOf]⟩
    show effect db inv _ = _
    rw [op] at waiting
    simp [effect,op,found,waiting]
  | loses startTime messageUUID =>
    obtain ⟨last,topic,timeoutms,op⟩ := facts
    refine ⟨last,⟨{},?_⟩,by simp [rowsOf]⟩
    simp [effect,op]
  | executes startTime statement rest done value =>
    obtain ⟨last,⟨input,does⟩,unnamed⟩ := facts
    refine ⟨last,⟨input,?_⟩,fun m => (rowOf_ne (unnamed m)).2⟩
    rw [List.append_assoc]
    exact does
  | records startTime done value mine =>
    obtain ⟨last,⟨input',does⟩,_⟩ := facts
    rw [List.append_nil] at does
    exact ⟨last,input',done,startTime,_,does,rfl⟩
  | claims done value =>
    obtain ⟨last,input',statements,startTime,endTime,does,rfl⟩ := facts
    refine ⟨last,input',statements,startTime,endTime,does,?_⟩
    rw [transaction,List.append_assoc]
    rfl
  | _ => exact facts

end

/-! ### The simulation -/

section
variable {prog : Program} {w : String}

/-- The invocation ends with `value` and the program goes on, or the acknowledgement is lost. -/
def Ends (s : System) (op : Operation) (value : Result) (executor : Executor) (returned : List (Nat × Result)) : Prop :=
  (executor = complete s.executor op value ∧ returned = s.returned ++ [(s.executor.curWFFunctionId,value)]) ∨
    (executor = { s.executor with phase := .called } ∧ returned = s.returned)

/-- Everything that a step can be. -/
inductive Moves (prog : Program) (w : String) (s : System) : Event → System → Prop
  | next (input : Input) (op : Operation) (phase : Phase) (auto : List Statement) (next : prog s.executor.results = some op)
      (advances : Advances s.db (invocationOf w s.executor op) input s.executor.phase phase auto) :
      Moves prog w s (.next input) { s with db := applyAll s.db auto,executor := { s.executor with phase := phase } }
  | commit (acknowledged : Bool) (op : Operation) (done : List Statement) (value : Result) (executor : Executor)
      (returned : List (Nat × Result)) (next : prog s.executor.results = some op)
      (claimed : s.executor.phase = .claimed done value) (ends : Ends s op value executor returned) :
      Moves prog w s (.commit acknowledged)
        ⟨applyAll s.db done,executor,s.commits ++ [(s.executor.curWFFunctionId,done)],returned⟩
  | replay (acknowledged : Bool) (op : Operation) (value : Result) (executor : Executor) (returned : List (Nat × Result))
      (next : prog s.executor.results = some op) (replaying : s.executor.phase = .replaying value)
      (ends : Ends s op value executor returned) :
      Moves prog w s (.commit acknowledged) ⟨s.db,executor,s.commits,returned⟩
  | drop : Moves prog w s .drop { s with executor := { s.executor with phase := .called } }
  | recover (executorID : String) : Moves prog w s (.recover executorID) { s with executor := { executorID := executorID } }
  | environment (e : Environment) (allowed : e.allowed s.db w s.executor.phase.writes = true) :
      Moves prog w s (.environment e) { s with db := e.apply s.db }

theorem step_moves {s s' : System} {e : Event} (taken : step prog w s e = some s') : Moves prog w s e s' := by
  cases e with
  | next input =>
    simp only [step] at taken
    split at taken
    · rename_i op next
      split at taken
      · rename_i phase auto advanced
        cases taken
        exact .next input op phase auto next (advance_cases advanced)
      · cases taken
    · cases taken
  | commit acknowledged =>
    simp only [step] at taken
    split at taken
    · rename_i op done value next claimed
      split at taken <;> cases taken
      · exact .commit acknowledged op done value _ _ next claimed (.inl ⟨rfl,rfl⟩)
      · exact .commit acknowledged op done value _ _ next claimed (.inr ⟨rfl,rfl⟩)
    · rename_i op value next replaying
      split at taken <;> cases taken
      · exact .replay acknowledged op value _ _ next replaying (.inl ⟨rfl,rfl⟩)
      · exact .replay acknowledged op value _ _ next replaying (.inr ⟨rfl,rfl⟩)
    · cases taken
  | drop =>
    simp only [step] at taken
    split at taken <;> cases taken
    exact .drop
  | recover executorID =>
    cases taken
    exact .recover executorID
  | environment e =>
    simp only [step] at taken
    split at taken <;> cases taken
    exact .environment e (by assumption)

/-- The executor stands where `replayed` is done again and `ahead` is still to be replayed. -/
structure Stands (prog : Program) (w : String) (db : Database) (executor : Executor)
    (replayed ahead : List (Operation × Result)) : Prop where
  results : executor.results = replayed.map Prod.snd
  function : executor.curWFFunctionId = idAfter replayed
  facts : ∀ op, prog executor.results = some op → Facts db (invocationOf w executor op) ahead executor.phase

/-- The value is what the checkpoint of the operation with that function ID holds. -/
def Holds (w : String) (db : Database) (r : Nat × Result) : Prop :=
  ∃ row op, db.outputs.get? (w,r.1) = some row ∧ Agrees row op r.2

/-- The ideal workflow has the same database, and the executor replays what it has performed. -/
structure Simulates (prog : Program) (w : String) (s : System) (t : Ideal) : Prop where
  db : t.db = s.db
  commits : t.commits = s.commits
  journal : Journal prog w t
  stands : ∃ replayed ahead, t.history = replayed ++ ahead ∧ Stands prog w s.db s.executor replayed ahead
  returned : ∀ r ∈ s.returned,Holds w s.db r

theorem holds_applyAll {db : Database} {r : Nat × Result} (holds : Holds w db r) (statements : List Statement) :
    Holds w (applyAll db statements) r := by
  induction statements generalizing db with
  | nil => exact holds
  | cons statement rest ih =>
    obtain ⟨row,op,found,agrees⟩ := holds
    exact ih ⟨row,op,apply_outputs_kept db statement found,agrees⟩

/-- After a call has ended with the value of the operation `e`, the executor stands before it
    or behind it. -/
theorem stands_ends {s : System} (db : Database) {replayed ahead : List (Operation × Result)} {e : Operation × Result}
    (rest : List (Operation × Result)) (stands : Stands prog w s.db s.executor replayed ahead) {executor : Executor}
    {returned : List (Nat × Result)} (ends : Ends s e.1 e.2 executor returned) :
    ∃ replayed' ahead', replayed ++ e :: rest = replayed' ++ ahead' ∧ Stands prog w db executor replayed' ahead' := by
  rcases ends with ⟨rfl,_⟩ | ⟨rfl,_⟩
  · refine ⟨replayed ++ [e],rest,by simp,?_,?_,fun _ _ => trivial⟩
    · simp [complete,stands.results]
    · show s.executor.curWFFunctionId + ids e.1 = _
      rw [stands.function,idAfter_append,idAfter_single]
  · exact ⟨replayed,e :: rest,rfl,stands.results,stands.function,fun _ _ => trivial⟩

theorem returned_ends {s : System} {db : Database} {op : Operation} {value : Result} {executor : Executor}
    {returned : List (Nat × Result)} (ends : Ends s op value executor returned) (old : ∀ r ∈ s.returned,Holds w db r)
    (new : Holds w db (s.executor.curWFFunctionId,value)) : ∀ r ∈ returned,Holds w db r := by
  rcases ends with ⟨_,rfl⟩ | ⟨_,rfl⟩
  · intro r member
    rcases List.mem_append.mp member with earlier | last
    · exact old r earlier
    · rw [List.mem_singleton.mp last]
      exact new
  · exact old

/-- What is stored under the key of the operation that the executor is at. -/
theorem stands_stored {s : System} {t : Ideal} (simulates : Simulates prog w s t) {replayed ahead : List (Operation × Result)}
    (history : t.history = replayed ++ ahead) (stands : Stands prog w s.db s.executor replayed ahead) (op : Operation) :
    (ahead = [] → s.db.outputs.get? (invocationOf w s.executor op).key = none) ∧
      ∀ e rest, ahead = e :: rest → prog (replayed.map Prod.snd) = some e.1 ∧
        ∃ row, s.db.outputs.get? (invocationOf w s.executor op).key = some row ∧ Agrees row e.1 e.2 := by
  have key : (invocationOf w s.executor op).key = (w,idAfter replayed) := by
    rw [← stands.function]
    rfl
  rw [key,← simulates.db]
  refine ⟨?_,?_⟩
  · rintro rfl
    rw [List.append_nil] at history
    rw [← history]
    exact journal_fresh simulates.journal
  · rintro e rest rfl
    exact simulates.journal.entries replayed e rest history

/-- A statement of the executor: nothing happens in the ideal workflow, or the deadline or the
    marker is recorded. -/
theorem simulates_next {s : System} {t : Ideal} (simulates : Simulates prog w s t) {input : Input} {op : Operation}
    {phase : Phase} {auto : List Statement} (next : prog s.executor.results = some op)
    (advances : Advances s.db (invocationOf w s.executor op) input s.executor.phase phase auto) :
    ∃ events t', Runs (idealStep prog w) t events t' ∧ events.filterMap IdealEvent.outside = [] ∧
      Simulates prog w { s with db := applyAll s.db auto,executor := { s.executor with phase := phase } } t' := by
  obtain ⟨replayed,ahead,history,stands⟩ := simulates.stands
  obtain ⟨fresh,kept⟩ := stands_stored simulates history stands op
  have before := stands.facts op next
  have after : Facts (applyAll s.db auto) (invocationOf w s.executor op) ahead phase :=
    facts_advance before fresh (fun e rest more => (kept e rest more).2) advances
  have stands' : Stands prog w (applyAll s.db auto) { s.executor with phase := phase } replayed ahead := by
    refine ⟨stands.results,stands.function,?_⟩
    intro op' next'
    cases next.symm.trans next'
    exact after
  have returned : ∀ r ∈ s.returned,Holds w (applyAll s.db auto) r :=
    fun r member => holds_applyAll (simulates.returned r member) auto
  have quiet : auto = [] → ∃ events t', Runs (idealStep prog w) t events t' ∧ events.filterMap IdealEvent.outside = [] ∧
      Simulates prog w { s with db := applyAll s.db auto,executor := { s.executor with phase := phase } } t' := by
    rintro rfl
    exact ⟨[],t,runs_nil.mpr rfl,rfl,simulates.db,simulates.commits,simulates.journal,
      ⟨replayed,ahead,history,stands'⟩,returned⟩
  generalize now : s.executor.phase = current at advances before
  cases advances with
  | sleeps startTime endTimeMs phase done =>
    -- The executor is at the operation that comes next, and its deadline is not recorded.
    obtain ⟨rfl,waiting,absent⟩ := before
    rw [List.append_nil] at history
    have results : t.history.map Prod.snd = s.executor.results := by rw [history,stands.results]
    have function : s.executor.curWFFunctionId = idAfter t.history := by rw [history,stands.function]
    have waits_ : (prog (t.history.map Prod.snd)).any waits = true := by
      rw [results,next]
      exact waiting
    have absent' : t.db.outputs.get? (w,idAfter t.history + 1) = none := by
      rw [simulates.db,← function]
      exact absent
    refine ⟨[.deadline input.now endTimeMs],_,runs_cons.mpr ⟨_,if_pos ⟨waits_,absent'⟩,runs_nil.mpr rfl⟩,rfl,?_,
      simulates.commits,journal_deadline simulates.journal waits_,
      ⟨replayed,[],history.trans (List.append_nil _).symm,stands'⟩,returned⟩
    show Statement.apply t.db (.insertCheckpoint (w,idAfter t.history + 1) (sleepCheckpoint input.now endTimeMs)) = _
    rw [simulates.db,← function]
    rfl
  | sleepClaims startTime endTimeMs =>
    refine ⟨[.marker s.executor.executorID],_,runs_cons.mpr ⟨_,rfl,runs_nil.mpr rfl⟩,rfl,?_,simulates.commits,
      journal_outputs simulates.journal (fun _ => rfl),⟨replayed,ahead,history,stands'⟩,returned⟩
    show Statement.apply t.db (.claimExecutor s.executor.executorID w) = _
    rw [simulates.db]
    rfl
  | _ => exact quiet rfl

/-- The COMMIT of an operation: the ideal workflow performs it. -/
theorem simulates_commit {s : System} {t : Ideal} (simulates : Simulates prog w s t) {op : Operation}
    {done : List Statement} {value : Result} {executor : Executor} {returned : List (Nat × Result)}
    (next : prog s.executor.results = some op) (claimed : s.executor.phase = .claimed done value)
    (ends : Ends s op value executor returned) :
    ∃ events t', Runs (idealStep prog w) t events t' ∧ events.filterMap IdealEvent.outside = [] ∧
      Simulates prog w ⟨applyAll s.db done,executor,s.commits ++ [(s.executor.curWFFunctionId,done)],returned⟩ t' := by
  obtain ⟨replayed,ahead,history,stands⟩ := simulates.stands
  have facts := stands.facts op next
  rw [claimed] at facts
  obtain ⟨rfl,input,statements,startTime,endTime,does,rfl⟩ := facts
  rw [List.append_nil] at history
  have results : prog (t.history.map Prod.snd) = some op := by rw [history,← stands.results,next]
  have inv : invocationOf w s.executor op =
      ⟨s.executor.executorID,w,idAfter t.history,idAfter t.history + 1,op⟩ := by
    rw [invocationOf,stands.function,history]
  have function : s.executor.curWFFunctionId = idAfter t.history := by rw [history,stands.function]
  rw [inv,← simulates.db] at does
  have stored := transaction_outputs does startTime endTime (w,idAfter t.history)
  rw [if_pos (by rfl),journal_fresh simulates.journal] at stored
  have performed := journal_perform simulates.journal results does startTime endTime
  rw [inv,function,← simulates.db]
  refine ⟨[.perform s.executor.executorID input startTime endTime],_,runs_cons.mpr ⟨_,?_,runs_nil.mpr rfl⟩,rfl,rfl,?_,
    performed,?_,?_⟩
  · simp only [idealStep,results,does]
  · rw [simulates.commits]
  · obtain ⟨replayed',ahead',split,stands'⟩ := stands_ends (e := (op,value)) (applyAll t.db
      (transaction ⟨s.executor.executorID,w,idAfter t.history,idAfter t.history + 1,op⟩ statements value startTime endTime))
      [] stands ends
    exact ⟨replayed',ahead',history ▸ split,stands'⟩
  · refine returned_ends ends ?_ ?_
    · intro r member
      rw [simulates.db]
      exact holds_applyAll (simulates.returned r member) _
    · rw [function]
      exact ⟨_,op,stored,rfl,rfl,rfl⟩

theorem step_simulates {s s' : System} {t : Ideal} {e : Event} (simulates : Simulates prog w s t)
    (taken : step prog w s e = some s') :
    ∃ events t', Runs (idealStep prog w) t events t' ∧ events.filterMap IdealEvent.outside = e.outside.toList ∧
      Simulates prog w s' t' := by
  obtain ⟨replayed,ahead,history,stands⟩ := simulates.stands
  cases step_moves taken with
  | next input op phase auto next advances => exact simulates_next simulates next advances
  | commit acknowledged op done value executor returned next claimed ends =>
    exact simulates_commit simulates next claimed ends
  | replay acknowledged op value executor returned next replaying ends =>
    have facts := stands.facts op next
    rw [replaying] at facts
    obtain ⟨e,rest,rfl,rfl⟩ := facts
    obtain ⟨named,row,stored,agrees⟩ := (stands_stored simulates history stands op).2 e rest rfl
    rw [← stands.results,next] at named
    cases named
    obtain ⟨replayed',ahead',split,stands'⟩ := stands_ends s.db rest stands ends
    exact ⟨[],t,runs_nil.mpr rfl,rfl,simulates.db,simulates.commits,simulates.journal,
      ⟨replayed',ahead',history.trans split,stands'⟩,
      returned_ends ends simulates.returned ⟨row,e.1,stored,agrees⟩⟩
  | drop =>
    exact ⟨[],t,runs_nil.mpr rfl,rfl,simulates.db,simulates.commits,simulates.journal,
      ⟨replayed,ahead,history,stands.results,stands.function,fun _ _ => trivial⟩,simulates.returned⟩
  | recover executorID =>
    exact ⟨[],t,runs_nil.mpr rfl,rfl,simulates.db,simulates.commits,simulates.journal,
      ⟨[],t.history,rfl,rfl,rfl,fun _ _ => trivial⟩,simulates.returned⟩
  | environment e allowed =>
    have allowed' : e.allowed t.db w [] = true := by
      rw [simulates.db]
      exact allowed_less allowed
    refine ⟨[.environment e],_,runs_cons.mpr ⟨_,if_pos allowed',runs_nil.mpr rfl⟩,rfl,?_,simulates.commits,
      journal_outputs simulates.journal (environment_outputs allowed'),⟨replayed,ahead,history,stands.results,stands.function,?_⟩,?_⟩
    · show e.apply t.db = e.apply s.db
      rw [simulates.db]
    · intro op next
      exact facts_environment (stands.facts op next) allowed
    · intro r member
      obtain ⟨row,op,stored,agrees⟩ := simulates.returned r member
      exact ⟨row,op,(environment_outputs allowed r.1).trans stored,agrees⟩

theorem simulates_start {db : Database} (fresh : ∀ id, db.outputs.get? (w,id) = none) (executorID : String) :
    Simulates prog w (start db executorID) (idealStart db) := by
  refine ⟨rfl,rfl,⟨?_,?_,?_,?_,List.nodup_nil,?_⟩,⟨[],[],rfl,rfl,rfl,fun _ _ => trivial⟩,?_⟩
  · intro first e rest split
    cases first <;> cases split
  · intro id _
    exact .inl (fresh id)
  · intro id row found
    cases (fresh id).symm.trans found
  · intro c member
    cases member
  · intro c member
    cases member
  · intro r member
    cases member

end

structure ExactlyOnce (w : String) (s : System) : Prop where
  /-- No operation commits twice. -/
  once : (s.commits.map Prod.fst).Nodup
  /-- A commit is the effect of its operation in one transaction with the checkpoint. -/
  together : ∀ c ∈ s.commits,Together w c
  /-- A checkpoint is that of a commit, or of a deadline. -/
  recorded : ∀ id row, s.db.outputs.get? (w,id) = some row →
    row.function_name = DBOS_FUNCNAME_SLEEP ∨ id ∈ s.commits.map Prod.fst
  /-- A completed invocation, first or replayed, has committed and returned what its checkpoint holds. -/
  returned : ∀ r ∈ s.returned,r.1 ∈ s.commits.map Prod.fst ∧ Holds w s.db r

/-- Every run of the executor, with crashes, lost acknowledgements, retries and recoveries, is a
    run of the ideal workflow with the same environment, the same commits and the same database. -/
theorem effects_exactly_once (prog : Program) (w : String) {db : Database} (fresh : ∀ id, db.outputs.get? (w,id) = none)
    (executorID : String) {events : List Event} {s : System}
    (run : Runs (step prog w) (start db executorID) events s) :
    ExactlyOnce w s ∧ ∃ ideal t, Runs (idealStep prog w) (idealStart db) ideal t ∧
      ideal.filterMap IdealEvent.outside = events.filterMap Event.outside ∧ t.db = s.db ∧ t.commits = s.commits := by
  obtain ⟨ideal,t,reached,same,simulates⟩ :=
    runs_simulated (fun _ _ _ _ related taken => step_simulates related taken) (simulates_start fresh executorID) run
  have recorded := simulates.journal.recorded
  rw [simulates.commits,simulates.db] at recorded
  refine ⟨⟨?_,?_,recorded,?_⟩,ideal,t,reached,same,simulates.db,simulates.commits⟩
  · rw [← simulates.commits]
    exact simulates.journal.once
  · rw [← simulates.commits]
    exact simulates.journal.together
  · intro r member
    obtain ⟨row,op,stored,agrees⟩ := simulates.returned r member
    rcases recorded r.1 row stored with slept | committed
    · rw [agrees.1] at slept
      exact absurd slept (functionName_ne_sleep op)
    · exact ⟨committed,row,op,stored,agrees⟩

/-- A workflow that sends a message and waits for the answer. -/
def asks : Program := fun results => [Operation.send "d" (some "question") none none none,.recv none 0][results.length]?

def destination : Database :=
  { statuses := Table.empty.insert "d" { status := .PENDING,name := "f",created_at := 0,updated_at := 0 } }

/-- The COMMIT of the `send` is not acknowledged, so it is retried; the answer arrives and is
    received; then the process dies and another executor replays both operations. -/
def interrupted : List Event :=
  [.next {},.next {},.next { randomUUID := "q" },.next { now := 10 },.next {},.commit false,
   .next {},.next {},.commit true,
   .environment (.foreign (.insertNotification "a"
     { destination_uuid := "w",topic := nullTopic,message := "answer",created_at_epoch_ms := 11 })),
   .next {},.next {},.next {},.next {},.next {},.next {},.next { chosen := some "a" },.next {},.next { now := 20 },.next {},
   .commit true,.recover "e2",.next {},.next {},.commit true,.next {},.next {},.commit true]

theorem interrupted_exactly_once : ∃ s, Runs (step asks "w") (start destination "e1") interrupted s ∧
    s.commits.map Prod.fst = [0,1] ∧
    s.returned = [(0,{}),(1,⟨some "answer",none⟩),(0,{}),(1,⟨some "answer",none⟩)] ∧ ExactlyOnce "w" s ∧
    ∃ ideal t, Runs (idealStep asks "w") (idealStart destination) ideal t ∧
      ideal.filterMap IdealEvent.outside = interrupted.filterMap Event.outside ∧ t.db = s.db ∧ t.commits = s.commits := by
  obtain ⟨s,run,commits,returned⟩ : ∃ s, Runs (step asks "w") (start destination "e1") interrupted s ∧
      s.commits.map Prod.fst = [0,1] ∧
      s.returned = [(0,{}),(1,⟨some "answer",none⟩),(0,{}),(1,⟨some "answer",none⟩)] := ⟨_,rfl,rfl,rfl⟩
  exact ⟨s,run,commits,returned,effects_exactly_once asks "w" (fun _ => rfl) "e1" run⟩

end Dbos.Durable
