import Dbos.Ops

/-!
The SQS receiver of `packages/sqs-receive/index.ts`. A listener receives one message at a time, starts the workflow of the message under an
ID that the message gives, and deletes the message when the workflow is there. SQS delivers a message any number of times, to any listener
of its queue, as long as it is not deleted, and now and then after that. Any number of processes listen, crash and shut down.
-/
namespace Dbos.SqsReceive
open Dbos.Pg Dbos.Schema Dbos.Status Dbos.Start Dbos.Ops

/-! ### Registrations -/

/-- SQS gives every message an ID; `body` is the rest of what the workflow gets. -/
structure Message where
  MessageId : String
  body : String

/-- `getWorkflowKey` throws where it is `none`. -/
structure SQSConfig where
  queueUrl : Option String := none
  getWorkflowKey : Option (Message → Option String) := none
  workflowQueueName : Option String := none

/-- A method with its configuration, that of its class and that of the receiver; `caller` has its registered names and the process. -/
structure MethodReg where
  method : SQSConfig := {}
  class_ : SQSConfig := {}
  receiver : SQSConfig := {}
  caller : Caller
  maxRecoveryAttempts : Option Nat := some 100

def SQSConfig.key (config : SQSConfig) (m : Message) : Option String :=
  match config.getWorkflowKey with
  | some getWorkflowKey => getWorkflowKey m
  | none => some ""

/-- `wfid` at the start of the workflow. -/
def MethodReg.workflowID (reg : MethodReg) (m : Message) : Option String := do
  let wfid ← reg.method.key m
  if wfid ≠ "" then return wfid
  let wfid ← reg.class_.key m
  if wfid ≠ "" then return wfid
  let wfid ← reg.receiver.key m
  if wfid ≠ "" then return wfid
  return m.MessageId

/-- The class goes before the method here. -/
def MethodReg.url (reg : MethodReg) : Option String := (reg.class_.queueUrl.or reg.method.queueUrl).or reg.receiver.queueUrl

def MethodReg.queueName (reg : MethodReg) : Option String :=
  (reg.method.workflowQueueName.or reg.class_.workflowQueueName).or reg.receiver.workflowQueueName

def MethodReg.params (reg : MethodReg) (wfid : String) : WorkflowParams := { workflowUUID := wfid,queueName := reg.queueName }

theorem MethodReg.shape (reg : MethodReg) (wfid : String) (input : Option String) (now : Int) :
    Shape (internalStatus { reg.caller with input := input } (reg.params wfid) now) := by
  have undelayed : delayUntil (reg.params wfid) now = none := by
    unfold delayUntil
    split
    · rename_i given
      cases given
    · rfl
  refine ⟨?_,?_,nofun,nofun⟩
  · intro direct
    have nowhere : (reg.params wfid).queueName = none := direct
    simp [internalStatus,initialStatus,nowhere]
  · intro queued
    have there : (reg.params wfid).queueName.isSome = true := queued
    simp [internalStatus,initialStatus,there,undelayed]

/-- What `internalWorkflow` hands to `initWorkflowStatus`. -/
def MethodReg.status (reg : MethodReg) (wfid : String) (input : Option String) (now : Int) : NewStatus :=
  ⟨internalStatus { reg.caller with input := input } (reg.params wfid) now,reg.shape wfid input now⟩

/-! ### The system -/

/-- Where a listener awaits: an answer of SQS, the start of the workflow of a message with its owner token, or the deletion of the message. -/
inductive Phase
  | receiving
  | starting (n : Nat) (status : NewStatus) (ownerXid : String)
  | deleting (n : Nat)
  | ended

structure Listener where
  reg : MethodReg
  phase : Phase := .receiving
  isShuttingDown : Bool := false

/-- `sent` are the messages with their queues, and `removed` those that a DeleteMessage has removed. `tokens` and `executed` are history:
    the owner tokens of the calls, and the calls that execute their workflow here. -/
structure System where
  table : Statuses
  sent : List (String × Message) := []
  removed : List Nat := []
  listeners : List Listener := []
  tokens : List String := []
  executed : List (String × String) := []

/-- An attempt to start fails before it reaches the database, or has an owner token. -/
inductive Attempt
  | fails
  | calls (ownerXid : String) (input : Option String) (now : Int)

/-- `initWorkflowStatus` is one transaction, whose acknowledgement may be lost; `dbRetry` runs it again or gives up. -/
inductive Event
  | send (url : String) (m : Message)
  | listen (reg : MethodReg)
  | receive (i n : Nat) (attempt : Attempt)
  | receivesNothing (i : Nat)
  | initWorkflowStatus (i : Nat) (now : Int) (acknowledged : Bool)
  | givesUp (i : Nat)
  | deleteMessage (i : Nat) (removes : Bool)
  | destroy (i : Nat)
  | crash (i : Nat)
  | other (op : Op)

/-- `while (!this.isShuttingDown)`. -/
def Listener.turn (l : Listener) : Listener := { l with phase := if l.isShuttingDown then .ended else .receiving }

def System.set (s : System) (i : Nat) (l : Listener) : System := { s with listeners := s.listeners.set i l }

def Listener.options (l : Listener) : InitOptions := { maxRetries := l.reg.maxRecoveryAttempts }

def step (s : System) : Event → Option System
  | .send url m => some { s with sent := s.sent ++ [(url,m)] }
  | .listen reg => if truthy reg.url then some { s with listeners := s.listeners ++ [{ reg := reg }] } else none
  | .receive i n attempt =>
    match s.listeners[i]?,s.sent[n]? with
    | some l,some (url,m) =>
      match l.phase with
      | .receiving =>
        if l.reg.url = some url then
          match l.reg.workflowID m,attempt with
          | some wfid,.calls ownerXid input now =>
            some { s.set i { l with phase := .starting n (l.reg.status wfid input now) ownerXid } with tokens := s.tokens ++ [ownerXid] }
          | _,_ => some (s.set i l.turn)
        else none
      | _ => none
    | _,_ => none
  | .receivesNothing i =>
    match s.listeners[i]? with
    | some l =>
      match l.phase with
      | .receiving => some (s.set i l.turn)
      | _ => none
    | none => none
  | .initWorkflowStatus i now acknowledged =>
    match s.listeners[i]? with
    | some l =>
      match l.phase with
      | .starting n status ownerXid =>
        let result := Status.initWorkflowStatus s.table status.status (some ownerXid) l.options now
        let s := { s with table := result.2 }
        if acknowledged then
          match result.1 with
          | .ok r =>
            some { s.set i { l with phase := .deleting n } with
              executed := if r.shouldExecuteOnThisExecutor ∧ l.reg.queueName = none then
                s.executed ++ [(status.status.workflowUUID,ownerXid)] else s.executed }
          | .error _ => some (s.set i l.turn)
        else some s
      | _ => none
    | none => none
  | .givesUp i =>
    match s.listeners[i]? with
    | some l =>
      match l.phase with
      | .starting _ _ _ => some (s.set i l.turn)
      | _ => none
    | none => none
  | .deleteMessage i removes =>
    match s.listeners[i]? with
    | some l =>
      match l.phase with
      | .deleting n => some { s.set i l.turn with removed := if removes then s.removed ++ [n] else s.removed }
      | _ => none
    | none => none
  | .destroy i => (s.listeners[i]?).map fun l => s.set i { l with isShuttingDown := true }
  | .crash i => (s.listeners[i]?).map fun l => s.set i { l with phase := .ended }
  | .other op => some { s with table := op.apply s.table }

/-- No owner token comes twice, as they are random, and no row is deleted. -/
def fresh (s : System) : Event → Bool
  | .receive _ _ (.calls ownerXid _ _) => ownerXid ∉ s.tokens
  | .other op => keepsRows op
  | _ => true

/-! ### Rows -/

/-- What the rows say of their functions and owners stays. -/
def Grown (t t' : Statuses) : Prop :=
  ∀ k row, t.get? k = some row → ∃ row', t'.get? k = some row' ∧ row'.name = row.name ∧ row'.class_name = row.class_name ∧
    row'.owner_xid = row.owner_xid

theorem rewrite_names {k : String} {op : Op} {r r' : WorkflowStatus} (by_ : Rewrite k r op r') :
    r'.name = r.name ∧ r'.class_name = r.class_name ∧ r'.owner_xid = r.owner_xid := by
  cases by_ with
  | recorded _ outcome now records open_ => cases outcome <;> exact ⟨rfl,rfl,rfl⟩
  | _ => exact ⟨rfl,rfl,rfl⟩

theorem grown_of_change {t t' : Statuses} {op : Op} (keeps : keepsRows op = true) (change : ∀ k, Change k op (t.get? k) (t'.get? k)) :
    Grown t t' := by
  intro k row found
  have here := change k
  rw [found] at here
  generalize t'.get? k = after at here
  cases here with
  | kept => exact ⟨row,rfl,rfl,rfl,rfl⟩
  | rewritten _ r' by_ => exact ⟨r',rfl,rewrite_names by_⟩
  | deleted _ allIds member deletes =>
    rw [deletes] at keeps
    cases keeps

/-- The exits of a call that is no recovery and no dequeue request, and does not throw. -/
theorem exit_returns {initStatus : WorkflowStatusInternal} {ownerXid : Option String} {maxRetries : Option Nat}
    {resRow : InsertWorkflowResult} {exit : InitExit} (ends : initExit initStatus ownerXid { maxRetries := maxRetries } resRow = exit)
    {r : InitResult} (ok : exit = .existing (.ok r) ∨ exit = .execute r) :
    resRow.name = initStatus.workflowName ∧ resRow.class_name = initStatus.workflowClassName ∧
      (exit = .existing (.ok r) ∧ r.shouldExecuteOnThisExecutor = false ∨ exit = .execute r ∧ resRow.owner_xid = ownerXid) := by
  unfold initExit at ends
  split at ends
  · subst ends
    rcases ok with ok | ok <;> cases ok
  rename_i name
  split at ends
  · subst ends
    rcases ok with ok | ok <;> cases ok
  rename_i class_name
  split at ends
  · subst ends
    rcases ok with ok | ok <;> cases ok
  refine ⟨not_not.mp name,not_not.mp class_name,?_⟩
  split at ends
  · split at ends
    · subst ends
      rcases ok with ok | ok <;> cases ok
    · subst ends
      rcases ok with ok | ok
      · cases ok
        exact .inl ⟨rfl,rfl⟩
      · cases ok
  · rename_i own
    have mine : resRow.owner_xid = ownerXid := by
      by_contra other
      exact own ⟨Ne.symm other,rfl,rfl⟩
    rcases ok with rfl | rfl
    · split at ends
      · split at ends <;> cases ends
      · cases ends
    · exact .inr ⟨rfl,mine⟩

/-- A start that returns has a row of its function, and if it executes the row is its own. -/
theorem init_started {t : Statuses} {initStatus : WorkflowStatusInternal} {ownerXid : Option String} {maxRetries : Option Nat} {now : Int}
    {r : InitResult} (done : (initWorkflowStatus t initStatus ownerXid { maxRetries := maxRetries } now).1 = .ok r) :
    ∃ row, (initWorkflowStatus t initStatus ownerXid { maxRetries := maxRetries } now).2.get? initStatus.workflowUUID = some row ∧
      row.name = initStatus.workflowName ∧ row.class_name.getD "" = initStatus.workflowClassName ∧
      (r.shouldExecuteOnThisExecutor = true → row.owner_xid = ownerXid) := by
  have there := init_there done
  cases inserted : insertWorkflowStatus t initStatus ownerXid false now with
  | error e =>
    rw [initWorkflowStatus,Bool.or_self,inserted] at done
    cases done
  | ok inserts =>
    obtain ⟨resRow,t'⟩ := inserts
    rw [initWorkflowStatus,Bool.or_self,inserted] at done there ⊢
    dsimp only at done there ⊢
    obtain ⟨rfl,shown⟩ := insertWorkflowStatus_ok inserted
    cases ends : initExit initStatus ownerXid { maxRetries := maxRetries } resRow with
    | conflict e =>
      rw [ends] at done
      cases done
    | exceeded maxRetries =>
      rw [ends] at done
      cases done
    | execute r' =>
      rw [ends] at done
      cases done
      obtain ⟨name,class_name,⟨other,_⟩ | ⟨_,mine⟩⟩ := exit_returns ends (.inr rfl)
      · cases other
      · subst shown
        refine ⟨_,(Table.get?_upsert ..).trans (if_pos rfl),name,class_name,fun _ => mine⟩
    | existing result =>
      rw [ends] at done there
      cases done
      obtain ⟨name,class_name,⟨_,elsewhere⟩ | ⟨other,_⟩⟩ := exit_returns ends (.inl rfl)
      · obtain ⟨row,before⟩ := Option.isSome_iff_exists.mp there
        have before : t.get? initStatus.workflowUUID = some row := before
        rw [before] at shown
        subst shown
        refine ⟨row,before,name,class_name,?_⟩
        intro executes
        rw [elsewhere] at executes
        cases executes
      · cases other

/-! ### The invariant -/

/-- The workflow of the message is there, under its ID and with the names of the method. -/
def Started (s : System) (reg : MethodReg) (n : Nat) : Prop :=
  ∃ url m wfid row, s.sent[n]? = some (url,m) ∧ reg.url = some url ∧ reg.workflowID m = some wfid ∧ s.table.get? wfid = some row ∧
    row.name = reg.caller.workflowName ∧ row.class_name.getD "" = reg.caller.workflowClassName

/-- The status is that of the workflow of the message. -/
def Calls (s : System) (reg : MethodReg) (n : Nat) (status : NewStatus) : Prop :=
  ∃ url m wfid input now, s.sent[n]? = some (url,m) ∧ reg.url = some url ∧ reg.workflowID m = some wfid ∧
    status = reg.status wfid input now

structure Sound (s : System) : Prop where
  removed : ∀ n ∈ s.removed,∃ (i : Nat) (l : Listener), s.listeners[i]? = some l ∧ Started s l.reg n
  deleting : ∀ (i : Nat) l n, s.listeners[i]? = some l → l.phase = .deleting n → Started s l.reg n
  starting : ∀ (i : Nat) l n status x, s.listeners[i]? = some l → l.phase = .starting n status x →
    Calls s l.reg n status ∧ x ∈ s.tokens ∧ ∀ k, (k,x) ∉ s.executed
  apart : ∀ (i j : Nat) l l' n n' status status' x, s.listeners[i]? = some l → s.listeners[j]? = some l' →
    l.phase = .starting n status x → l'.phase = .starting n' status' x → i = j
  owners : ∀ k x, (k,x) ∈ s.executed → x ∈ s.tokens ∧ ∃ row, s.table.get? k = some row ∧ row.owner_xid = some x
  once : (s.executed.map Prod.fst).Nodup

theorem sound_start (t : Statuses) : Sound { table := t } where
  removed := by intro n listed; cases listed
  deleting := by intro i l n found; cases found
  starting := by intro i l n status x found; cases found
  apart := by intro i j l l' n n' status status' x found; cases found
  owners := by intro k x listed; cases listed
  once := List.nodup_nil

section
variable {s : System}

theorem Sound.grown (sound : Sound s) {t : Statuses} (grown : Grown s.table t) : Sound { s with table := t } := by
  have started : ∀ {reg n}, Started s reg n → Started { s with table := t } reg n := by
    rintro reg n ⟨url,m,wfid,row,sent,queue,key,found,name,class_name⟩
    obtain ⟨row',found',name',class_name',_⟩ := grown wfid row found
    exact ⟨url,m,wfid,row',sent,queue,key,found',name'.trans name,by rw [class_name']; exact class_name⟩
  refine ⟨?_,?_,sound.starting,sound.apart,?_,sound.once⟩
  · intro n listed
    obtain ⟨i,l,found,there⟩ := sound.removed n listed
    exact ⟨i,l,found,started there⟩
  · intro i l n found phase
    exact started (sound.deleting i l n found phase)
  · intro k x listed
    obtain ⟨token,row,found,owner⟩ := sound.owners k x listed
    obtain ⟨row',found',_,_,owner'⟩ := grown k row found
    exact ⟨token,row',found',owner'.trans owner⟩

/-- A listener goes on without a new start. -/
theorem Sound.put (sound : Sound s) {i : Nat} {l l' : Listener} (there : s.listeners[i]? = some l) (reg : l'.reg = l.reg)
    (deleting : ∀ n, l'.phase = .deleting n → Started s l.reg n)
    (starting : ∀ n status x, l'.phase = .starting n status x → l.phase = .starting n status x) : Sound (s.set i l') := by
  have back : ∀ {j : Nat} {k}, (s.set i l').listeners[j]? = some k → (j = i ∧ k = l') ∨ s.listeners[j]? = some k :=
    fun found => (party_set_cases there found).imp_right And.right
  refine ⟨?_,?_,?_,?_,sound.owners,sound.once⟩
  · intro n listed
    obtain ⟨j,k,found,started⟩ := sound.removed n listed
    by_cases same : j = i
    · subst same
      cases there.symm.trans found
      refine ⟨j,l',?_,reg ▸ started⟩
      exact (party_set there l' j).trans (if_pos rfl)
    · exact ⟨j,k,((party_set there l' j).trans (if_neg same)).trans found,started⟩
  · intro j k n found phase
    rcases back found with ⟨rfl,rfl⟩ | before
    · exact reg ▸ deleting n phase
    · exact sound.deleting j k n before phase
  · intro j k n status x found phase
    rcases back found with ⟨rfl,rfl⟩ | before
    · exact reg ▸ sound.starting j l n status x there (starting n status x phase)
    · exact sound.starting j k n status x before phase
  · intro j j' k k' n n' status status' x found found' phase phase'
    have origin : ∀ {j : Nat} {k : Listener} {n status}, (s.set i l').listeners[j]? = some k → k.phase = .starting n status x →
        ∃ k', s.listeners[j]? = some k' ∧ k'.phase = .starting n status x := by
      intro j k n status found phase
      rcases back found with ⟨rfl,rfl⟩ | before
      · exact ⟨l,there,starting n status x phase⟩
      · exact ⟨k,before,phase⟩
    obtain ⟨first,before,was⟩ := origin found phase
    obtain ⟨second,before',was'⟩ := origin found' phase'
    exact sound.apart j j' first second n n' status status' x before before' was was'

theorem Sound.turned (sound : Sound s) {i : Nat} {l : Listener} (there : s.listeners[i]? = some l) : Sound (s.set i l.turn) := by
  refine sound.put there rfl ?_ ?_
  · intro n phase
    unfold Listener.turn at phase
    split at phase <;> cases phase
  · intro n status x phase
    unfold Listener.turn at phase
    split at phase <;> cases phase

theorem Sound.sent (sound : Sound s) (url : String) (m : Message) : Sound { s with sent := s.sent ++ [(url,m)] } := by
  have still : ∀ {n : Nat} {e}, s.sent[n]? = some e → (s.sent ++ [(url,m)])[n]? = some e := by
    intro n e found
    rw [List.getElem?_append_left (List.getElem?_eq_some_iff.mp found).1]
    exact found
  have started : ∀ {reg n}, Started s reg n → Started { s with sent := s.sent ++ [(url,m)] } reg n := by
    rintro reg n ⟨url',m',wfid,row,found,rest⟩
    exact ⟨url',m',wfid,row,still found,rest⟩
  refine ⟨?_,?_,?_,sound.apart,sound.owners,sound.once⟩
  · intro n listed
    obtain ⟨i,l,found,there⟩ := sound.removed n listed
    exact ⟨i,l,found,started there⟩
  · intro i l n found phase
    exact started (sound.deleting i l n found phase)
  · intro i l n status x found phase
    obtain ⟨⟨url',m',wfid,input,now,found',rest⟩,others⟩ := sound.starting i l n status x found phase
    exact ⟨⟨url',m',wfid,input,now,still found',rest⟩,others⟩

theorem Sound.listen (sound : Sound s) (reg : MethodReg) : Sound { s with listeners := s.listeners ++ [{ reg := reg }] } := by
  have back : ∀ {i : Nat} {l : Listener}, (s.listeners ++ [{ reg := reg }])[i]? = some l → l.phase ≠ .receiving →
      s.listeners[i]? = some l := by
    intro i l found busy
    rcases party_append found with before | ⟨_,rfl⟩
    · exact before
    · exact absurd rfl busy
  refine ⟨?_,?_,?_,?_,sound.owners,sound.once⟩
  · intro n listed
    obtain ⟨i,l,found,there⟩ := sound.removed n listed
    refine ⟨i,l,?_,there⟩
    exact (List.getElem?_append_left (List.getElem?_eq_some_iff.mp found).1).trans found
  · intro i l n found phase
    exact sound.deleting i l n (back found (by rw [phase]; exact Phase.noConfusion)) phase
  · intro i l n status x found phase
    exact sound.starting i l n status x (back found (by rw [phase]; exact Phase.noConfusion)) phase
  · intro i j l l' n n' status status' x found found' phase phase'
    exact sound.apart i j l l' n n' status status' x (back found (by rw [phase]; exact Phase.noConfusion))
      (back found' (by rw [phase']; exact Phase.noConfusion)) phase phase'

/-- A start begins with a token that no call has had. -/
theorem Sound.begins (sound : Sound s) {i n : Nat} {l : Listener} (there : s.listeners[i]? = some l) {status : NewStatus}
    (calls : Calls s l.reg n status) {x : String} (new : x ∉ s.tokens) :
    Sound { s.set i { l with phase := .starting n status x } with tokens := s.tokens ++ [x] } := by
  have quiet : Sound (s.set i { l with phase := .receiving }) :=
    sound.put there rfl (fun _ phase => Phase.noConfusion phase) (fun _ _ _ phase => Phase.noConfusion phase)
  have unlike : ∀ {j : Nat} {k : Listener} {n' status'}, j ≠ i → s.listeners[j]? = some k → k.phase ≠ .starting n' status' x := by
    intro j k n' status' _ found phase
    exact new (sound.starting j k n' status' x found phase).2.1
  refine ⟨?_,?_,?_,?_,?_,sound.once⟩
  · intro n' listed
    obtain ⟨j,k,found,started⟩ := sound.removed n' listed
    by_cases same : j = i
    · subst same
      cases there.symm.trans found
      exact ⟨j,_,(party_set there _ j).trans (if_pos rfl),started⟩
    · exact ⟨j,k,((party_set there _ j).trans (if_neg same)).trans found,started⟩
  · intro j k n' found phase
    rcases party_set_cases there found with ⟨rfl,rfl⟩ | ⟨_,before⟩
    · cases phase
    · exact sound.deleting j k n' before phase
  · intro j k n' status' x' found phase
    rcases party_set_cases there found with ⟨rfl,rfl⟩ | ⟨_,before⟩
    · cases phase
      refine ⟨calls,List.mem_append_right _ (List.mem_singleton_self _),?_⟩
      intro key listed
      exact new (sound.owners key x listed).1
    · obtain ⟨calls',token,free⟩ := sound.starting j k n' status' x' before phase
      exact ⟨calls',List.mem_append_left _ token,free⟩
  · intro j j' k k' n' n'' status' status'' x' found found' phase phase'
    rcases party_set_cases there found with ⟨rfl,rfl⟩ | ⟨other,before⟩
    · cases phase
      rcases party_set_cases there found' with ⟨rfl,_⟩ | ⟨other',before'⟩
      · rfl
      · exact absurd phase' (unlike other' before')
    · rcases party_set_cases there found' with ⟨rfl,rfl⟩ | ⟨other',before'⟩
      · cases phase'
        exact absurd phase (unlike other before)
      · exact sound.apart j j' k k' n' n'' status' status'' x' before before' phase phase'
  · intro key x' listed
    obtain ⟨token,row,found,owner⟩ := sound.owners key x' listed
    exact ⟨List.mem_append_left _ token,row,found,owner⟩

/-- A start returns, and executes the workflow or not. -/
theorem Sound.returned (sound : Sound s) {i n : Nat} {l : Listener} (there : s.listeners[i]? = some l) {status : NewStatus} {x : String}
    (phase : l.phase = .starting n status x) {row : WorkflowStatus} (found : s.table.get? status.status.workflowUUID = some row)
    (name : row.name = status.status.workflowName) (class_name : row.class_name.getD "" = status.status.workflowClassName)
    (executed : Bool) (own : executed = true → row.owner_xid = some x) :
    Sound { s.set i { l with phase := .deleting n } with
      executed := if executed then s.executed ++ [(status.status.workflowUUID,x)] else s.executed } := by
  obtain ⟨⟨url,m,wfid,input,now,sent,queue,key,rfl⟩,token,free⟩ := sound.starting i l n status x there phase
  have started : Started s l.reg n := ⟨url,m,wfid,row,sent,queue,key,found,name,class_name⟩
  have rest : Sound (s.set i { l with phase := .deleting n }) := by
    refine sound.put there rfl ?_ ?_
    · intro n' phase'
      cases phase'
      exact started
    · intro _ _ _ phase'
      cases phase'
  cases executed with
  | false => exact rest
  | true =>
    have once : wfid ∉ s.executed.map Prod.fst := by
      intro listed
      obtain ⟨⟨key',x'⟩,member,rfl⟩ := List.mem_map.mp listed
      obtain ⟨_,row',found',owner⟩ := sound.owners key' x' member
      cases found.symm.trans found'
      have same : x' = x := Option.some.inj (owner.symm.trans (own rfl))
      exact free key' (same ▸ member)
    refine ⟨rest.removed,rest.deleting,?_,rest.apart,?_,?_⟩
    · intro j k n' status' x' found' phase'
      obtain ⟨calls',token',free'⟩ := rest.starting j k n' status' x' found' phase'
      refine ⟨calls',token',?_⟩
      intro key' listed
      rcases List.mem_append.mp listed with before | new
      · exact free' key' before
      · cases List.mem_singleton.mp new
        rcases party_set_cases there found' with ⟨rfl,rfl⟩ | ⟨other,before⟩
        · cases phase'
        · exact other (sound.apart j i k l n' n status' _ x before there phase' phase)
    · intro key' x' listed
      rcases List.mem_append.mp listed with before | new
      · exact rest.owners key' x' before
      · cases List.mem_singleton.mp new
        exact ⟨token,row,found,own rfl⟩
    · simp only [if_true,List.map_append,List.map_cons,List.map_nil]
      refine List.nodup_append.mpr ⟨sound.once,List.nodup_singleton _,?_⟩
      rintro a first b second rfl
      rw [List.mem_singleton.mp second] at first
      exact once first

theorem step_sound {s' : System} {e : Event} (sound : Sound s) (free : fresh s e = true) (taken : step s e = some s') : Sound s' := by
  cases e with
  | send url m =>
    cases taken
    exact sound.sent url m
  | listen reg =>
    simp only [step] at taken
    split at taken
    · cases taken
      exact sound.listen reg
    · cases taken
  | receive i n attempt =>
    simp only [step] at taken
    split at taken
    · rename_i l url m there sent
      split at taken
      · split at taken
        · rename_i queue
          split at taken
          · rename_i wfid ownerXid input now key
            cases taken
            exact sound.begins there ⟨url,m,wfid,input,now,sent,queue,key,rfl⟩ (of_decide_eq_true free)
          · cases taken
            exact sound.turned there
        · cases taken
      · cases taken
    · cases taken
  | receivesNothing i =>
    simp only [step] at taken
    split at taken
    · rename_i l there
      split at taken
      · cases taken
        exact sound.turned there
      · cases taken
    · cases taken
  | initWorkflowStatus i now acknowledged =>
    simp only [step] at taken
    split at taken
    · rename_i l there
      split at taken
      · rename_i n status ownerXid phase
        have change : ∀ k, Change k (.initWorkflowStatus status (some ownerXid) l.options now) (s.table.get? k)
            ((Status.initWorkflowStatus s.table status.status (some ownerXid) l.options now).2.get? k) :=
          fun _ => change_of_init status (some ownerXid) l.options now
        have after := sound.grown (grown_of_change rfl change)
        split at taken
        · split at taken
          · rename_i r ok
            cases taken
            obtain ⟨row,found,name,class_name,own⟩ := init_started ok
            simpa using after.returned there phase found name class_name
              (decide (r.shouldExecuteOnThisExecutor = true ∧ l.reg.queueName = none)) fun executes => own (of_decide_eq_true executes).1
          · cases taken
            exact after.turned there
        · cases taken
          exact after
      · cases taken
    · cases taken
  | givesUp i =>
    simp only [step] at taken
    split at taken
    · rename_i l there
      split at taken
      · cases taken
        exact sound.turned there
      · cases taken
    · cases taken
  | deleteMessage i removes =>
    simp only [step] at taken
    split at taken
    · rename_i l there
      split at taken
      · rename_i n phase
        cases taken
        have rest := sound.turned there
        refine ⟨?_,rest.deleting,rest.starting,rest.apart,rest.owners,rest.once⟩
        intro n' listed
        split at listed
        · rcases List.mem_append.mp listed with before | new
          · exact rest.removed n' before
          · rw [List.mem_singleton.mp new]
            exact ⟨i,l.turn,(party_set there _ i).trans (if_pos rfl),sound.deleting i l n there phase⟩
        · exact rest.removed n' listed
      · cases taken
    · cases taken
  | destroy i =>
    obtain ⟨l,there,rfl⟩ := Option.map_eq_some_iff.mp taken
    exact sound.put there rfl (fun n phase => sound.deleting i l n there phase) fun _ _ _ phase => phase
  | crash i =>
    obtain ⟨l,there,rfl⟩ := Option.map_eq_some_iff.mp taken
    exact sound.put there rfl (fun _ phase => Phase.noConfusion phase) fun _ _ _ phase => Phase.noConfusion phase
  | other op =>
    cases taken
    exact sound.grown (grown_of_change free fun k => apply_changes s.table op k)

/-- No message is lost, and none runs its workflow twice: of a message that a listener has removed the workflow is there, under the names of
    the listener's method, and no workflow ID is executed by two starts. -/
theorem messages_started {t : Statuses} {events : List Event} (run : Runs step { table := t } events s)
    (along : Along step (fun s e => fresh s e = true) { table := t } events) :
    (∀ n ∈ s.removed,∃ (i : Nat) (l : Listener), s.listeners[i]? = some l ∧ Started s l.reg n) ∧ (s.executed.map Prod.fst).Nodup := by
  have sound : Sound s := along_invariant (fun s e s' sound free taken => step_sound sound free taken) (sound_start t) along run
  exact ⟨sound.removed,sound.once⟩

end

def handler : MethodReg where
  method := { queueUrl := some "q" }
  caller := { workflowName := "handle" }

/-- Two listeners receive one message. The first one loses the acknowledgement of its COMMIT, the second one finds the row and removes the
    message, and the first one runs its start again. -/
def deliveredTwice : List Event :=
  [.listen handler,.listen handler,.send "q" ⟨"m","body"⟩,.receive 0 0 (.calls "x" (some "[]") 1),.receive 1 0 (.calls "y" (some "[]") 2),
    .initWorkflowStatus 0 3 false,.initWorkflowStatus 1 4 true,.deleteMessage 1 true,.initWorkflowStatus 0 5 true,.deleteMessage 0 true]

theorem messages_started_twice : ∃ s, Runs step { table := Table.empty } deliveredTwice s ∧ s.removed = [0,0] ∧ s.executed = [("m","x")] ∧
    (∀ n ∈ s.removed,∃ (i : Nat) (l : Listener), s.listeners[i]? = some l ∧ Started s l.reg n) ∧ (s.executed.map Prod.fst).Nodup := by
  obtain ⟨s,run,along,removed,executed⟩ : ∃ s, Runs step { table := Table.empty } deliveredTwice s ∧
      Along step (fun s e => fresh s e = true) { table := Table.empty } deliveredTwice ∧ s.removed = [0,0] ∧ s.executed = [("m","x")] :=
    ⟨_,rfl,of_decide_eq_true rfl,rfl,rfl⟩
  exact ⟨s,run,removed,executed,messages_started run along⟩

end Dbos.SqsReceive
