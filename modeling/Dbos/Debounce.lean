import Dbos.Deduplication

/-!
Debouncing: `Debouncer.debounce` and `DebouncerClient.debounce` of `src/debouncer.ts`, called outside of workflows. A call
is a loop of two transactions, the bounce (`debounceDelayedWorkflow`, whose UPDATE and SELECT see different snapshots) and
the insert of a new workflow (`initWorkflowStatus`, by `internalWorkflow` or by `enqueueDebounced` of `src/client.ts`). Any
number of calls run beside each other and beside every other operation on `workflow_status`; a COMMIT may take effect
although its acknowledgement is lost, and `dbRetry` then runs the transaction again with the same arguments.
-/
namespace Dbos.Debounce
open Dbos.Pg Dbos.Schema Dbos.Status Dbos.Start Dbos.Ops Dbos.Deduplication StatusString

/-- What makes the text and the serialization of the arguments: the first for a `Debouncer`, the second for a client. -/
structure Codec (Args Format : Type) where
  serializeFunctionInputOutput : Args → Format → Option String × Option String
  serializeArgs : Args → Format → Option String × Option String

/-- Who calls: a `Debouncer` in a process, with what `internalWorkflow` takes from it, or a `DebouncerClient`. -/
inductive Kind
  | debouncer (caller : Caller) (inMem : String → Option QueueFlags) (maxRecoveryAttempts : Nat)
  | client

/-- A call of `debounce`, after `rejectConflictingOptions` and the check that the period is positive. -/
structure Call (Args Format : Type) where
  kind : Kind
  workflowName : String
  workflowClassName : String := ""
  startQueueName : Option String := none
  timeoutMS : Option Int := none
  workflowAttributes : Option String := none
  applicationVersion : Option String := none
  debounceTimeoutMs : Option Int := none
  debounceKey : String
  debouncePeriodMs : Int
  positive : 0 < debouncePeriodMs
  args : Args
  format : Format

section
variable {Args Format : Type} (codec : Codec Args Format) (c : Call Args Format)

namespace Call

def queueName : String := c.startQueueName.getD INTERNAL_QUEUE_NAME

def deduplicationID : String := s!"{c.workflowClassName}.{c.workflowName}-{c.debounceKey}"

/-- The input of the call, as the bounce and the insert write it. -/
def input : Option String × Option String :=
  match c.kind with
  | .debouncer _ _ _ => codec.serializeFunctionInputOutput c.args c.format
  | .client => codec.serializeArgs c.args c.format

def bounceParams (now : Int) : DebounceParams where
  workflowName := c.workflowName
  workflowClassName := c.workflowClassName
  queueName := c.queueName
  deduplicationID := c.deduplicationID
  delayUntilEpochMS := now + c.debouncePeriodMs
  input := (c.input codec).1
  serialization := (c.input codec).2

/-- `debounceTimeoutMs ? Date.now() + debounceTimeoutMs : undefined`. -/
def debounceDeadlineEpochMS (now : Int) : Option Int :=
  match c.debounceTimeoutMs with
  | some timeout => if timeout = 0 then none else some (now + timeout)
  | none => none

/-- What `DBOS.startWorkflow` is given. -/
def startParams (workflowID : String) (deadline : Option Int) : WorkflowParams where
  workflowUUID := workflowID
  queueName := some c.queueName
  timeoutMS := c.timeoutMS
  workflowAttributes := c.workflowAttributes
  enqueueOptions :=
    { applicationVersion := c.applicationVersion
      deduplicationID := some c.deduplicationID
      delayMS := some c.debouncePeriodMs
      debounceDeadlineEpochMS := deadline
      isDebounced := true }

/-- The caller of `internalWorkflow`, for the workflow and the arguments of the call. -/
def startCaller (caller : Caller) : Caller :=
  { caller with
    workflowName := c.workflowName
    workflowClassName := c.workflowClassName
    input := (c.input codec).1
    serialization := (c.input codec).2
    callerID := none }

/-- `enqueueDebounced`: the status of `#buildEnqueueStatus` with the debounce fields stamped on it. -/
def enqueueDebounced (workflowID : String) (deadline : Option Int) (now : Int) : WorkflowStatusInternal :=
  let delayUntilEpochMS := if 0 < c.debouncePeriodMs then some (now + c.debouncePeriodMs) else none
  { workflowUUID := workflowID
    status := if delayUntilEpochMS.isSome then DELAYED else ENQUEUED
    workflowName := c.workflowName
    workflowClassName := c.workflowClassName
    queueName := some c.queueName
    executorId := ""
    applicationVersion := c.applicationVersion
    createdAt := now
    timeoutMS := c.timeoutMS
    input := (c.input codec).1
    deduplicationID := some c.deduplicationID
    serialization := (c.input codec).2
    delayUntilEpochMS := match delayUntilEpochMS,deadline with
      | some delay,some deadline => if deadline < delay then some deadline else some delay
      | delay,_ => delay
    attributes := c.workflowAttributes
    debounceDeadlineEpochMS := deadline
    isDebounced := true }

theorem enqueueDebounced_shape (workflowID : String) (deadline : Option Int) (now : Int) :
    Shape (c.enqueueDebounced codec workflowID deadline now) := by
  have positive := c.positive
  refine ⟨?_,?_,?_,?_⟩
  · intro direct
    cases direct
  · intro queued
    cases deadline with
    | none => simp [enqueueDebounced,positive]
    | some deadline =>
      by_cases early : deadline < now + c.debouncePeriodMs <;> simp [enqueueDebounced,positive,early]
  · intro keyed
    rfl
  · intro debounced
    simp [enqueueDebounced,positive]

end Call

/-! ### The loop -/

/-- `classifyBounce`. -/
inductive BounceAction
  | return_
  | enqueue
  | raise
  | retry
  deriving DecidableEq

def classifyBounce (result : DebounceResult) (workflowName workflowClassName : String) : BounceAction :=
  if result.bouncedWorkflowID.isSome then .return_
  else if result.holderWorkflowID = none then .enqueue
  else if result.holderIsDebounced = false then .raise
  else if result.holderWorkflowName ≠ some workflowName ∨ result.holderWorkflowClassName.getD "" ≠ workflowClassName then .raise
  else .retry

/-- The SELECT after an UPDATE that matched nothing: who holds the key, if anyone does. -/
def holderResult (t : Statuses) (params : DebounceParams) : DebounceResult :=
  match t.select fun _ row => row.queue_name = some params.queueName ∧ row.deduplication_id = some params.deduplicationID with
  | [] => {}
  | (holder,row) :: _ =>
    { holderWorkflowID := some holder,holderIsDebounced := row.is_debounced,
      holderWorkflowName := some row.name,holderWorkflowClassName := row.class_name }

/-- With nothing between its statements, the bounce is the UPDATE or the SELECT. -/
theorem debounceDelayedWorkflow_eq (t : Statuses) (params : DebounceParams) (now : Int) :
    debounceDelayedWorkflow t params now = match t.keys (bounceHits params) with
      | [] => (holderResult t params,t)
      | bounced :: _ => ({ bouncedWorkflowID := some bounced },t.update (bounceHits params) fun _ => bouncedRow params now) := by
  unfold debounceDelayedWorkflow Table.keys holderResult
  cases t.select (bounceHits params) with
  | nil =>
    simp only [List.map_nil]
    cases t.select fun _ row => decide (row.queue_name = some params.queueName ∧ row.deduplication_id = some params.deduplicationID) with
    | nil => rfl
    | cons holder others => rfl
  | cons e rest => rfl

/-- Where a call stands: at the top of its loop, in the bounce, after an UPDATE that matched nothing, before the insert
    because the key is free, and in the insert. -/
inductive Phase
  | looping
  | bouncing (params : DebounceParams)
  | unmatched (params : DebounceParams)
  | vacant
  | inserting (status : NewStatus) (ownerXid : Option String)
  | returned (workflowID : String)
  | threw (e : DbosError)

/-- The phase after the SELECT. -/
def afterHolder (result : DebounceResult) : Phase :=
  match classifyBounce result c.workflowName c.workflowClassName with
  | .return_ => .returned (result.bouncedWorkflowID.getD "")
  | .enqueue => .vacant
  | .raise => .threw (.DBOSQueueDuplicatedError "" c.queueName c.deduplicationID)
  | .retry => .looping

/-- The status of the new workflow, or what the checks of `#invokeWorkflow` throw. -/
def enqueueing (workflowID ownerXid : String) (deadline : Option Int) (now : Int) : Phase :=
  match c.kind with
  | .client => .inserting ⟨c.enqueueDebounced codec workflowID deadline now,c.enqueueDebounced_shape codec workflowID deadline now⟩ none
  | .debouncer caller inMem _ =>
    let params := c.startParams workflowID deadline
    match checked : checkEnqueueOptions inMem params.queueName params.enqueueOptions with
    | .error e => .threw e
    | .ok () =>
      .inserting ⟨internalStatus (c.startCaller codec caller) params now,
        internalStatus_shape _ now checked fun _ => ⟨rfl,c.debouncePeriodMs,rfl,c.positive⟩⟩ (some ownerXid)

def Kind.options : Kind → InitOptions
  | .debouncer _ _ maxRecoveryAttempts => { maxRetries := some maxRecoveryAttempts }
  | .client => {}

/-- A duplicated key sends the call back to the top of its loop. -/
def afterInsert (workflowID : String) (acknowledged : Bool) (inserting : Phase) : Except DbosError InitResult → Phase
  | .ok _ => if acknowledged then .returned workflowID else inserting
  | .error (.DBOSQueueDuplicatedError _ _ _) => .looping
  | .error e => .threw e

end

/-! ### Calls beside each other -/

structure Party (Args Format : Type) where
  call : Call Args Format
  phase : Phase := .looping

/-- A committed bounce or insert of a debounced workflow: whose it was, and the row that it left. -/
structure Commit where
  call : Option Nat
  workflowID : String
  row : WorkflowStatus

/-- `issued` are the workflow IDs that `randomUUID` has given to calls, `delaySet` the workflows of `setWorkflowDelay`. -/
structure System (Args Format : Type) where
  table : Statuses
  calls : List (Party Args Format) := []
  issued : List (String × Nat) := []
  commits : List Commit := []
  delaySet : List String := []

/-- `drop` is a connection that is lost before the COMMIT of a bounce, `fail` anything that ends a call with an error. -/
inductive Event (Args Format : Type)
  | debounce (c : Call Args Format)
  | serialize (i : Nat) (now : Int)
  | bounce (i : Nat) (now : Int) (acknowledged : Bool)
  | holder (i : Nat)
  | enqueue (i : Nat) (workflowID ownerXid : String) (deadlineNow now : Int)
  | insert (i : Nat) (now : Int) (acknowledged : Bool)
  | drop (i : Nat)
  | fail (i : Nat) (e : DbosError)
  | other (op : Op)

def Event.caller {Args Format : Type} : Event Args Format → Option Nat
  | .bounce i _ _ => some i
  | .insert i _ _ => some i
  | _ => none

/-- The bounces and inserts that the operation commits. -/
def committedBy (call : Option Nat) (t : Statuses) (op : Op) : List Commit :=
  match op with
  | .debounceDelayedWorkflow params _ =>
    (t.keys (bounceHits params)).filterMap fun id => ((op.apply t).get? id).map fun row => ⟨call,id,row⟩
  | .initWorkflowStatus initStatus _ _ _ =>
    let id := initStatus.status.workflowUUID
    if (t.get? id).isNone then ((op.apply t).get? id).toList.map fun row => ⟨call,id,row⟩ else []
  | _ => []

def delaySetBy : Op → List String
  | .setWorkflowDelay workflowID _ _ => [workflowID]
  | _ => []

/-- The IDs under which the operation may insert rows. -/
def insertedIDs : Op → List String
  | .initWorkflowStatus initStatus _ _ _ => [initStatus.status.workflowUUID]
  | .enqueueWorkflows statuses _ => statuses.map fun s => s.status.workflowUUID
  | .bulkForkWorkflows _ forks _ _ => forks
  | _ => []

/-- The delay of a status ends no later than its debounce deadline. -/
def cappedStatus (s : WorkflowStatusInternal) : Bool :=
  match s.debounceDeadlineEpochMS,s.delayUntilEpochMS with
  | some deadline,some delay => delay ≤ deadline
  | _,_ => true

/-- An operation of others: `randomUUID` has not given its IDs to a call, and a delay is capped as it is wherever a
    status is built. -/
def outside (issued : List (String × Nat)) (op : Op) : Bool :=
  (insertedIDs op).all (fun id => id ∉ issued.map Prod.fst) &&
    match op with
    | .initWorkflowStatus initStatus _ _ _ => cappedStatus initStatus.status
    | _ => true

section
variable {Args Format : Type} (codec : Codec Args Format)

def System.commit (s : System Args Format) (call : Option Nat) (op : Op) : System Args Format :=
  { s with
    table := op.apply s.table
    commits := s.commits ++ committedBy call s.table op
    delaySet := s.delaySet ++ delaySetBy op }

def System.move (s : System Args Format) (i : Nat) (p : Party Args Format) (phase : Phase) : System Args Format :=
  { s with calls := s.calls.set i { p with phase := phase } }

/-- The bounce of a party: the first row that RETURNING gives is the bounced workflow. -/
def System.bounce (s : System Args Format) (i : Nat) (p : Party Args Format) (params : DebounceParams) (now : Int)
    (acknowledged : Bool) : System Args Format :=
  match s.table.keys (bounceHits params) with
  | [] => s.move i p (.unmatched params)
  | bounced :: _ =>
    (s.commit (some i) (.debounceDelayedWorkflow params now)).move i p
      (if acknowledged then .returned bounced else .bouncing params)

def System.insert (s : System Args Format) (i : Nat) (p : Party Args Format) (status : NewStatus) (ownerXid : Option String)
    (now : Int) (acknowledged : Bool) : System Args Format :=
  (s.commit (some i) (.initWorkflowStatus status ownerXid p.call.kind.options now)).move i p
    (afterInsert status.status.workflowUUID acknowledged (.inserting status ownerXid)
      (initWorkflowStatus s.table status.status ownerXid p.call.kind.options now).1)

def step (s : System Args Format) : Event Args Format → Option (System Args Format)
  | .debounce c => some { s with calls := s.calls ++ [{ call := c }] }
  | .other op => if outside s.issued op = true then some (s.commit none op) else none
  | .serialize i now =>
    match s.calls[i]? with
    | some ⟨c,.looping⟩ => some (s.move i ⟨c,.looping⟩ (.bouncing (c.bounceParams codec now)))
    | _ => none
  | .bounce i now acknowledged =>
    match s.calls[i]? with
    | some ⟨c,.bouncing params⟩ => some (s.bounce i ⟨c,.bouncing params⟩ params now acknowledged)
    | _ => none
  | .holder i =>
    match s.calls[i]? with
    | some ⟨c,.unmatched params⟩ => some (s.move i ⟨c,.unmatched params⟩ (afterHolder c (holderResult s.table params)))
    | _ => none
  | .enqueue i workflowID ownerXid deadlineNow now =>
    match s.calls[i]? with
    | some ⟨c,.vacant⟩ =>
      if s.table.get? workflowID = none ∧ workflowID ∉ s.issued.map Prod.fst then
        some ({ s with issued := s.issued ++ [(workflowID,i)] }.move i ⟨c,.vacant⟩
          (enqueueing codec c workflowID ownerXid (c.debounceDeadlineEpochMS deadlineNow) now))
      else none
    | _ => none
  | .insert i now acknowledged =>
    match s.calls[i]? with
    | some ⟨c,.inserting status ownerXid⟩ => some (s.insert i ⟨c,.inserting status ownerXid⟩ status ownerXid now acknowledged)
    | _ => none
  | .drop i =>
    match s.calls[i]? with
    | some ⟨c,.unmatched params⟩ => some (s.move i ⟨c,.unmatched params⟩ (.bouncing params))
    | _ => none
  | .fail i e =>
    match s.calls[i]? with
    | some ⟨_,.returned _⟩ => none
    | some p => some (s.move i p (.threw e))
    | none => none

def start : System Args Format := { table := Table.empty }

/-- The delay of a row ends no later than its debounce deadline. -/
def Capped (r : WorkflowStatus) : Prop :=
  ∀ deadline delay, r.debounce_deadline_epoch_ms = some deadline → r.delay_until_epoch_ms = some delay → delay ≤ deadline

/-- The last committed bounce or insert of the workflow. -/
def lastCommit (commits : List Commit) (k : String) : Option Commit := (commits.filter fun m => m.workflowID = k).getLast?

/-- The row as the call wants it. -/
structure Made (c : Call Args Format) (r : WorkflowStatus) : Prop where
  delayed : r.status = DELAYED
  input : (r.inputs,r.serialization) = c.input codec
  name : r.name = c.workflowName
  class_name : r.class_name.getD "" = c.workflowClassName

/-- What debouncing promises of a state. -/
structure Coalesced (s : System Args Format) : Prop where
  single : ∀ k k' r r' q d, s.table.get? k = some r → s.table.get? k' = some r' → r.status = DELAYED → r'.status = DELAYED →
    Holds q d r → Holds q d r' → k = k'
  handle : ∀ i c workflowID, s.calls[i]? = some ⟨c,.returned workflowID⟩ →
    ∃ m ∈ s.commits, m.call = some i ∧ m.workflowID = workflowID ∧ Made codec c m.row
  last : ∀ k r m, s.table.get? k = some r → r.status = DELAYED → lastCommit s.commits k = some m →
    r.inputs = m.row.inputs ∧ r.serialization = m.row.serialization
  capped : ∀ k r, s.table.get? k = some r → k ∉ s.delaySet → Capped r

end

/-! ### What an operation does to debounced rows -/

theorem bounceHits_class {params : DebounceParams} {k : String} {r : WorkflowStatus} (hit : bounceHits params k r = true) :
    r.name = params.workflowName ∧ r.class_name.getD "" = params.workflowClassName ∧ r.status = DELAYED := by
  simp only [bounceHits,decide_eq_true_eq] at hit
  refine ⟨hit.1,?_,hit.2.2.2.2.1⟩
  rw [hit.2.1]
  exact nullIfEmpty_getD _

/-- A row that is DELAYED after a rewrite was DELAYED before, and only a bounce changes its input. -/
theorem rewrite_delayed {k : String} {op : Op} {r r' : WorkflowStatus} (by_ : Rewrite k r op r') (delayed : r'.status = DELAYED) :
    r.status = DELAYED ∧ ((r'.inputs = r.inputs ∧ r'.serialization = r.serialization) ∨
      ∃ params now, op = .debounceDelayedWorkflow params now ∧ bounceHits params k r = true) := by
  cases by_ with
  | upserted initStatus ownerXid options now here => exact ⟨delayed,.inl ⟨rfl,rfl⟩⟩
  | exceeded initStatus ownerXid options now here pending => cases delayed
  | recorded op outcome now records open_ => cases outcome <;> cases delayed
  | reenqueued executorID appVersion recoveryQueueName now hit => cases delayed
  | cancelled workflowIDs now here unsuccessful unfailed => cases delayed
  | resumed workflowIDs queueName now here unsuccessful unfailed => cases delayed
  | prioritised priority now waits => exact ⟨delayed,.inl ⟨rfl,rfl⟩⟩
  | delayed delayUntilEpochMS now waits => exact ⟨delayed,.inl ⟨rfl,rfl⟩⟩
  | bounced params now hit => exact ⟨delayed,.inr ⟨params,now,rfl,hit⟩⟩
  | forkedFrom originals forks options now here => exact ⟨delayed,.inl ⟨rfl,rfl⟩⟩
  | transitioned now waits due => cases delayed
  | claimed call recent ids now here waits => cases delayed
  | adopted executorID other => exact ⟨delayed,.inl ⟨rfl,rfl⟩⟩

theorem bouncedRow_capped (params : DebounceParams) (now : Int) (r : WorkflowStatus) : Capped (bouncedRow params now r) := by
  intro deadline delay set until_
  have set : r.debounce_deadline_epoch_ms = some deadline := set
  simp only [bouncedRow,set] at until_
  split at until_
  · cases until_
    omega
  · cases until_
    omega

theorem rewrite_capped {k : String} {op : Op} {r r' : WorkflowStatus} (by_ : Rewrite k r op r') (capped : Capped r)
    (free : k ∉ delaySetBy op) : Capped r' := by
  cases by_ with
  | recorded op outcome now records open_ => cases outcome <;> exact capped
  | delayed delayUntilEpochMS now waits => simp [delaySetBy] at free
  | bounced params now hit => exact bouncedRow_capped params now r
  | _ => exact capped

theorem insertedRow_capped {initStatus : WorkflowStatusInternal} (ownerXid : Option String) (now : Int)
    (capped : cappedStatus initStatus = true) : Capped (insertedRow initStatus ownerXid now) := by
  intro deadline delay set until_
  have set : initStatus.debounceDeadlineEpochMS = some deadline := set
  have until_ : initStatus.delayUntilEpochMS = some delay := until_
  simpa [cappedStatus,set,until_] using capped

theorem inserted_capped {k : String} {op : Op} {r : WorkflowStatus} (new : Inserted k op r)
    (capped : ∀ initStatus ownerXid options now, op = .initWorkflowStatus initStatus ownerXid options now →
      cappedStatus initStatus.status = true) : Capped r := by
  cases new with
  | init initStatus ownerXid options now here => exact insertedRow_capped ownerXid now (capped _ _ _ _ rfl)
  | enqueued statuses createdAts s createdAt member here waits =>
    intro deadline delay set
    cases set
  | forked originals forks options now origID ws here =>
    intro deadline delay set
    cases set

/-- A commit is a bounce of the row that was there or the insert of a new one. -/
theorem mem_committedBy {call : Option Nat} {t : Statuses} {op : Op} {m : Commit} (listed : m ∈ committedBy call t op) :
    m.call = call ∧ (op.apply t).get? m.workflowID = some m.row ∧
      ((∃ params now r, op = .debounceDelayedWorkflow params now ∧ bounceHits params m.workflowID r = true ∧
          m.row = bouncedRow params now r) ∨
        ∃ initStatus ownerXid options now, op = .initWorkflowStatus initStatus ownerXid options now ∧
          m.workflowID = initStatus.status.workflowUUID ∧ m.row = insertedRow initStatus.status ownerXid now) := by
  unfold committedBy at listed
  split at listed
  · rename_i params now
    obtain ⟨id,hit,made⟩ := List.mem_filterMap.mp listed
    obtain ⟨row,found,rfl⟩ := Option.map_eq_some_iff.mp made
    refine ⟨rfl,found,.inl ?_⟩
    obtain ⟨r,before,hits⟩ := (t.mem_keys (bounceHits params) id).mp hit
    refine ⟨params,now,r,rfl,hits,?_⟩
    have some_hit : t.select (bounceHits params) ≠ [] := by
      intro none_hit
      rw [Table.keys,none_hit] at hit
      cases hit
    simp only [Op.apply,debounceDelayedWorkflow] at found
    split at found
    · simpa [before,hits] using found.symm
    · rename_i nothing
      exact absurd nothing some_hit
  · rename_i initStatus ownerXid options now
    dsimp only at listed
    split at listed
    · rename_i free
      obtain ⟨row,found,rfl⟩ := List.mem_map.mp listed
      have found := Option.mem_toList.mp found
      refine ⟨rfl,found,.inr ⟨initStatus,ownerXid,options,now,rfl,rfl,?_⟩⟩
      have change := apply_changes t (.initWorkflowStatus initStatus ownerXid options now) initStatus.status.workflowUUID
      rw [found,Option.isNone_iff_eq_none.mp free] at change
      cases change with
      | inserted _ new =>
        cases new with
        | init _ _ _ _ here => rfl
    · cases listed
  · cases listed

/-- A row that is DELAYED after an operation is one of its commits, or has the input that it had. -/
theorem apply_delayed {t : Statuses} {op : Op} {k : String} {r' : WorkflowStatus} (call : Option Nat)
    (after : (op.apply t).get? k = some r') (delayed : r'.status = DELAYED) :
    (∃ m ∈ committedBy call t op, m.workflowID = k) ∨
      ∃ r, t.get? k = some r ∧ r.status = DELAYED ∧ r'.inputs = r.inputs ∧ r'.serialization = r.serialization := by
  have change := apply_changes t op k
  rw [after] at change
  generalize before : t.get? k = old at change
  cases change with
  | kept => exact .inr ⟨r',rfl,delayed,rfl,rfl⟩
  | inserted _ new =>
    cases new with
    | init initStatus ownerXid options now here =>
      subst here
      refine .inl ⟨⟨call,_,insertedRow initStatus.status ownerXid now⟩,?_,rfl⟩
      simp [committedBy,before,after]
    | enqueued statuses createdAts s createdAt member here waits =>
      have status : s.status.status = DELAYED := delayed
      cases waits.symm.trans status
    | forked originals forks options now origID ws here => cases delayed
  | rewritten r _ by_ =>
    obtain ⟨was,same | ⟨params,now,rfl,hit⟩⟩ := rewrite_delayed by_ delayed
    · exact .inr ⟨r,rfl,was,same⟩
    · refine .inl ⟨⟨call,k,r'⟩,?_,rfl⟩
      refine List.mem_filterMap.mpr ⟨k,(t.mem_keys _ k).mpr ⟨r,before,hit⟩,?_⟩
      rw [after]
      rfl

/-! ### The invariant -/

section
variable {Args Format : Type} {codec : Codec Args Format}

/-- What holds of the rows, whoever has written them. -/
structure Stored (s : System Args Format) : Prop where
  unique : Unique s.table
  last : ∀ k r m, s.table.get? k = some r → r.status = DELAYED → lastCommit s.commits k = some m →
    r.inputs = m.row.inputs ∧ r.serialization = m.row.serialization
  capped : ∀ k r, s.table.get? k = some r → k ∉ s.delaySet → Capped r

theorem lastCommit_append (commits new : List Commit) (k : String) :
    lastCommit (commits ++ new) k = (lastCommit new k).or (lastCommit commits k) := by
  unfold lastCommit
  rw [List.filter_append,List.getLast?_append]

theorem lastCommit_some {commits : List Commit} {k : String} {m : Commit} (last : lastCommit commits k = some m) :
    m ∈ commits ∧ m.workflowID = k := by
  have member := List.mem_of_getLast? last
  simpa using List.mem_filter.mp member

theorem lastCommit_isSome {commits : List Commit} {k : String} {m : Commit} (listed : m ∈ commits) (here : m.workflowID = k) :
    ∃ m', lastCommit commits k = some m' := by
  have member : m ∈ commits.filter fun m => m.workflowID = k := List.mem_filter.mpr ⟨listed,by simpa using here⟩
  exact ⟨_,List.getLast?_eq_some_getLast (List.ne_nil_of_mem member)⟩

theorem commit_stored {s : System Args Format} (stored : Stored s) (call : Option Nat) {op : Op}
    (capped : ∀ initStatus ownerXid options now, op = .initWorkflowStatus initStatus ownerXid options now →
      cappedStatus initStatus.status = true) : Stored (s.commit call op) := by
  refine ⟨apply_unique stored.unique op,?_,?_⟩
  · intro k r' m after delayed last
    simp only [System.commit] at after last
    rw [lastCommit_append] at last
    -- A commit of this operation on the row is the row.
    have standing : ∀ m'', lastCommit (committedBy call s.table op) k = some m'' → r' = m''.row := by
      intro m'' newest
      obtain ⟨member,there⟩ := lastCommit_some newest
      have stands := (mem_committedBy member).2.1
      rw [there,after] at stands
      exact Option.some.inj stands
    rcases apply_delayed call after delayed with ⟨m',listed,here⟩ | ⟨r,before,was,same⟩
    · obtain ⟨m'',newest⟩ := lastCommit_isSome listed here
      rw [newest] at last
      cases last
      rw [standing m newest]
      exact ⟨rfl,rfl⟩
    · cases newest : lastCommit (committedBy call s.table op) k with
      | none =>
        rw [newest] at last
        have kept := stored.last k r m before was last
        exact ⟨same.1.trans kept.1,same.2.trans kept.2⟩
      | some m'' =>
        rw [newest] at last
        cases last
        rw [standing m newest]
        exact ⟨rfl,rfl⟩
  · intro k r' after free
    simp only [System.commit,List.mem_append,not_or] at after free
    have change := apply_changes s.table op k
    rw [after] at change
    generalize before : s.table.get? k = old at change
    cases change with
    | kept => exact stored.capped k r' before free.1
    | inserted _ new => exact inserted_capped new capped
    | rewritten r _ by_ => exact rewrite_capped by_ (stored.capped k r before free.1) free.2

/-- The status that a call inserts. -/
structure Wanted (codec : Codec Args Format) (c : Call Args Format) (s : WorkflowStatusInternal) : Prop where
  delayed : s.status = DELAYED
  input : (s.input,s.serialization) = c.input codec
  name : s.workflowName = c.workflowName
  class_name : s.workflowClassName = c.workflowClassName
  capped : cappedStatus s = true

theorem insertedRow_made {c : Call Args Format} {status : WorkflowStatusInternal} (wanted : Wanted codec c status)
    (ownerXid : Option String) (now : Int) : Made codec c (insertedRow status ownerXid now) :=
  ⟨wanted.delayed,wanted.input,wanted.name,(nullIfEmpty_getD _).trans wanted.class_name⟩

theorem bouncedRow_made (c : Call Args Format) (start now : Int) {k : String} {r : WorkflowStatus}
    (hit : bounceHits (c.bounceParams codec start) k r = true) : Made codec c (bouncedRow (c.bounceParams codec start) now r) := by
  obtain ⟨name,class_name,delayed⟩ := bounceHits_class hit
  exact ⟨delayed,rfl,name,class_name⟩

theorem internalStatus_wanted (c : Call Args Format) (caller : Caller) (workflowID : String) (deadline : Option Int) (now : Int) :
    Wanted codec c (internalStatus (c.startCaller codec caller) (c.startParams workflowID deadline) now) := by
  have positive := c.positive
  refine ⟨?_,rfl,rfl,rfl,?_⟩
  · have waits : (delayUntil (c.startParams workflowID deadline) now).isSome := delayUntil_of_delay now rfl rfl positive
    have queued : (c.startParams workflowID deadline).queueName.isSome := rfl
    simp only [internalStatus,initialStatus,queued,waits,if_true]
  · cases deadline with
    | none => rfl
    | some deadline =>
      by_cases early : deadline < now + c.debouncePeriodMs
      · simp [cappedStatus,internalStatus,delayUntil,Call.startParams,positive,early]
      · simp [cappedStatus,internalStatus,delayUntil,Call.startParams,positive,early]
        omega

theorem enqueueDebounced_wanted (c : Call Args Format) (workflowID : String) (deadline : Option Int) (now : Int) :
    Wanted codec c (c.enqueueDebounced codec workflowID deadline now) := by
  have positive := c.positive
  refine ⟨by simp [Call.enqueueDebounced,positive],rfl,rfl,rfl,?_⟩
  cases deadline with
  | none => rfl
  | some deadline =>
    by_cases early : deadline < now + c.debouncePeriodMs
    · simp [cappedStatus,Call.enqueueDebounced,positive,early]
    · simp [cappedStatus,Call.enqueueDebounced,positive,early]
      omega

/-- A call that is to insert has the status that it wants, under the ID it was given. -/
theorem enqueueing_cases (c : Call Args Format) (workflowID ownerXid : String) (deadline : Option Int) (now : Int) :
    (∃ e, enqueueing codec c workflowID ownerXid deadline now = .threw e) ∨
      ∃ status owner, enqueueing codec c workflowID ownerXid deadline now = .inserting status owner ∧
        status.status.workflowUUID = workflowID ∧ Wanted codec c status.status := by
  unfold enqueueing
  split
  · exact .inr ⟨_,_,rfl,rfl,enqueueDebounced_wanted c workflowID deadline now⟩
  · rename_i caller inMem attempts kind
    dsimp only
    split
    · rename_i e refused
      exact .inl ⟨e,rfl⟩
    · exact .inr ⟨_,_,rfl,rfl,internalStatus_wanted c caller workflowID deadline now⟩

/-- What holds of a call in its phase. -/
def Fits (s : System Args Format) (codec : Codec Args Format) (i : Nat) (c : Call Args Format) : Phase → Prop
  | .bouncing params => ∃ now, params = c.bounceParams codec now
  | .unmatched params => ∃ now, params = c.bounceParams codec now
  | .inserting status _ => (status.status.workflowUUID,i) ∈ s.issued ∧ Wanted codec c status.status
  | .returned workflowID => ∃ m ∈ s.commits, m.call = some i ∧ m.workflowID = workflowID
  | _ => True

/-- The rows, the calls in their phases, the commits of the calls, and the IDs that were given to calls: the row under
    such an ID was inserted by the call that has it. -/
structure Invariant (codec : Codec Args Format) (s : System Args Format) : Prop where
  stored : Stored s
  fits : ∀ (i : Nat) c phase, s.calls[i]? = some ⟨c,phase⟩ → Fits s codec i c phase
  made : ∀ m ∈ s.commits, ∀ i, m.call = some i → ∃ c phase, s.calls[i]? = some ⟨c,phase⟩ ∧ Made codec c m.row
  once : (s.issued.map Prod.fst).Nodup
  own : ∀ workflowID i, (workflowID,i) ∈ s.issued → (s.table.get? workflowID).isSome →
    ∃ m ∈ s.commits, m.call = some i ∧ m.workflowID = workflowID

theorem fits_mono {s s' : System Args Format} {i : Nat} {c : Call Args Format} {phase : Phase}
    (issued : ∀ e ∈ s.issued, e ∈ s'.issued) (commits : ∀ m ∈ s.commits, m ∈ s'.commits) (fits : Fits s codec i c phase) :
    Fits s' codec i c phase := by
  cases phase with
  | inserting status ownerXid => exact ⟨issued _ fits.1,fits.2⟩
  | returned workflowID =>
    obtain ⟨m,listed,its⟩ := fits
    exact ⟨m,commits m listed,its⟩
  | _ => exact fits

/-- A call moves to a phase that it fits. -/
theorem invariant_move {s : System Args Format} (inv : Invariant codec s) {i : Nat} {c : Call Args Format} {phase phase' : Phase}
    (found : s.calls[i]? = some ⟨c,phase⟩) (fits : Fits s codec i c phase') : Invariant codec (s.move i ⟨c,phase⟩ phase') := by
  refine ⟨⟨inv.stored.unique,inv.stored.last,inv.stored.capped⟩,?_,?_,inv.once,inv.own⟩
  · intro j d q listed
    rcases party_set_cases found listed with ⟨rfl,same⟩ | ⟨_,there⟩
    · cases same
      exact fits
    · exact inv.fits j d q there
  · intro m listed j its
    obtain ⟨d,q,there,made⟩ := inv.made m listed j its
    by_cases here : j = i
    · subst here
      cases there.symm.trans found
      exact ⟨c,phase',by simp [System.move,party_set found],made⟩
    · exact ⟨d,q,by simpa [System.move,party_set found,here] using there,made⟩

/-- An operation commits: what it inserts under an ID that was given to a call is that call's own. -/
theorem invariant_commit {s : System Args Format} (inv : Invariant codec s) (call : Option Nat) {op : Op}
    (capped : ∀ initStatus ownerXid options now, op = .initWorkflowStatus initStatus ownerXid options now →
      cappedStatus initStatus.status = true)
    (made : ∀ m ∈ committedBy call s.table op, ∀ i, call = some i → ∃ c phase, s.calls[i]? = some ⟨c,phase⟩ ∧ Made codec c m.row)
    (own : ∀ workflowID ∈ insertedIDs op, ∀ i, (workflowID,i) ∈ s.issued → call = some i ∧
      ∃ initStatus ownerXid options now, op = .initWorkflowStatus initStatus ownerXid options now) :
    Invariant codec (s.commit call op) := by
  refine ⟨commit_stored inv.stored call capped,?_,?_,inv.once,?_⟩
  · intro j d q listed
    exact fits_mono (s := s) (fun e member => member) (fun m member => List.mem_append_left _ member) (inv.fits j d q listed)
  · intro m listed j its
    rcases List.mem_append.mp listed with old | new
    · exact inv.made m old j its
    · exact made m new j ((mem_committedBy new).1.symm.trans its)
  · intro workflowID j given there
    obtain ⟨r',after⟩ := Option.isSome_iff_exists.mp there
    have change := apply_changes s.table op workflowID
    simp only [System.commit] at after
    rw [after] at change
    have kept : (s.table.get? workflowID).isSome →
        ∃ m ∈ (s.commit call op).commits, m.call = some j ∧ m.workflowID = workflowID := by
      intro before
      obtain ⟨m,listed,its⟩ := inv.own workflowID j given before
      exact ⟨m,List.mem_append_left _ listed,its⟩
    generalize before : s.table.get? workflowID = old at change
    cases change with
    | kept => exact kept (by simp [before])
    | rewritten r _ by_ => exact kept (by simp [before])
    | inserted _ new =>
      cases new with
      | init initStatus ownerXid options now here =>
        subst here
        obtain ⟨mine,_⟩ := own _ List.mem_cons_self j given
        refine ⟨⟨call,_,insertedRow initStatus.status ownerXid now⟩,List.mem_append_right _ ?_,mine,rfl⟩
        simp [committedBy,before,after]
      | enqueued statuses createdAts status createdAt member here waits =>
        have listed : workflowID ∈ insertedIDs (.enqueueWorkflows statuses createdAts) :=
          List.mem_map.mpr ⟨status,member,here.symm⟩
        obtain ⟨_,_,_,_,_,same⟩ := own _ listed j given
        cases same
      | forked originals forks options now origID ws here =>
        obtain ⟨_,_,_,_,_,same⟩ := own workflowID here j given
        cases same

theorem invariant_bounce {s : System Args Format} (inv : Invariant codec s) {i : Nat} {c : Call Args Format} {params : DebounceParams}
    (found : s.calls[i]? = some ⟨c,.bouncing params⟩) (now : Int) (acknowledged : Bool) :
    Invariant codec (s.bounce i ⟨c,.bouncing params⟩ params now acknowledged) := by
  obtain ⟨begun,rfl⟩ := inv.fits i c _ found
  unfold System.bounce
  split
  · exact invariant_move inv found ⟨begun,rfl⟩
  · rename_i bounced rest hits
    have committed : Invariant codec (s.commit (some i) (.debounceDelayedWorkflow (c.bounceParams codec begun) now)) := by
      refine invariant_commit inv (some i) (by simp) ?_ (by simp [insertedIDs])
      rintro m listed j ⟨⟩
      obtain ⟨_,_,⟨params,now',r,same,hit,row⟩ | ⟨_,_,_,_,other,_⟩⟩ := mem_committedBy listed
      · cases same
        rw [row]
        exact ⟨c,_,found,bouncedRow_made c begun now hit⟩
      · cases other
    refine invariant_move committed found ?_
    by_cases acked : acknowledged = true
    · -- The row that was bounced is among the commits.
      have listed : bounced ∈ s.table.keys (bounceHits (c.bounceParams codec begun)) := by simp [hits]
      obtain ⟨r,before,hit⟩ := (s.table.mem_keys _ bounced).mp listed
      have some_hit : s.table.select (bounceHits (c.bounceParams codec begun)) ≠ [] := by
        intro none_hit
        rw [Table.keys,none_hit] at hits
        cases hits
      have after : ((Op.debounceDelayedWorkflow (c.bounceParams codec begun) now).apply s.table).get? bounced =
          some (bouncedRow (c.bounceParams codec begun) now r) := by
        simp only [Op.apply,debounceDelayedWorkflow]
        split
        · simp [before,hit]
        · rename_i nothing
          exact absurd nothing some_hit
      rw [if_pos acked]
      refine ⟨⟨some i,bounced,bouncedRow (c.bounceParams codec begun) now r⟩,List.mem_append_right _ ?_,rfl,rfl⟩
      exact List.mem_filterMap.mpr ⟨bounced,listed,by rw [after]; rfl⟩
    · rw [if_neg acked]
      exact ⟨begun,rfl⟩

theorem invariant_insert {s : System Args Format} (inv : Invariant codec s) {i : Nat} {c : Call Args Format} {status : NewStatus}
    {ownerXid : Option String} (found : s.calls[i]? = some ⟨c,.inserting status ownerXid⟩) (now : Int) (acknowledged : Bool) :
    Invariant codec (s.insert i ⟨c,.inserting status ownerXid⟩ status ownerXid now acknowledged) := by
  obtain ⟨given,wanted⟩ := inv.fits i c _ found
  have committed : Invariant codec (s.commit (some i) (.initWorkflowStatus status ownerXid c.kind.options now)) := by
    refine invariant_commit inv (some i) ?_ ?_ ?_
    · rintro initStatus ownerXid options now ⟨⟩
      exact wanted.capped
    · rintro m listed j ⟨⟩
      obtain ⟨_,_,⟨params,now',r,other,_⟩ | ⟨_,_,_,_,same,_,row⟩⟩ := mem_committedBy listed
      · cases other
      · cases same
        rw [row]
        exact ⟨c,_,found,insertedRow_made wanted ownerXid now⟩
    · intro workflowID listed j given'
      have here : workflowID = status.status.workflowUUID := by simpa [insertedIDs] using listed
      subst here
      have same := List.inj_on_of_nodup_map inv.once given given' rfl
      cases same
      exact ⟨rfl,status,ownerXid,_,now,rfl⟩
  refine invariant_move committed found ?_
  cases result : (initWorkflowStatus s.table status.status ownerXid c.kind.options now).1 with
  | ok r =>
    simp only [afterInsert]
    by_cases acked : acknowledged = true
    · -- The row is there after a COMMIT that succeeded, and under this ID it is the call's own.
      rw [if_pos acked]
      exact committed.own _ i given (init_there result)
    · rw [if_neg acked]
      exact ⟨given,wanted⟩
  | error e =>
    cases e <;> trivial

theorem invariant_enqueue {s : System Args Format} (inv : Invariant codec s) {i : Nat} {c : Call Args Format}
    (found : s.calls[i]? = some ⟨c,.vacant⟩) {workflowID : String} (free : s.table.get? workflowID = none)
    (unissued : workflowID ∉ s.issued.map Prod.fst) (ownerXid : String) (deadline : Option Int) (now : Int) :
    Invariant codec ({ s with issued := s.issued ++ [(workflowID,i)] }.move i ⟨c,.vacant⟩
      (enqueueing codec c workflowID ownerXid deadline now)) := by
  have given : Invariant codec { s with issued := s.issued ++ [(workflowID,i)] } := by
    refine ⟨⟨inv.stored.unique,inv.stored.last,inv.stored.capped⟩,?_,inv.made,?_,?_⟩
    · intro j d q listed
      exact fits_mono (s := s) (fun e member => List.mem_append_left _ member) (fun m member => member) (inv.fits j d q listed)
    · rw [List.map_append,List.map_singleton,← List.concat_eq_append,List.nodup_concat]
      exact ⟨unissued,inv.once⟩
    · intro id j listed there
      rcases List.mem_append.mp listed with old | new
      · exact inv.own id j old there
      · cases List.mem_singleton.mp new
        simp [free] at there
  refine invariant_move given found ?_
  rcases enqueueing_cases c workflowID ownerXid deadline now with ⟨e,threw⟩ | ⟨status,owner,inserting,here,wanted⟩
  · rw [threw]
    trivial
  · rw [inserting]
    exact ⟨by simp [here],wanted⟩

theorem afterHolder_fits (s : System Args Format) (i : Nat) (c : Call Args Format) (params : DebounceParams) :
    Fits s codec i c (afterHolder c (holderResult s.table params)) := by
  have unbounced : (holderResult s.table params).bouncedWorkflowID = none := by
    unfold holderResult
    split <;> rfl
  unfold afterHolder
  cases action : classifyBounce (holderResult s.table params) c.workflowName c.workflowClassName with
  | return_ =>
    unfold classifyBounce at action
    rw [unbounced,if_neg (by simp)] at action
    split at action
    · cases action
    split at action
    · cases action
    split at action <;> cases action
  | _ => trivial

theorem invariant_step {s s' : System Args Format} {e : Event Args Format} (inv : Invariant codec s)
    (taken : step codec s e = some s') : Invariant codec s' := by
  cases e with
  | debounce c =>
    cases taken
    refine ⟨⟨inv.stored.unique,inv.stored.last,inv.stored.capped⟩,?_,?_,inv.once,inv.own⟩
    · intro j d q listed
      rcases party_append listed with old | ⟨_,new⟩
      · exact inv.fits j d q old
      · cases new
        trivial
    · intro m listed j its
      obtain ⟨d,q,there,made⟩ := inv.made m listed j its
      have bound := (List.getElem?_eq_some_iff.mp there).1
      exact ⟨d,q,by rw [List.getElem?_append_left bound]; exact there,made⟩
  | other op =>
    simp only [step] at taken
    split at taken
    · rename_i allowed
      cases taken
      simp only [outside,Bool.and_eq_true,List.all_eq_true,decide_eq_true_eq] at allowed
      refine invariant_commit inv none ?_ (by simp) ?_
      · rintro initStatus ownerXid options now rfl
        exact allowed.2
      · intro workflowID listed j given
        exact absurd (List.mem_map.mpr ⟨_,given,rfl⟩) (allowed.1 workflowID listed)
    · cases taken
  | serialize i now =>
    simp only [step] at taken
    split at taken
    · rename_i c found
      cases taken
      exact invariant_move inv found ⟨now,rfl⟩
    · cases taken
  | bounce i now acknowledged =>
    simp only [step] at taken
    split at taken
    · rename_i c params found
      cases taken
      exact invariant_bounce inv found now acknowledged
    · cases taken
  | holder i =>
    simp only [step] at taken
    split at taken
    · rename_i c params found
      cases taken
      exact invariant_move inv found (afterHolder_fits s i c params)
    · cases taken
  | enqueue i workflowID ownerXid deadlineNow now =>
    simp only [step] at taken
    split at taken
    · rename_i c found
      split at taken
      · rename_i fresh
        cases taken
        exact invariant_enqueue inv found fresh.1 fresh.2 ownerXid _ now
      · cases taken
    · cases taken
  | insert i now acknowledged =>
    simp only [step] at taken
    split at taken
    · rename_i c status ownerXid found
      cases taken
      exact invariant_insert inv found now acknowledged
    · cases taken
  | drop i =>
    simp only [step] at taken
    split at taken
    · rename_i c params found
      cases taken
      have fits : Fits s codec i c (.unmatched params) := inv.fits i c _ found
      exact invariant_move inv found fits
    · cases taken
  | fail i e =>
    simp only [step] at taken
    split at taken
    · cases taken
    · rename_i p _ found
      cases taken
      exact invariant_move inv found trivial
    · cases taken

theorem invariant_runs {events : List (Event Args Format)} {s : System Args Format} (run : Runs (step codec) start events s) :
    Invariant codec s := by
  refine runs_invariant (fun s e s' inv taken => invariant_step inv taken) ?_ run
  refine ⟨⟨unique_empty,?_,?_⟩,?_,?_,List.nodup_nil,?_⟩
  · intro k r m found
    cases found
  · intro k r found
    cases found
  · intro i c phase found
    cases found
  · intro m listed
    cases listed
  · intro workflowID i listed
    cases listed

theorem coalesced_invariant {s : System Args Format} (inv : Invariant codec s) : Coalesced codec s := by
  refine ⟨?_,?_,inv.stored.last,inv.stored.capped⟩
  · intro k k' r r' q d found found' _ _ holds holds'
    exact inv.stored.unique k k' r r' q d found found' holds holds'
  · intro i c workflowID found
    obtain ⟨m,listed,its,here⟩ := inv.fits i c _ found
    obtain ⟨d,phase,there,made⟩ := inv.made m listed i its
    cases there.symm.trans found
    exact ⟨m,listed,its,here,made⟩

/-- The rows of other workflows keep their input, also those whose debounce key comes to the same string. -/
theorem step_foreign {s s' : System Args Format} {e : Event Args Format} (inv : Invariant codec s) (taken : step codec s e = some s')
    {i : Nat} (calls : e.caller = some i) {c : Call Args Format} {phase : Phase} (found : s.calls[i]? = some ⟨c,phase⟩)
    {k : String} {r r' : WorkflowStatus} (before : s.table.get? k = some r) (after : s'.table.get? k = some r')
    (foreign : r.name ≠ c.workflowName ∨ r.class_name.getD "" ≠ c.workflowClassName) :
    r'.inputs = r.inputs ∧ r'.serialization = r.serialization := by
  cases e with
  | bounce j now acknowledged =>
    cases calls
    simp only [step] at taken
    split at taken
    · rename_i d params there
      cases there.symm.trans found
      cases taken
      obtain ⟨begun,rfl⟩ := inv.fits i c _ found
      unfold System.bounce at after
      split at after
      · cases before.symm.trans after
        exact ⟨rfl,rfl⟩
      · have change := apply_changes s.table (.debounceDelayedWorkflow (c.bounceParams codec begun) now) k
        rw [before] at change
        simp only [System.move,System.commit] at after
        rw [after] at change
        cases change with
        | kept => exact ⟨rfl,rfl⟩
        | rewritten _ _ by_ =>
          cases by_ with
          | bounced _ _ hit =>
            obtain ⟨name,class_name,_⟩ := bounceHits_class hit
            rcases foreign with other | other
            · exact absurd name other
            · exact absurd class_name other
          | recorded _ outcome _ records _ => cases records
    · cases taken
  | insert j now acknowledged =>
    cases calls
    simp only [step] at taken
    split at taken
    · rename_i d status ownerXid there
      cases there.symm.trans found
      cases taken
      have change := apply_changes s.table (.initWorkflowStatus status ownerXid c.kind.options now) k
      rw [before] at change
      simp only [System.insert,System.move,System.commit] at after
      rw [after] at change
      cases change with
      | kept => exact ⟨rfl,rfl⟩
      | rewritten _ _ by_ =>
        cases by_ with
        | upserted _ _ _ _ here => exact ⟨rfl,rfl⟩
        | exceeded _ _ _ _ here pending => exact ⟨rfl,rfl⟩
        | recorded _ outcome _ records _ => cases records
    · cases taken
  | _ => cases calls

/-- In every run of calls beside each other and beside everything else, debounces coalesce, and no step of a call
    changes the input of a workflow of another name or class. -/
theorem debounce_coalesces {events : List (Event Args Format)} {s : System Args Format} (run : Runs (step codec) start events s) :
    Coalesced codec s ∧ ∀ e s' i c phase, step codec s e = some s' → e.caller = some i → s.calls[i]? = some ⟨c,phase⟩ →
      ∀ k r r', s.table.get? k = some r → s'.table.get? k = some r' →
        r.name ≠ c.workflowName ∨ r.class_name.getD "" ≠ c.workflowClassName →
        r'.inputs = r.inputs ∧ r'.serialization = r.serialization := by
  have inv := invariant_runs run
  refine ⟨coalesced_invariant inv,?_⟩
  intro e s' i c phase taken calls found k r r' before after foreign
  exact step_foreign inv taken calls found before after foreign

end

/-- Texts stand for themselves. -/
def plain : Codec String Unit where
  serializeFunctionInputOutput text _ := (some text,some "js_superjson")
  serializeArgs text _ := (some text,some "js_superjson")

def debouncerCall (text : String) : Call String Unit :=
  { kind := .debouncer { workflowName := "" } (fun _ => none) 100,workflowName := "index",debounceKey := "k",debouncePeriodMs := 10,
    positive := by decide,args := text,format := (),debounceTimeoutMs := some 15 }

def clientCall (text : String) : Call String Unit := { debouncerCall text with kind := .client }

/-- A `Debouncer` inserts the workflow, with the acknowledgement of its COMMIT lost, a client bounces it, the insert is
    tried again and finds its row, and the delay ends at the debounce deadline. -/
def twoCalls : List (Event String Unit) :=
  [.debounce (debouncerCall "a"),.debounce (clientCall "b"),.serialize 0 100,.serialize 1 101,.bounce 0 102 true,.holder 0,
    .enqueue 0 "u" "x" 103 103,.insert 0 104 false,.bounce 1 105 true,.insert 0 106 true,.other (.transitionDelayedWorkflows 113)]

theorem debounce_coalesces_two : ∃ s, Runs (step plain) start twoCalls s ∧
    s.calls.map Party.phase = [.returned "u",.returned "u"] ∧
    s.commits.map (fun m => (m.call,m.row.inputs,m.row.delay_until_epoch_ms)) =
      [(some 0,some "a",some 113),(some 1,some "b",some 111)] ∧ Coalesced plain s := by
  have ran : ∃ s, Runs (step plain) start twoCalls s ∧ s.calls.map Party.phase = [.returned "u",.returned "u"] ∧
      s.commits.map (fun m => (m.call,m.row.inputs,m.row.delay_until_epoch_ms)) =
        [(some 0,some "a",some 113),(some 1,some "b",some 111)] := ⟨_,rfl,rfl,rfl⟩
  obtain ⟨s,run,phases,commits⟩ := ran
  exact ⟨s,run,phases,commits,(debounce_coalesces run).1⟩

end Dbos.Debounce
