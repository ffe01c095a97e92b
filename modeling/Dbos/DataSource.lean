import Dbos.Checkpoints
import Dbos.Communication
import Dbos.Start

/-!
A transaction step of a datasource: `invokeTransactionFunction` of `packages/nodepg-datasource/index.ts` inside
`runInternalStep` of `src/dbos-executor.ts`. The outcome is recorded twice, in `transaction_completion` of the user's
database, with the user's transaction, and in `operation_outputs` of the system database. Executors run the step beside each
other, crash and are recovered, transactions fail with 40001 and are tried again, and a COMMIT may take effect although
its client sees an error. The transaction commits at most once; the two records agree as long as nobody records an error
that comes from meeting the other's row in `transaction_completion`, from a lost acknowledgement there or from the
serializer of the system database.
-/
namespace Dbos.DataSource
open Dbos.Pg Dbos.Schema Dbos.Status Dbos.Checkpoints
open Dbos.Start (truthy)

/-- A row of `transaction_completion`; its key is (`workflow_id`, `function_num`). -/
structure TransactionCompletion where
  output : Option String := none
  error : Option String := none
  deriving DecidableEq

abbrev TransactionCompletions := Table (String × Nat) TransactionCompletion

/-- What the step throws: an error of the user's function, or one that comes from the protocol. -/
inductive Thrown (UserError : Type)
  | user (e : UserError)
  | DBOSWorkflowConflictError
  | connection (message : String)
  | TypeError
  deriving DecidableEq

/-- SuperJSON, which the datasource uses, and the serializer of the executor: `serialize` is `none` where it throws.
    `isOwnCancellation` is `e instanceof DBOSWorkflowCancelledError && e.workflowID === workflowID`. -/
structure Codec (Value UserError : Type) where
  null : Value
  stringify : Value → String
  parse : String → Value
  stringifyError : Thrown UserError → String
  parseError : String → Thrown UserError
  serialize : Value → Option String
  deserialize : Option String → Value
  serializeError : Thrown UserError → String
  deserializeError : String → Thrown UserError
  isOwnCancellation : UserError → Bool

/-- What is written is read back, and no text is empty. -/
structure Codec.Faithful {Value UserError : Type} (codec : Codec Value UserError) : Prop where
  parse : ∀ v, codec.parse (codec.stringify v) = v
  nonempty : ∀ v, codec.stringify v ≠ ""
  parseError : ∀ e, codec.parseError (codec.stringifyError e) = e
  deserialize : ∀ v text, codec.serialize v = some text → codec.deserialize (some text) = v
  deserializeError : ∀ e, codec.deserializeError (codec.serializeError e) = e
  nonemptyError : ∀ e, codec.serializeError e ≠ ""

/-- How an error has come about: it is the one that `transaction_completion` has, an INSERT there met a row, the
    acknowledgement of an INSERT was lost there, the output does not serialize, or the checkpoint is someone else's. -/
inductive Branch (UserError : Type)
  | completed
  | conflicted
  | unacknowledged (recorded : Thrown UserError)
  | unserializable
  | overtaken
  deriving DecidableEq

/-- Where an executor stands in the step. `checking` is the top of the loop of `invokeTransactionFunction`; `inserted` has
    written its row and not committed; `failing` is the catch there, `caught` the one of `runInternalStep`. -/
inductive Phase (Value UserError : Type)
  | called
  | checking
  | running
  | inserting (v : Value)
  | inserted (v : Value)
  | failing (e : Thrown UserError)
  | returned (v : Value)
  | caught (e : Thrown UserError) (branch : Branch UserError)
  | recording (result : Except (Thrown UserError) Value) (branch : Branch UserError) (call : CheckpointCall)
  | settled

structure Executor (Value UserError : Type) where
  executorID : String
  phase : Phase Value UserError := .called

/-- `committed` are the executors whose transaction was committed. -/
structure System (Value UserError : Type) where
  outputs : OperationOutputs := Table.empty
  statuses : Statuses := Table.empty
  completions : TransactionCompletions := Table.empty
  executors : List (Executor Value UserError) := []
  committed : List Nat := []

/-- How a COMMIT goes: `lost` takes effect and `dropped` does not, and the client of both sees an error. -/
inductive CommitResult
  | done
  | lost (message : String)
  | dropped (message : String)

/-- `retry` is a failure with 40001, in the function, in the INSERT or in the COMMIT. -/
inductive Event (Value UserError : Type)
  | execute (executorID : String)
  | look (i : Nat)
  | check (i : Nat)
  | finish (i : Nat) (result : Except UserError Value)
  | retry (i : Nat)
  | recordOutput (i : Nat)
  | commit (i : Nat) (result : CommitResult)
  | recordError (i : Nat) (lost : Option String)
  | serialize (i : Nat) (startTime endTime : Int)
  | recordOperationResult (i : Nat) (acknowledged : Bool)
  | crash (i : Nat)
  | other (statuses : Statuses)

section
variable {Value UserError : Type} (codec : Codec Value UserError) (key : String × Nat) (functionName : String)

/-- `#checkExecution`, and what `invokeTransactionFunction` makes of the row. -/
def completionOutcome (row : TransactionCompletion) : Except (Thrown UserError) Value :=
  match row.error with
  | some error => .error (codec.parseError error)
  | none => .ok (if truthy row.output then codec.parse (row.output.getD "") else codec.null)

/-- `reviveResultOrError`. -/
def checkpointOutcome (row : OperationOutput) : Except (Thrown UserError) Value :=
  if truthy row.error then .error (codec.deserializeError (row.error.getD "")) else .ok (codec.deserialize row.output)

def outputCall (text : String) (startTime endTime : Int) : CheckpointCall :=
  { functionName := functionName,startTimeEpochMs := startTime,endTimeEpochMs := endTime,output := some text }

def errorCall (e : Thrown UserError) (startTime endTime : Int) : CheckpointCall :=
  { functionName := functionName,startTimeEpochMs := startTime,endTimeEpochMs := endTime,error := some (codec.serializeError e) }

/-- An uncommitted row makes every other INSERT under its key wait. -/
def isInserted : Phase Value UserError → Bool
  | .inserted _ => true
  | _ => false

def System.locked (s : System Value UserError) : Bool := s.executors.any fun x => isInserted x.phase

def System.move (s : System Value UserError) (i : Nat) (x : Executor Value UserError) (phase : Phase Value UserError) :
    System Value UserError :=
  { s with executors := s.executors.set i { x with phase := phase } }

/-- What comes of the row that `#checkExecution` has found, or of none. -/
def afterCheck : Option TransactionCompletion → Phase Value UserError
  | none => .running
  | some row =>
    match completionOutcome codec row with
    | .ok v => .returned v
    | .error e => .caught e .completed

/-- The error is recorded; the cancellation of the calling workflow is not checkpointed. -/
def afterError (e : Thrown UserError) : Phase Value UserError :=
  match e with
  | .user e => if codec.isOwnCancellation e then .settled else .caught (.user e) .completed
  | e => .caught e .completed

/-- The row of the output, with the user's transaction. -/
def System.complete (s : System Value UserError) (i : Nat) (v : Value) : System Value UserError :=
  { s with
    completions := s.completions.insert key { output := some (codec.stringify v) }
    committed := s.committed ++ [i] }

def System.commit (s : System Value UserError) (i : Nat) (x : Executor Value UserError) (v : Value) :
    CommitResult → System Value UserError
  | .done => (s.complete codec key i v).move i x (.returned v)
  | .lost message => (s.complete codec key i v).move i x (.failing (.connection message))
  | .dropped message => s.move i x (.failing (.connection message))

/-- `#recordError`, whose INSERT commits by itself. -/
def System.recordError (s : System Value UserError) (i : Nat) (x : Executor Value UserError) (e : Thrown UserError)
    (lost : Option String) : System Value UserError :=
  if (s.completions.get? key).isSome then s.move i x (.caught .DBOSWorkflowConflictError .conflicted)
  else
    { s with completions := s.completions.insert key { error := some (codec.stringifyError e) } }.move i x
      (match lost with
        | some message => .caught (.connection message) (.unacknowledged e)
        | none => afterError codec e)

/-- The serializer of the executor, in the body or in the catch of `runInternalStep`. -/
def serialized (startTime endTime : Int) : Phase Value UserError → Option (Phase Value UserError)
  | .returned v =>
    match codec.serialize v with
    | some text => some (.recording (.ok v) .completed (outputCall functionName text startTime endTime))
    | none => some (.caught .TypeError .unserializable)
  | .caught e branch => some (.recording (.error e) branch (errorCall codec functionName e startTime endTime))
  | _ => none

/-- The output is recorded with a check for conflicts, an error without. -/
def afterRecord (result : Except (Thrown UserError) Value) : Except DbosError Unit → Phase Value UserError
  | .ok () => .settled
  | .error _ =>
    match result with
    | .ok _ => .caught .DBOSWorkflowConflictError .overtaken
    | .error _ => .settled

def System.record (s : System Value UserError) (i : Nat) (x : Executor Value UserError)
    (result : Except (Thrown UserError) Value) (branch : Branch UserError) (call : CheckpointCall) (acknowledged : Bool) :
    System Value UserError :=
  let (done,outputs,statuses) := recordOperationResultInternal s.outputs s.statuses x.executorID key result.isOk call
  { s with outputs := outputs,statuses := statuses }.move i x
    (if acknowledged then afterRecord result done else .recording result branch call)

def step (s : System Value UserError) : Event Value UserError → Option (System Value UserError)
  | .execute executorID => some { s with executors := s.executors ++ [{ executorID := executorID }] }
  | .other statuses => some { s with statuses := statuses }
  | .look i =>
    match s.executors[i]? with
    | some ⟨executorID,.called⟩ =>
      -- A cancelled workflow and a checkpoint that is there end the step.
      if ((s.statuses.get? key.1).any fun row => row.status = .CANCELLED) ∨ (s.outputs.get? key).isSome then
        some (s.move i ⟨executorID,.called⟩ .settled)
      else some (s.move i ⟨executorID,.called⟩ .checking)
    | _ => none
  | .check i =>
    match s.executors[i]? with
    | some ⟨executorID,.checking⟩ => some (s.move i ⟨executorID,.checking⟩ (afterCheck codec (s.completions.get? key)))
    | _ => none
  | .finish i result =>
    match s.executors[i]? with
    | some ⟨executorID,.running⟩ =>
      match result with
      | .ok v => some (s.move i ⟨executorID,.running⟩ (.inserting v))
      | .error e => some (s.move i ⟨executorID,.running⟩ (.failing (.user e)))
    | _ => none
  | .retry i =>
    match s.executors[i]? with
    | some ⟨executorID,.running⟩ => some (s.move i ⟨executorID,.running⟩ .checking)
    | some ⟨executorID,.inserting v⟩ => some (s.move i ⟨executorID,.inserting v⟩ .checking)
    | some ⟨executorID,.inserted v⟩ => some (s.move i ⟨executorID,.inserted v⟩ .checking)
    | _ => none
  | .recordOutput i =>
    match s.executors[i]? with
    | some ⟨executorID,.inserting v⟩ =>
      if s.locked = true then none
      else if (s.completions.get? key).isSome then
        some (s.move i ⟨executorID,.inserting v⟩ (.failing .DBOSWorkflowConflictError))
      else some (s.move i ⟨executorID,.inserting v⟩ (.inserted v))
    | _ => none
  | .commit i result =>
    match s.executors[i]? with
    | some ⟨executorID,.inserted v⟩ => some (s.commit codec key i ⟨executorID,.inserted v⟩ v result)
    | _ => none
  | .recordError i lost =>
    match s.executors[i]? with
    | some ⟨executorID,.failing e⟩ =>
      if s.locked = true then none else some (s.recordError codec key i ⟨executorID,.failing e⟩ e lost)
    | _ => none
  | .serialize i startTime endTime =>
    match s.executors[i]? with
    | some x => (serialized codec functionName startTime endTime x.phase).map (s.move i x)
    | none => none
  | .recordOperationResult i acknowledged =>
    match s.executors[i]? with
    | some ⟨executorID,.recording result branch call⟩ =>
      some (s.record key i ⟨executorID,.recording result branch call⟩ result branch call acknowledged)
    | _ => none
  | .crash i =>
    match s.executors[i]? with
    | some x => some (s.move i x .settled)
    | none => none

def start : System Value UserError := {}

/-- The transaction is committed at most once, both records have one outcome, and this is never the conflict. -/
structure RanOnce (s : System Value UserError) : Prop where
  once : s.committed.length ≤ 1
  agree : ∀ row checkpoint, s.completions.get? key = some row → s.outputs.get? key = some checkpoint →
    completionOutcome codec row = checkpointOutcome codec checkpoint
  own : ∀ checkpoint, s.outputs.get? key = some checkpoint →
    checkpointOutcome codec checkpoint ≠ .error .DBOSWorkflowConflictError

/-- The first checkpoint of the step is written with an error only if `transaction_completion` has this error. -/
def careful [DecidableEq UserError] (s : System Value UserError) : Event Value UserError → Bool
  | .recordOperationResult i _ =>
    match s.executors[i]? with
    | some ⟨_,.recording (.error e) branch _⟩ =>
      (s.outputs.get? key).isSome || (branch = .completed || branch = .unacknowledged e)
    | _ => true
  | _ => true

/-! ### What holds in every run -/

/-- `transaction_completion` has the outcome. -/
def Completed (s : System Value UserError) (outcome : Except (Thrown UserError) Value) : Prop :=
  ∃ row, s.completions.get? key = some row ∧ completionOutcome codec row = outcome

/-- What an error that reaches the catch of `runInternalStep` says about the records. -/
def Caught (s : System Value UserError) (e : Thrown UserError) : Branch UserError → Prop
  | .completed => Completed codec key s (.error e)
  | .conflicted => e = .DBOSWorkflowConflictError
  | .unacknowledged recorded => Completed codec key s (.error recorded)
  | .unserializable => e = .TypeError ∧ ∃ v, Completed codec key s (.ok v)
  | .overtaken => (s.outputs.get? key).isSome

def Fits (s : System Value UserError) : Phase Value UserError → Prop
  | .inserted _ => s.completions.get? key = none
  | .failing e => e = .DBOSWorkflowConflictError → (s.completions.get? key).isSome
  | .returned v => Completed codec key s (.ok v)
  | .caught e branch => Caught codec key s e branch
  | .recording result branch call => checkpointOutcome codec (checkpointRow call) = result ∧
      match result with
      | .ok v => Completed codec key s (.ok v)
      | .error e => Caught codec key s e branch
  | _ => True

/-- Rows stay, in both databases. -/
structure Grows (s s' : System Value UserError) : Prop where
  completions : ∀ row, s.completions.get? key = some row → s'.completions.get? key = some row
  outputs : ∀ row, s.outputs.get? key = some row → s'.outputs.get? key = some row

structure Base (s : System Value UserError) : Prop where
  fits : ∀ (i : Nat) x, s.executors[i]? = some x → Fits codec key s x.phase
  alone : ∀ (i j : Nat) x y, s.executors[i]? = some x → s.executors[j]? = some y → isInserted x.phase = true →
    isInserted y.phase = true → i = j
  once : s.committed.length ≤ 1
  unfinished : s.completions.get? key = none → s.committed = []
  clean : ¬ Completed codec key s (.error .DBOSWorkflowConflictError)

end

section
variable {Value UserError : Type} {codec : Codec Value UserError} {key : String × Nat} {functionName : String}

theorem completed_grows {s s' : System Value UserError} (grows : Grows key s s') {outcome : Except (Thrown UserError) Value}
    (completed : Completed codec key s outcome) : Completed codec key s' outcome := by
  obtain ⟨row,found,same⟩ := completed
  exact ⟨row,grows.completions row found,same⟩

theorem isSome_grows {α : Type} {a b : Option α} (grows : ∀ r, a = some r → b = some r) (there : a.isSome) : b.isSome := by
  obtain ⟨r,found⟩ := Option.isSome_iff_exists.mp there
  rw [grows r found]
  rfl

theorem caught_grows {s s' : System Value UserError} (grows : Grows key s s') {e : Thrown UserError}
    {branch : Branch UserError} (caught : Caught codec key s e branch) : Caught codec key s' e branch := by
  cases branch with
  | completed => exact completed_grows grows caught
  | conflicted => exact caught
  | unacknowledged recorded => exact completed_grows grows caught
  | unserializable =>
    obtain ⟨same,v,completed⟩ := caught
    exact ⟨same,v,completed_grows grows completed⟩
  | overtaken => exact isSome_grows grows.outputs caught

/-- Nobody has a row in `transaction_completion` beside an INSERT that is not committed. -/
theorem fits_inserted {s : System Value UserError} {phase : Phase Value UserError} (fits : Fits codec key s phase)
    (inserted : isInserted phase = true) : s.completions.get? key = none := by
  cases phase with
  | inserted v => exact fits
  | _ => cases inserted

theorem fits_grows {s s' : System Value UserError} (grows : Grows key s s') {phase : Phase Value UserError}
    (free : isInserted phase = true → s'.completions.get? key = none) (fits : Fits codec key s phase) : Fits codec key s' phase := by
  cases phase with
  | inserted v => exact free rfl
  | failing e => exact fun same => isSome_grows grows.completions (fits same)
  | returned v => exact completed_grows grows fits
  | caught e branch => exact caught_grows grows fits
  | recording result branch call =>
    refine ⟨fits.1,?_⟩
    cases result with
    | ok v => exact completed_grows grows fits.2
    | error e => exact caught_grows grows fits.2
  | _ => trivial

theorem locked_iff {s : System Value UserError} :
    s.locked = true ↔ ∃ (i : Nat) (x : Executor Value UserError), s.executors[i]? = some x ∧ isInserted x.phase = true := by
  simp only [System.locked,List.any_eq_true,List.mem_iff_getElem?]
  constructor
  · rintro ⟨x,⟨i,found⟩,inserted⟩
    exact ⟨i,x,found,inserted⟩
  · rintro ⟨i,x,found,inserted⟩
    exact ⟨x,⟨i,found⟩,inserted⟩

/-- An executor moves on while the records stay or grow. A new row comes only when nobody else holds one. -/
theorem base_move {s s' : System Value UserError} (base : Base codec key s) {i : Nat} {x : Executor Value UserError}
    {phase : Phase Value UserError} (found : s.executors[i]? = some x) (executors : s'.executors = s.executors.set i { x with phase := phase })
    (grows : Grows key s s') (once : s'.committed.length ≤ 1) (unfinished : s'.completions.get? key = none → s'.committed = [])
    (clean : ¬ Completed codec key s' (.error .DBOSWorkflowConflictError)) (fits : Fits codec key s' phase)
    (others : ∀ (j : Nat) y, j ≠ i → s.executors[j]? = some y → isInserted y.phase = true →
      isInserted phase = false ∧ s'.completions.get? key = none) : Base codec key s' := by
  refine ⟨?_,?_,once,unfinished,clean⟩
  · intro j y listed
    rw [executors] at listed
    rcases party_set_cases found listed with ⟨_,rfl⟩ | ⟨differ,there⟩
    · exact fits
    · exact fits_grows grows (fun inserted => (others j y differ there inserted).2) (base.fits j y there)
  · intro j k y z listed listed' inserted inserted'
    rw [executors] at listed listed'
    rcases party_set_cases found listed with ⟨rfl,rfl⟩ | ⟨differ,there⟩
    · rcases party_set_cases found listed' with ⟨rfl,_⟩ | ⟨differ',there'⟩
      · rfl
      · rw [(others k z differ' there' inserted').1] at inserted
        cases inserted
    · rcases party_set_cases found listed' with ⟨rfl,rfl⟩ | ⟨_,there'⟩
      · rw [(others j y differ there inserted).1] at inserted'
        cases inserted'
      · exact base.alone j k y z there there' inserted inserted'

/-- As `base_move`, with the records as they were. -/
theorem base_step {s : System Value UserError} (base : Base codec key s) {i : Nat} {x : Executor Value UserError}
    {phase : Phase Value UserError} (found : s.executors[i]? = some x) (fits : Fits codec key s phase)
    (unlocked : isInserted phase = true → s.locked = false) : Base codec key (s.move i x phase) := by
  refine base_move base found rfl ⟨fun _ found => found,fun _ found => found⟩ base.once base.unfinished base.clean ?_ ?_
  · exact fits_grows (s := s) ⟨fun _ found => found,fun _ found => found⟩ (fits_inserted fits) fits
  · intro j y _ there inserted
    have locked := locked_iff.mpr ⟨j,y,there,inserted⟩
    refine ⟨?_,?_⟩
    · by_contra holds
      have free := unlocked (by simpa using holds)
      rw [locked] at free
      cases free
    · exact fits_inserted (base.fits j y there) inserted

theorem get?_insert_none {t : TransactionCompletions} (free : t.get? key = none) (row : TransactionCompletion) :
    (t.insert key row).get? key = some row := by
  rw [Table.get?_insert,if_pos rfl,free]
  rfl

theorem stringify_outcome (faithful : codec.Faithful) (v : Value) :
    completionOutcome codec { output := some (codec.stringify v) } = .ok v := by
  have written : truthy (some (codec.stringify v)) = true := by simpa [truthy] using faithful.nonempty v
  simp only [completionOutcome,written,if_true,Option.getD_some,faithful.parse]

theorem stringifyError_outcome (faithful : codec.Faithful) (e : Thrown UserError) :
    completionOutcome codec { error := some (codec.stringifyError e) } = .error e := by
  simp only [completionOutcome,faithful.parseError]

theorem outputCall_outcome (faithful : codec.Faithful) {v : Value} {text : String} (done : codec.serialize v = some text)
    (startTime endTime : Int) : checkpointOutcome codec (checkpointRow (outputCall functionName text startTime endTime)) = .ok v := by
  simp [checkpointOutcome,checkpointRow,outputCall,truthy,faithful.deserialize v text done]

theorem errorCall_outcome (faithful : codec.Faithful) (e : Thrown UserError) (startTime endTime : Int) :
    checkpointOutcome codec (checkpointRow (errorCall codec functionName e startTime endTime)) = .error e := by
  have written : truthy (some (codec.serializeError e)) = true := by simpa [truthy] using faithful.nonemptyError e
  simp only [checkpointOutcome,checkpointRow,errorCall,written,if_true,Option.getD_some,faithful.deserializeError]

theorem afterCheck_fits (s : System Value UserError) : Fits codec key s (afterCheck codec (s.completions.get? key)) := by
  cases found : s.completions.get? key with
  | none => trivial
  | some row =>
    simp only [afterCheck]
    cases outcome : completionOutcome codec row with
    | ok v => exact ⟨row,found,outcome⟩
    | error e => exact ⟨row,found,outcome⟩

theorem afterCheck_isInserted (found : Option TransactionCompletion) : isInserted (afterCheck codec found) = false := by
  cases found with
  | none => rfl
  | some row =>
    simp only [afterCheck]
    split <;> rfl

theorem afterError_cases (e : Thrown UserError) : afterError codec e = .settled ∨ afterError codec e = .caught e .completed := by
  cases e with
  | user e =>
    by_cases own : codec.isOwnCancellation e = true
    · exact .inl (by simp [afterError,own])
    · exact .inr (by simp [afterError,own])
  | _ => exact .inr rfl

/-- The COMMIT: the executor that holds the row is alone, and nothing was committed before. -/
theorem base_commit (faithful : codec.Faithful) {s : System Value UserError} (base : Base codec key s) {i : Nat}
    {executorID : String} {v : Value} (found : s.executors[i]? = some ⟨executorID,.inserted v⟩) (result : CommitResult) :
    Base codec key (s.commit codec key i ⟨executorID,.inserted v⟩ v result) := by
  have free : s.completions.get? key = none := base.fits i _ found
  have after : (s.complete codec key i v).completions.get? key = some { output := some (codec.stringify v) } :=
    get?_insert_none free _
  have completed : Completed codec key (s.complete codec key i v) (.ok v) := ⟨_,after,stringify_outcome faithful v⟩
  have grows : Grows key s (s.complete codec key i v) :=
    ⟨fun row there => (by cases free.symm.trans there),fun row there => there⟩
  have single : (s.complete codec key i v).committed.length ≤ 1 := by simp [System.complete,base.unfinished free]
  have clean : ¬ Completed codec key (s.complete codec key i v) (.error .DBOSWorkflowConflictError) := by
    rintro ⟨row,there,outcome⟩
    cases after.symm.trans there
    rw [stringify_outcome faithful v] at outcome
    cases outcome
  have others : ∀ (j : Nat) y, j ≠ i → s.executors[j]? = some y → isInserted y.phase = true → False := by
    intro j y differ there inserted
    exact differ (base.alone j i y _ there found inserted rfl)
  cases result with
  | done =>
    refine base_move base found rfl ⟨grows.completions,grows.outputs⟩ single ?_ clean completed ?_
    · intro none_there
      cases after.symm.trans none_there
    · intro j y differ there inserted
      exact (others j y differ there inserted).elim
  | lost message =>
    refine base_move base found rfl ⟨grows.completions,grows.outputs⟩ single ?_ clean ?_ ?_
    · intro none_there
      cases after.symm.trans none_there
    · intro same
      cases same
    · intro j y differ there inserted
      exact (others j y differ there inserted).elim
  | dropped message =>
    refine base_step base found ?_ (by simp [isInserted])
    intro same
    cases same

theorem base_recordError (faithful : codec.Faithful) {s : System Value UserError} (base : Base codec key s) {i : Nat}
    {executorID : String} {e : Thrown UserError} (found : s.executors[i]? = some ⟨executorID,.failing e⟩) (unlocked : s.locked = false)
    (lost : Option String) : Base codec key (s.recordError codec key i ⟨executorID,.failing e⟩ e lost) := by
  unfold System.recordError
  cases there : s.completions.get? key with
  | some row =>
    simp only [Option.isSome_some,if_true]
    exact base_step base found rfl (by simp [isInserted])
  | none =>
    simp only [Option.isSome_none,Bool.false_eq_true,if_false]
    -- The conflict is thrown only where a row is, so it is not what is recorded here.
    have genuine : e ≠ .DBOSWorkflowConflictError := by
      intro same
      have some_there := base.fits i _ found same
      rw [there] at some_there
      cases some_there
    have after := get?_insert_none there { error := some (codec.stringifyError e) }
    have outcome := stringifyError_outcome faithful e
    refine base_move base found rfl ⟨fun row found => (by cases there.symm.trans found),fun row found => found⟩ base.once ?_ ?_ ?_ ?_
    · intro none_there
      cases after.symm.trans none_there
    · rintro ⟨row,found',same⟩
      cases after.symm.trans found'
      rw [outcome] at same
      exact genuine (Except.error.inj same)
    · cases lost with
      | some message => exact ⟨_,after,outcome⟩
      | none =>
        rcases (afterError_cases e : afterError codec e = _ ∨ _) with settled | caught
        · simp only [settled]
          trivial
        · simp only [caught]
          exact ⟨_,after,outcome⟩
    · intro j y differ listed inserted
      rw [locked_iff.mpr ⟨j,y,listed,inserted⟩] at unlocked
      cases unlocked

theorem recordOperationResultInternal_outputs (key : String × Nat) (outputs : OperationOutputs) (statuses : Statuses) (executorID : String)
    (checkConflict : Bool) (call : CheckpointCall) :
    (recordOperationResultInternal outputs statuses executorID key checkConflict call).2.1 = insertCheckpoint outputs key call := by
  simp only [recordOperationResultInternal]
  split
  · rfl
  · split <;> rfl

/-- After the INSERT there is a checkpoint, and the one that was there stays. -/
theorem record_outputs (key : String × Nat) (s : System Value UserError) (i : Nat) (x : Executor Value UserError) (result : Except (Thrown UserError) Value)
    (branch : Branch UserError) (call : CheckpointCall) (acknowledged : Bool) :
    (s.record key i x result branch call acknowledged).outputs.get? key = some ((s.outputs.get? key).getD (checkpointRow call)) := by
  have after := recordOperationResultInternal_outputs key s.outputs s.statuses x.executorID result.isOk call
  simp only [System.record,System.move,after,get?_insertCheckpoint,if_true]

/-- Where the executor stands after the INSERT. -/
theorem record_executors (key : String × Nat) (s : System Value UserError) (i : Nat) (executorID : String) (result : Except (Thrown UserError) Value)
    (branch : Branch UserError) (call : CheckpointCall) (acknowledged : Bool) :
    ∃ next, (s.record key i ⟨executorID,.recording result branch call⟩ result branch call acknowledged).executors =
        s.executors.set i ⟨executorID,next⟩ ∧
      (next = .settled ∨ next = .caught .DBOSWorkflowConflictError .overtaken ∨ next = .recording result branch call) := by
  refine ⟨if acknowledged then afterRecord result
    (recordOperationResultInternal s.outputs s.statuses executorID key result.isOk call).1 else .recording result branch call,rfl,?_⟩
  cases acknowledged with
  | false => exact .inr (.inr rfl)
  | true =>
    simp only [if_true]
    cases (recordOperationResultInternal s.outputs s.statuses executorID key result.isOk call).1 with
    | ok _ => exact .inl rfl
    | error _ =>
      cases result with
      | ok v => exact .inr (.inl rfl)
      | error e => exact .inl rfl

theorem base_record {s : System Value UserError} (base : Base codec key s) {i : Nat} {executorID : String}
    {result : Except (Thrown UserError) Value} {branch : Branch UserError} {call : CheckpointCall}
    (found : s.executors[i]? = some ⟨executorID,.recording result branch call⟩) (acknowledged : Bool) :
    Base codec key (s.record key i ⟨executorID,.recording result branch call⟩ result branch call acknowledged) := by
  have after := record_outputs key s i ⟨executorID,.recording result branch call⟩ result branch call acknowledged
  have grows : Grows key s (s.record key i ⟨executorID,.recording result branch call⟩ result branch call acknowledged) := by
    refine ⟨fun row there => there,?_⟩
    intro row there
    rw [after,there]
    rfl
  obtain ⟨next,executors,ends⟩ := record_executors key s i executorID result branch call acknowledged
  refine base_move base found executors grows base.once base.unfinished base.clean ?_ ?_
  · rcases ends with rfl | rfl | rfl
    · trivial
    · show ((s.record key i _ result branch call acknowledged).outputs.get? key).isSome
      rw [after]
      rfl
    · exact fits_grows grows (by simp [isInserted]) (base.fits i _ found)
  · intro j y _ there inserted
    have free : s.completions.get? key = none := fits_inserted (base.fits j y there) inserted
    exact ⟨by rcases ends with rfl | rfl | rfl <;> rfl,free⟩

theorem base_serialize (faithful : codec.Faithful) {s : System Value UserError} (base : Base codec key s) {i : Nat}
    {x : Executor Value UserError} (found : s.executors[i]? = some x) {startTime endTime : Int} {phase : Phase Value UserError}
    (done : serialized codec functionName startTime endTime x.phase = some phase) : Base codec key (s.move i x phase) := by
  have fits := base.fits i x found
  obtain ⟨executorID,before⟩ := x
  cases before with
  | returned v =>
    simp only [serialized] at done
    split at done
    · rename_i text written
      cases done
      exact base_step base found ⟨outputCall_outcome faithful written startTime endTime,fits⟩ (by simp [isInserted])
    · cases done
      exact base_step base found ⟨rfl,v,fits⟩ (by simp [isInserted])
  | caught e branch =>
    cases done
    exact base_step base found ⟨errorCall_outcome faithful e startTime endTime,fits⟩ (by simp [isInserted])
  | _ => cases done

/-- Everything that an event does. -/
inductive Moves (codec : Codec Value UserError) (key : String × Nat) (functionName : String) (s : System Value UserError) :
    Event Value UserError → System Value UserError → Prop
  | execute (executorID : String) :
      Moves codec key functionName s (.execute executorID) { s with executors := s.executors ++ [{ executorID := executorID }] }
  | other (statuses : Statuses) : Moves codec key functionName s (.other statuses) { s with statuses := statuses }
  | look {i : Nat} {executorID : String} {phase : Phase Value UserError} : s.executors[i]? = some ⟨executorID,.called⟩ →
      (phase = .settled ∨ phase = .checking) → Moves codec key functionName s (.look i) (s.move i ⟨executorID,.called⟩ phase)
  | check {i : Nat} {executorID : String} : s.executors[i]? = some ⟨executorID,.checking⟩ →
      Moves codec key functionName s (.check i) (s.move i ⟨executorID,.checking⟩ (afterCheck codec (s.completions.get? key)))
  | finish {i : Nat} {executorID : String} {v : Value} : s.executors[i]? = some ⟨executorID,.running⟩ →
      Moves codec key functionName s (.finish i (.ok v)) (s.move i ⟨executorID,.running⟩ (.inserting v))
  | throws {i : Nat} {executorID : String} {e : UserError} : s.executors[i]? = some ⟨executorID,.running⟩ →
      Moves codec key functionName s (.finish i (.error e)) (s.move i ⟨executorID,.running⟩ (.failing (.user e)))
  | retry {i : Nat} {x : Executor Value UserError} : s.executors[i]? = some x →
      Moves codec key functionName s (.retry i) (s.move i x .checking)
  | conflict {i : Nat} {executorID : String} {v : Value} : s.executors[i]? = some ⟨executorID,.inserting v⟩ →
      (s.completions.get? key).isSome →
      Moves codec key functionName s (.recordOutput i) (s.move i ⟨executorID,.inserting v⟩ (.failing .DBOSWorkflowConflictError))
  | recordOutput {i : Nat} {executorID : String} {v : Value} : s.executors[i]? = some ⟨executorID,.inserting v⟩ →
      s.locked = false → s.completions.get? key = none →
      Moves codec key functionName s (.recordOutput i) (s.move i ⟨executorID,.inserting v⟩ (.inserted v))
  | commit {i : Nat} {executorID : String} {v : Value} (result : CommitResult) : s.executors[i]? = some ⟨executorID,.inserted v⟩ →
      Moves codec key functionName s (.commit i result) (s.commit codec key i ⟨executorID,.inserted v⟩ v result)
  | recordError {i : Nat} {executorID : String} {e : Thrown UserError} (lost : Option String) :
      s.executors[i]? = some ⟨executorID,.failing e⟩ → s.locked = false →
      Moves codec key functionName s (.recordError i lost) (s.recordError codec key i ⟨executorID,.failing e⟩ e lost)
  | serialize {i : Nat} {x : Executor Value UserError} {startTime endTime : Int} {phase : Phase Value UserError} :
      s.executors[i]? = some x → serialized codec functionName startTime endTime x.phase = some phase →
      Moves codec key functionName s (.serialize i startTime endTime) (s.move i x phase)
  | recordOperationResult {i : Nat} {executorID : String} {result : Except (Thrown UserError) Value} {branch : Branch UserError}
      {call : CheckpointCall} (acknowledged : Bool) : s.executors[i]? = some ⟨executorID,.recording result branch call⟩ →
      Moves codec key functionName s (.recordOperationResult i acknowledged)
        (s.record key i ⟨executorID,.recording result branch call⟩ result branch call acknowledged)
  | crash {i : Nat} {x : Executor Value UserError} : s.executors[i]? = some x →
      Moves codec key functionName s (.crash i) (s.move i x .settled)

theorem step_moves {s s' : System Value UserError} {e : Event Value UserError} (taken : step codec key functionName s e = some s') :
    Moves codec key functionName s e s' := by
  cases e with
  | execute executorID => cases taken; exact .execute executorID
  | other statuses => cases taken; exact .other statuses
  | look i =>
    simp only [step] at taken
    split at taken
    · rename_i found
      split at taken
      · cases taken
        exact .look found (.inl rfl)
      · cases taken
        exact .look found (.inr rfl)
    · cases taken
  | check i =>
    simp only [step] at taken
    split at taken
    · rename_i found
      cases taken
      exact .check found
    · cases taken
  | finish i result =>
    simp only [step] at taken
    split at taken
    · rename_i found
      split at taken
      · cases taken
        exact .finish found
      · cases taken
        exact .throws found
    · cases taken
  | retry i =>
    simp only [step] at taken
    split at taken
    · rename_i found
      cases taken
      exact .retry found
    · rename_i found
      cases taken
      exact .retry found
    · rename_i found
      cases taken
      exact .retry found
    · cases taken
  | recordOutput i =>
    simp only [step] at taken
    split at taken
    · rename_i found
      split at taken
      · cases taken
      · rename_i unlocked
        split at taken
        · rename_i there
          cases taken
          exact .conflict found there
        · rename_i free
          cases taken
          exact .recordOutput found (by simpa using unlocked) (Option.not_isSome_iff_eq_none.mp free)
    · cases taken
  | commit i result =>
    simp only [step] at taken
    split at taken
    · rename_i found
      cases taken
      exact .commit result found
    · cases taken
  | recordError i lost =>
    simp only [step] at taken
    split at taken
    · rename_i found
      split at taken
      · cases taken
      · rename_i unlocked
        cases taken
        exact .recordError lost found (by simpa using unlocked)
    · cases taken
  | serialize i startTime endTime =>
    simp only [step] at taken
    split at taken
    · rename_i x found
      obtain ⟨phase,done,rfl⟩ := Option.map_eq_some_iff.mp taken
      exact .serialize found done
    · cases taken
  | recordOperationResult i acknowledged =>
    simp only [step] at taken
    split at taken
    · rename_i found
      cases taken
      exact .recordOperationResult acknowledged found
    · cases taken
  | crash i =>
    simp only [step] at taken
    split at taken
    · rename_i found
      cases taken
      exact .crash found
    · cases taken

theorem step_base (faithful : codec.Faithful) {s s' : System Value UserError} {e : Event Value UserError} (base : Base codec key s)
    (taken : step codec key functionName s e = some s') : Base codec key s' := by
  cases step_moves taken with
  | execute executorID =>
    refine ⟨?_,?_,base.once,base.unfinished,base.clean⟩
    · intro j y listed
      rcases party_append listed with old | ⟨_,rfl⟩
      · have fits := base.fits j y old
        exact fits_grows (s := s) ⟨fun _ there => there,fun _ there => there⟩ (fits_inserted fits) fits
      · trivial
    · intro j k y z listed listed' inserted inserted'
      rcases party_append listed with old | ⟨_,rfl⟩
      · rcases party_append listed' with old' | ⟨_,rfl⟩
        · exact base.alone j k y z old old' inserted inserted'
        · cases inserted'
      · cases inserted
  | other statuses => exact ⟨base.fits,base.alone,base.once,base.unfinished,base.clean⟩
  | look found ends =>
    rcases ends with rfl | rfl
    · exact base_step base found trivial (by simp [isInserted])
    · exact base_step base found trivial (by simp [isInserted])
  | check found => exact base_step base found (afterCheck_fits s) (by simp [afterCheck_isInserted])
  | finish found => exact base_step base found trivial (by simp [isInserted])
  | throws found => exact base_step base found (by rintro ⟨⟩) (by simp [isInserted])
  | retry found => exact base_step base found trivial (by simp [isInserted])
  | conflict found there => exact base_step base found (fun _ => there) (by simp [isInserted])
  | recordOutput found unlocked free => exact base_step base found free fun _ => unlocked
  | commit result found => exact base_commit faithful base found result
  | recordError lost found unlocked => exact base_recordError faithful base found unlocked lost
  | serialize found done => exact base_serialize faithful base found done
  | recordOperationResult acknowledged found => exact base_record base found acknowledged
  | crash found => exact base_step base found trivial (by simp [isInserted])

theorem insert_kept {t : TransactionCompletions} (new : TransactionCompletion) (row : TransactionCompletion) (there : t.get? key = some row) :
    (t.insert key new).get? key = some row := by
  rw [Table.get?_insert,if_pos rfl,there]
  rfl

/-- The row of `transaction_completion` stays as it is once it is there, and the first checkpoint is one that an
    executor records. -/
theorem step_records {s s' : System Value UserError} {e : Event Value UserError} (taken : step codec key functionName s e = some s') :
    (∀ row, s.completions.get? key = some row → s'.completions.get? key = some row) ∧
      (s'.outputs.get? key = s.outputs.get? key ∨ ∃ i acknowledged executorID result branch call,
        e = .recordOperationResult i acknowledged ∧ s.executors[i]? = some ⟨executorID,.recording result branch call⟩ ∧
          s.outputs.get? key = none ∧ s'.outputs.get? key = some (checkpointRow call)) := by
  cases step_moves taken with
  | commit result found =>
    cases result with
    | done => exact ⟨insert_kept _,.inl rfl⟩
    | lost message => exact ⟨insert_kept _,.inl rfl⟩
    | dropped message => exact ⟨fun _ there => there,.inl rfl⟩
  | recordError lost found unlocked =>
    unfold System.recordError
    split
    · exact ⟨fun _ there => there,.inl rfl⟩
    · exact ⟨insert_kept _,.inl rfl⟩
  | @recordOperationResult i executorID result branch call acknowledged found =>
    refine ⟨fun _ there => there,?_⟩
    have after := record_outputs key s i ⟨executorID,.recording result branch call⟩ result branch call acknowledged
    cases there : s.outputs.get? key with
    | some row =>
      rw [there] at after
      exact .inl after
    | none =>
      rw [there] at after
      exact .inr ⟨i,acknowledged,executorID,result,branch,call,rfl,found,rfl,after⟩
  | _ => exact ⟨fun _ there => there,.inl rfl⟩

theorem start_base : Base codec key (start : System Value UserError) := by
  refine ⟨?_,?_,Nat.zero_le 1,fun _ => rfl,?_⟩
  · intro i x found
    cases found
  · intro i j x y found
    cases found
  · rintro ⟨row,found,_⟩
    cases found

theorem base_runs (faithful : codec.Faithful) {events : List (Event Value UserError)} {s : System Value UserError}
    (run : Runs (step codec key functionName) start events s) : Base codec key s :=
  runs_invariant (fun _ _ _ base taken => step_base faithful base taken) start_base run

/-! ### The two records -/

/-- A checkpoint has the outcome of `transaction_completion`. -/
def Agreed (codec : Codec Value UserError) (key : String × Nat) (s : System Value UserError) : Prop :=
  ∀ checkpoint, s.outputs.get? key = some checkpoint → Completed codec key s (checkpointOutcome codec checkpoint)

theorem ranOnce_of_agreed {s : System Value UserError} (base : Base codec key s) (agreed : Agreed codec key s) : RanOnce codec key s := by
  refine ⟨base.once,?_,?_⟩
  · intro row checkpoint there recorded
    obtain ⟨row',there',same⟩ := agreed checkpoint recorded
    cases there.symm.trans there'
    exact same
  · intro checkpoint recorded conflict
    have completed := agreed checkpoint recorded
    rw [conflict] at completed
    exact base.clean completed

variable [DecidableEq UserError]

theorem agreed_step {s s' : System Value UserError} {e : Event Value UserError} (base : Base codec key s) (agreed : Agreed codec key s)
    (cares : careful key s e = true) (taken : step codec key functionName s e = some s') : Agreed codec key s' := by
  obtain ⟨grows,same | ⟨i,acknowledged,executorID,result,branch,call,rfl,found,free,recorded⟩⟩ := step_records taken
  · intro checkpoint there
    rw [same] at there
    obtain ⟨row,completed,outcome⟩ := agreed checkpoint there
    exact ⟨row,grows row completed,outcome⟩
  · intro checkpoint there
    cases recorded.symm.trans there
    have fits := base.fits i _ found
    have completed : Completed codec key s result := by
      cases result with
      | ok v => exact fits.2
      | error e =>
        simp only [careful,found,free,Option.isSome_none,Bool.false_or,Bool.or_eq_true,decide_eq_true_eq] at cares
        rcases cares with rfl | rfl
        · exact fits.2
        · exact fits.2
    obtain ⟨row,found',outcome⟩ := completed
    exact ⟨row,grows row found',outcome.trans fits.1.symm⟩

/-- A careless step makes the records differ. -/
theorem careful_of_ranOnce {s s' : System Value UserError} {e : Event Value UserError} (base : Base codec key s)
    (taken : step codec key functionName s e = some s') (after : RanOnce codec key s') : careful key s e = true := by
  by_contra careless
  obtain ⟨grows,_⟩ := step_records taken
  cases e with
  | recordOperationResult i acknowledged =>
    simp only [careful] at careless
    split at careless
    · rename_i executorID e branch call found
      simp only [Bool.or_eq_true,decide_eq_true_eq,not_or,Bool.not_eq_true] at careless
      obtain ⟨free,notCompleted,notRecorded⟩ := careless
      simp only [step,found] at taken
      cases taken
      have recorded := record_outputs key s i ⟨executorID,.recording (.error e) branch call⟩ (.error e) branch call acknowledged
      have absent : s.outputs.get? key = none := by simpa using free
      rw [absent] at recorded
      obtain ⟨outcome,caught⟩ := base.fits i _ found
      cases branch with
      | completed => exact notCompleted rfl
      | conflicted =>
        cases caught
        exact after.own _ recorded outcome
      | unacknowledged kept =>
        obtain ⟨row,there,same⟩ := caught
        have both := after.agree row _ (grows row there) recorded
        rw [same] at both
        cases both.trans outcome
        exact notRecorded rfl
      | unserializable =>
        obtain ⟨_,v,row,there,same⟩ := caught
        have both := after.agree row _ (grows row there) recorded
        rw [same] at both
        cases both.trans outcome
      | overtaken =>
        have there : (s.outputs.get? key).isSome := caught
        rw [free] at there
        cases there
    · exact careless rfl
  | _ => exact careless rfl

/-- In every run the transaction commits at most once, and the records agree in every state of the run exactly when no
    step of it writes the first checkpoint with an error of its own making. -/
theorem transaction_once_agrees_iff (faithful : codec.Faithful) {events : List (Event Value UserError)} {s : System Value UserError}
    (run : Runs (step codec key functionName) start events s) :
    s.committed.length ≤ 1 ∧
      ((∀ first rest t, events = first ++ rest → Runs (step codec key functionName) start first t → RanOnce codec key t) ↔
        Along (step codec key functionName) (fun s e => careful key s e = true) start events) := by
  refine ⟨(base_runs faithful run).once,?_,?_⟩
  · intro always
    refine along_iff.mpr ?_
    intro first e rest t split reached
    rw [split] at run
    obtain ⟨t',reached',onward⟩ := runs_append.mp run
    cases reached.symm.trans reached'
    obtain ⟨t'',taken,_⟩ := runs_cons.mp onward
    have later : Runs (step codec key functionName) start (first ++ [e]) t'' :=
      runs_append.mpr ⟨t,reached,runs_cons.mpr ⟨t'',taken,runs_nil.mpr rfl⟩⟩
    exact careful_of_ranOnce (base_runs faithful reached) taken (always (first ++ [e]) rest t'' (by simp [split]) later)
  · intro cares first rest t split reached
    rw [split] at cares
    have keeps : ∀ (s : System Value UserError) e s', Base codec key s ∧ Agreed codec key s → careful key s e = true →
        step codec key functionName s e = some s' → Base codec key s' ∧ Agreed codec key s' := by
      rintro s e s' ⟨base,agreed⟩ cares taken
      exact ⟨step_base faithful base taken,agreed_step base agreed cares taken⟩
    have begins : Base codec key (start : System Value UserError) ∧ Agreed codec key (start : System Value UserError) :=
      ⟨start_base,by intro checkpoint found; cases found⟩
    obtain ⟨base,agreed⟩ := along_invariant keeps begins (along_append cares).1 reached
    exact ranOnce_of_agreed base agreed

end

/-- Values and errors of the user are texts; `"huge"` is more than the serializer of the executor takes. -/
def texts : Codec String String where
  null := "null"
  stringify v := "v" ++ v
  parse text := String.ofList (text.toList.drop 1)
  stringifyError
    | .user e => "u" ++ e
    | .DBOSWorkflowConflictError => "c"
    | .connection message => "n" ++ message
    | .TypeError => "t"
  parseError text :=
    match text.toList with
    | 'u' :: rest => .user (String.ofList rest)
    | 'n' :: rest => .connection (String.ofList rest)
    | 't' :: _ => .TypeError
    | _ => .DBOSWorkflowConflictError
  serialize v := if v = "huge" then none else some v
  deserialize text := text.getD "null"
  serializeError
    | .user e => "u" ++ e
    | .DBOSWorkflowConflictError => "c"
    | .connection message => "n" ++ message
    | .TypeError => "t"
  deserializeError text :=
    match text.toList with
    | 'u' :: rest => .user (String.ofList rest)
    | 'n' :: rest => .connection (String.ofList rest)
    | 't' :: _ => .TypeError
    | _ => .DBOSWorkflowConflictError
  isOwnCancellation _ := false

theorem texts_faithful : texts.Faithful := by
  refine ⟨?_,?_,?_,?_,?_,?_⟩
  · intro v
    simp [texts]
  · intro v blank
    have first := congrArg String.toList blank
    simp [texts] at first
  · intro e
    cases e <;> simp [texts]
  · intro v text done
    by_cases huge : v = "huge" <;> simp_all [texts]
  · intro e
    cases e <;> simp [texts]
  · intro e blank
    have first := congrArg String.toList blank
    cases e <;> simp [texts] at first

/-- An executor runs the step up to its COMMIT. -/
def upToCommit (i : Nat) (executorID v : String) : List (Event String String) :=
  [.execute executorID,.look i,.check i,.finish i (.ok v),.recordOutput i]

/-- A COMMIT whose acknowledgement is lost; the executor crashes, and another one is to recover the step. -/
def recovered : List (Event String String) :=
  upToCommit 0 "a" "1" ++ [Event.commit 0 (.lost "reset"),.crash 0,.execute "b",.look 1,.check 1,.serialize 1 5 6,
    .recordOperationResult 1 true]

theorem transaction_once_recovered : ∃ s, Runs (step texts ("w",0) "pay") start recovered s ∧
    s.completions.get? ("w",0) = some { output := some "v1" } ∧
    (s.outputs.get? ("w",0)).map OperationOutput.output = some (some "1") ∧ RanOnce texts ("w",0) s := by
  have ran : ∃ s, Runs (step texts ("w",0) "pay") start recovered s ∧
      s.completions.get? ("w",0) = some { output := some "v1" } ∧
      (s.outputs.get? ("w",0)).map OperationOutput.output = some (some "1") := ⟨_,rfl,rfl,rfl⟩
  obtain ⟨s,run,completion,checkpoint⟩ := ran
  have cares : Along (step texts ("w",0) "pay") (fun s e => careful ("w",0) s e = true) start recovered := by decide
  exact ⟨s,run,completion,checkpoint,(transaction_once_agrees_iff texts_faithful run).2.mpr cares recovered [] s (by simp) run⟩

/-- The executor goes on after the lost acknowledgement and meets its own row. -/
def lostCommit : List (Event String String) :=
  upToCommit 0 "a" "1" ++ [.commit 0 (.lost "reset"),.recordError 0 none,.serialize 0 5 6,.recordOperationResult 0 true]

/-- Two executors: the second one waits for the first, finds its row, and records before it. -/
def overtaken : List (Event String String) :=
  [.execute "a",.execute "b",.look 0,.look 1,.check 0,.check 1,.finish 0 (.ok "1"),.finish 1 (.ok "1"),.recordOutput 0,
    .commit 0 .done,.recordOutput 1,.recordError 1 none,.serialize 1 5 6,.recordOperationResult 1 true]

/-- The checkpoint has the conflict as the error of the step, and the transaction is committed with its output. -/
theorem transaction_records_differ :
    (∃ s, Runs (step texts ("w",0) "pay") start lostCommit s ∧ s.completions.get? ("w",0) = some { output := some "v1" } ∧
      (s.outputs.get? ("w",0)).map (checkpointOutcome texts) = some (.error .DBOSWorkflowConflictError)) ∧
    (∃ s, Runs (step texts ("w",0) "pay") start overtaken s ∧ s.completions.get? ("w",0) = some { output := some "v1" } ∧
      (s.outputs.get? ("w",0)).map (checkpointOutcome texts) = some (.error .DBOSWorkflowConflictError)) ∧
    ¬ ∀ (codec : Codec String String) key functionName events s, codec.Faithful →
      Runs (step codec key functionName) start events s → RanOnce codec key s := by
  have differs : ∃ s, Runs (step texts ("w",0) "pay") start lostCommit s ∧
      s.completions.get? ("w",0) = some { output := some "v1" } ∧
      (s.outputs.get? ("w",0)).map (checkpointOutcome texts) = some (.error .DBOSWorkflowConflictError) := ⟨_,rfl,rfl,rfl⟩
  refine ⟨differs,⟨_,rfl,rfl,rfl⟩,?_⟩
  intro always
  obtain ⟨s,run,_,conflict⟩ := differs
  obtain ⟨checkpoint,recorded,outcome⟩ := Option.map_eq_some_iff.mp conflict
  exact (always texts ("w",0) "pay" lostCommit s texts_faithful run).own checkpoint recorded outcome

end Dbos.DataSource
