import Dbos.DispatchedStarts

/-!
What becomes of the workflows that a poll claims. `dispatch` in `src/wfqueue.ts` calls
`executeWorkflowId` for one claimed ID after the other and goes on after an error. Of the ways
in which that call fails, a failed deserialization records ERROR "instead of being stuck in
PENDING" and a spent limit gives the row up; after the others the row stays PENDING with the ID
of this executor and nothing runs it.
-/
namespace Dbos.OrphanedClaims
open Dbos.Pg Dbos.Schema Dbos.Status Dbos.Start Dbos.Dequeue Dbos.Execution StatusString

/-- A run in the map: it executes its function or, after a conflict, waits for the result. -/
inductive Run
  | executing
  | waiting
  deriving DecidableEq

structure Executor where
  table : Statuses
  runningWorkflowMap : String → Option Run := fun _ => none

/-- What one call of `executeWorkflowId` meets: the statements that fail, and with what, the
    token it draws and the clock. -/
structure Conditions where
  readFails : Option DbosError := none
  recordFails : Option DbosError := none
  initFails : Option DbosError := none
  ownerXid : String := ""
  now : Int := 0

inductive Handle
  | invoked
  | retrieved
  deriving DecidableEq

variable {Args : Type}

/-- `internalWorkflow` from its call of `initWorkflowStatus`. -/
def internalWorkflow (options : ExecuteOptions) (c : Conditions) (initStatus : NewStatus) (maxRetries : Nat)
    (s : Executor) : Except DbosError Handle × Executor :=
  match c.initFails with
  | some e => (.error e,s)
  | none =>
    let out := initWorkflowStatus s.table initStatus.status (some c.ownerXid) (options.init maxRetries) c.now
    let workflowID := initStatus.status.workflowUUID
    match out.1 with
    | .error e => (.error e,{ s with table := out.2 })
    | .ok result =>
      if startDecision result initStatus.status.queueName true (s.runningWorkflowMap workflowID).isSome then
        (.ok .invoked,⟨out.2,Function.update s.runningWorkflowMap workflowID (some .executing)⟩)
      else (.ok .retrieved,{ s with table := out.2 })

def executeWorkflowId (p : Process Args) (options : ExecuteOptions) (c : Conditions) (workflowID : String) (s : Executor) :
    Except DbosError Handle × Executor :=
  match c.readFails with
  | some e => (.error e,s)
  | none =>
    match plan p workflowID options (s.table.get? workflowID) c.now with
    | .fails e => (.error e,s)
    | .recordsError error =>
      match c.recordFails with
      | some e => (.error e,s)
      | none =>
        let out := recordWorkflowOutcome s.table workflowID (.error (some error)) c.now
        match out.1 with
        | .error e => (.error e,{ s with table := out.2 })
        | .ok _ => (.error (.Error error),{ s with table := out.2 })
    | .inits initStatus maxRetries => internalWorkflow options c initStatus maxRetries s

/-- The helper of `pollQueue`: an error is logged and the loop goes on. -/
def dispatch (p : Process Args) (conditions : String → Conditions) (wfids : List String) (s : Executor) : Executor :=
  wfids.foldl (fun s wfid => (executeWorkflowId p { isQueueDispatch := true } (conditions wfid) wfid s).2) s

/-- One poll: `recent` and `ids` are what the counts and the SELECT of the dequeue came to. -/
def pollQueue (p : Process Args) (conditions : String → Conditions) (call : DequeueCall) (recent : Nat) (ids : List String)
    (now : Int) (s : Executor) : List String × Executor :=
  let out := claimLoop { call with executorID := p.executorID } recent now ids [] s.table
  (out.1,dispatch p conditions out.1 { s with table := out.2 })

/-- The workflow is PENDING on this executor. -/
def PendingHere (p : Process Args) (t : Statuses) (workflowID : String) : Prop :=
  ∃ row, t.get? workflowID = some row ∧ row.status = PENDING ∧ row.executor_id = some p.executorID

/-- Something executes the workflow, or its row is not left to this executor. -/
def Kept (p : Process Args) (s : Executor) (workflowID : String) : Prop :=
  s.runningWorkflowMap workflowID = some .executing ∨ ¬ PendingHere p s.table workflowID

/-- The row has an input that can be read and a function of its name, class and configuration. -/
structure Executable (p : Process Args) (workflowID : String) (row : WorkflowStatus) (args : Args) (target : Target) : Prop where
  reads : ∃ text, row.inputs = some text ∧ text ≠ "" ∧ p.deserializePositionalArgs text row.serialization = .ok args
  found : targetOf p workflowID (mapWorkflowStatus workflowID row) = .ok target
  serializes : ∃ input, p.serializeFunctionInput args = .ok input
  name : row.name = target.workflowName
  class_ : row.class_name.getD "" = target.workflowClassName
  config : row.config_name.getD "" = target.workflowConfigName

/-- The input is there and cannot be read. -/
def Unreadable (p : Process Args) (row : WorkflowStatus) : Prop :=
  ∃ text error, row.inputs = some text ∧ text ≠ "" ∧ p.deserializePositionalArgs text row.serialization = .error error

/-- When a claimed row is kept: a run executes it already; or the status is read, and the input
    cannot be deserialized and the error is recorded, or the row can be executed and
    `initWorkflowStatus` goes through, with no run in the map or no attempt left. -/
def Keeps (p : Process Args) (running : Option Run) (c : Conditions) (workflowID : String) (row : WorkflowStatus) : Prop :=
  running = some .executing ∨ c.readFails = none ∧
    (Unreadable p row ∧ c.recordFails = none ∨
      ∃ args target, Executable p workflowID row args target ∧ c.initFails = none ∧
        (running = none ∨ target.maxRecoveryAttempts < row.recovery_attempts))

/-! ### What a call plans -/

variable {p : Process Args} {workflowID : String} {row : WorkflowStatus}

/-- A call plans to record an error for an input that cannot be read, to initialise a row whose
    function it finds, and to fail otherwise. -/
inductive Planned (p : Process Args) (workflowID : String) (row : WorkflowStatus) : Plan → Prop
  | fails (e : DbosError) (readable : ¬ Unreadable p row) (lost : ∀ args target, ¬ Executable p workflowID row args target) :
      Planned p workflowID row (.fails e)
  | recordsError (error : String) (unreadable : Unreadable p row)
      (lost : ∀ args target, ¬ Executable p workflowID row args target) : Planned p workflowID row (.recordsError error)
  | inits (initStatus : NewStatus) (target : Target) (readable : ¬ Unreadable p row)
      (own : initStatus.status.workflowUUID = workflowID) (executor : initStatus.status.executorId = p.executorID)
      (limited : 0 < target.maxRecoveryAttempts)
      (names : ∀ args target', Executable p workflowID row args target' → target' = target ∧ Matches row initStatus.status)
      (executable : Matches row initStatus.status → ∃ args, Executable p workflowID row args target) :
      Planned p workflowID row (.inits initStatus target.maxRecoveryAttempts)

theorem attempts_positive (config : WorkflowConfig) : 0 < config.attempts := by
  unfold WorkflowConfig.attempts
  split
  · exact Nat.succ_pos _
  · decide

theorem tempTarget_positive {wf : WorkflowStatusInternal} {workflowConfigName : String} {target : Target}
    (found : tempTarget p workflowID wf workflowConfigName = .ok target) : 0 < target.maxRecoveryAttempts := by
  unfold tempTarget at found
  dsimp only at found
  split at found
  · cases found
  split at found
  · split at found
    · split at found
      · cases found
        exact Nat.succ_pos _
      · cases found
    · cases found
  · split at found
    · cases found
      exact Nat.succ_pos _
    · cases found

/-- Every function has a limit on its attempts. -/
theorem targetOf_positive {wf : WorkflowStatusInternal} {target : Target} (found : targetOf p workflowID wf = .ok target) :
    0 < target.maxRecoveryAttempts := by
  unfold targetOf at found
  dsimp only at found
  split at found
  · cases found
  split at found
  · split at found
    · cases found
      exact attempts_positive _
    · exact tempTarget_positive found
  · exact tempTarget_positive found

theorem plan_planned (options : ExecuteOptions) (same : options.startNewWorkflow = none) (now : Int) :
    Planned p workflowID row (plan p workflowID options (some row) now) := by
  have input : (mapWorkflowStatus workflowID row).input = nonEmpty row.inputs := rfl
  have coded : (mapWorkflowStatus workflowID row).serialization = row.serialization := rfl
  unfold plan
  dsimp only
  split
  · rename_i missing
    -- There is no input or it is the empty text.
    have empty : ∀ text, row.inputs = some text → text = "" := by
      intro text found
      simpa [input,nonEmpty,found,Option.filter] using missing
    refine .fails _ ?_ ?_
    · rintro ⟨text,error,found,present,_⟩
      exact present (empty text found)
    · rintro args target ⟨⟨text,found,present,_⟩,_⟩
      exact present (empty text found)
  · rename_i text given
    have stored : row.inputs = some text ∧ text ≠ "" := by
      rw [input,nonEmpty,Option.filter_eq_some_iff] at given
      simpa using given
    split
    · rename_i error unread
      refine .recordsError error ⟨text,error,stored.1,stored.2,unread⟩ ?_
      rintro args target ⟨⟨text',found,_,reads⟩,_⟩
      cases stored.1.symm.trans found
      cases unread.symm.trans reads
    · rename_i args reads
      have readable : ¬ Unreadable p row := by
        rintro ⟨text',error,found,_,unread⟩
        cases stored.1.symm.trans found
        cases reads.symm.trans unread
      have argued : ∀ args' target, Executable p workflowID row args' target → args' = args := by
        rintro args' target ⟨⟨text',found,_,reads'⟩,_⟩
        cases stored.1.symm.trans found
        cases reads.symm.trans reads'
        rfl
      split
      · rename_i e lost
        refine .fails e readable ?_
        intro args' target executable
        cases lost.symm.trans executable.found
      · rename_i target found
        split
        · rename_i e refused
          refine .fails e readable ?_
          intro args' target' executable
          cases argued args' target' executable
          obtain ⟨input,serializes⟩ := executable.serializes
          cases refused.symm.trans serializes
        · rename_i input serializes
          refine .inits _ target readable ?_ rfl (targetOf_positive found) ?_ ?_
          · simp [internalStatus,paramsOf,same]
          · intro args' target' executable
            cases found.symm.trans executable.found
            exact ⟨rfl,executable.name,executable.class_,executable.config⟩
          · rintro ⟨name,class_,config⟩
            exact ⟨args,⟨text,stored.1,stored.2,reads⟩,found,⟨input,serializes⟩,name,class_,config⟩

/-! ### One call -/

/-- A call for a row that is PENDING on this executor. -/
theorem internalWorkflow_kept {s : Executor} {c : Conditions} {initStatus : NewStatus} {maxRetries : Nat}
    (stored : s.table.get? workflowID = some row) (pending : row.status = PENDING)
    (here : row.executor_id = some p.executorID) (own : initStatus.status.workflowUUID = workflowID)
    (executor : initStatus.status.executorId = p.executorID) (limited : 0 < maxRetries) :
    Kept p (internalWorkflow { isQueueDispatch := true } c initStatus maxRetries s).2 workflowID ↔
      s.runningWorkflowMap workflowID = some .executing ∨ c.initFails = none ∧ Matches row initStatus.status ∧
        (s.runningWorkflowMap workflowID = none ∨ maxRetries < row.recovery_attempts) := by
  have left : PendingHere p s.table workflowID := ⟨row,stored,pending,here⟩
  unfold internalWorkflow
  cases fails : c.initFails with
  | some e => simp [Kept,left]
  | none =>
    have inits := initWorkflowStatus_flagged (own ▸ stored) (ExecuteOptions.init { isQueueDispatch := true } maxRetries) rfl
      (some c.ownerXid) c.now
    have adds : (conflictRow initStatus.status true c.now row).recovery_attempts = row.recovery_attempts + 1 := by
      simp [conflictRow,pending]
    have attempted : (conflictRow initStatus.status true c.now row).executor_id = some p.executorID := by
      simp only [conflictRow,executor]
      split
      · rfl
      · exact here
    generalize initWorkflowStatus s.table initStatus.status (some c.ownerXid) _ c.now = out at inits
    cases inits with
    | conflict e differs => simp [Kept,left,differs]
    | exceeded m after agrees limit beyond others stored' =>
      -- The row is given up, so it is not PENDING any more.
      have same : maxRetries = m + 1 := Option.some.inj limit
      rw [own,if_pos pending] at stored'
      have gone : ¬ PendingHere p after workflowID := by
        rintro ⟨row',found,still,_⟩
        cases stored'.symm.trans found
        cases still
      have spent : maxRetries < row.recovery_attempts := by omega
      simp [Kept,gone,agrees,spent]
    | executes result after agrees status should within others stored' =>
      rw [own] at stored'
      have remains : PendingHere p after workflowID := ⟨_,stored',pending,attempted⟩
      have unspent : ¬ maxRetries < row.recovery_attempts := by
        have few := within (maxRetries - 1) (congrArg some (by omega))
        omega
      simp only [startDecision,should,Bool.or_true,Bool.and_self,Bool.true_and,own]
      cases running : s.runningWorkflowMap workflowID with
      | none => simp [Kept,agrees]
      | some run => simp [Kept,remains,running,unspent]

theorem executeWorkflowId_kept {s : Executor} {c : Conditions} (stored : s.table.get? workflowID = some row)
    (pending : row.status = PENDING) (here : row.executor_id = some p.executorID) :
    Kept p (executeWorkflowId p { isQueueDispatch := true } c workflowID s).2 workflowID ↔
      Keeps p (s.runningWorkflowMap workflowID) c workflowID row := by
  have left : PendingHere p s.table workflowID := ⟨row,stored,pending,here⟩
  unfold executeWorkflowId Keeps
  cases fails : c.readFails with
  | some e => simp [Kept,left]
  | none =>
    have planned : Planned p workflowID row (plan p workflowID { isQueueDispatch := true } (some row) c.now) :=
      plan_planned _ rfl c.now
    rw [← stored] at planned
    generalize plan p workflowID _ (s.table.get? workflowID) c.now = next at planned
    cases planned with
    | fails e readable lost => simp [Kept,left,readable,lost]
    | recordsError error unreadable lost =>
      cases unrecorded : c.recordFails with
      | some e => simp [Kept,left,lost]
      | none =>
        -- The row is PENDING, so the UPDATE finds it and sets ERROR.
        have gone : ¬ PendingHere p (recordWorkflowOutcome s.table workflowID (.error (some error)) c.now).2 workflowID := by
          rintro ⟨row',found,still,_⟩
          simp [recordWorkflowOutcome,recordUpdate,updateHits,stored,pending] at found
          subst found
          cases still
        dsimp only
        split <;> simp [Kept,gone,unreadable]
    | inits initStatus target readable own executor limited names executable =>
      dsimp only
      rw [internalWorkflow_kept stored pending here own executor limited]
      constructor
      · rintro (runs | ⟨initialised,agrees,room⟩)
        · exact .inl runs
        · obtain ⟨args,able⟩ := executable agrees
          exact .inr ⟨rfl,.inr ⟨args,target,able,initialised,room⟩⟩
      · rintro (runs | ⟨_,⟨unreadable,_⟩ | ⟨args,target',able,initialised,room⟩⟩)
        · exact .inl runs
        · exact absurd unreadable readable
        · obtain ⟨rfl,agrees⟩ := names args target' able
          exact .inr ⟨initialised,agrees,room⟩

/-! ### Other workflows -/

/-- The row and the run of a workflow are as before. -/
def SameAt (k : String) (s s' : Executor) : Prop :=
  s'.table.get? k = s.table.get? k ∧ s'.runningWorkflowMap k = s.runningWorkflowMap k

theorem internalWorkflow_frame {s : Executor} {options : ExecuteOptions} {c : Conditions} {initStatus : NewStatus}
    {maxRetries : Nat} {k : String} (other : k ≠ initStatus.status.workflowUUID) :
    SameAt k s (internalWorkflow options c initStatus maxRetries s).2 := by
  have frame : (initWorkflowStatus s.table initStatus.status (some c.ownerXid) (options.init maxRetries) c.now).2.get? k =
      s.table.get? k := init_frame other
  unfold internalWorkflow
  cases c.initFails with
  | some e => exact ⟨rfl,rfl⟩
  | none =>
    dsimp only
    split
    · exact ⟨frame,rfl⟩
    · split
      · exact ⟨frame,Function.update_of_ne other _ _⟩
      · exact ⟨frame,rfl⟩

/-- A call leaves other workflows alone. -/
theorem executeWorkflowId_frame {s : Executor} {c : Conditions} {k : String} (other : k ≠ workflowID) :
    SameAt k s (executeWorkflowId p { isQueueDispatch := true } c workflowID s).2 := by
  unfold executeWorkflowId
  cases c.readFails with
  | some e => exact ⟨rfl,rfl⟩
  | none =>
    dsimp only
    generalize made : plan p workflowID _ (s.table.get? workflowID) c.now = next
    cases next with
    | fails e => exact ⟨rfl,rfl⟩
    | recordsError error =>
      cases c.recordFails with
      | some e => exact ⟨rfl,rfl⟩
      | none =>
        have frame : (recordWorkflowOutcome s.table workflowID (.error (some error)) c.now).2.get? k = s.table.get? k := by
          simp [recordWorkflowOutcome,recordUpdate,updateHits,other]
        dsimp only
        split <;> exact ⟨frame,rfl⟩
    | inits initStatus maxRetries =>
      have own := (plan_inits rfl (congrArg Plan.phase made)).1
      exact internalWorkflow_frame (own ▸ other)

theorem dispatch_frame {conditions : String → Conditions} {wfids : List String} {k : String} (other : k ∉ wfids) (s : Executor) :
    SameAt k s (dispatch p conditions wfids s) := by
  induction wfids generalizing s with
  | nil => exact ⟨rfl,rfl⟩
  | cons wfid rest ih =>
    obtain ⟨elsewhere,later⟩ := not_or.mp (mt List.mem_cons.mpr other)
    have first := executeWorkflowId_frame (p := p) (c := conditions wfid) (s := s) elsewhere
    have after := ih later (executeWorkflowId p { isQueueDispatch := true } (conditions wfid) wfid s).2
    exact ⟨after.1.trans first.1,after.2.trans first.2⟩

theorem kept_of_same {s s' : Executor} (same : SameAt workflowID s s') : Kept p s' workflowID ↔ Kept p s workflowID := by
  simp only [Kept,PendingHere,same.1,same.2]

/-- Each claimed workflow is served by its own call. -/
theorem dispatch_kept (p : Process Args) (conditions : String → Conditions) {wfids : List String} (distinct : wfids.Nodup)
    (claimed : workflowID ∈ wfids) {s : Executor} (stored : s.table.get? workflowID = some row)
    (pending : row.status = PENDING) (here : row.executor_id = some p.executorID) :
    Kept p (dispatch p conditions wfids s) workflowID ↔
      Keeps p (s.runningWorkflowMap workflowID) (conditions workflowID) workflowID row := by
  induction wfids generalizing s with
  | nil => cases claimed
  | cons wfid rest ih =>
    obtain ⟨fresh,distinct⟩ := List.nodup_cons.mp distinct
    rcases List.mem_cons.mp claimed with rfl | later
    · -- The calls that follow are for other workflows.
      have after : SameAt workflowID _ (dispatch p conditions rest
          (executeWorkflowId p { isQueueDispatch := true } (conditions workflowID) workflowID s).2) :=
        dispatch_frame fresh (executeWorkflowId p { isQueueDispatch := true } (conditions workflowID) workflowID s).2
      exact (kept_of_same after).trans (executeWorkflowId_kept stored pending here)
    · have elsewhere : workflowID ≠ wfid := fun same => fresh (same ▸ later)
      have before := executeWorkflowId_frame (p := p) (c := conditions wfid) (s := s) elsewhere
      rw [← before.2]
      exact ih distinct later (before.1.trans stored)

/-! ### One poll -/

/-- The row that a poll reads for a workflow that it claims. -/
def claimedBy (p : Process Args) (call : DequeueCall) (now : Int) (row : WorkflowStatus) : WorkflowStatus :=
  claimedRow { call with executorID := p.executorID } now row

/-- A claimed workflow is executed or leaves PENDING exactly when its call meets the condition. -/
theorem claim_kept_iff (p : Process Args) (conditions : String → Conditions) (call : DequeueCall) (recent : Nat)
    (ids : List String) (now : Int) (s : Executor) {workflowID : String}
    (claimed : workflowID ∈ (pollQueue p conditions call recent ids now s).1) :
    Kept p (pollQueue p conditions call recent ids now s).2 workflowID ↔
      ∃ row, s.table.get? workflowID = some row ∧
        Keeps p (s.runningWorkflowMap workflowID) (conditions workflowID) workflowID (claimedBy p call now row) := by
  obtain ⟨new,claims⟩ := claimLoop_claims { call with executorID := p.executorID } recent now ids [] s.table
  have listed : (pollQueue p conditions call recent ids now s).1 = new := by
    simpa [pollQueue] using claims.result
  obtain ⟨row,found,_,stored⟩ := claims.claimed workflowID (listed ▸ claimed)
  have kept := dispatch_kept p conditions claims.nodup (listed ▸ claimed)
    (s := { s with table := (claimLoop { call with executorID := p.executorID } recent now ids [] s.table).2 }) stored rfl rfl
  rw [← listed] at kept
  refine kept.trans ?_
  constructor
  · exact fun keeps => ⟨row,found,keeps⟩
  · rintro ⟨row',found',keeps⟩
    cases found.symm.trans found'
    exact keeps

/-- A poll of the queue `q`. -/
def pollsQ : DequeueCall := { queue := { name := "q" },executorID := "e",appVersion := "v",startTimeMs := 2 }

/-- The workflow `w` of `DispatchedStarts` is claimed and executed. -/
theorem claim_kept_one :
    "w" ∈ (pollQueue DispatchedStarts.oneWorkflow (fun _ => {}) pollsQ 0 ["w"] 2 ⟨DispatchedStarts.waiting,fun _ => none⟩).1 ∧
    Kept DispatchedStarts.oneWorkflow
      (pollQueue DispatchedStarts.oneWorkflow (fun _ => {}) pollsQ 0 ["w"] 2 ⟨DispatchedStarts.waiting,fun _ => none⟩).2 "w" := by
  refine ⟨by decide,(claim_kept_iff DispatchedStarts.oneWorkflow (fun _ => {}) pollsQ 0 ["w"] 2
    ⟨DispatchedStarts.waiting,fun _ => none⟩ (by decide)).mpr ⟨_,rfl,.inr ⟨rfl,.inr ⟨(),{ workflowName := "f",maxRecoveryAttempts := 1 },
      ?_,rfl,.inl rfl⟩⟩⟩⟩
  exact ⟨⟨"[]",rfl,by decide,rfl⟩,rfl,⟨_,rfl⟩,rfl,rfl,rfl⟩

/-- The process of an application that has lost the function. -/
def withoutWorkflow : Process Unit := { DispatchedStarts.oneWorkflow with getFunctionRegistrationByName := fun _ _ => none }

/-- Without a registration the only workflows with a function are old sends. -/
theorem targetOf_unregistered {wf : WorkflowStatusInternal} {target : Target}
    (found : targetOf withoutWorkflow workflowID wf = .ok target) :
    ∃ rest, target.workflowName = tempWorkflowName ++ "-send-" ++ rest := by
  have known : withoutWorkflow.classesByName wf.workflowClassName = true := rfl
  have missing : withoutWorkflow.getFunctionRegistrationByName = fun _ _ => none := rfl
  rw [targetOf,known,if_neg (by simp),missing] at found
  simp only [tempTarget,missing] at found
  split at found
  · cases found
  split at found
  · cases found
  split at found
  · cases found
    exact ⟨_,rfl⟩
  · cases found

/-- The workflow `w` waits, with no input or with a configured instance. -/
def waitingWith (inputs config_name : Option String) : Statuses := Table.empty.insert "w"
  { status := ENQUEUED,name := "f",config_name := config_name,queue_name := some "q",inputs := inputs
    created_at := 1,updated_at := 1 }

/-- A claimed workflow stays PENDING with nothing that executes it: its function is not
    registered, its configured instance is missing, its input is absent, or an older run in the
    map only waits. -/
theorem claim_orphaned :
    (¬ Kept withoutWorkflow
      (pollQueue withoutWorkflow (fun _ => {}) pollsQ 0 ["w"] 2 ⟨DispatchedStarts.waiting,fun _ => none⟩).2 "w") ∧
    (¬ Kept DispatchedStarts.oneWorkflow (pollQueue DispatchedStarts.oneWorkflow (fun _ => {}) pollsQ 0 ["w"] 2
      ⟨waitingWith (some "[]") (some "c"),fun _ => none⟩).2 "w") ∧
    (¬ Kept DispatchedStarts.oneWorkflow (pollQueue DispatchedStarts.oneWorkflow (fun _ => {}) pollsQ 0 ["w"] 2
      ⟨waitingWith none none,fun _ => none⟩).2 "w") ∧
    (¬ Kept DispatchedStarts.oneWorkflow (pollQueue DispatchedStarts.oneWorkflow (fun _ => {}) pollsQ 0 ["w"] 2
      ⟨DispatchedStarts.waiting,fun _ => some .waiting⟩).2 "w") ∧
    ¬ ∀ (p : Process Unit) conditions call recent ids now s workflowID,
      workflowID ∈ (pollQueue p conditions call recent ids now s).1 →
      Kept p (pollQueue p conditions call recent ids now s).2 workflowID := by
  have lost : ¬ Kept withoutWorkflow
      (pollQueue withoutWorkflow (fun _ => {}) pollsQ 0 ["w"] 2 ⟨DispatchedStarts.waiting,fun _ => none⟩).2 "w" := by
    intro kept
    have keeps := (dispatch_kept withoutWorkflow (fun _ => {}) (by decide) (show "w" ∈ ["w"] by decide)
      (s := ⟨(claimLoop pollsQ 0 2 ["w"] [] DispatchedStarts.waiting).2,fun _ => none⟩) rfl rfl rfl).mp kept
    rcases keeps with runs | ⟨_,⟨⟨_,_,_,_,unread⟩,_⟩ | ⟨args,target,able,_⟩⟩
    · cases runs
    · cases unread
    · obtain ⟨rest,named⟩ := targetOf_unregistered able.found
      have lengths : 1 = (tempWorkflowName ++ "-send-" ++ rest).length := congrArg String.length (able.name.trans named)
      have long : tempWorkflowName.length = 13 := by decide
      simp only [String.length_append] at lengths
      omega
  refine ⟨lost,?_,?_,?_,?_⟩
  · rintro (runs | gone)
    · cases runs
    · exact gone ⟨_,rfl,rfl,rfl⟩
  · rintro (runs | gone)
    · cases runs
    · exact gone ⟨_,rfl,rfl,rfl⟩
  · rintro (runs | gone)
    · cases runs
    · exact gone ⟨_,rfl,rfl,rfl⟩
  · intro always
    exact lost (always withoutWorkflow (fun _ => {}) pollsQ 0 ["w"] 2 ⟨DispatchedStarts.waiting,fun _ => none⟩ "w" (by decide))

end Dbos.OrphanedClaims
