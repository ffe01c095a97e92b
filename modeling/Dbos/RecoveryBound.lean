import Dbos.DispatchedStarts

/-!
How often a workflow is started. `initWorkflowStatus` counts the attempts of a workflow in
`recovery_attempts` and gives up when a dispatch makes more than `maxRetries + 1` of them. It
counts a dispatch only when the row is neither ENQUEUED nor DELAYED, so a recovery sweep that
falls between the claim and the call leaves an attempt uncounted, and the function can be
started any number of times. The bound holds in runs where every dispatch is counted.
-/
namespace Dbos.RecoveryBound
open Dbos.Pg Dbos.Schema Dbos.Status Dbos.Start Dbos.Dequeue Dbos.Execution StatusString
open Dbos.Ops (Op apply_changes insertWorkflowStatus_ok)

/-! ### Counting starts -/

/-- How often the function was started since the workflow was created or last resumed. -/
def startsSince (w : String) (log : List Mark) : Nat := (log.takeWhile fun m => m ≠ .resume w).count (.start w)

theorem startsSince_start (w : String) (log : List Mark) : startsSince w (.start w :: log) = startsSince w log + 1 := by
  simp [startsSince]

theorem startsSince_other {w v : String} (other : v ≠ w) (log : List Mark) :
    startsSince w (.start v :: log) = startsSince w log := by
  simp [startsSince,other]

theorem startsSince_resumed (w : String) (ids : List String) (log : List Mark) :
    startsSince w (ids.map Mark.resume ++ log) = if w ∈ ids then 0 else startsSince w log := by
  induction ids with
  | nil => simp
  | cons id rest ih =>
    by_cases here : id = w
    · simp [startsSince,here]
    · have skips : startsSince w (Mark.resume id :: (rest.map Mark.resume ++ log)) =
          startsSince w (rest.map Mark.resume ++ log) := by
        simp [startsSince,here]
      simp only [List.map_cons,List.cons_append,skips,ih,List.mem_cons,Ne.symm here,false_or]

/-! ### The runs -/

variable {ι Args : Type} [DecidableEq ι] {procs : ι → Process Args}

/-- The row waits for a dispatcher. -/
def Waits (row : WorkflowStatus) : Prop := row.status = ENQUEUED ∨ row.status = DELAYED

instance (row : WorkflowStatus) : Decidable (Waits row) := inferInstanceAs (Decidable (_ ∨ _))

/-- The operations in the life of a workflow that is created, dequeued, recovered and resumed. -/
def recovers : Op → Bool
  | .enqueueWorkflows .. => true
  | .transitionDelayedWorkflows .. => true
  | .reenqueueWorkflowsForRecovery .. => true
  | .resumeWorkflows .. => true
  | .findAndMarkStartableWorkflows .. => true
  | .claimExecutor .. => true
  | _ => false

/-- The workflow `w` is only created, dequeued, initialised, recovered and resumed, and processes
    crash; anything may happen to other workflows. -/
def Recovery (w : String) (s : System ι) : Event ι → Prop
  | .record i _ => ∀ d ∈ s.dispatches[i]?,d.workflowID ≠ w
  | .other op => recovers op = true ∨ (op.apply s.table).get? w = s.table.get? w
  | _ => True

def limitOf : Phase → Option Nat
  | .planned _ maxRetries => some maxRetries
  | _ => none

/-- Calls of `initWorkflowStatus` for `w` have the limit `M`. -/
def Limits (w : String) (M : Nat) (s : System ι) : Event ι → Prop
  | .init i _ _ => ∀ d ∈ s.dispatches[i]?,d.workflowID = w → ∀ maxRetries ∈ limitOf d.phase,maxRetries = M
  | _ => True

/-- The condition on the steps: a dispatch of `w` that calls `initWorkflowStatus` finds a row
    that does not wait. -/
def Counted (w : String) (s : System ι) : Event ι → Prop
  | .init i _ _ => ∀ d ∈ s.dispatches[i]?,d.workflowID = w → ∀ row ∈ s.table.get? w,¬ Waits row
  | _ => True

/-- The steps of a workflow with the limit `M` that is recovered. -/
def Lives (w : String) (M : Nat) (s : System ι) (event : Event ι) : Prop := Recovery w s event ∧ Limits w M s event

def Meets (w : String) (M : Nat) (s : System ι) (event : Event ι) : Prop := Lives w M s event ∧ Counted w s event

instance decidableLives (w : String) (M : Nat) (s : System ι) (event : Event ι) : Decidable (Lives w M s event) :=
  match event with
  | .record i _ => inferInstanceAs (Decidable ((∀ d ∈ s.dispatches[i]?,d.workflowID ≠ w) ∧ True))
  | .init i _ _ => inferInstanceAs (Decidable (True ∧
      ∀ d ∈ s.dispatches[i]?,d.workflowID = w → ∀ maxRetries ∈ limitOf d.phase,maxRetries = M))
  | .other op =>
    inferInstanceAs (Decidable ((recovers op = true ∨ (op.apply s.table).get? w = s.table.get? w) ∧ True))
  | .call .. => isTrue ⟨trivial,trivial⟩
  | .dequeue .. => isTrue ⟨trivial,trivial⟩
  | .recover .. => isTrue ⟨trivial,trivial⟩
  | .read .. => isTrue ⟨trivial,trivial⟩
  | .fault .. => isTrue ⟨trivial,trivial⟩
  | .finish .. => isTrue ⟨trivial,trivial⟩
  | .crash .. => isTrue ⟨trivial,trivial⟩

instance decidableCounted (w : String) (s : System ι) (event : Event ι) : Decidable (Counted w s event) :=
  match event with
  | .init i _ _ =>
    inferInstanceAs (Decidable (∀ d ∈ s.dispatches[i]?,d.workflowID = w → ∀ row ∈ s.table.get? w,¬ Waits row))
  | .record .. => isTrue trivial
  | .other .. => isTrue trivial
  | .call .. => isTrue trivial
  | .dequeue .. => isTrue trivial
  | .recover .. => isTrue trivial
  | .read .. => isTrue trivial
  | .fault .. => isTrue trivial
  | .finish .. => isTrue trivial
  | .crash .. => isTrue trivial

instance (w : String) (M : Nat) (s : System ι) (event : Event ι) : Decidable (Meets w M s event) :=
  inferInstanceAs (Decidable (_ ∧ _))

/-! ### Calls from user code -/

/-- A call with a new token leaves a row that is there and starts nothing; without a row it
    inserts one with the attempts that its start takes, or fails. -/
inductive Called (t : Statuses) (initStatus : WorkflowStatusInternal) : Except DbosError InitResult × Statuses → Prop
  | failed (e : DbosError) : Called t initStatus (.error e,t)
  | existing (result : InitResult) (rests : result.shouldExecuteOnThisExecutor = false) : Called t initStatus (.ok result,t)
  | created (result : InitResult) (row : WorkflowStatus) (after : Statuses) (absent : t.get? initStatus.workflowUUID = none)
      (others : ∀ k, k ≠ initStatus.workflowUUID → after.get? k = t.get? k)
      (stored : after.get? initStatus.workflowUUID = some row) (status : row.status = initStatus.status)
      (attempts : row.recovery_attempts = if initStatus.status = ENQUEUED ∨ initStatus.status = DELAYED then 0 else 1) :
      Called t initStatus (.ok result,after)

theorem initWorkflowStatus_called {t : Statuses} {initStatus : WorkflowStatusInternal} {token : String}
    (unused : ∀ row, t.get? initStatus.workflowUUID = some row → row.owner_xid ≠ some token) (maxRetries : Nat)
    (now : Int) :
    Called t initStatus (initWorkflowStatus t initStatus (some token) { maxRetries := some maxRetries } now) := by
  unfold initWorkflowStatus
  split
  · exact .failed _
  · rename_i resRow t' inserted
    obtain ⟨rfl,rfl⟩ := insertWorkflowStatus_ok inserted
    generalize ends : initExit initStatus (some token) { maxRetries := some maxRetries } _ = exit
    cases found : t.get? initStatus.workflowUUID with
    | some row =>
      -- The row has another owner, so the upsert is rolled back.
      have owner : some token ≠ (returning (conflictRow initStatus false now row)).owner_xid :=
        fun same => unused row found same.symm
      rw [found] at ends
      simp only [Option.elim,Bool.or_self] at ends
      unfold initExit at ends
      split at ends
      · cases ends
        exact .failed _
      split at ends
      · cases ends
        exact .failed _
      split at ends
      · cases ends
        exact .failed _
      rw [if_pos ⟨owner,rfl,rfl⟩] at ends
      split at ends
      · cases ends
        exact .failed _
      · cases ends
        exact .existing _ rfl
    | none =>
      rw [found] at ends
      simp only [Option.elim] at ends
      have others : ∀ k, k ≠ initStatus.workflowUUID → (t.upsert initStatus.workflowUUID
          (insertedRow initStatus (some token) now) (conflictRow initStatus false now)).get? k = t.get? k := by
        intro k other
        simp [other]
      cases exit with
      | conflict e => exact .failed e
      | existing result =>
        cases result with
        | error e => exact .failed e
        | ok result =>
          -- The new row has the token of the call, so this exit is not taken.
          exfalso
          unfold initExit at ends
          split at ends
          · cases ends
          split at ends
          · cases ends
          split at ends
          · cases ends
          rw [if_neg (by simp [returning,insertedRow])] at ends
          split at ends
          · split at ends <;> cases ends
          · cases ends
      | exceeded maxRetries => exact absurd ends Ops.initExit_new
      | execute result =>
        exact .created result (insertedRow initStatus (some token) now) _ found others (by simp [found]) rfl rfl

/-! ### The invariant -/

/-- The row of `w` has counted every start, and it waits, runs or has been given up. -/
structure Counts (w : String) (row : WorkflowStatus) (log : List Mark) : Prop where
  counted : startsSince w log ≤ row.recovery_attempts
  lives : row.status = PENDING ∨ Waits row ∨ row.status = MAX_RECOVERY_ATTEMPTS_EXCEEDED
  given : row.status = MAX_RECOVERY_ATTEMPTS_EXCEEDED → row.deduplication_id = none

structure Bounded (w : String) (M : Nat) (s : System ι) : Prop where
  wired : ∀ d ∈ s.dispatches,Wired d
  bound : startsSince w s.log ≤ M + 1
  uncreated : s.table.get? w = none → startsSince w s.log = 0
  counts : ∀ row, s.table.get? w = some row → Counts w row s.log
  planned : ∀ d ∈ s.dispatches,d.workflowID = w → ∀ initStatus maxRetries, d.phase = .planned initStatus maxRetries →
    (s.table.get? w).isSome

variable {w : String} {M : Nat}

omit [DecidableEq ι] in
theorem bounded_start {t : Statuses} (absent : t.get? w = none) : Bounded w M (start t : System ι) := by
  refine ⟨by simp [start],by simp [start,startsSince],by simp [start,startsSince],?_,by simp [start]⟩
  intro row found
  cases found.symm.trans absent

omit [DecidableEq ι] in
/-- A step that leaves the row of `w` and its starts alone. -/
theorem bounded_frame {s s' : System ι} (bounded : Bounded w M s) (wired : ∀ d ∈ s'.dispatches,Wired d)
    (row : s'.table.get? w = s.table.get? w) (log : startsSince w s'.log = startsSince w s.log)
    (planned : ∀ d ∈ s'.dispatches,d.workflowID = w → ∀ initStatus maxRetries, d.phase = .planned initStatus maxRetries →
      (s.table.get? w).isSome) : Bounded w M s' := by
  refine ⟨wired,log ▸ bounded.bound,?_,?_,?_⟩
  · intro absent
    rw [log]
    exact bounded.uncreated (row ▸ absent)
  · intro r found
    have counts := bounded.counts r (row ▸ found)
    exact ⟨log ▸ counts.counted,counts.lives,counts.given⟩
  · rw [row]
    exact planned

omit [DecidableEq ι] in
/-- A step after which `w` has the row `r`. -/
theorem bounded_row {s' : System ι} {r : WorkflowStatus} (wired : ∀ d ∈ s'.dispatches,Wired d)
    (stored : s'.table.get? w = some r) (counts : Counts w r s'.log) (bound : startsSince w s'.log ≤ M + 1) :
    Bounded w M s' := by
  refine ⟨wired,bound,?_,?_,?_⟩
  · intro absent
    cases stored.symm.trans absent
  · intro r' found
    cases stored.symm.trans found
    exact counts
  · intro d _ _ initStatus maxRetries _
    rw [stored]
    rfl

omit [DecidableEq ι] in
/-- What the operations of a recovery do to the row of `w`. -/
theorem bounded_other {s : System ι} {op : Op} (bounded : Bounded w M s) (kind : recovers op = true) :
    Bounded w M { s with table := op.apply s.table,log := (resumedBy s.table op).map Mark.resume ++ s.log } := by
  have fewer : startsSince w ((resumedBy s.table op).map Mark.resume ++ s.log) ≤ startsSince w s.log := by
    rw [startsSince_resumed]
    split <;> omega
  have bound := Nat.le_trans fewer bounded.bound
  have change := apply_changes s.table op w
  generalize stored : (op.apply s.table).get? w = new at change
  generalize before : s.table.get? w = old at change
  cases change with
  | kept =>
    have same : (op.apply s.table).get? w = s.table.get? w := stored.trans before.symm
    refine ⟨bounded.wired,bound,?_,?_,?_⟩
    · intro absent
      have zero := bounded.uncreated (same ▸ absent)
      dsimp only
      omega
    · intro row found
      have counts := bounded.counts row (same ▸ found)
      exact ⟨Nat.le_trans fewer counts.counted,counts.lives,counts.given⟩
    · intro d member here initStatus maxRetries phase
      dsimp only
      rw [same]
      exact bounded.planned d member here initStatus maxRetries phase
  | inserted row inserted =>
    have zero := bounded.uncreated before
    refine bounded_row bounded.wired stored ⟨?_,?_,?_⟩ bound
    · dsimp only
      omega
    · cases inserted with
      | init initStatus ownerXid options now here => cases kind
      | enqueued statuses createdAts status createdAt member here waits => exact .inr (.inl (.inl waits))
      | forked => cases kind
    · intro exceeded
      cases inserted with
      | init initStatus ownerXid options now here => cases kind
      | enqueued statuses createdAts status createdAt member here waits => cases waits.symm.trans exceeded
      | forked => cases kind
  | deleted row allIds here deletes =>
    subst deletes
    cases kind
  | rewritten row row' by_ =>
    have counts := bounded.counts row before
    refine bounded_row bounded.wired stored ?_ bound
    cases by_ with
    | recorded _ outcome now records =>
      cases op with
      | recordWorkflowOutput => cases kind
      | recordWorkflowError => cases kind
      | _ => cases records
    | reenqueued =>
      exact ⟨Nat.le_trans fewer counts.counted,.inr (.inl (.inl rfl)),by rintro ⟨⟩⟩
    | resumed workflowIDs queueName now here unsuccessful unfailed =>
      have resumed : w ∈ s.table.keys (unfinishedHits workflowIDs) :=
        (Table.mem_keys _ _ _).mpr ⟨row,before,by simp [unfinishedHits,here,unsuccessful,unfailed]⟩
      refine ⟨?_,.inr (.inl (.inl rfl)),by rintro ⟨⟩⟩
      dsimp only [resumedBy]
      rw [startsSince_resumed,if_pos resumed]
      exact Nat.zero_le _
    | transitioned now waits =>
      exact ⟨Nat.le_trans fewer counts.counted,.inr (.inl (.inl rfl)),by rintro ⟨⟩⟩
    | claimed =>
      exact ⟨Nat.le_trans fewer counts.counted,.inl rfl,by rintro ⟨⟩⟩
    | adopted executorID other =>
      exact ⟨Nat.le_trans fewer counts.counted,counts.lives,counts.given⟩
    | _ => cases kind

omit [DecidableEq ι] in
theorem noted_other {s : System ι} {e : ι} {v : String} (other : v ≠ w) (phase : Phase) :
    startsSince w (s.noted e v phase).log = startsSince w s.log := by
  cases phase with
  | started status => exact startsSince_other other s.log
  | _ => rfl

omit [DecidableEq ι] in
theorem noted_start {s : System ι} {e : ι} (phase : Phase) :
    startsSince w (s.noted e w phase).log = startsSince w s.log + 1 ∧ (∃ status, phase = .started status) ∨
      startsSince w (s.noted e w phase).log = startsSince w s.log := by
  cases phase with
  | started status => exact .inl ⟨startsSince_start w s.log,status,rfl⟩
  | _ => exact .inr rfl

/-- A call from user code creates the workflow or leaves it. -/
theorem bounded_call {s : System ι} {e : ι} {initStatus : NewStatus} {token : String} {maxRetries : Nat} {now : Int}
    (bounded : Bounded w M s)
    (unused : ∀ row, s.table.get? initStatus.status.workflowUUID = some row → row.owner_xid ≠ some token)
    {out : Except DbosError InitResult × Statuses}
    (returned : out = initWorkflowStatus s.table initStatus.status (some token) { maxRetries := some maxRetries } now) :
    Bounded w M (System.noted { s with table := out.2 } e initStatus.status.workflowUUID
      (afterInit s e initStatus.status.workflowUUID initStatus.status.queueName false out.1)) := by
  have called := initWorkflowStatus_called unused maxRetries now
  rw [← returned] at called
  cases called with
  | failed error => exact bounded
  | existing result rests =>
    have stays : afterInit s e initStatus.status.workflowUUID initStatus.status.queueName false (.ok result) = .retrieved := by
      simp [afterInit,startDecision,rests]
    rw [stays]
    exact bounded
  | created result row after absent others stored status attempts =>
    generalize decides : afterInit s e initStatus.status.workflowUUID initStatus.status.queueName false (.ok result) = next
    by_cases here : initStatus.status.workflowUUID = w
    · rw [here] at absent stored ⊢
      have zero := bounded.uncreated absent
      have lives : row.status = PENDING ∨ Waits row := by
        cases queue : initStatus.status.queueName with
        | none => exact .inl (status.trans (initStatus.shape.direct queue))
        | some q =>
          have queued := initStatus.shape.queued (by simp [queue])
          refine .inr ?_
          rw [Waits,status,queued]
          split <;> simp
      have given : row.status = MAX_RECOVERY_ATTEMPTS_EXCEEDED → row.deduplication_id = none := by
        intro exceeded
        rcases lives with pending | waits | waits
        · cases pending.symm.trans exceeded
        · cases waits.symm.trans exceeded
        · cases waits.symm.trans exceeded
      have counted : startsSince w (System.noted { s with table := after } e w next).log ≤ row.recovery_attempts ∧
          startsSince w (System.noted { s with table := after } e w next).log ≤ M + 1 := by
        rcases noted_start (w := w) (s := { s with table := after }) (e := e) next with ⟨started,phase,rfl⟩ | unstarted
        · -- Only a workflow without a queue is started by its creation, and it has one attempt.
          have unqueued : initStatus.status.queueName = none := by
            by_contra queued
            simp [afterInit,startDecision,queued] at decides
          have pending := initStatus.shape.direct unqueued
          simp only [pending,reduceCtorEq,or_self,if_false] at attempts
          dsimp only at started
          omega
        · dsimp only at unstarted
          omega
      refine bounded_row ?_ ?_ ⟨counted.1,?_,given⟩ counted.2
      · simpa using bounded.wired
      · simpa using stored
      · rcases lives with pending | waits
        · exact .inl pending
        · exact .inr (.inl waits)
    · refine bounded_frame bounded (by simpa using bounded.wired) ?_ (noted_other here next) ?_
      · simpa using others w (Ne.symm here)
      · simpa using bounded.planned

/-- A counted dispatch adds an attempt, so it starts the function at most when there is one left. -/
theorem bounded_init {s : System ι} {i : Nat} {d : Dispatch ι} {initStatus : NewStatus} {maxRetries : Nat} {token : String}
    {now : Int} {next : Phase} {out : Except DbosError InitResult × Statuses} (bounded : Bounded w M s)
    (limited : 0 < M) (found : s.dispatches[i]? = some d) (phase : d.phase = .planned initStatus maxRetries)
    (limits : d.workflowID = w → maxRetries = M)
    (counted : d.workflowID = w → ∀ row, s.table.get? w = some row → ¬ Waits row)
    (returned : out = initWorkflowStatus s.table initStatus.status (some token) (d.options.init maxRetries) now)
    (decides : next = afterInit s d.executor initStatus.status.workflowUUID initStatus.status.queueName true out.1)
    (wired : ∀ other ∈ s.put i d next,Wired other) :
    Bounded w M (System.noted { s with table := out.2,dispatches := s.put i d next } d.executor
      initStatus.status.workflowUUID next) := by
  have listed := List.mem_of_getElem? found
  have wiring := bounded.wired d listed
  have sameID := wiring.planned initStatus maxRetries phase
  have planned : ∀ other ∈ s.put i d next,other.workflowID = w → ∀ initStatus maxRetries,
      other.phase = .planned initStatus maxRetries → (s.table.get? w).isSome := by
    refine all_set bounded.planned ?_ i
    intro _ initStatus' maxRetries' made
    exact absurd (decides ▸ made) afterInit_planned
  rw [sameID]
  by_cases here : d.workflowID = w
  · obtain ⟨row,stored⟩ := Option.isSome_iff_exists.mp (bounded.planned d listed here initStatus maxRetries phase)
    have counts := bounded.counts row stored
    have goes := counted here row stored
    obtain rfl := limits here
    obtain ⟨m,rfl⟩ : ∃ m, maxRetries = m + 1 := ⟨maxRetries - 1,by omega⟩
    have adds : (conflictRow initStatus.status true now row).recovery_attempts = row.recovery_attempts + 1 := by
      have moving : row.status ≠ ENQUEUED ∧ row.status ≠ DELAYED := not_or.mp goes
      simp [conflictRow,moving]
    have inits := initWorkflowStatus_flagged (sameID.trans here ▸ stored) (d.options.init (m + 1)) wiring.flagged (some token) now
    rw [← returned] at inits
    rw [sameID] at decides
    rw [here] at decides ⊢
    have key := sameID.trans here
    cases inits with
    | conflict e differs =>
      subst decides
      exact bounded_frame bounded wired rfl rfl planned
    | exceeded m' after agrees limit beyond others stored' =>
      subst decides
      rw [key] at stored'
      refine bounded_row wired stored' ?_ bounded.bound
      have kept : startsSince w s.log ≤ (conflictRow initStatus.status true now row).recovery_attempts := by
        have := counts.counted
        omega
      by_cases pending : row.status = PENDING
      · rw [if_pos pending]
        exact ⟨kept,.inr (.inr rfl),fun _ => rfl⟩
      · rw [if_neg pending]
        exact ⟨kept,counts.lives,counts.given⟩
    | executes result after agrees status should within others stored' =>
      rw [key] at stored'
      have attempts := within m rfl
      have started : startsSince w (System.noted { s with table := after,dispatches := s.put i d next } d.executor w next).log
          ≤ startsSince w s.log + 1 := by
        rcases noted_start (w := w) (s := { s with table := after,dispatches := s.put i d next }) (e := d.executor) next with
          ⟨begun,_⟩ | rests
        · exact Nat.le_of_eq begun
        · rw [rests]
          exact Nat.le_succ _
      have before := counts.counted
      dsimp only
      refine bounded_row (by simpa using wired) ((congrArg (Table.get? · w) (noted_table _ _ _ _)).trans stored')
        ⟨by omega,counts.lives,counts.given⟩ (by omega)
  · have frame : out.2.get? w = s.table.get? w := by
      rw [returned]
      exact init_frame (by rw [sameID]; exact Ne.symm here)
    exact bounded_frame bounded (by simpa using wired) (by simpa using frame) (noted_other here next) (by simpa using planned)

theorem step_bounded {s s' : System ι} {event : Event ι} (limited : 0 < M) (bounded : Bounded w M s)
    (meets : Meets w M s event) (taken : step procs s event = some s') : Bounded w M s' := by
  have wired := step_wired bounded.wired taken
  cases step_moves taken with
  | call e initStatus token maxRetries now unused out returned => exact bounded_call bounded unused returned
  | dequeue e call recent ids now own =>
    have claimed := bounded_other bounded (show recovers (.findAndMarkStartableWorkflows call recent ids now) = true from rfl)
    refine bounded_frame claimed wired rfl rfl ?_
    intro d member same initStatus maxRetries phase
    rcases List.mem_append.mp member with old | new
    · exact claimed.planned d old same initStatus maxRetries phase
    · obtain ⟨w',_,rfl⟩ := List.mem_map.mp new
      cases phase
  | recover e workflowID =>
    refine bounded_frame bounded wired rfl rfl ?_
    intro d member same initStatus maxRetries phase
    rcases List.mem_append.mp member with old | new
    · exact bounded.planned d old same initStatus maxRetries phase
    · cases List.mem_singleton.mp new
      cases phase
  | read i now d found phase =>
    refine bounded_frame bounded wired rfl rfl (all_set bounded.planned ?_ i)
    intro same initStatus maxRetries made
    have present := (plan_inits (bounded.wired d (List.mem_of_getElem? found)).same made).2
    exact same ▸ present
  | record i now d error found phase =>
    have other : w ≠ d.workflowID := Ne.symm (meets.1.1 d found)
    refine bounded_frame bounded wired ?_ rfl ?_
    · simp [recordWorkflowOutcome,recordUpdate,updateHits,other]
    · refine all_set bounded.planned ?_ i
      intro _ initStatus maxRetries made
      cases made
  | init i token now d initStatus maxRetries found phase out returned next decides =>
    rw [noted_dispatches] at wired
    exact bounded_init bounded limited found phase (fun here => meets.1.2 d found here maxRetries (by rw [phase]; rfl))
      (meets.2 d found) returned decides wired
  | fault i code d found under =>
    refine bounded_frame bounded wired rfl rfl (all_set bounded.planned ?_ i)
    intro _ initStatus maxRetries made
    cases made
  | finish e workflowID => exact bounded_frame bounded wired rfl rfl bounded.planned
  | crash e =>
    refine bounded_frame bounded wired rfl rfl ?_
    intro d member same initStatus maxRetries made
    rcases mem_crashed member with old | ⟨old,listed,rfl⟩
    · exact bounded.planned d old same initStatus maxRetries made
    · cases made
  | other op =>
    by_cases kind : recovers op = true
    · exact bounded_other bounded kind
    · -- An operation that resumes is one of a recovery, so the log stays as it was.
      have kept := meets.1.1.resolve_left kind
      have quiet : resumedBy s.table op = [] := by
        cases op <;> first | rfl | exact absurd rfl kind
      refine bounded_frame bounded wired kept ?_ bounded.planned
      rw [quiet]
      rfl

/-- The function has been started `M + 1` times, so the next call that agrees with the row
    gives the workflow up. -/
theorem init_gives_up {s s' : System ι} {i : Nat} {token : String} {now : Int} {d : Dispatch ι} {initStatus : NewStatus}
    {maxRetries : Nat} (bounded : Bounded w M s) (limited : 0 < M) (spent : startsSince w s.log = M + 1)
    (meets : Meets w M s (.init i token now)) (taken : step procs s (.init i token now) = some s')
    (found : s.dispatches[i]? = some d) (here : d.workflowID = w) (phase : d.phase = .planned initStatus maxRetries)
    {row : WorkflowStatus} (stored : s.table.get? w = some row) (agrees : Matches row initStatus.status) :
    s'.dispatches[i]? = some { d with phase := .threw (.DBOSMaxRecoveryAttemptsExceededError w M) } ∧
      ∃ row', s'.table.get? w = some row' ∧ row'.status = MAX_RECOVERY_ATTEMPTS_EXCEEDED ∧ row'.deduplication_id = none := by
  have counts := bounded.counts row stored
  have moving : row.status ≠ ENQUEUED ∧ row.status ≠ DELAYED := not_or.mp (meets.2 d found here row stored)
  have limit := meets.1.2 d found here maxRetries (by rw [phase]; rfl)
  have wiring := bounded.wired d (List.mem_of_getElem? found)
  have key := (wiring.planned initStatus maxRetries phase).trans here
  cases step_moves taken with
  | init _ _ _ d' initStatus' maxRetries' found' phase' out returned next decides =>
    cases found.symm.trans found'
    cases phase.symm.trans phase'
    have inits := initWorkflowStatus_flagged (key ▸ stored) (d.options.init maxRetries) wiring.flagged (some token) now
    rw [← returned] at inits
    cases inits with
    | conflict e differs => exact absurd agrees differs
    | exceeded m after _ bounds beyond others stored' =>
      subst decides
      have same : maxRetries = m + 1 := Option.some.inj bounds
      refine ⟨?_,?_⟩
      · simp only [noted_dispatches,System.put]
        rw [party_set found,if_pos rfl,← same,limit,key]
        rfl
      · refine ⟨_,by simpa [key] using stored',?_⟩
        rcases counts.lives with pending | (waits | waits) | exceeded
        · rw [if_pos pending]
          exact ⟨rfl,rfl⟩
        · exact absurd waits moving.1
        · exact absurd waits moving.2
        · rw [if_neg (by rw [exceeded]; decide)]
          exact ⟨exceeded,counts.given exceeded⟩
    | executes result after _ status should within others stored' =>
      -- The attempts are one more than the starts, so none is left.
      exfalso
      have adds : (conflictRow initStatus.status true now row).recovery_attempts = row.recovery_attempts + 1 := by
        simp [conflictRow,moving]
      have attempts := within (M - 1) (congrArg some (limit.trans (by omega)))
      have before := counts.counted
      omega

/-- In every run of a workflow's creation, dispatches, recoveries and resumptions in which the
    dispatches are counted, the function is started at most `M + 1` times, and the call of
    `initWorkflowStatus` that would start it again gives it up. -/
theorem recovery_bound {w : String} {M : Nat} (limited : 1 ≤ M) {t : Statuses} (absent : t.get? w = none)
    {events : List (Event ι)} (meets : Along (step procs) (Meets w M) (start t) events) {s : System ι}
    (run : Runs (step procs) (start t) events s) :
    startsSince w s.log ≤ M + 1 ∧
    (startsSince w s.log = M + 1 → ∀ i token now s', Meets w M s (.init i token now) →
      step procs s (.init i token now) = some s' → ∀ d ∈ s.dispatches[i]?,d.workflowID = w →
      ∀ initStatus maxRetries, d.phase = .planned initStatus maxRetries →
      ∀ row ∈ s.table.get? w,Matches row initStatus.status →
        s'.dispatches[i]? = some { d with phase := .threw (.DBOSMaxRecoveryAttemptsExceededError w M) } ∧
        ∃ row' ∈ s'.table.get? w,row'.status = MAX_RECOVERY_ATTEMPTS_EXCEEDED ∧ row'.deduplication_id = none) := by
  have bounded := along_invariant (I := Bounded w M) (fun _ _ _ => step_bounded limited) (bounded_start absent) meets run
  refine ⟨bounded.bound,?_⟩
  intro spent i token now s' next taken d found here initStatus maxRetries phase row stored agrees
  exact init_gives_up bounded limited spent next taken found here phase stored agrees

/-! ### A limit of one attempt -/

/-- The workflow `w` of the process `oneWorkflow` is called from user code and enqueued. -/
def enqueues : Event Unit :=
  .call () ⟨{ workflowUUID := "w",status := ENQUEUED,workflowName := "f",queueName := some "q",createdAt := 1
              applicationVersion := some "v",executorId := "e",input := some "[]" },by constructor <;> simp⟩ "x" 1 1

/-- A recovery sweep for the executor. -/
def sweeps : Event Unit := .other (.reenqueueWorkflowsForRecovery "e" "v" "_dbos_internal_queue" 3)

/-- The `i`-th dispatch of `w` starts the function, and the executor crashes and is recovered. -/
def attempt (i : Nat) : List (Event Unit) :=
  [DispatchedStarts.claims,.read i 2,.init i "y" 2,.crash (),sweeps]

/-- As `attempt`, with the sweep between the claim and the call. -/
def uncounted (i : Nat) : List (Event Unit) :=
  [DispatchedStarts.claims,.read i 2,sweeps,.init i "y" 2,.crash ()]

/-- Two attempts are made and the third gives up. -/
theorem recovery_bound_reached :
    ∃ s s', Runs (step DispatchedStarts.procs₁) (start Table.empty)
        (enqueues :: attempt 0 ++ attempt 1 ++ [DispatchedStarts.claims,.read 2 4]) s ∧
      startsSince "w" s.log = 2 ∧ startsSince "w" s.log ≤ 1 + 1 ∧
      step DispatchedStarts.procs₁ s (.init 2 "y" 5) = some s' ∧
      ∃ row' ∈ s'.table.get? "w",row'.status = MAX_RECOVERY_ATTEMPTS_EXCEEDED ∧ row'.deduplication_id = none := by
  obtain ⟨s,s',run,spent,taken,meets,d,found,here,initStatus,phase,row,stored,agrees⟩ :
      ∃ s s', Runs (step DispatchedStarts.procs₁) (start Table.empty)
        (enqueues :: attempt 0 ++ attempt 1 ++ [DispatchedStarts.claims,.read 2 4]) s ∧
      startsSince "w" s.log = 2 ∧ step DispatchedStarts.procs₁ s (.init 2 "y" 5) = some s' ∧
      Meets "w" 1 s (.init 2 "y" 5) ∧ ∃ d ∈ s.dispatches[2]?,d.workflowID = "w" ∧ ∃ initStatus,
      d.phase = .planned initStatus 1 ∧ ∃ row ∈ s.table.get? "w",Matches row initStatus.status :=
    ⟨_,_,rfl,by decide,rfl,by decide,_,rfl,rfl,_,rfl,_,rfl,by decide⟩
  have bound := recovery_bound (M := 1) (Nat.le_refl 1) (rfl : Table.empty.get? "w" = none) (by decide) run
  exact ⟨s,s',run,spent,bound.1,taken,(bound.2 spent 2 "y" 5 s' meets taken d found here initStatus 1 phase row stored agrees).2⟩

/-- A sweep between the claim and the call hides the attempt, and the function is started a third
    time with a limit of one. -/
theorem recovery_unbounded :
    (∃ s, Runs (step DispatchedStarts.procs₁) (start Table.empty)
        (enqueues :: uncounted 0 ++ uncounted 1 ++ uncounted 2) s ∧ startsSince "w" s.log = 3) ∧
    ¬ ∀ events s, Along (step DispatchedStarts.procs₁) (Lives "w" 1) (start Table.empty) events →
        Runs (step DispatchedStarts.procs₁) (start Table.empty) events s → startsSince "w" s.log ≤ 1 + 1 := by
  obtain ⟨s,run,thrice⟩ : ∃ s, Runs (step DispatchedStarts.procs₁) (start Table.empty)
      (enqueues :: uncounted 0 ++ uncounted 1 ++ uncounted 2) s ∧ startsSince "w" s.log = 3 := ⟨_,rfl,by decide⟩
  refine ⟨⟨s,run,thrice⟩,?_⟩
  intro always
  have bound := always _ s (by decide) run
  omega

end Dbos.RecoveryBound
