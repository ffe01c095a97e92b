import Dbos.Execution

/-!
What a dispatched workflow function finds. `internalWorkflow` takes the status that
`initWorkflowStatus` returns and does not look at it, so a function is started whatever has
become of its row since it was claimed: cancelled, finished by another executor, or back in
the queue. It finds its row PENDING in runs where nothing takes a row out of PENDING while a
dispatch of it is under way.
-/
namespace Dbos.DispatchedStarts
open Dbos.Pg Dbos.Schema Dbos.Status Dbos.Start Dbos.Dequeue Dbos.Execution StatusString
open Dbos.Ops (Op Rewrite apply_changes)

variable {ι Args : Type} [DecidableEq ι] {procs : ι → Process Args}

def Pending (t : Statuses) (workflowID : String) : Prop := ∃ row, t.get? workflowID = some row ∧ row.status = PENDING

/-- The function of a dispatch was started on a PENDING row. -/
def StartsPending (s : System ι) : Prop :=
  ∀ d ∈ s.dispatches,∀ status, d.phase = .started status → status = PENDING

/-- The dispatch that takes the step. -/
def actor : Event ι → Option Nat
  | .read i _ => some i
  | .record i _ => some i
  | .init i _ _ => some i
  | .fault i _ => some i
  | _ => none

/-- The condition on the steps: no step takes a row out of PENDING while a dispatch of it, other
    than the one that steps, is under way; and a recovery dispatch begins on a PENDING row. -/
def Undisturbed (procs : ι → Process Args) (s : System ι) (event : Event ι) : Prop :=
  (∀ s', step procs s event = some s' → ∀ (j : Nat) d, s.dispatches[j]? = some d → d.phase.underWay = true →
    actor event ≠ some j → Pending s.table d.workflowID → Pending s'.table d.workflowID) ∧
  ∀ e workflowID, event = .recover e workflowID → Pending s.table workflowID

/-- The operations that take a row out of PENDING: a dispatch that has no attempts left, an
    outcome, a recovery sweep of the row's executor, a cancellation, a resumption and a deletion. -/
theorem taken_out {t : Statuses} {op : Op} {k : String} (before : Pending t k) (after : ¬ Pending (op.apply t) k) :
    (∃ initStatus ownerXid options now, op = .initWorkflowStatus initStatus ownerXid options now ∧
      k = initStatus.status.workflowUUID) ∨
    (∃ outcome now, op.records = some (k,outcome,now)) ∨
    (∃ executorID appVersion recoveryQueueName now, op = .reenqueueWorkflowsForRecovery executorID appVersion recoveryQueueName now ∧
      ∀ row, t.get? k = some row → row.executor_id = some executorID) ∨
    (∃ workflowIDs now, op = .cancelWorkflows workflowIDs now ∧ k ∈ workflowIDs) ∨
    (∃ workflowIDs queueName now, op = .resumeWorkflows workflowIDs queueName now ∧ k ∈ workflowIDs) ∨
    ∃ allIds, op = .deleteWorkflows allIds ∧ k ∈ allIds := by
  obtain ⟨row,found,pending⟩ := before
  have change := apply_changes t op k
  rw [found] at change
  generalize stored : (op.apply t).get? k = new at change
  cases change with
  | kept => exact absurd ⟨row,stored,pending⟩ after
  | deleted _ allIds here deletes => exact .inr (.inr (.inr (.inr (.inr ⟨allIds,deletes,here⟩))))
  | rewritten _ row' by_ =>
    have left : row'.status ≠ PENDING := fun still => after ⟨row',stored,still⟩
    cases by_ with
    | upserted initStatus ownerXid options now here => exact .inl ⟨initStatus,ownerXid,options,now,rfl,here⟩
    | exceeded initStatus ownerXid options now here => exact .inl ⟨initStatus,ownerXid,options,now,rfl,here⟩
    | recorded _ outcome now records => exact .inr (.inl ⟨outcome,now,records⟩)
    | reenqueued executorID appVersion recoveryQueueName now hit =>
      refine .inr (.inr (.inl ⟨executorID,appVersion,recoveryQueueName,now,rfl,?_⟩))
      intro row' found'
      cases found.symm.trans found'
      simp only [reenqueueHits,decide_eq_true_eq] at hit
      exact hit.2.1
    | cancelled workflowIDs now here => exact .inr (.inr (.inr (.inl ⟨workflowIDs,now,rfl,here⟩)))
    | resumed workflowIDs queueName now here => exact .inr (.inr (.inr (.inr (.inl ⟨workflowIDs,queueName,now,rfl,here⟩))))
    | transitioned now waits => cases pending.symm.trans waits
    | claimed => exact absurd rfl left
    | _ => exact absurd pending left

/-- A dispatch that is under way has a PENDING row, and so has one that was started. -/
structure Undropped (s : System ι) : Prop where
  wired : ∀ d ∈ s.dispatches,Wired d
  waiting : ∀ (j : Nat) d, s.dispatches[j]? = some d → d.phase.underWay = true → Pending s.table d.workflowID
  began : StartsPending s

omit [DecidableEq ι] in
theorem undropped_start (t : Statuses) : Undropped (start t : System ι) :=
  ⟨by simp [start],by simp [start],by simp [StartsPending,start]⟩

omit [DecidableEq ι] in
/-- A step after which a dispatch `i` is in the phase `next` and every other one is as it was. -/
theorem undropped_put {s s' : System ι} {i : Nat} {d : Dispatch ι} {next : Phase} (undropped : Undropped s)
    (found : s.dispatches[i]? = some d) (dispatches : s'.dispatches = s.put i d next)
    (wired : ∀ d ∈ s'.dispatches,Wired d)
    (others : ∀ (j : Nat) other, s.dispatches[j]? = some other → other.phase.underWay = true → i ≠ j →
      Pending s.table other.workflowID → Pending s'.table other.workflowID)
    (here : next.underWay = true → Pending s'.table d.workflowID)
    (began : ∀ status, next = .started status → status = PENDING) : Undropped s' := by
  refine ⟨wired,?_,?_⟩
  · rw [dispatches]
    refine parties_set found here ?_
    intro j other elsewhere old under
    exact others j other old under (Ne.symm elsewhere) (undropped.waiting j other old under)
  · intro other member
    rw [dispatches] at member
    exact all_set undropped.began began i other member

/-- `initWorkflowStatus` returns the status of the row it finds. -/
theorem afterInit_started {s : System ι} {d : Dispatch ι} {initStatus : NewStatus} {maxRetries : Nat} {token : String}
    {now : Int} {queueName : Option String} {status : StatusString} (wired : Wired d)
    (planned : d.phase = .planned initStatus maxRetries) (pending : Pending s.table d.workflowID)
    (started : afterInit s d.executor initStatus.status.workflowUUID queueName true
      (initWorkflowStatus s.table initStatus.status (some token) (d.options.init maxRetries) now).1 = .started status) :
    status = PENDING := by
  obtain ⟨row,found,isPending⟩ := pending
  rw [← wired.planned initStatus maxRetries planned] at found
  have inits := initWorkflowStatus_flagged found (d.options.init maxRetries) wired.flagged (some token) now
  generalize initWorkflowStatus s.table initStatus.status (some token) (d.options.init maxRetries) now = out at inits started
  cases inits with
  | conflict e differs => cases started
  | exceeded m after agrees limited beyond others stored => cases started
  | executes result after agrees same should within others stored =>
    simp only [afterInit] at started
    split at started
    · cases started
      rw [same,isPending]
    · cases started

theorem step_undropped {s s' : System ι} {event : Event ι} (undropped : Undropped s)
    (undisturbed : Undisturbed procs s event) (taken : step procs s event = some s') : Undropped s' := by
  have wired := step_wired undropped.wired taken
  have spared := undisturbed.1 s' taken
  have moves := step_moves taken
  cases moves with
  | call e initStatus token maxRetries now unused out result =>
    refine ⟨wired,?_,by simpa [StartsPending] using undropped.began⟩
    intro j d listed under
    rw [noted_dispatches] at listed
    exact spared j d listed under (by simp [actor]) (undropped.waiting j d listed under)
  | dequeue e call recent ids now own =>
    obtain ⟨new,claims⟩ := claimLoop_claims call recent now ids [] s.table
    refine ⟨wired,?_,?_⟩
    · intro j d listed under
      rcases List.mem_append.mp (List.mem_of_getElem? listed) with old | claimed
      · obtain ⟨j',listed'⟩ := List.getElem?_of_mem old
        exact spared j' d listed' under (by simp [actor]) (undropped.waiting j' d listed' under)
      · -- A claimed row is PENDING.
        obtain ⟨w,member,rfl⟩ := List.mem_map.mp claimed
        rw [claims.result,List.nil_append] at member
        obtain ⟨r,_,_,stored⟩ := claims.claimed w member
        exact ⟨_,stored,rfl⟩
    · intro d member status started
      rcases List.mem_append.mp member with old | claimed
      · exact undropped.began d old status started
      · obtain ⟨w,_,rfl⟩ := List.mem_map.mp claimed
        cases started
  | recover e workflowID =>
    refine ⟨wired,?_,?_⟩
    · intro j d listed under
      rcases party_append listed with old | ⟨_,rfl⟩
      · exact undropped.waiting j d old under
      · exact undisturbed.2 e workflowID rfl
    · intro d member status started
      rcases List.mem_append.mp member with old | new
      · exact undropped.began d old status started
      · cases List.mem_singleton.mp new
        cases started
  | read i now d found phase =>
    refine undropped_put undropped found rfl wired (fun j other listed under elsewhere pending => pending) ?_ ?_
    · intro _
      exact undropped.waiting i d found (by rw [phase]; rfl)
    · intro status started
      generalize plan (procs d.executor) d.workflowID d.options (s.table.get? d.workflowID) now = next at started
      cases next <;> cases started
  | record i now d error found phase =>
    refine undropped_put undropped found rfl wired ?_ (by simp [Phase.underWay]) (by simp)
    intro j other listed under elsewhere
    exact spared j other listed under fun same => elsewhere (Option.some.inj same)
  | init i token now d initStatus maxRetries found phase out result next decides =>
    refine undropped_put undropped found (noted_dispatches _ _ _ _) wired ?_ ?_ ?_
    · intro j other listed under elsewhere
      exact spared j other listed under fun same => elsewhere (Option.some.inj same)
    · intro under
      rw [decides] at under
      unfold afterInit at under
      split at under
      · cases under
      · split at under <;> cases under
    · rintro status rfl
      subst result
      exact afterInit_started (undropped.wired d (List.mem_of_getElem? found)) phase
        (undropped.waiting i d found (by rw [phase]; rfl)) decides.symm
  | fault i code d found under =>
    exact undropped_put undropped found rfl wired (fun j other listed under elsewhere pending => pending)
      (by simp [Phase.underWay]) (by simp)
  | finish e workflowID => exact ⟨wired,undropped.waiting,undropped.began⟩
  | crash e =>
    refine ⟨wired,?_,?_⟩
    · intro j d listed under
      rcases mem_crashed (List.mem_of_getElem? listed) with old | ⟨old,_,rfl⟩
      · obtain ⟨j',listed'⟩ := List.getElem?_of_mem old
        exact undropped.waiting j' d listed' under
      · cases under
    · intro d member status started
      rcases mem_crashed member with old | ⟨old,_,rfl⟩
      · exact undropped.began d old status started
      · cases started
  | other op =>
    refine ⟨wired,?_,undropped.began⟩
    intro j d listed under
    exact spared j d listed under (by simp [actor]) (undropped.waiting j d listed under)

/-- In every run where no row leaves PENDING while a dispatch of it is under way, a dispatched
    function is started on a PENDING row. -/
theorem dispatched_on_pending {t : Statuses} {events : List (Event ι)}
    (undisturbed : Along (step procs) (Undisturbed procs) (start t) events) {s : System ι}
    (run : Runs (step procs) (start t) events s) : StartsPending s :=
  (along_invariant (fun _ _ _ => step_undropped) (undropped_start t) undisturbed run).began

/-- A process with one workflow `f`. -/
def oneWorkflow : Process Unit where
  executorID := "e"
  appVersion := "v"
  getFunctionRegistrationByName := fun _ name =>
    if name = "f" then some { name := "f",workflowConfig := some { maxRecoveryAttempts := some 1 } } else none
  deserializePositionalArgs := fun _ _ => .ok ()
  serializeFunctionInput := fun _ => .ok ("[]",none)

/-- The workflow `w` waits on the queue `q`. -/
def waiting : Statuses := Table.empty.insert "w"
  { status := ENQUEUED,name := "f",queue_name := some "q",inputs := some "[]",created_at := 1,updated_at := 1 }

/-- The executor claims `w`. -/
def claims : Event Unit :=
  .dequeue () { queue := { name := "q" },executorID := "e",appVersion := "v",startTimeMs := 2 } 0 ["w"] 2

def procs₁ : Unit → Process Unit := fun _ => oneWorkflow

/-- Nobody comes between the claim and the start. -/
theorem undisturbed_start : ∃ s, Runs (step procs₁) (start waiting) [claims,.read 0 3,.init 0 "x" 4] s ∧
    s.log = [.start "w"] ∧ StartsPending s := by
  obtain ⟨s,run,begun⟩ : ∃ s, Runs (step procs₁) (start waiting) [claims,.read 0 3,.init 0 "x" 4] s ∧
      s.log = [.start "w"] := ⟨_,rfl,rfl⟩
  refine ⟨s,run,begun,dispatched_on_pending (along_iff.mpr ?_) run⟩
  intro first event rest u split reached
  refine ⟨?_,?_⟩
  · intro s' _ j d listed under elsewhere
    -- There is one dispatch, and it is the one that takes the steps.
    exfalso
    rcases first with _ | ⟨a,_ | ⟨b,_ | ⟨c,more⟩⟩⟩
    · cases runs_nil.mp reached
      cases listed
    · cases split
      cases reached
      cases j with
      | zero => exact elsewhere rfl
      | succ j => cases listed
    · cases split
      cases reached
      cases j with
      | zero => exact elsewhere rfl
      | succ j => cases listed
    · simp at split
  · rintro e workflowID rfl
    have member : Event.recover e workflowID ∈ [claims,.read 0 3,.init 0 "x" 4] := by rw [split]; simp
    simp [claims] at member

/-- What another executor records for `w`. -/
def succeeded : WorkflowStatusInternal :=
  { workflowUUID := "w",status := SUCCESS,workflowName := "f",output := some "1",createdAt := 1 }

/-- The function is started although its row was cancelled, has the outcome of another executor
    or was put back into the queue since the claim. -/
theorem started_not_pending :
    (∃ s, Runs (step procs₁) (start waiting) [claims,.other (.cancelWorkflows ["w"] 3),.read 0 4,.init 0 "x" 5] s ∧
      s.log = [.start "w"] ∧ ∃ d ∈ s.dispatches,d.phase = .started CANCELLED) ∧
    (∃ s, Runs (step procs₁) (start waiting)
        [claims,.read 0 3,.other (.recordWorkflowOutput "w" succeeded 4),.init 0 "x" 5] s ∧
      s.log = [.start "w"] ∧ ∃ d ∈ s.dispatches,d.phase = .started SUCCESS) ∧
    (∃ s, Runs (step procs₁) (start waiting)
        [claims,.read 0 3,.other (.reenqueueWorkflowsForRecovery "e" "v" "_dbos_internal_queue" 4),.init 0 "x" 5] s ∧
      s.log = [.start "w"] ∧ ∃ d ∈ s.dispatches,d.phase = .started ENQUEUED) ∧
    ¬ ∀ events s, Runs (step procs₁) (start waiting) events s → StartsPending s := by
  refine ⟨⟨_,rfl,rfl,_,List.mem_cons_self,rfl⟩,⟨_,rfl,rfl,_,List.mem_cons_self,rfl⟩,
    ⟨_,rfl,rfl,_,List.mem_cons_self,rfl⟩,?_⟩
  intro always
  have run : ∃ s, Runs (step procs₁) (start waiting)
      [claims,.other (.cancelWorkflows ["w"] 3),.read 0 4,.init 0 "x" 5] s ∧
      ∃ d ∈ s.dispatches,d.phase = .started CANCELLED := ⟨_,rfl,_,List.mem_cons_self,rfl⟩
  obtain ⟨s,reached,d,member,started⟩ := run
  cases always _ s reached d member CANCELLED started

end Dbos.DispatchedStarts
