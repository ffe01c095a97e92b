import Dbos.Ops

/-!
`#recordWorkflowOutcome` among other transactions. Its UPDATE and its SELECT run under READ
COMMITTED, so each sees the table of its own moment: the UPDATE locks the row that it
matches until the end of the transaction, and a row that it does not match stays free for
others. The verdict is taken from the SELECT alone.
-/
namespace Dbos.Recording
open Dbos.Pg Dbos.Schema Dbos.Status Dbos.Start Dbos.Ops StatusString

/-- How far the call has come: `met` is the row that the UPDATE found under the workflow's
    ID, `read` the one that the SELECT found, `committed` the one after the COMMIT. -/
inductive Phase
  | begun
  | updated (met : Option WorkflowStatus) (now : Int)
  | selected (met : Option WorkflowStatus) (now : Int) (read : Option WorkflowStatus)
  | ended (met read committed : Option WorkflowStatus) (result : Except DbosError Unit)
  | aborted (e : DbosError)

structure State where
  table : Statuses
  phase : Phase

/-- The statements of the call, an error of the database, and the commits of others. -/
inductive Event
  | update (now : Int)
  | select
  | commit
  | fail (code : String)
  | other (op : Op)

/-- The UPDATE matches every row of the workflow that is not CANCELLED. -/
def matched (met : Option WorkflowStatus) : Bool := met.any fun r => r.status ≠ CANCELLED

section
variable (workflowID : String) (outcome : Outcome)

/-- The table as the transaction sees it, its own write included. -/
def inside (t : Statuses) (met : Option WorkflowStatus) (now : Int) : Statuses :=
  if matched met then recordUpdate t workflowID outcome now else t

/-- The row is locked from the UPDATE that matched it to the end of the transaction. -/
def locked : Phase → Bool
  | .updated met _ => matched met
  | .selected met _ _ => matched met
  | _ => false

/-- One step; another commit waits as long as it would change the locked row. -/
def step (s : State) : Event → Option State
  | .other op =>
    if locked s.phase = true ∧ (op.apply s.table).get? workflowID ≠ s.table.get? workflowID then none
    else some { s with table := op.apply s.table }
  | .update now =>
    match s.phase with
    | .begun => some { s with phase := .updated (s.table.get? workflowID) now }
    | _ => none
  | .select =>
    match s.phase with
    | .updated met now =>
      some { s with phase := .selected met now ((inside workflowID outcome s.table met now).get? workflowID) }
    | _ => none
  | .commit =>
    match s.phase with
    | .selected met now read =>
      let t' := inside workflowID outcome s.table met now
      some ⟨t',.ended met read (t'.get? workflowID) (recordVerdict workflowID (read.map WorkflowStatus.status))⟩
    | _ => none
  | .fail code =>
    match s.phase with
    | .ended _ _ _ _ => none
    | .aborted _ => none
    | _ => some { s with phase := .aborted (.DatabaseError code) }

/-- The row holds the given outcome. -/
def Given (r : WorkflowStatus) : Prop :=
  r.status = outcome.status ∧ match outcome with
    | .output text => r.output = text
    | .error text => r.error = text

/-- The recording is not lost: a call that returned has matched and committed its outcome
    or met no row, and a call that threw says why. -/
def Kept (s : State) : Prop :=
  match s.phase with
  | .ended met read committed (.ok ()) =>
    (matched met = true ∧ ∃ r, committed = some r ∧ Given outcome r) ∨ met = none ∨ read = none
  | .ended _ _ _ (.error e) => e = .DBOSWorkflowCancelledError workflowID
  | .aborted e => ∃ code, e = .DatabaseError code
  | _ => True

/-- The text is one that `updateWorkflowStatus` writes, or the row has it already. -/
def Writes (r : WorkflowStatus) : Prop :=
  match outcome with
  | .output text => (text ≠ none ∧ text ≠ some "") ∨ text = r.output
  | .error text => (text ≠ none ∧ text ≠ some "") ∨ text = r.error

/-- The condition on what the call meets, at its COMMIT: a row that it matched takes the text,
    and a row that was CANCELLED at the UPDATE was still CANCELLED, or gone, at the SELECT. -/
def Settled (s : State) : Event → Prop
  | .commit =>
    match s.phase with
    | .selected (some r) _ read =>
      (r.status ≠ CANCELLED → Writes outcome r) ∧ (r.status = CANCELLED → ∀ r' ∈ read,r'.status = CANCELLED)
    | _ => True
  | _ => True

end

variable {workflowID : String} {outcome : Outcome}

/-- While the row is locked it is the row that the UPDATE met. -/
def Locked (workflowID : String) (s : State) : Prop :=
  match s.phase with
  | .updated met _ => matched met = true → s.table.get? workflowID = met
  | .selected met _ _ => matched met = true → s.table.get? workflowID = met
  | _ => True

/-- What the SELECT and the COMMIT find: the row as written, or what is there. -/
def Seen (outcome : Outcome) (s : State) : Prop :=
  match s.phase with
  | .selected (some r) now read => r.status ≠ CANCELLED → read = some (updatedRow outcome.status outcome.fields now r)
  | _ => True

theorem inside_matched {t : Statuses} {r : WorkflowStatus} (now : Int) (there : t.get? workflowID = some r)
    (open_ : r.status ≠ CANCELLED) :
    (inside workflowID outcome t (some r) now).get? workflowID = some (updatedRow outcome.status outcome.fields now r) := by
  simp [inside,matched,open_,recordUpdate,there,updateHits]

theorem assignIfSet_given {text column : Option String} :
    assignIfSet text column = text ↔ (text ≠ none ∧ text ≠ some "") ∨ text = column := by
  unfold assignIfSet
  cases text with
  | none => simp [eq_comm]
  | some s =>
    by_cases blank : s = ""
    · simp [blank,eq_comm]
    · simp [blank]

theorem given_written (now : Int) (r : WorkflowStatus) :
    Given outcome (updatedRow outcome.status outcome.fields now r) ↔ Writes outcome r := by
  cases outcome with
  | output text => simp [Given,Writes,updatedRow,Outcome.fields,assignIfSet_given]
  | error text => simp [Given,Writes,updatedRow,Outcome.fields,assignIfSet_given]

theorem outcome_not_cancelled (outcome : Outcome) : outcome.status ≠ CANCELLED := by
  cases outcome <;> simp [Outcome.status]

/-- Both facts are kept by every step. -/
theorem step_facts {s s' : State} {e : Event} (taken : step workflowID outcome s e = some s')
    (held : Locked workflowID s) (seen : Seen outcome s) :
    Locked workflowID s' ∧ Seen outcome s' := by
  obtain ⟨t,phase⟩ := s
  cases e with
  | other op =>
    simp only [step] at taken
    split at taken
    · cases taken
    · rename_i free
      cases taken
      refine ⟨?_,seen⟩
      cases phase with
      | updated met now =>
        intro match_
        simp only [locked,match_,true_and,not_not] at free
        exact free.trans (held match_)
      | selected met now read =>
        intro match_
        simp only [locked,match_,true_and,not_not] at free
        exact free.trans (held match_)
      | _ => trivial
  | update now =>
    cases phase <;> cases taken
    exact ⟨fun _ => rfl,trivial⟩
  | select =>
    cases phase with
    | updated met now =>
      cases taken
      refine ⟨held,?_⟩
      cases met with
      | none => trivial
      | some r =>
        intro open_
        exact inside_matched now (held (by simp [matched,open_])) open_
    | _ => cases taken
  | commit =>
    cases phase <;> cases taken
    exact ⟨trivial,trivial⟩
  | fail code => cases phase <;> cases taken <;> exact ⟨trivial,trivial⟩

/-- Where the SELECT found CANCELLED the call throws, elsewhere it returns. -/
theorem kept_cancelled {t : Statuses} {met read committed : Option WorkflowStatus}
    (cancelled : read.map WorkflowStatus.status = some CANCELLED) :
    Kept workflowID outcome
      ⟨t,.ended met read committed (recordVerdict workflowID (read.map WorkflowStatus.status))⟩ := by
  rw [recordVerdict,if_pos cancelled]
  rfl

theorem kept_returned {t : Statuses} {met read committed : Option WorkflowStatus}
    (live : read.map WorkflowStatus.status ≠ some CANCELLED) :
    Kept workflowID outcome
      ⟨t,.ended met read committed (recordVerdict workflowID (read.map WorkflowStatus.status))⟩ ↔
      (matched met = true ∧ ∃ r, committed = some r ∧ Given outcome r) ∨ met = none ∨ read = none := by
  rw [recordVerdict,if_neg live]
  rfl

/-- The COMMIT ends the call as claimed exactly when it was settled. -/
theorem commit_kept {s s' : State} (taken : step workflowID outcome s .commit = some s') (held : Locked workflowID s)
    (seen : Seen outcome s) : Kept workflowID outcome s' ↔ Settled outcome s .commit := by
  obtain ⟨t,phase⟩ := s
  cases phase with
  | selected met now read =>
    cases taken
    cases met with
    | none =>
      by_cases cancelled : read.map WorkflowStatus.status = some CANCELLED
      · exact ⟨fun _ => trivial,fun _ => kept_cancelled cancelled⟩
      · exact ⟨fun _ => trivial,fun _ => (kept_returned cancelled).mpr (.inr (.inl rfl))⟩
    | some r =>
      by_cases missed : r.status = CANCELLED
      · -- The UPDATE missed: what the call says rests on the SELECT.
        by_cases cancelled : read.map WorkflowStatus.status = some CANCELLED
        · obtain ⟨r',rfl,still⟩ := Option.map_eq_some_iff.mp cancelled
          refine ⟨fun _ => ⟨absurd missed,fun _ => ?_⟩,fun _ => kept_cancelled cancelled⟩
          rintro _ ⟨⟩
          exact still
        · rw [kept_returned cancelled]
          have unmatched : matched (some r) = false := by simp [matched,missed]
          cases read with
          | none => simp [Settled,missed]
          | some r' =>
            have live : r'.status ≠ CANCELLED := fun still => cancelled (congrArg some still)
            simp [Settled,missed,live,unmatched]
      · have there := held (by simp [matched,missed])
        have back := seen missed
        subst back
        have live : (some (updatedRow outcome.status outcome.fields now r)).map WorkflowStatus.status ≠ some CANCELLED := by
          intro still
          exact outcome_not_cancelled outcome (Option.some.inj still)
        rw [kept_returned live,inside_matched now there missed]
        simp [Settled,matched,missed,given_written]
  | _ => cases taken

/-! ### The whole call -/

/-- The call has returned or thrown. -/
def ended : Phase → Bool
  | .ended _ _ _ _ => true
  | .aborted _ => true
  | _ => false

theorem step_ended {s s' : State} {e : Event} (taken : step workflowID outcome s e = some s') (done : ended s.phase = true) :
    s'.phase = s.phase ∧ Settled outcome s e := by
  obtain ⟨t,phase⟩ := s
  cases e with
  | other op =>
    simp only [step] at taken
    split at taken
    · cases taken
    · cases taken
      exact ⟨rfl,trivial⟩
  | _ => cases phase <;> cases done <;> cases taken

/-- What follows the end of the call is no concern of it. -/
theorem run_ended {s s' : State} {events : List Event} (run : Runs (step workflowID outcome) s events s')
    (done : ended s.phase = true) : s'.phase = s.phase ∧ Along (step workflowID outcome) (Settled outcome) s events := by
  induction events generalizing s with
  | nil => exact ⟨congrArg State.phase (runs_nil.mp run).symm,trivial⟩
  | cons e rest ih =>
    obtain ⟨s₁,taken,onward⟩ := runs_cons.mp run
    obtain ⟨same,settled⟩ := step_ended taken done
    obtain ⟨rest_same,along⟩ := ih onward (same ▸ done)
    refine ⟨rest_same.trans same,settled,?_⟩
    intro s₂ taken₂
    cases taken.symm.trans taken₂
    exact along

theorem kept_congr {s s' : State} (same : s'.phase = s.phase) :
    Kept workflowID outcome s' ↔ Kept workflowID outcome s := by
  simp only [Kept,same]

theorem kept_open {s : State} (running : ended s.phase = false) : Kept workflowID outcome s := by
  obtain ⟨t,phase⟩ := s
  cases phase with
  | ended met read committed result => cases running
  | aborted e => cases running
  | _ => trivial

theorem settled_iff_kept {s s' : State} {e : Event} (taken : step workflowID outcome s e = some s')
    (held : Locked workflowID s) (seen : Seen outcome s) (running : ended s.phase = false) (done : ended s'.phase = true) :
    Kept workflowID outcome s' ↔ Settled outcome s e := by
  cases e with
  | commit => exact commit_kept taken held seen
  | fail code =>
    obtain ⟨t,phase⟩ := s
    cases phase <;> cases taken <;> exact ⟨fun _ => trivial,fun _ => ⟨code,rfl⟩⟩
  | other op =>
    simp only [step] at taken
    split at taken
    · cases taken
    · cases taken
      rw [running] at done
      cases done
  | update now =>
    obtain ⟨t,phase⟩ := s
    cases phase <;> cases taken
    cases done
  | select =>
    obtain ⟨t,phase⟩ := s
    cases phase <;> cases taken
    cases done

theorem settled_open {s s' : State} {e : Event} (taken : step workflowID outcome s e = some s')
    (running : ended s'.phase = false) : Settled outcome s e := by
  cases e with
  | commit =>
    obtain ⟨t,phase⟩ := s
    cases phase <;> cases taken
    cases running
  | _ => trivial

theorem run_kept_iff {s s' : State} {events : List Event} (run : Runs (step workflowID outcome) s events s')
    (held : Locked workflowID s) (seen : Seen outcome s) (running : ended s.phase = false) :
    Kept workflowID outcome s' ↔ Along (step workflowID outcome) (Settled outcome) s events := by
  induction events generalizing s with
  | nil =>
    cases runs_nil.mp run
    exact ⟨fun _ => trivial,fun _ => kept_open running⟩
  | cons e rest ih =>
    obtain ⟨s₁,taken,onward⟩ := runs_cons.mp run
    have here : Along (step workflowID outcome) (Settled outcome) s (e :: rest) ↔
        Settled outcome s e ∧ Along (step workflowID outcome) (Settled outcome) s₁ rest := by
      simp [Along,taken]
    rw [here]
    cases done : ended s₁.phase with
    | true =>
      -- The call ends with this step, and the rest of the run changes nothing about it.
      obtain ⟨same,along⟩ := run_ended onward done
      rw [kept_congr same,settled_iff_kept taken held seen running done]
      exact ⟨fun settled => ⟨settled,along⟩,And.left⟩
    | false =>
      obtain ⟨held₁,seen₁⟩ := step_facts taken held seen
      rw [ih onward held₁ seen₁ done]
      exact ⟨fun along => ⟨settled_open taken done,along⟩,And.right⟩

/-- In every interleaving the outcome is kept exactly when the call was settled at its COMMIT. -/
theorem recording_kept_iff {t : Statuses} {s : State} {events : List Event}
    (run : Runs (step workflowID outcome) ⟨t,.begun⟩ events s) :
    Kept workflowID outcome s ↔ Along (step workflowID outcome) (Settled outcome) ⟨t,.begun⟩ events :=
  run_kept_iff run trivial trivial rfl

/-- Nothing comes between: the row is PENDING and takes the output. -/
theorem recording_kept_undisturbed : ∃ s,
    Runs (step "w" (.output (some "1")))
      ⟨Table.empty.insert "w" { status := PENDING,name := "f",created_at := 1,updated_at := 1 },.begun⟩
      [.update 3,.select,.commit] s ∧ Kept "w" (.output (some "1")) s := by
  obtain ⟨s,run⟩ : ∃ s, Runs (step "w" (.output (some "1")))
      ⟨Table.empty.insert "w" { status := PENDING,name := "f",created_at := 1,updated_at := 1 },.begun⟩
      [.update 3,.select,.commit] s := ⟨_,rfl⟩
  refine ⟨s,run,(recording_kept_iff run).mpr ⟨trivial,?_⟩⟩
  rintro _ ⟨⟩
  refine ⟨trivial,?_⟩
  rintro _ ⟨⟩
  refine ⟨⟨fun _ => .inl (by decide),fun cancelled => ?_⟩,?_⟩
  · cases cancelled
  · rintro _ ⟨⟩
    trivial

/-- Alone in the database the call is `recordWorkflowOutcome`. -/
theorem alone_recordWorkflowOutcome (t : Statuses) (now : Int) :
    ∃ s met read, Runs (step workflowID outcome) ⟨t,.begun⟩ [.update now,.select,.commit] s ∧
      (∀ k, s.table.get? k = (recordWorkflowOutcome t workflowID outcome now).2.get? k) ∧
      s.phase = .ended met read (s.table.get? workflowID) (recordWorkflowOutcome t workflowID outcome now).1 := by
  have same : ∀ k, (inside workflowID outcome t (t.get? workflowID) now).get? k =
      (recordUpdate t workflowID outcome now).get? k := by
    intro k
    unfold inside
    split
    · rfl
    · rename_i missed
      rcases t.update_cases (updateHits workflowID { notStatus := some CANCELLED })
        (fun _ => updatedRow outcome.status outcome.fields now) k with kept | ⟨r,found,hit,_⟩
      · exact kept.symm
      · simp only [updateHits,Option.all_none,Option.all_some,decide_eq_true_eq,true_and] at hit
        obtain ⟨rfl,open_⟩ := hit
        simp [matched,found,open_] at missed
  let t' := inside workflowID outcome t (t.get? workflowID) now
  refine ⟨⟨t',.ended (t.get? workflowID) (t'.get? workflowID) (t'.get? workflowID)
      (recordVerdict workflowID ((t'.get? workflowID).map WorkflowStatus.status))⟩,t.get? workflowID,t'.get? workflowID,
    rfl,same,?_⟩
  simp only [recordWorkflowOutcome,getWorkflowStatusValue,t',same]

/-- A workflow that was cancelled is resumed between the UPDATE and the SELECT. -/
def resumedBetween : List Event :=
  [.other (.cancelWorkflows ["w"] 2),.update 3,.other (.resumeWorkflows ["w"] none 4),.select,.commit]

def runningTable : Statuses :=
  Table.empty.insert "w" { status := PENDING,name := "f",created_at := 1,updated_at := 1 }

/-- The call returns, and the row is ENQUEUED with no outcome. -/
theorem resumedBetween_lost : ∃ s,
    Runs (step "w" (.output (some "1"))) ⟨runningTable,.begun⟩ resumedBetween s ∧
      (s.table.get? "w").map WorkflowStatus.status = some ENQUEUED ∧ ¬ Kept "w" (.output (some "1")) s := by
  refine ⟨_,rfl,by decide,?_⟩
  rintro (⟨missed,_⟩ | met | read)
  · revert missed
    decide
  · revert met
    decide
  · revert read
    decide

end Dbos.Recording
