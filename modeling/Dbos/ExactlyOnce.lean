import Dbos.Dispatch

/-!
Every start of a workflow is reported to one dispatcher. The log of committed writes is
compared with what the calls of `findAndMarkStartableWorkflows` returned: a write that
takes a row from ENQUEUED to PENDING was made by a call, is in the result of that call
and of no other, and between two such writes of one row some commit set it back to
ENQUEUED. This holds for every queue configuration and every interleaving.
-/
namespace Dbos.ExactlyOnce
open Dbos.Pg Dbos.Schema Dbos.Status Dbos.Dequeue Dbos.Dispatch StatusString
open Dbos.Ops hiding step

/-- The row is there with the status. -/
def HasStatus (status : StatusString) (row : Option WorkflowStatus) : Prop := ∃ r, row = some r ∧ r.status = status

/-- A committed ENQUEUED to PENDING transition. -/
def Starts (e : Write (Option Nat) String WorkflowStatus) : Prop :=
  HasStatus ENQUEUED e.before ∧ HasStatus PENDING e.after

/-- A commit that set a row back to ENQUEUED, or inserted it so. -/
def Requeues (e : Write (Option Nat) String WorkflowStatus) : Prop :=
  ¬ HasStatus ENQUEUED e.before ∧ HasStatus ENQUEUED e.after

structure ReportedOnce (s : System) : Prop where
  /-- Every transition is in the result of the call that made it. -/
  reported : ∀ e ∈ s.store.log,Starts e →
    ∃ i call ids, e.writer = some i ∧ s.calls[i]? = some (.returned call ids) ∧ e.key ∈ ids
  /-- Every ID that a call returns was transitioned by that call. -/
  performed : ∀ (i : Nat) call ids k, s.calls[i]? = some (.returned call ids) → k ∈ ids →
    ∃ e ∈ s.store.log,Starts e ∧ e.writer = some i ∧ e.key = k
  /-- A call returns an ID once, and makes one write to its row. -/
  nodup : ∀ (i : Nat) call ids, s.calls[i]? = some (.returned call ids) → ids.Nodup
  single : s.store.log.Pairwise fun e e' => e.writer.isSome → e'.writer = e.writer → e'.key ≠ e.key
  /-- Between two transitions of one row it was set back to ENQUEUED. -/
  apart : ∀ first e mid e' last, s.store.log = first ++ e :: (mid ++ e' :: last) → Starts e → Starts e' →
    e'.key = e.key → ∃ x ∈ mid,x.key = e.key ∧ Requeues x
  /-- A call that throws has changed no row. -/
  untouched : ∀ (i : Nat) call, s.calls[i]? = some (.threw call) → ∀ e ∈ s.store.log,e.writer ≠ some i

/-! ### Other operations start nothing -/

theorem rewrite_status {k : String} {op : Op} {r r' : WorkflowStatus} (by_ : Rewrite k r op r')
    (plain : isDequeue op = false) (waits : r.status = ENQUEUED) : r'.status ≠ PENDING := by
  cases by_ with
  | upserted => simp [conflictRow,waits]
  | exceeded _ _ _ _ _ pending => simp [waits] at pending
  | recorded _ outcome => cases outcome <;> simp [updatedRow,Outcome.status]
  | reenqueued => simp [reenqueuedRow]
  | cancelled => simp [cancelledRow]
  | resumed => simp [resumedRow]
  | prioritised => simp [waits]
  | delayed => simp [waits]
  | bounced => simp [bouncedRow,waits]
  | forkedFrom => simp [waits]
  | transitioned => simp [transitionedRow]
  | claimed => cases plain
  | adopted => simp [waits]

theorem other_starts_nothing {t : Statuses} {op : Op} (plain : isDequeue op = false)
    {e : Write (Option Nat) String WorkflowStatus} (member : e ∈ diff none t (op.apply t)) : ¬ Starts e := by
  rintro ⟨⟨r,before,waits⟩,⟨r',after,pending⟩⟩
  obtain ⟨_,old,new,_⟩ := mem_diff.mp member
  have change := apply_changes t op e.key
  rw [← old,← new,before,after] at change
  cases change with
  | kept => simp [waits] at pending
  | rewritten _ _ by_ => exact rewrite_status by_ plain waits pending

/-! ### The claims of a call -/

section
variable {call : DequeueCall} {recent : Nat} {now : Int} {ids new : List String} {t : Statuses} {w : Option Nat}

theorem claims_write (claims : Claims call recent now ids [] t new) {e : Write (Option Nat) String WorkflowStatus}
    (member : e ∈ diff w t (claimLoop call recent now ids [] t).2) : Starts e ∧ e.key ∈ new := by
  obtain ⟨_,before,after,differ⟩ := mem_diff.mp member
  have claimed : e.key ∈ new := by
    by_contra missing
    exact differ (by rw [before,after,claims.kept e.key missing])
  obtain ⟨r,found,waits,stored⟩ := claims.claimed e.key claimed
  exact ⟨⟨⟨r,before.trans found,waits⟩,⟨_,after.trans stored,rfl⟩⟩,claimed⟩

theorem claims_written (claims : Claims call recent now ids [] t new) {k : String} (member : k ∈ new) :
    ∃ e ∈ diff w t (claimLoop call recent now ids [] t).2,e.writer = w ∧ e.key = k := by
  obtain ⟨r,found,waits,stored⟩ := claims.claimed k member
  refine ⟨⟨w,k,t.get? k,(claimLoop call recent now ids [] t).2.get? k⟩,mem_diff.mpr ⟨rfl,rfl,rfl,?_⟩,rfl,rfl⟩
  intro same
  dsimp only at same
  rw [found,stored] at same
  have status := congrArg WorkflowStatus.status (Option.some.inj same)
  rw [waits] at status
  cases status

end

/-! ### The ledger -/

/-- The log and the results of the calls agree. -/
structure Ledger (t : Statuses) (s : System) : Prop where
  traced : s.store.Traced t
  byCall : ∀ e ∈ s.store.log,∀ i, e.writer = some i →
    Starts e ∧ ∃ call ids, s.calls[i]? = some (.returned call ids) ∧ e.key ∈ ids
  byOthers : ∀ e ∈ s.store.log,e.writer = none → ¬ Starts e
  performed : ∀ (i : Nat) call ids, s.calls[i]? = some (.returned call ids) →
    ids.Nodup ∧ ∀ k ∈ ids,∃ e ∈ s.store.log,e.writer = some i ∧ e.key = k
  single : s.store.log.Pairwise fun e e' => e.writer.isSome → e'.writer = e.writer → e'.key ≠ e.key

theorem ledger_start (t : Statuses) : Ledger t (start t) :=
  ⟨Heap.traced_init t,by simp [start,Heap.init],by simp [start,Heap.init],by simp [start],List.Pairwise.nil⟩

/-- A call that has not ended has written nothing. -/
theorem ledger_unwritten {t : Statuses} {s : System} (ledger : Ledger t s) {i : Nat} {session : Session}
    (found : s.calls[i]? = some session) (unreturned : ∀ call ids, session ≠ .returned call ids) :
    ∀ e ∈ s.store.log,e.writer ≠ some i := by
  intro e member writes
  obtain ⟨_,call,ids,returned,_⟩ := ledger.byCall e member i writes
  exact unreturned call ids (Option.some.inj (found.symm.trans returned))

/-- A call moves on without writing. -/
theorem ledger_set {t : Statuses} {s : System} (ledger : Ledger t s) {i : Nat} {session new : Session}
    (found : s.calls[i]? = some session) (running : session.over = false)
    (empty : ∀ call ids, new = .returned call ids → ids = []) : Ledger t { s with calls := s.calls.set i new } := by
  have unreturned : ∀ call ids, session ≠ .returned call ids := by
    rintro call ids rfl
    cases running
  refine ⟨ledger.traced,?_,ledger.byOthers,?_,ledger.single⟩
  · intro e member j writes
    obtain ⟨starts,call,ids,returned,listed⟩ := ledger.byCall e member j writes
    refine ⟨starts,call,ids,?_,listed⟩
    have other : j ≠ i := by
      rintro rfl
      exact ledger_unwritten ledger found unreturned e member writes
    rw [party_set found,if_neg other]
    exact returned
  · intro j call ids returned
    rcases party_set_cases found returned with ⟨_,same⟩ | ⟨_,returned⟩
    · rw [empty call ids same.symm]
      exact ⟨List.nodup_nil,by simp⟩
    · exact ledger.performed j call ids returned

theorem ledger_commit {t : Statuses} {s : System} (ledger : Ledger t s) {i : Nat} {now : Int} {r : Reading}
    {workflowIDs : List String} (found : s.calls[i]? = some (.selected r workflowIDs)) :
    Ledger t { s with
      store := s.store.commit (some i) (claimLoop r.call r.numRecentQueries now workflowIDs [] s.store.table).2
      calls := s.calls.set i
        (.returned r.call (claimLoop r.call r.numRecentQueries now workflowIDs [] s.store.table).1) } := by
  obtain ⟨new,claims⟩ := claimLoop_claims r.call r.numRecentQueries now workflowIDs [] s.store.table
  have result := claims.result
  rw [List.nil_append] at result
  have unwritten := ledger_unwritten ledger found (by simp)
  refine ⟨Heap.traced_commit ledger.traced _ _,?_,?_,?_,?_⟩
  · intro e member j writes
    rcases List.mem_append.mp member with old | fresh
    · obtain ⟨starts,call,ids,returned,listed⟩ := ledger.byCall e old j writes
      have other : j ≠ i := by
        rintro rfl
        exact unwritten e old writes
      refine ⟨starts,call,ids,?_,listed⟩
      rw [party_set found,if_neg other]
      exact returned
    · obtain ⟨starts,listed⟩ := claims_write claims fresh
      cases writes.symm.trans (mem_diff.mp fresh).1
      exact ⟨starts,_,_,by rw [party_set found,if_pos rfl],result ▸ listed⟩
  · intro e member others
    rcases List.mem_append.mp member with old | fresh
    · exact ledger.byOthers e old others
    · cases others.symm.trans (mem_diff.mp fresh).1
  · intro j call ids returned
    rcases party_set_cases found returned with ⟨here,same⟩ | ⟨here,returned⟩
    · cases same
      rw [result]
      refine ⟨claims.nodup,?_⟩
      intro k member
      obtain ⟨e,listed,writes,same⟩ := claims_written (w := some i) claims member
      exact ⟨e,List.mem_append_right _ listed,here ▸ writes,same⟩
    · obtain ⟨nodup,wrote⟩ := ledger.performed j call ids returned
      refine ⟨nodup,?_⟩
      intro k member
      obtain ⟨e,listed,found⟩ := wrote k member
      exact ⟨e,List.mem_append_left _ listed,found⟩
  · refine List.pairwise_append.mpr ⟨ledger.single,?_,?_⟩
    · -- Within one commit the keys are distinct.
      have distinct := diff_keys_nodup (some i) s.store.table
        (claimLoop r.call r.numRecentQueries now workflowIDs [] s.store.table).2
      rw [List.Nodup,List.pairwise_map] at distinct
      exact distinct.imp fun apart _ _ same => apart same.symm
    · intro e old e' fresh _ same
      exact absurd (same.symm.trans (mem_diff.mp fresh).1) (unwritten e old)

theorem ledger_other {t : Statuses} {s : System} (ledger : Ledger t s) {op : Op} (plain : isDequeue op = false) :
    Ledger t { s with store := s.store.commit none (op.apply s.store.table) } := by
  have others : ∀ {e}, e ∈ diff none s.store.table (op.apply s.store.table) → e.writer = (none : Option Nat) :=
    fun member => (mem_diff.mp member).1
  refine ⟨Heap.traced_commit ledger.traced _ _,?_,?_,?_,?_⟩
  · intro e member i writes
    rcases List.mem_append.mp member with old | fresh
    · exact ledger.byCall e old i writes
    · cases writes.symm.trans (others fresh)
  · intro e member writes
    rcases List.mem_append.mp member with old | fresh
    · exact ledger.byOthers e old writes
    · exact other_starts_nothing plain fresh
  · intro i call ids returned
    obtain ⟨nodup,wrote⟩ := ledger.performed i call ids returned
    refine ⟨nodup,?_⟩
    intro k member
    obtain ⟨e,listed,found⟩ := wrote k member
    exact ⟨e,List.mem_append_left _ listed,found⟩
  · refine List.pairwise_append.mpr ⟨ledger.single,?_,?_⟩
    · refine List.pairwise_of_forall_mem_list ?_
      intro e member _ _ call
      rw [others member] at call
      cases call
    · intro e _ e' fresh call same
      rw [← same,others fresh] at call
      cases call

theorem step_ledger {t : Statuses} {s s' : System} {e : Event} (ledger : Ledger t s) (taken : step s e = some s') :
    Ledger t s' := by
  cases step_moves taken with
  | begin call =>
    refine ⟨ledger.traced,?_,ledger.byOthers,?_,ledger.single⟩
    · intro e member i writes
      obtain ⟨starts,call,ids,returned,listed⟩ := ledger.byCall e member i writes
      have bound := (List.getElem?_eq_some_iff.mp returned).1
      exact ⟨starts,call,ids,by rw [List.getElem?_append_left bound]; exact returned,listed⟩
    · intro i call' ids returned
      rcases party_append returned with old | ⟨_,new⟩
      · exact ledger.performed i call' ids old
      · cases new
  | idle i call found nothing => exact ledger_set ledger found rfl (by rintro call ids ⟨⟩; rfl)
  | read i call found work => exact ledger_set ledger found rfl (by simp)
  | select i r busy rows found selects => exact ledger_set ledger found rfl (by simp)
  | commit i now r workflowIDs found => exact ledger_commit ledger found
  | fail i session found running => exact ledger_set ledger found running (by simp)
  | version latestVersion => exact ⟨ledger.traced,ledger.byCall,ledger.byOthers,ledger.performed,ledger.single⟩
  | tick elapsed => exact ⟨ledger.traced,ledger.byCall,ledger.byOthers,ledger.performed,ledger.single⟩
  | other op plain free => exact ledger_other ledger plain

/-- In every interleaving the calls report exactly the transitions they made. -/
theorem claims_exactly_once {t : Statuses} {events : List Event} {s : System} (run : Runs step (start t) events s) :
    ReportedOnce s := by
  have ledger : Ledger t s := runs_invariant (fun _ _ _ => step_ledger) (ledger_start t) run
  refine ⟨?_,?_,?_,ledger.single,?_,?_⟩
  · intro e member starts
    cases writes : e.writer with
    | none => exact absurd starts (ledger.byOthers e member writes)
    | some i =>
      obtain ⟨_,call,ids,returned,listed⟩ := ledger.byCall e member i writes
      exact ⟨i,call,ids,rfl,returned,listed⟩
  · intro i call ids k returned listed
    obtain ⟨e,member,writes,same⟩ := (ledger.performed i call ids returned).2 k listed
    exact ⟨e,member,(ledger.byCall e member i writes).1,writes,same⟩
  · intro i call ids returned
    exact (ledger.performed i call ids returned).1
  · intro first e mid e' last split starts starts' same
    have linked := ledger.traced.linked
    rw [split] at linked
    refine linked_between (P := HasStatus ENQUEUED) linked same ?_ starts'.1
    rintro ⟨r,after,waits⟩
    obtain ⟨r',after',pending⟩ := starts.2
    cases after.symm.trans after'
    rw [waits] at pending
    cases pending
  · intro i call threw
    exact ledger_unwritten ledger threw (by simp)

/-- Two workflows on a queue without limits. -/
def twoWaiting : Statuses :=
  (Table.empty.insert "a" { status := ENQUEUED,name := "f",queue_name := some "q",created_at := 1,updated_at := 1 }).insert
    "b" { status := ENQUEUED,name := "f",queue_name := some "q",created_at := 2,updated_at := 2 }

def unlimited : DequeueCall := { queue := { name := "q" },executorID := "e",appVersion := "v",startTimeMs := 0 }

/-- Two calls overlap: the second skips the rows that the first has locked. -/
def overlapping : List Event :=
  [.begin unlimited,.begin unlimited,.read 0,.read 1,.select 0 [] twoWaiting.entries,.select 1 [] [],.commit 1 5,.commit 0 5]

theorem overlapping_exactly_once : ∃ s, Runs step (start twoWaiting) overlapping s ∧
    s.calls[0]? = some (.returned unlimited ["a","b"]) ∧ s.calls[1]? = some (.returned unlimited []) ∧ ReportedOnce s := by
  obtain ⟨s,run,first,second⟩ : ∃ s, Runs step (start twoWaiting) overlapping s ∧
      s.calls[0]? = some (.returned unlimited ["a","b"]) ∧ s.calls[1]? = some (.returned unlimited []) := ⟨_,rfl,rfl,rfl⟩
  exact ⟨s,run,first,second,claims_exactly_once run⟩

end Dbos.ExactlyOnce
