import Dbos.Deadlines
import Mathlib.Data.List.Sort

/-!
How old workflows are disposed of: `garbageCollect` of `src/system_database.ts`, `globalTimeout` of `src/workflow_management.ts` and the
RETENTION message of `src/conductor/conductor.ts`, which runs one after the other. Each of their statements commits by itself, and any
statement on `workflow_status` may come between two of them.
-/
namespace Dbos.Retention
open Dbos.Pg Dbos.Schema Dbos.Status Dbos.Deadlines StatusString

/-! ### The jobs -/

/-- The SELECT of `created_at` in descending order with LIMIT 1 and OFFSET `rowsThreshold - 1`, which must not be negative. -/
def rowsBasedCutoff (t : Statuses) (rowsThreshold : Int) : Except DbosError (Option Int) :=
  if rowsThreshold < 1 then .error (.DatabaseError "2201X")
  else .ok ((t.entries.map fun e => e.2.created_at).insertionSort (· ≥ ·))[(rowsThreshold - 1).toNat]?

/-- The more restrictive cutoff. -/
def restrict (cutoffEpochTimestampMs rowsBasedCutoff : Option Int) : Option Int :=
  match rowsBasedCutoff,cutoffEpochTimestampMs with
  | some rows,some cutoff => if cutoff < rows then some rows else some cutoff
  | some rows,none => some rows
  | none,_ => cutoffEpochTimestampMs

/-- The next statement of a job. `thenTimeout` is the cutoff of the `globalTimeout` that follows. -/
inductive Job
  | counting (cutoff : Option Int) (rowsThreshold : Int) (thenTimeout : Option Int)
  | deleting (cutoff : Int) (thenTimeout : Option Int)
  | listing (cutoff : Int) (statuses : List StatusString)
  | cancelling (cutoff : Int) (workflowIDs : List String) (statuses : List StatusString)
  | done
  | failed (e : DbosError)

/-- `globalTimeout`. -/
def globalTimeout (cutoff : Int) : Job := .listing cutoff [PENDING,ENQUEUED,DELAYED]

/-- What follows the garbage collection. -/
def thenJob (thenTimeout : Option Int) : Job := thenTimeout.elim .done globalTimeout

/-- The end of `garbageCollect` from the cutoff. -/
def deletingJob (cutoff thenTimeout : Option Int) : Job := cutoff.elim (thenJob thenTimeout) fun cutoff => .deleting cutoff thenTimeout

/-- `garbageCollect`. -/
def garbageCollect (cutoffEpochTimestampMs rowsThreshold thenTimeout : Option Int) : Job :=
  match rowsThreshold with
  | some rows => .counting cutoffEpochTimestampMs rows thenTimeout
  | none => deletingJob cutoffEpochTimestampMs thenTimeout

/-- The handler of a RETENTION message: a cutoff of 0 is none for `globalTimeout`. -/
def retention (gc_cutoff_epoch_ms gc_rows_threshold timeout_cutoff_epoch_ms : Option Int) : Job :=
  garbageCollect gc_cutoff_epoch_ms gc_rows_threshold (timeout_cutoff_epoch_ms.filter fun cutoff => cutoff ≠ 0)

/-- `listWorkflows` with a status and an `endTime`. -/
def listed (cutoff : Int) (status : StatusString) (_ : String) (row : WorkflowStatus) : Bool :=
  row.status = status ∧ row.created_at ≤ cutoff

/-! ### The system -/

/-- What a job is asked for. -/
inductive Request
  | retention (gc_cutoff_epoch_ms gc_rows_threshold timeout_cutoff_epoch_ms : Option Int)
  | garbageCollect (cutoff_epoch_timestamp_ms rows_threshold : Option Int)
  | globalTimeout (cutoff_epoch_timestamp_ms : Int)

def Request.job : Request → Job
  | .retention cutoff rows timeout => Retention.retention cutoff rows timeout
  | .garbageCollect cutoff rows => Retention.garbageCollect cutoff rows none
  | .globalTimeout cutoff => Retention.globalTimeout cutoff

def Request.cutoff : Request → Option Int
  | .retention cutoff _ _ => cutoff
  | .garbageCollect cutoff _ => cutoff
  | .globalTimeout _ => none

def Request.rows : Request → Option Int
  | .retention _ rows _ => rows
  | .garbageCollect _ rows => rows
  | .globalTimeout _ => none

structure System where
  table : Statuses
  requests : List Request := []
  jobs : List Job := []

/-- A request comes, the next statement of a job runs, or another statement. A listing gives its workflows in some order. -/
inductive Event
  | request (request : Request)
  | next (i : Nat) (now : Int) (order : List String)
  | write (w : Write)

/-- The next statement of a job. -/
def Job.next (t : Statuses) (now : Int) (order : List String) : Job → Option (Statuses × Job)
  | .counting cutoff rowsThreshold thenTimeout =>
    match rowsBasedCutoff t rowsThreshold with
    | .error e => some (t,.failed e)
    | .ok rows => some (t,deletingJob (restrict cutoff rows) thenTimeout)
  | .deleting cutoff thenTimeout => some (t.delete (collectHits cutoff),thenJob thenTimeout)
  | .listing cutoff (status :: statuses) =>
    if order.Perm (t.keys (listed cutoff status)) then some (t,.cancelling cutoff order statuses) else none
  | .listing _ [] => some (t,.done)
  | .cancelling cutoff (workflowID :: workflowIDs) statuses =>
    some (Status.cancelWorkflows t [workflowID] now,.cancelling cutoff workflowIDs statuses)
  | .cancelling cutoff [] statuses => some (t,.listing cutoff statuses)
  | .done | .failed _ => none

def step (s : System) : Event → Option System
  | .request request => some { s with requests := s.requests ++ [request],jobs := s.jobs ++ [request.job] }
  | .next i now order =>
    match s.jobs[i]? with
    | none => none
    | some job => (job.next s.table now order).map fun moved => { s with table := moved.1,jobs := s.jobs.set i moved.2 }
  | .write w => some { s with table := w.apply s.table }

def start (t : Statuses) : System := { table := t }

/-- What an event does. -/
inductive Moves (s : System) : Event → System → Prop
  | request (request : Request) :
      Moves s (.request request) { s with requests := s.requests ++ [request],jobs := s.jobs ++ [request.job] }
  | next (i : Nat) (now : Int) (order : List String) (job job' : Job) (table : Statuses) (found : s.jobs[i]? = some job)
      (moves : job.next s.table now order = some (table,job')) :
      Moves s (.next i now order) { s with table := table,jobs := s.jobs.set i job' }
  | write (w : Write) : Moves s (.write w) { s with table := w.apply s.table }

theorem step_moves {s s' : System} {e : Event} (taken : step s e = some s') : Moves s e s' := by
  cases e with
  | request request =>
    cases taken
    exact .request request
  | next i now order =>
    simp only [step] at taken
    split at taken
    · cases taken
    · rename_i job found
      obtain ⟨⟨table,job'⟩,moves,rfl⟩ := Option.map_eq_some_iff.mp taken
      exact .next i now order job job' table found moves
  | write w =>
    cases taken
    exact .write w

/-! ### The row that is the n-th newest -/

/-- In a list that descends, the element at `n` is greater than `x` exactly when more than `n` elements are. -/
theorem getElem?_descending {l : List Int} (descends : l.Pairwise fun a b => b ≤ a) (n : Nat) (x : Int) :
    (∃ c, l[n]? = some c ∧ x < c) ↔ n < l.countP fun a => x < a := by
  induction l generalizing n with
  | nil => simp
  | cons a rest ih =>
    obtain ⟨first,later⟩ := List.pairwise_cons.mp descends
    by_cases greater : x < a
    · rw [List.countP_cons_of_pos (by simpa using greater)]
      cases n with
      | zero => simpa using greater
      | succ n =>
        rw [List.getElem?_cons_succ,ih later]
        omega
    · -- Nothing behind `a` is greater than it.
      have none_ : (a :: rest).countP (fun a => x < a) = 0 := by
        rw [List.countP_eq_zero]
        intro b member
        rcases List.mem_cons.mp member with rfl | behind
        · simpa using greater
        · have below := first b behind
          simp only [decide_eq_true_eq]
          omega
      rw [none_]
      refine ⟨?_,fun positive => absurd positive (Nat.not_lt_zero _)⟩
      rintro ⟨c,found,above⟩
      have listed := List.mem_of_getElem? found
      rcases List.mem_cons.mp listed with rfl | behind
      · exact absurd above greater
      · have below := first c behind
        omega

/-- How many workflows were created after the time. -/
def newer (t : Statuses) (created_at : Int) : Nat := t.entries.countP fun e => created_at < e.2.created_at

/-- What lies before the cutoff that the SELECT finds. -/
theorem rowsBasedCutoff_spec {t : Statuses} {rowsThreshold : Int} {rows : Option Int} (reads : rowsBasedCutoff t rowsThreshold = .ok rows)
    (x : Int) : (∃ c, rows = some c ∧ x < c) ↔ rowsThreshold ≤ newer t x := by
  unfold rowsBasedCutoff at reads
  split at reads
  · cases reads
  · rename_i positive
    cases reads
    have descends := List.pairwise_insertionSort (· ≥ ·) (t.entries.map fun e => e.2.created_at)
    rw [getElem?_descending descends,(List.perm_insertionSort _ _).countP_eq,List.countP_map]
    unfold newer
    simp only [Function.comp_def]
    omega

theorem restrict_spec (cutoff rows : Option Int) (x : Int) :
    (∃ c, restrict cutoff rows = some c ∧ x < c) ↔ (∃ c, cutoff = some c ∧ x < c) ∨ ∃ c, rows = some c ∧ x < c := by
  cases rows with
  | none => simp [restrict]
  | some r =>
    cases cutoff with
    | none => simp [restrict]
    | some c =>
      simp only [restrict,Option.some.injEq,exists_eq_left']
      split
      · simp only [Option.some.injEq,exists_eq_left']
        omega
      · simp only [Option.some.injEq,exists_eq_left']
        omega

/-! ### The garbage collection -/

/-- The workflow is older than the cutoff or behind as many newer ones, in `past`, as there are to be kept. -/
def Old (request : Request) (past : Statuses) (created_at : Int) : Prop :=
  (∃ c, request.cutoff = some c ∧ created_at < c) ∨ ∃ n, request.rows = some n ∧ n ≤ newer past created_at

/-- What the collection is to delete. -/
def Disposable (request : Request) (past : Statuses) (row : WorkflowStatus) : Prop :=
  row.status ≠ PENDING ∧ row.status ≠ ENQUEUED ∧ row.status ≠ DELAYED ∧ Old request past row.created_at

/-- The job has not deleted yet. -/
def Job.collects : Job → Bool
  | .counting _ _ _ | .deleting _ _ => true
  | _ => false

/-- What a job knows of its request and of what the run has passed. -/
def Knows (t : Statuses) (events : List Event) (i : Nat) (request : Request) : Job → Prop
  | .counting cutoff n _ => request.cutoff = cutoff ∧ request.rows = some n
  | .deleting cutoff _ =>
    Passed step (start t) (fun u => (∃ job,u.jobs[i]? = some job ∧ job.collects = true) ∧ ∀ x,x < cutoff ↔ Old request u.table x) events
  | _ => True

theorem Knows.more {t : Statuses} {events : List Event} {i : Nat} {request : Request} {job : Job} (knows : Knows t events i request job)
    (e : Event) : Knows t (events ++ [e]) i request job := by
  cases job with
  | deleting cutoff thenTimeout => exact passed_append knows [e]
  | _ => exact knows

theorem knows_thenJob (t : Statuses) (events : List Event) (i : Nat) (request : Request) (thenTimeout : Option Int) :
    Knows t events i request (thenJob thenTimeout) := by
  cases thenTimeout <;> trivial

theorem knows_request {t : Statuses} {events : List Event} {s : System} (run : Runs step (start t) events s) {i : Nat} {request : Request}
    (here : s.jobs[i]? = some request.job) : Knows t events i request request.job := by
  have collecting : ∀ cutoff rows thenTimeout, request.cutoff = cutoff → request.rows = rows →
      request.job = garbageCollect cutoff rows thenTimeout → Knows t events i request request.job := by
    intro cutoff rows thenTimeout cut keep job
    rw [job] at here ⊢
    cases rows with
    | some n => exact ⟨cut,keep⟩
    | none =>
      cases cutoff with
      | none => exact knows_thenJob t events i request thenTimeout
      | some c =>
        refine passed_here run ⟨⟨_,here,rfl⟩,?_⟩
        intro x
        simp [Old,cut,keep]
  cases request with
  | retention cutoff rows timeout => exact collecting _ _ _ rfl rfl rfl
  | garbageCollect cutoff rows => exact collecting _ _ _ rfl rfl rfl
  | globalTimeout cutoff => trivial

theorem knows_next {t : Statuses} {events : List Event} {s : System} (run : Runs step (start t) events s) {i : Nat} {request : Request}
    {job job' : Job} (here : s.jobs[i]? = some job) (knows : Knows t events i request job) {now : Int} {order : List String}
    {table : Statuses} (moves : job.next s.table now order = some (table,job')) : Knows t events i request job' := by
  cases job with
  | counting cutoff n thenTimeout =>
    simp only [Job.next] at moves
    split at moves
    · cases moves
      trivial
    · rename_i rows reads
      cases moves
      cases restricted : restrict cutoff rows with
      | none => exact knows_thenJob t events i request thenTimeout
      | some c =>
        refine passed_here run ⟨⟨_,here,rfl⟩,?_⟩
        intro x
        have both := restrict_spec cutoff rows x
        rw [restricted,rowsBasedCutoff_spec reads] at both
        simp only [Option.some.injEq,exists_eq_left'] at both
        rw [both]
        simp [Old,knows.1,knows.2]
  | deleting cutoff thenTimeout =>
    cases moves
    exact knows_thenJob t events i request thenTimeout
  | listing cutoff statuses =>
    cases statuses with
    | nil =>
      cases moves
      trivial
    | cons status statuses =>
      simp only [Job.next] at moves
      split at moves <;> cases moves
      trivial
  | cancelling cutoff workflowIDs statuses => cases workflowIDs <;> cases moves <;> trivial
  | done | failed _ => cases moves

theorem knows_runs {t : Statuses} {events : List Event} {s : System} (run : Runs step (start t) events s) :
    s.requests.length = s.jobs.length ∧
      ∀ (i : Nat) job, s.jobs[i]? = some job → ∃ request, s.requests[i]? = some request ∧ Knows t events i request job := by
  refine runs_history (I := fun events s => s.requests.length = s.jobs.length ∧
    ∀ (i : Nat) job, s.jobs[i]? = some job → ∃ request, s.requests[i]? = some request ∧ Knows t events i request job) ?_ ?_ run
  · exact ⟨rfl,fun i job found => nomatch found⟩
  · rintro events s e s' reached ⟨lengths,knows⟩ taken
    have reached' : Runs step (start t) (events ++ [e]) s' := runs_append.mpr ⟨s,reached,runs_cons.mpr ⟨s',taken,runs_nil.mpr rfl⟩⟩
    cases step_moves taken with
    | request request =>
      refine ⟨by simp [lengths],?_⟩
      intro i job found
      rcases party_append found with old | ⟨rfl,rfl⟩
      · obtain ⟨asked,listed,known⟩ := knows i job old
        exact ⟨asked,(List.getElem?_append_left (List.getElem?_eq_some_iff.mp listed).1).trans listed,known.more _⟩
      · exact ⟨request,by rw [← lengths]; exact List.getElem?_concat_length ..,knows_request reached' found⟩
    | next i now order job job' table here moves =>
      refine ⟨by simpa using lengths,?_⟩
      intro j other found
      rcases party_set_cases here found with ⟨rfl,rfl⟩ | ⟨_,old⟩
      · obtain ⟨asked,listed,known⟩ := knows j job here
        exact ⟨asked,listed,(knows_next reached here known moves).more _⟩
      · obtain ⟨asked,listed,known⟩ := knows j other old
        exact ⟨asked,listed,known.more _⟩
    | write w =>
      refine ⟨lengths,?_⟩
      intro i job found
      obtain ⟨asked,listed,known⟩ := knows i job found
      exact ⟨asked,listed,known.more _⟩

/-- Whatever comes between the two statements of a collection: its DELETE takes away exactly the workflows that have finished by then and
    that are older than the cutoff, or that had as many newer ones as are to be kept in some state in which the call was under way. -/
theorem garbageCollect_deletes {t : Statuses} {events : List Event} {s s' : System} (run : Runs step (start t) events s) {i : Nat}
    {cutoff now : Int} {thenTimeout : Option Int} {order : List String} (here : s.jobs[i]? = some (.deleting cutoff thenTimeout))
    (deletes : step s (.next i now order) = some s') :
    ∃ request, s.requests[i]? = some request ∧ Passed step (start t) (fun u => (∃ job,u.jobs[i]? = some job ∧ job.collects = true) ∧
      ∀ k row, s.table.get? k = some row →
        (Disposable request u.table row → s'.table.get? k = none) ∧ (¬ Disposable request u.table row → s'.table.get? k = some row))
      events := by
  obtain ⟨request,asked,first,rest,u,split,reached,busy,old⟩ := (knows_runs run).2 i _ here
  refine ⟨request,asked,first,rest,u,split,reached,busy,?_⟩
  intro k row found
  simp only [step,here,Job.next,Option.map_some,Option.some.injEq] at deletes
  subst deletes
  have hits : collectHits cutoff k row = true ↔ Disposable request u.table row := by
    simp only [collectHits,decide_eq_true_eq,old row.created_at,Disposable]
    tauto
  simp only [Table.get?_delete,found,Option.filter_some,← hits]
  cases collectHits cutoff k row <;> simp

/-- A workflow of the function `f`. -/
def made (status : StatusString) (created_at : Int) : WorkflowStatus :=
  { status := status,name := "f",queue_name := some "q",created_at := created_at,updated_at := created_at }

/-- Two of three workflows have finished. -/
def three : Statuses :=
  ((Table.empty.insert "a" (made SUCCESS 1)).insert "b" (made PENDING 2)).insert "c" (made ERROR 3)

/-- The newest two are to be kept. -/
def keepsTwo : List Event := [.request (.garbageCollect none (some 2)),.next 0 0 []]

theorem garbageCollect_deletes_oldest : ∃ s s' request, Runs step (start three) keepsTwo s ∧ step s (.next 0 0 []) = some s' ∧
    s'.table.entries.map Prod.fst = ["b","c"] ∧ s.requests[0]? = some request ∧ request.rows = some 2 ∧
    Passed step (start three) (fun u => Disposable request u.table (made SUCCESS 1) → s'.table.get? "a" = none) keepsTwo := by
  obtain ⟨s,s',run,here,found,deletes,left,listed⟩ : ∃ s s', Runs step (start three) keepsTwo s ∧
      s.jobs[0]? = some (.deleting 2 none) ∧ s.table.get? "a" = some (made SUCCESS 1) ∧ step s (.next 0 0 []) = some s' ∧
      s'.table.entries.map Prod.fst = ["b","c"] ∧ s.requests[0]? = some (.garbageCollect none (some 2)) :=
    ⟨_,_,rfl,rfl,rfl,rfl,rfl,rfl⟩
  obtain ⟨request,asked,first,rest,u,split,reached,_,exact_⟩ := garbageCollect_deletes run here deletes
  cases listed.symm.trans asked
  exact ⟨s,s',_,run,deletes,left,listed,rfl,first,rest,u,split,reached,(exact_ "a" _ found).1⟩

/-! ### The global timeout -/

/-- The workflow is one that a listing with the status gives. -/
def Waiting (cutoff : Int) (status : StatusString) (k : String) (t : Statuses) : Prop :=
  ∃ row, t.get? k = some row ∧ listed cutoff status k row = true

/-- The job has still to cancel the workflow, or to list those of its status. -/
def Reaches (cutoff : Int) (status : StatusString) (k : String) : Job → Prop
  | .listing c statuses => c = cutoff ∧ status ∈ statuses
  | .cancelling c workflowIDs statuses => c = cutoff ∧ (k ∈ workflowIDs ∨ status ∈ statuses)
  | _ => False

theorem reaches_next {cutoff : Int} {status : StatusString} {k : String} {t t' : Statuses} {job job' : Job} {now : Int}
    {order : List String} (active : status ∈ [PENDING,ENQUEUED,DELAYED]) (reaches : Reaches cutoff status k job)
    (before : Waiting cutoff status k t) (after : Waiting cutoff status k t') (moves : job.next t now order = some (t',job')) :
    Reaches cutoff status k job' := by
  cases job with
  | listing c statuses =>
    obtain ⟨rfl,member⟩ := reaches
    cases statuses with
    | nil => cases member
    | cons first statuses =>
      simp only [Job.next] at moves
      split at moves <;> cases moves
      rename_i gives
      rcases List.mem_cons.mp member with rfl | later
      · obtain ⟨row,found,lists⟩ := before
        exact ⟨rfl,.inl (gives.mem_iff.mpr ((Table.mem_keys _ _ _).mpr ⟨row,found,lists⟩))⟩
      · exact ⟨rfl,.inr later⟩
  | cancelling c workflowIDs statuses =>
    obtain ⟨rfl,member⟩ := reaches
    cases workflowIDs with
    | nil =>
      cases moves
      rcases member with none_ | later
      · cases none_
      · exact ⟨rfl,later⟩
    | cons first workflowIDs =>
      cases moves
      rcases member with listed | later
      · rcases List.mem_cons.mp listed with rfl | behind
        · -- The workflow that is cancelled does not wait any longer.
          obtain ⟨row,found,lists⟩ := before
          obtain ⟨row',found',lists'⟩ := after
          simp only [Retention.listed,decide_eq_true_eq] at lists lists'
          have unfinished : unfinishedHits [k] k row = true := by
            simp only [unfinishedHits,decide_eq_true_eq,List.mem_singleton,true_and,lists.1]
            rcases List.mem_cons.mp active with rfl | more
            · decide
            · rcases List.mem_cons.mp more with rfl | last
              · decide
              · rw [List.mem_singleton.mp last]
                decide
          simp only [Status.cancelWorkflows,Table.get?_update,found,Option.map_some,unfinished,if_true,Option.some.injEq] at found'
          subst found'
          rw [← lists'.1] at active
          simp [cancelledRow] at active
        · exact ⟨rfl,.inl behind⟩
      · exact ⟨rfl,.inr later⟩
  | counting _ _ _ | deleting _ _ | done | failed _ => exact reaches.elim

theorem reaches_runs {cutoff : Int} {status : StatusString} {k : String} (active : status ∈ [PENDING,ENQUEUED,DELAYED]) {i : Nat}
    {events : List Event} {s s' : System} {job : Job} (here : s.jobs[i]? = some job) (reaches : Reaches cutoff status k job)
    (waits : ∀ first rest u, events = first ++ rest → Runs step s first u → Waiting cutoff status k u.table)
    (run : Runs step s events s') : ∃ job', s'.jobs[i]? = some job' ∧ Reaches cutoff status k job' := by
  induction events generalizing s job with
  | nil => exact ⟨job,by rw [← runs_nil.mp run]; exact here,reaches⟩
  | cons e rest ih =>
    obtain ⟨u,taken,onward⟩ := runs_cons.mp run
    have before : Waiting cutoff status k s.table := waits [] (e :: rest) s rfl (runs_nil.mpr rfl)
    have after : Waiting cutoff status k u.table := waits [e] rest u rfl (runs_cons.mpr ⟨u,taken,runs_nil.mpr rfl⟩)
    have later : ∀ first more v, rest = first ++ more → Runs step u first v → Waiting cutoff status k v.table :=
      fun first more v split reached => waits (e :: first) more v (by rw [split]; rfl) (runs_cons.mpr ⟨u,taken,reached⟩)
    cases step_moves taken with
    | request request =>
      exact ih ((List.getElem?_append_left (List.getElem?_eq_some_iff.mp here).1).trans here) reaches later onward
    | next j now order other other' table found moves =>
      by_cases mine : i = j
      · subst mine
        cases here.symm.trans found
        exact ih (by rw [party_set found,if_pos rfl]) (reaches_next active reaches before after moves) later onward
      · exact ih (by rw [party_set found,if_neg mine]; exact here) reaches later onward
    | write w => exact ih (s := { s with table := w.apply s.table }) here reaches later onward

/-- What the job is about to cancel was listed. -/
def Listed (cutoff : Int) (s : System) (events : List Event) : Job → Prop
  | .listing c statuses => c = cutoff ∧ statuses ⊆ [PENDING,ENQUEUED,DELAYED]
  | .cancelling c workflowIDs statuses => c = cutoff ∧ statuses ⊆ [PENDING,ENQUEUED,DELAYED] ∧ ∀ k ∈ workflowIDs,
      Passed step s (fun u => ∃ status ∈ [PENDING,ENQUEUED,DELAYED],Waiting cutoff status k u.table) events
  | _ => True

theorem Listed.more {cutoff : Int} {s : System} {events : List Event} {job : Job} (listed : Listed cutoff s events job) (e : Event) :
    Listed cutoff s (events ++ [e]) job := by
  cases job with
  | cancelling c workflowIDs statuses => exact ⟨listed.1,listed.2.1,fun k member => passed_append (listed.2.2 k member) [e]⟩
  | _ => exact listed

theorem listed_next {cutoff : Int} {s u : System} {events : List Event} (run : Runs step s events u) {job job' : Job}
    (timing : (∃ statuses, job = .listing cutoff statuses) ∨ (∃ ids statuses, job = .cancelling cutoff ids statuses) ∨ job = .done)
    (listed : Listed cutoff s events job) {now : Int} {order : List String} {table : Statuses}
    (moves : job.next u.table now order = some (table,job')) :
    Listed cutoff s events job' ∧
      ((∃ statuses, job' = .listing cutoff statuses) ∨ (∃ ids statuses, job' = .cancelling cutoff ids statuses) ∨ job' = .done) := by
  rcases timing with ⟨statuses,rfl⟩ | ⟨ids,statuses,rfl⟩ | rfl
  · cases statuses with
    | nil =>
      cases moves
      exact ⟨trivial,.inr (.inr rfl)⟩
    | cons status statuses =>
      simp only [Job.next] at moves
      split at moves <;> cases moves
      rename_i gives
      obtain ⟨_,among⟩ := listed
      refine ⟨⟨rfl,fun other member => among (List.mem_cons_of_mem _ member),?_⟩,.inr (.inl ⟨order,statuses,rfl⟩)⟩
      intro k member
      exact passed_here run ⟨status,among List.mem_cons_self,(Table.mem_keys _ _ _).mp (gives.mem_iff.mp member)⟩
  · cases ids with
    | nil =>
      cases moves
      exact ⟨⟨rfl,listed.2.1⟩,.inl ⟨statuses,rfl⟩⟩
    | cons first ids =>
      cases moves
      exact ⟨⟨rfl,listed.2.1,fun k member => listed.2.2 k (List.mem_cons_of_mem _ member)⟩,.inr (.inl ⟨ids,statuses,rfl⟩)⟩
  · cases moves

theorem listed_runs {cutoff : Int} {i : Nat} {events : List Event} {s s' : System} (begins : s.jobs[i]? = some (globalTimeout cutoff))
    (run : Runs step s events s') : ∃ job, s'.jobs[i]? = some job ∧ Listed cutoff s events job ∧
      ((∃ statuses, job = .listing cutoff statuses) ∨ (∃ ids statuses, job = .cancelling cutoff ids statuses) ∨ job = .done) := by
  refine runs_history (I := fun events s' => ∃ job, s'.jobs[i]? = some job ∧ Listed cutoff s events job ∧
    ((∃ statuses, job = .listing cutoff statuses) ∨ (∃ ids statuses, job = .cancelling cutoff ids statuses) ∨ job = .done)) ?_ ?_ run
  · exact ⟨_,begins,⟨rfl,fun _ member => member⟩,.inl ⟨_,rfl⟩⟩
  · rintro events u e u' reached ⟨job,here,listed,timing⟩ taken
    cases step_moves taken with
    | request request =>
      exact ⟨job,(List.getElem?_append_left (List.getElem?_eq_some_iff.mp here).1).trans here,listed.more _,timing⟩
    | next j now order other other' table found moves =>
      by_cases mine : i = j
      · subst mine
        cases here.symm.trans found
        obtain ⟨listed',timing'⟩ := listed_next reached timing listed moves
        exact ⟨other',by rw [party_set found,if_pos rfl],listed'.more _,timing'⟩
      · exact ⟨job,by rw [party_set found,if_neg mine]; exact here,listed.more _,timing⟩
    | write w => exact ⟨job,here,listed.more _,timing⟩

/-- Whatever comes between the statements of a global timeout: it cancels only workflows that it has seen PENDING, ENQUEUED or DELAYED and
    created up to the cutoff, and when it has ended no such workflow has had the same status all the time. -/
theorem globalTimeout_cancels {cutoff : Int} {i : Nat} {events : List Event} {s s' : System}
    (begins : s.jobs[i]? = some (globalTimeout cutoff)) (run : Runs step s events s') :
    (∀ c k workflowIDs statuses, s'.jobs[i]? = some (.cancelling c (k :: workflowIDs) statuses) →
      Passed step s (fun u => ∃ status ∈ [PENDING,ENQUEUED,DELAYED],Waiting cutoff status k u.table) events) ∧
    (s'.jobs[i]? = some .done → ∀ k, ∀ status ∈ [PENDING,ENQUEUED,DELAYED],
      Passed step s (fun u => ¬ Waiting cutoff status k u.table) events) := by
  refine ⟨?_,?_⟩
  · intro c k workflowIDs statuses here
    obtain ⟨job,here',listed,_⟩ := listed_runs begins run
    cases here'.symm.trans here
    exact listed.2.2 k List.mem_cons_self
  · intro ended k status active
    by_contra never
    have waits : ∀ first rest u, events = first ++ rest → Runs step s first u → Waiting cutoff status k u.table := by
      intro first rest u split reached
      by_contra gone
      exact never ⟨first,rest,u,split,reached,gone⟩
    obtain ⟨job,here,reaches⟩ := reaches_runs active begins ⟨rfl,active⟩ waits run
    cases here.symm.trans ended
    exact reaches

/-- One workflow is PENDING and one ENQUEUED. -/
def two : Statuses := (Table.empty.insert "p" (made PENDING 1)).insert "e" (made ENQUEUED 2)

/-- A global timeout with nothing in between. -/
def timesOut : List Event :=
  [.next 0 9 ["p"],.next 0 9 [],.next 0 9 [],.next 0 9 ["e"],.next 0 9 [],.next 0 9 [],.next 0 9 [],.next 0 9 [],.next 0 9 []]

theorem globalTimeout_cancels_both : ∃ s', Runs step ⟨two,[.globalTimeout 5],[globalTimeout 5]⟩ timesOut s' ∧
    s'.table.entries.map (fun e => e.2.status) = [CANCELLED,CANCELLED] ∧
    Passed step ⟨two,[.globalTimeout 5],[globalTimeout 5]⟩ (fun u => ¬ Waiting 5 PENDING "p" u.table) timesOut := by
  obtain ⟨s',run,statuses,ended⟩ : ∃ s', Runs step ⟨two,[.globalTimeout 5],[globalTimeout 5]⟩ timesOut s' ∧
      s'.table.entries.map (fun e => e.2.status) = [CANCELLED,CANCELLED] ∧ s'.jobs[0]? = some .done := ⟨_,rfl,rfl,rfl⟩
  exact ⟨s',run,statuses,(globalTimeout_cancels rfl run).2 ended "p" PENDING (by decide)⟩

/-- The ENQUEUED workflow is dequeued between the first two listings. -/
def dequeuedBetween : List Event :=
  [.next 0 9 ["p"],.next 0 9 [],.write (.operation (.findAndMarkStartableWorkflows
    { queue := { name := "q" },executorID := "x",appVersion := "v",startTimeMs := 9 } 0 ["e"] 9)),.next 0 9 [],.next 0 9 [],.next 0 9 [],
    .next 0 9 [],.next 0 9 [],.next 0 9 []]

/-- PENDING is listed before ENQUEUED, so that the workflow runs on. -/
theorem dequeued_outlives : ∃ s', Runs step ⟨two,[.globalTimeout 5],[globalTimeout 5]⟩ dequeuedBetween s' ∧ s'.jobs[0]? = some .done ∧
    (s'.table.get? "e").map WorkflowStatus.status = some PENDING := ⟨_,rfl,rfl,rfl⟩

end Dbos.Retention
