import Dbos.Dispatch

/-!
The global concurrency of a queue. A call counts the running rows in its snapshot and
selects from the snapshot as many rows as the limit leaves, so two calls that overlap stay
within the limit only if they collide on a row: the later one then meets a lock or a
changed row and fails. They collide when the first row of both is the same. That is so as
long as the calls under way see the same rows (one application version), the first row is
no tie, and no row comes ahead of it while a call is under way (`Ordered`); the code checks
none of this.
-/
namespace Dbos.Concurrency
open Dbos.Pg Dbos.Schema Dbos.Status Dbos.Start Dbos.Dequeue Dbos.Dispatch StatusString
open Dbos.Ops hiding step

/-- The rows that the call may claim in its snapshot. -/
def candidates (r : Reading) : List (String × WorkflowStatus) :=
  r.snapshot.table.select (startableHits r.call r.isLatestVersion)

/-- The candidate ahead of all others. -/
def First (r : Reading) (f : String × WorkflowStatus) : Prop :=
  f ∈ candidates r ∧ ∀ e ∈ candidates r,e ≠ f → ahead f e = true

instance (r : Reading) (f : String × WorkflowStatus) : Decidable (First r f) := inferInstanceAs (Decidable (_ ∧ _))

/-- The condition on the steps. When a call reads, its first candidate is no tie and the calls
    of the queue that are under way have its version and its view of the latest version. While
    such a call is under way and its first candidate is as it was, no operation makes or moves
    a candidate that is not behind it. -/
def Ordered (q : WorkflowQueue) (key : Option String) (s : System) : Event → Prop
  | .read i => ∀ call, s.calls[i]? = some (.begun call) → Aims q key call →
    (candidates (readingOf s call) = [] ∨ ∃ f, First (readingOf s call) f) ∧
      ∀ (j : Nat) session r, s.calls[j]? = some session → session.reading = some r → Aims q key r.call →
        r.call.appVersion = call.appVersion ∧ r.isLatestVersion = (readingOf s call).isLatestVersion
  | .other op => ∀ (j : Nat) session r, s.calls[j]? = some session → session.reading = some r → Aims q key r.call →
    ∀ f, First r f → (s.store.commit none (op.apply s.store.table)).Fresh r.snapshot f.1 →
      ∀ k row, (op.apply s.store.table).get? k = some row → (op.apply s.store.table).get? k ≠ s.store.table.get? k →
        startableHits r.call r.isLatestVersion k row = true → ahead f (k,row) = true
  | _ => True

/-! ### Running rows -/

/-- No operation but a dequeue makes a row run on a queue. -/
theorem other_running {t : Statuses} {op : Op} (plain : isDequeue op = false) {name : String} {key : Option String}
    {k : String} {row : WorkflowStatus} (found : (op.apply t).get? k = some row) (runs : runningHits name key k row = true) :
    ∃ row', t.get? k = some row' ∧ runningHits name key k row' = true := by
  have change := apply_changes t op k
  rw [found] at change
  generalize before : t.get? k = old at change
  simp only [runningHits,decide_eq_true_eq] at runs
  obtain ⟨queue,pending,partition⟩ := runs
  cases change with
  | kept => exact ⟨row,rfl,by simp [runningHits,queue,pending,partition]⟩
  | inserted _ new =>
    exfalso
    cases new with
    | init initStatus =>
      have onQueue : initStatus.status.queueName = some name := queue
      have waits := initStatus.shape.queued (by rw [onQueue]; rfl)
      have status : initStatus.status.status = PENDING := pending
      rw [status] at waits
      split at waits <;> cases waits
    | enqueued _ _ s _ _ _ waits =>
      have status : s.status.status = PENDING := pending
      rw [waits] at status
      cases status
    | forked => cases pending
  | rewritten r _ by_ =>
    have same : ∀ {r' : WorkflowStatus}, r'.queue_name = some name → r'.status = PENDING →
        inPartition key r' = true → runningHits name key k r' = true := by
      intro r' queue pending partition
      simp [runningHits,queue,pending,partition]
    cases by_ with
    | upserted => exact ⟨r,rfl,same queue pending partition⟩
    | exceeded => cases pending
    | recorded _ outcome => cases outcome <;> cases pending
    | reenqueued => cases pending
    | cancelled => cases pending
    | resumed => cases pending
    | prioritised => exact ⟨r,rfl,same queue pending partition⟩
    | delayed => exact ⟨r,rfl,same queue pending partition⟩
    | bounced => exact ⟨r,rfl,same queue pending partition⟩
    | forkedFrom => exact ⟨r,rfl,same queue pending partition⟩
    | transitioned => cases pending
    | claimed => cases plain
    | adopted => exact ⟨r,rfl,same queue pending partition⟩

theorem ahead_asymm {a b : String × WorkflowStatus} (first : ahead a b = true) : ahead b a = false := by
  simp only [ahead,decide_eq_true_eq,decide_eq_false_iff_not] at first ⊢
  omega

theorem tasksFor_limit {call : DequeueCall} {N : Nat} (limit : call.queue.concurrency = some N) (t : Statuses) :
    ∃ m, tasksFor call t = some m ∧ m ≤ N - t.count (runningHits call.queue.name call.queuePartitionKey) := by
  unfold tasksFor maxTasks
  rw [limit]
  cases call.queue.workerConcurrency with
  | none => exact ⟨_,rfl,Nat.le_refl _⟩
  | some w => exact ⟨_,rfl,Nat.min_le_right _ _⟩

/-! ### What a call that is under way can rely on -/

/-- While the first candidate is as it was, every other candidate is behind it and no row
    runs that did not run in the snapshot. -/
structure Guarded (q : WorkflowQueue) (key : Option String) (store : Store) (r : Reading) : Prop where
  first : candidates r = [] ∨ ∃ f, First r f
  behind : ∀ f, First r f → store.Fresh r.snapshot f.1 → ∀ k row, store.table.get? k = some row →
    startableHits r.call r.isLatestVersion k row = true → k = f.1 ∨ ahead f (k,row) = true
  running : ∀ f, First r f → store.Fresh r.snapshot f.1 → ∀ k row, store.table.get? k = some row →
    runningHits q.name key k row = true → ∃ row', r.snapshot.table.get? k = some row' ∧ runningHits q.name key k row' = true

/-- A commit keeps this when the candidates it makes are behind and the rows it makes run did run. -/
theorem guarded_commit {q : WorkflowQueue} {key : Option String} {store : Store} {r : Reading}
    (guarded : Guarded q key store r) (saw : store.Saw r.snapshot) (w : Option Nat) {t' : Statuses}
    (behind : ∀ f, First r f → (store.commit w t').Fresh r.snapshot f.1 → ∀ k row, t'.get? k = some row →
      t'.get? k ≠ store.table.get? k → startableHits r.call r.isLatestVersion k row = true → ahead f (k,row) = true)
    (running : ∀ f, First r f → (store.commit w t').Fresh r.snapshot f.1 → ∀ k row, t'.get? k = some row →
      t'.get? k ≠ store.table.get? k → runningHits q.name key k row = true →
      ∃ row', store.table.get? k = some row' ∧ runningHits q.name key k row' = true) :
    Guarded q key (store.commit w t') r := by
  refine ⟨guarded.first,?_,?_⟩
  · intro f first fresh k row found hit
    by_cases same : t'.get? k = store.table.get? k
    · exact guarded.behind f first ((Heap.fresh_commit saw.past w t' f.1).mp fresh).1 k row (same ▸ found) hit
    · exact .inr (behind f first fresh k row found same hit)
  · intro f first fresh k row found runs
    have before := ((Heap.fresh_commit saw.past w t' f.1).mp fresh).1
    by_cases same : t'.get? k = store.table.get? k
    · exact guarded.running f first before k row (same ▸ found) runs
    · obtain ⟨row',found',runs'⟩ := running f first fresh k row found same runs
      exact guarded.running f first before k row' found' runs'

theorem guarded_read {q : WorkflowQueue} {key : Option String} (s : System) (call : DequeueCall)
    (first : candidates (readingOf s call) = [] ∨ ∃ f, First (readingOf s call) f) :
    Guarded q key s.store (readingOf s call) := by
  refine ⟨first,?_,fun _ _ _ k row found runs => ⟨row,found,runs⟩⟩
  intro f leads _ k row found hit
  by_cases same : (k,row) = f
  · exact .inl (congrArg Prod.fst same)
  · exact .inr (leads.2 (k,row) (mem_select.mpr ⟨found,hit⟩) same)

/-- The row that was first is still there as long as it is fresh. -/
theorem first_current {store : Store} {r : Reading} {f : String × WorkflowStatus} (saw : store.Saw r.snapshot)
    (first : First r f) (fresh : store.Fresh r.snapshot f.1) :
    store.table.get? f.1 = some f.2 ∧ startableHits r.call r.isLatestVersion f.1 f.2 = true := by
  obtain ⟨stored,hit⟩ := mem_select.mp first.1
  exact ⟨(saw.same f.1 fresh).trans stored,hit⟩

/-- Two calls that range over the same rows have the same first row while both are fresh. -/
theorem first_shared {q : WorkflowQueue} {key : Option String} {store : Store} {r r' : Reading}
    {f f' : String × WorkflowStatus} (guarded : Guarded q key store r) (guarded' : Guarded q key store r')
    (saw : store.Saw r.snapshot) (saw' : store.Saw r'.snapshot)
    (same : startableHits r.call r.isLatestVersion = startableHits r'.call r'.isLatestVersion)
    (first : First r f) (first' : First r' f') (fresh : store.Fresh r.snapshot f.1)
    (fresh' : store.Fresh r'.snapshot f'.1) : f.1 = f'.1 := by
  obtain ⟨stored,hit⟩ := first_current saw first fresh
  obtain ⟨stored',hit'⟩ := first_current saw' first' fresh'
  rcases guarded.behind f first fresh f'.1 f'.2 stored' (same ▸ hit') with equal | behind
  · exact equal.symm
  · rcases guarded'.behind f' first' fresh' f.1 f.2 stored (same.symm ▸ hit) with equal | behind'
    · exact equal
    · rw [ahead_asymm behind] at behind'
      cases behind'

/-- With NOWAIT the answer starts with the first candidate. -/
theorem answer_leads {r : Reading} {f : String × WorkflowStatus} {rows : List (String × WorkflowStatus)} {limit : Option Nat}
    (first : First r f) (answer : Answer ahead (candidates r) limit rows) (room : limit ≠ some 0) :
    ∃ rest, rows = f :: rest := by
  have member := answer_first answer room first.1 first.2
  cases rows with
  | nil => cases member
  | cons e rest =>
    by_cases same : e = f
    · exact ⟨rest,by rw [same]⟩
    · rcases List.mem_cons.mp member with equal | later
      · exact absurd equal.symm same
      · have order := (List.pairwise_cons.mp answer.2.2.1).1 f later
        have leads := first.2 e (answer.2.1 e List.mem_cons_self) same
        rw [order] at leads
        cases leads

/-! ### The invariant -/

/-- The running rows are within the limit; calls under way range over the same rows, are
    guarded, and lock the first candidate before any other. -/
structure Limited (q : WorkflowQueue) (key : Option String) (N : Nat) (s : System) : Prop where
  bound : s.store.table.count (runningHits q.name key) ≤ N
  configured : ∀ (i : Nat) session, s.calls[i]? = some session → Configured q session.call
  agree : ∀ (i j : Nat) session session' r r', s.calls[i]? = some session → session.reading = some r → Aims q key r.call →
    s.calls[j]? = some session' → session'.reading = some r' → Aims q key r'.call →
    r.call.appVersion = r'.call.appVersion ∧ r.isLatestVersion = r'.isLatestVersion
  guarded : ∀ (i : Nat) session r, s.calls[i]? = some session → session.reading = some r → Aims q key r.call →
    Guarded q key s.store r
  leads : ∀ (i : Nat) r ids, s.calls[i]? = some (.selected r ids) → Aims q key r.call →
    ids = [] ∨ ∃ f rest, First r f ∧ ids = f.1 :: rest

section
variable {q : WorkflowQueue} {key : Option String} {N : Nat}

theorem startableHits_congr {call call' : DequeueCall} (aims : Aims q key call) (aims' : Aims q key call')
    (version : call.appVersion = call'.appVersion) (latest : Bool) :
    startableHits call latest = startableHits call' latest := by
  funext k row
  simp only [startableHits,aims.1,aims.2,aims'.1,aims'.2,version]

/-- The same calls with fewer readings, on the same table. -/
theorem limited_fewer {s s' : System} (limited : Limited q key N s) (same : s'.store = s.store)
    (fewer : ∀ (j : Nat) session, s'.calls[j]? = some session → session.reading.isSome → s.calls[j]? = some session)
    (configured : ∀ (i : Nat) session, s'.calls[i]? = some session → Configured q session.call) :
    Limited q key N s' := by
  refine ⟨same ▸ limited.bound,configured,?_,?_,?_⟩
  · intro i j session session' r r' found reads aims found' reads' aims'
    exact limited.agree i j session session' r r' (fewer i _ found (by simp [reads])) reads aims
      (fewer j _ found' (by simp [reads'])) reads' aims'
  · intro i session r found reads aims
    exact same ▸ limited.guarded i session r (fewer i _ found (by simp [reads])) reads aims
  · intro i r ids found aims
    exact limited.leads i r ids (fewer i _ found rfl) aims

theorem limited_read {s : System} (limited : Limited q key N s) {i : Nat} {call : DequeueCall}
    (found : s.calls[i]? = some (.begun call)) (ordered : Ordered q key s (.read i)) :
    Limited q key N { s with calls := s.calls.set i (.counted (readingOf s call)) } := by
  -- A reading is an old one or the new one.
  have cases_ : ∀ (j : Nat) session r, (s.calls.set i (.counted (readingOf s call)))[j]? = some session →
      session.reading = some r → s.calls[j]? = some session ∨ r = readingOf s call := by
    intro j session r listed reads
    rcases party_set_cases found listed with ⟨here,same⟩ | ⟨here,listed⟩
    · cases same
      cases reads
      exact .inr rfl
    · exact .inl listed
  refine ⟨limited.bound,configured_set limited.configured found rfl,?_,?_,?_⟩
  · intro j k session session' r r' listed reads aims listed' reads' aims'
    rcases cases_ j session r listed reads with old | rfl
    · rcases cases_ k session' r' listed' reads' with old' | rfl
      · exact limited.agree j k session session' r r' old reads aims old' reads' aims'
      · exact (ordered call found aims').2 j session r old reads aims
    · rcases cases_ k session' r' listed' reads' with old' | rfl
      · obtain ⟨version,latest⟩ := (ordered call found aims).2 k session' r' old' reads' aims'
        exact ⟨version.symm,latest.symm⟩
      · exact ⟨rfl,rfl⟩
  · intro j session r listed reads aims
    rcases cases_ j session r listed reads with old | rfl
    · exact limited.guarded j session r old reads aims
    · exact guarded_read s call (ordered call found aims).1
  · intro j r ids listed aims
    rcases party_set_cases found listed with ⟨here,same⟩ | ⟨here,listed⟩
    · cases same
    · exact limited.leads j r ids listed aims

theorem limited_select {s : System} (limited : Limited q key N s) (sound : Sound s) (limit : q.concurrency = some N)
    {i : Nat} {r : Reading} {busy : List String} {rows : List (String × WorkflowStatus)}
    (found : s.calls[i]? = some (.counted r)) (selects : Selects s r busy rows) :
    Limited q key N { s with calls := s.calls.set i (.selected r (rows.map Prod.fst)) } := by
  refine ⟨limited.bound,configured_set limited.configured found rfl,?_,?_,?_⟩
  · intro j k session session' r₁ r₂ listed reads aims listed' reads' aims'
    obtain ⟨old,before,reads⟩ := reading_set found listed reads rfl
    obtain ⟨old',before',reads'⟩ := reading_set found listed' reads' rfl
    exact limited.agree j k old old' r₁ r₂ before reads aims before' reads' aims'
  · intro j session r' listed reads aims
    obtain ⟨old,before,reads⟩ := reading_set found listed reads rfl
    exact limited.guarded j old r' before reads aims
  · intro j r' ids listed aims
    rcases party_set_cases found listed with ⟨here,same⟩ | ⟨here,listed⟩
    · cases same
      obtain ⟨tasks,_,work⟩ := sound.counts i _ r found rfl
      have concurrency : r.call.queue.concurrency = some N := by rw [aims.1]; exact limit
      obtain ⟨m,some_,small⟩ := tasksFor_limit concurrency r.snapshot.table
      have room : r.maxTasks ≠ some 0 := by
        intro zero
        rw [← tasks,zero] at some_
        rw [nothingToDo,decide_eq_false_iff_not,not_or] at work
        exact work.2 (tasks.symm.trans zero)
      have positive : N ≠ 0 := by
        rintro rfl
        rw [← tasks] at some_
        have zero : m = 0 := by omega
        exact room (zero ▸ some_)
      -- The queue has a limit, so the SELECT reads the snapshot and does not wait.
      have mode : noWait r.call.queue = true := by simp [noWait,concurrency,positive]
      have repeatable : repeatableRead r.call.queue = true := by simp [repeatableRead,concurrency]
      have answer : Answer ahead (candidates r) r.maxTasks rows := by
        rw [Selects,if_pos mode,System.startable,if_pos repeatable] at selects
        exact selects.1
      rcases (limited.guarded i _ r found rfl aims).first with none_ | ⟨f,first⟩
      · left
        cases rows with
        | nil => rfl
        | cons e rest =>
          have listed := answer.2.1 e List.mem_cons_self
          rw [none_] at listed
          cases listed
      · obtain ⟨rest,rfl⟩ := answer_leads first answer room
        exact .inr ⟨f,rest.map Prod.fst,first,rfl⟩
    · exact limited.leads j r' ids listed aims

theorem limited_other {s : System} (limited : Limited q key N s) (sound : Sound s) {op : Op} (plain : isDequeue op = false)
    (ordered : Ordered q key s (.other op)) :
    Limited q key N { s with store := s.store.commit none (op.apply s.store.table) } := by
  refine ⟨?_,limited.configured,limited.agree,?_,limited.leads⟩
  · have fewer : (op.apply s.store.table).count (runningHits q.name key) ≤
        s.store.table.count (runningHits q.name key) + 0 :=
      Table.count_le_add [] fun k row found runs => .inl (other_running plain found runs)
    exact Nat.le_trans fewer limited.bound
  · intro i session r found reads aims
    refine guarded_commit (limited.guarded i session r found reads aims) (sound.saw i session r found reads) none ?_ ?_
    · intro f first fresh k row found' changed hit
      exact ordered i session r found reads aims f first fresh k row found' changed hit
    · intro f first fresh k row found' changed runs
      exact other_running plain found' runs

/-! ### The commit of a call -/

section
variable {s : System} {i : Nat} {r : Reading} {workflowIDs new : List String} {now : Int}

/-- The call stays within the limit of its snapshot, which no other call has used since. -/
theorem commit_bound (limited : Limited q key N s) (sound : Sound s) (limit : q.concurrency = some N)
    (found : s.calls[i]? = some (.selected r workflowIDs)) (aims : Aims q key r.call)
    (claims : Claims r.call r.numRecentQueries now workflowIDs [] s.store.table new) :
    (claimLoop r.call r.numRecentQueries now workflowIDs [] s.store.table).2.count (runningHits q.name key) ≤ N := by
  have concurrency : r.call.queue.concurrency = some N := by rw [aims.1]; exact limit
  have repeatable : repeatableRead r.call.queue = true := by simp [repeatableRead,concurrency]
  rcases limited.leads i r workflowIDs found aims with rfl | ⟨f,rest,first,rfl⟩
  · simpa [claimLoop] using limited.bound
  · have fresh := sound.fresh i r _ found repeatable f.1 List.mem_cons_self
    have guarded := limited.guarded i _ r found rfl aims
    obtain ⟨tasks,_,work⟩ := sound.counts i _ r found rfl
    obtain ⟨m,some_,small⟩ := tasksFor_limit concurrency r.snapshot.table
    rw [aims.1,aims.2] at small
    have room : m ≠ 0 := by
      rintro rfl
      rw [nothingToDo,decide_eq_false_iff_not,not_or] at work
      exact work.2 some_
    have few : new.length ≤ m := by
      have within := (List.subperm_of_subset claims.nodup claims.listed).length_le
      exact Nat.le_trans within ((sound.held i r _ found).1 m (tasks.trans some_))
    have total : (claimLoop r.call r.numRecentQueries now (f.1 :: rest) [] s.store.table).2.count (runningHits q.name key) ≤
        r.snapshot.table.count (runningHits q.name key) + new.length := by
      refine Table.count_le_add new ?_
      intro k row stored runs
      by_cases member : k ∈ new
      · exact .inr member
      · rw [claims.kept k member] at stored
        exact .inl (guarded.running f first fresh k row stored runs)
    omega

/-- After the commit no other call of the queue has its first candidate as it was. -/
theorem commit_collides (limited : Limited q key N s) (sound : Sound s) (limit : q.concurrency = some N)
    (found : s.calls[i]? = some (.selected r workflowIDs)) (aims : Aims q key r.call)
    (claims : Claims r.call r.numRecentQueries now workflowIDs [] s.store.table new) (some_ : new ≠ []) {j : Nat}
    {session : Session} {r' : Reading} (found' : s.calls[j]? = some session) (reads : session.reading = some r')
    (aims' : Aims q key r'.call) {f' : String × WorkflowStatus} (first' : First r' f')
    (fresh' : s.store.Fresh r'.snapshot f'.1)
    (kept : (claimLoop r.call r.numRecentQueries now workflowIDs [] s.store.table).2.get? f'.1 = s.store.table.get? f'.1) :
    False := by
  have concurrency : r.call.queue.concurrency = some N := by rw [aims.1]; exact limit
  have repeatable : repeatableRead r.call.queue = true := by simp [repeatableRead,concurrency]
  have saw := sound.saw i _ r found rfl
  have saw' := sound.saw j session r' found' reads
  rcases limited.leads i r workflowIDs found aims with rfl | ⟨f,rest,first,rfl⟩
  · cases new with
    | nil => exact some_ rfl
    | cons k _ => cases claims.listed k List.mem_cons_self
  · have fresh := sound.fresh i r _ found repeatable f.1 List.mem_cons_self
    obtain ⟨version,latest⟩ := limited.agree i j _ session r r' found rfl aims found' reads aims'
    have same : startableHits r.call r.isLatestVersion = startableHits r'.call r'.isLatestVersion := by
      rw [← latest]
      exact startableHits_congr aims aims' version r.isLatestVersion
    have shared := first_shared (limited.guarded i _ r found rfl aims) (limited.guarded j session r' found' reads aims')
      saw saw' same first first' fresh fresh'
    -- The first row is claimed by the commit, so it is not as it was.
    obtain ⟨stored,hit⟩ := first_current saw first fresh
    obtain ⟨_,_,work⟩ := sound.counts i _ r found rfl
    have unexhausted : rateExhausted r.call r.numRecentQueries = false := by
      obtain ⟨_,recent,_⟩ := sound.counts i _ r found rfl
      rw [nothingToDo,decide_eq_false_iff_not,not_or] at work
      rw [recent]
      exact Bool.eq_false_iff.mpr work.1
    have claimed := claimLoop_first unexhausted stored (startable_iff.mp hit).1 claims
    obtain ⟨row,before,waits,after⟩ := claims.claimed f.1 claimed
    rw [← shared,after,before] at kept
    have status := congrArg WorkflowStatus.status (Option.some.inj kept)
    rw [waits] at status
    cases status

theorem limited_commit (limited : Limited q key N s) (sound : Sound s) (limit : q.concurrency = some N)
    (partition : key.isSome = q.partitionQueue) (found : s.calls[i]? = some (.selected r workflowIDs)) :
    Limited q key N { s with
      store := s.store.commit (some i) (claimLoop r.call r.numRecentQueries now workflowIDs [] s.store.table).2
      calls := s.calls.set i
        (.returned r.call (claimLoop r.call r.numRecentQueries now workflowIDs [] s.store.table).1) } := by
  obtain ⟨new,claims⟩ := claimLoop_claims r.call r.numRecentQueries now workflowIDs [] s.store.table
  have fewer : ∀ (j : Nat) session, (s.calls.set i (.returned r.call
      (claimLoop r.call r.numRecentQueries now workflowIDs [] s.store.table).1))[j]? = some session →
      session.reading.isSome → s.calls[j]? = some session := fewer_set found rfl
  have elsewhere : ¬ Aims q key r.call → ∀ k ∈ new,∀ row,
      (claimLoop r.call r.numRecentQueries now workflowIDs [] s.store.table).2.get? k = some row →
      runningHits q.name key k row = false := by
    intro other k member row stored
    obtain ⟨before,_,hit,after⟩ := claims_startable sound found claims member
    cases stored.symm.trans after
    exact claimed_elsewhere (limited.configured i _ found) partition other hit
  refine ⟨?_,configured_set limited.configured found rfl,?_,?_,?_⟩
  · by_cases aims : Aims q key r.call
    · exact commit_bound limited sound limit found aims claims
    · have same : (claimLoop r.call r.numRecentQueries now workflowIDs [] s.store.table).2.count (runningHits q.name key) ≤
          s.store.table.count (runningHits q.name key) + 0 := by
        refine Table.count_le_add [] ?_
        intro k row stored runs
        by_cases member : k ∈ new
        · rw [elsewhere aims k member row stored] at runs
          cases runs
        · rw [claims.kept k member] at stored
          exact .inl ⟨row,stored,runs⟩
      exact Nat.le_trans same limited.bound
  · intro j k session session' r₁ r₂ listed reads aims listed' reads' aims'
    exact limited.agree j k session session' r₁ r₂ (fewer j _ listed (by simp [reads])) reads aims
      (fewer k _ listed' (by simp [reads'])) reads' aims'
  · intro j session r' listed reads aims'
    have before := fewer j _ listed (by simp [reads])
    have saw := sound.saw j session r' before reads
    -- A claimed row is PENDING, so it is no candidate of anyone.
    have claimedNot : ∀ k ∈ new,∀ row,
        (claimLoop r.call r.numRecentQueries now workflowIDs [] s.store.table).2.get? k = some row →
        startableHits r'.call r'.isLatestVersion k row = false := by
      intro k member row stored
      obtain ⟨_,_,_,after⟩ := claims.claimed k member
      cases stored.symm.trans after
      simp [startableHits,claimedRow]
    refine guarded_commit (limited.guarded j session r' before reads aims') saw (some i) ?_ ?_
    · intro f first fresh k row stored changed hit
      rw [claimedNot k (claims_changed claims changed) row stored] at hit
      cases hit
    · intro f first fresh k row stored changed runs
      have member := claims_changed claims changed
      by_cases aims : Aims q key r.call
      · exfalso
        obtain ⟨fresh,kept⟩ := (Heap.fresh_commit saw.past _ _ _).mp fresh
        exact commit_collides limited sound limit found aims claims (List.ne_nil_of_mem member) before reads aims' first
          fresh kept
      · rw [elsewhere aims k member row stored] at runs
        cases runs
  · intro j r' ids listed aims
    exact limited.leads j r' ids (fewer j _ listed rfl) aims

end

theorem step_limited {s s' : System} {e : Event} (limited : Limited q key N s) (sound : Sound s)
    (limit : q.concurrency = some N) (partition : key.isSome = q.partitionQueue) (ordered : Ordered q key s e)
    (fixed : ∀ call, e = .begin call → Configured q call) (taken : step s e = some s') : Limited q key N s' := by
  cases step_moves taken with
  | begin call =>
    refine limited_fewer limited rfl ?_ ?_
    · intro j session listed reads
      rcases party_append listed with old | ⟨_,rfl⟩
      · exact old
      · cases reads
    · intro j session listed
      rcases party_append listed with old | ⟨_,rfl⟩
      · exact limited.configured j session old
      · exact fixed call rfl
  | idle i call found nothing =>
    exact limited_fewer limited rfl (fewer_set found rfl) (configured_set limited.configured found rfl)
  | read i call found work => exact limited_read limited found ordered
  | select i r busy rows found selects => exact limited_select limited sound limit found selects
  | commit i now r workflowIDs found => exact limited_commit limited sound limit partition found
  | fail i session found running =>
    exact limited_fewer limited rfl (fewer_set found rfl) (configured_set limited.configured found rfl)
  | version latestVersion => exact limited_fewer limited rfl (fun _ _ listed _ => listed) limited.configured
  | tick elapsed => exact limited_fewer limited rfl (fun _ _ listed _ => listed) limited.configured
  | other op plain free => exact limited_other limited sound plain ordered

end

/-- For a queue with a fixed concurrency `N`, in every run whose steps are ordered, no more
    than `N` rows of the queue, or of one partition of it, are PENDING. -/
theorem concurrency_limit {q : WorkflowQueue} {key : Option String} {N : Nat} (limit : q.concurrency = some N)
    (partition : key.isSome = q.partitionQueue) {t : Statuses} (below : t.count (runningHits q.name key) ≤ N)
    {events : List Event} (fixed : ∀ call, .begin call ∈ events → Configured q call)
    (ordered : Along step (Ordered q key) (start t) events) {s : System} (run : Runs step (start t) events s) :
    s.store.table.count (runningHits q.name key) ≤ N := by
  have along : Along step (fun s e => Ordered q key s e ∧ ∀ call, e = .begin call → Configured q call) (start t) events := by
    refine along_iff.mpr ?_
    intro first e rest u split reached
    refine ⟨along_iff.mp ordered first e rest u split reached,?_⟩
    rintro call rfl
    exact fixed call (by simp [split])
  have both : Limited q key N s ∧ Sound s := by
    refine along_invariant (I := fun s => Limited q key N s ∧ Sound s) ?_ ⟨?_,sound_start t⟩ along run
    · rintro s e s' ⟨limited,sound⟩ ⟨ordered,fixed⟩ taken
      exact ⟨step_limited limited sound limit partition ordered fixed taken,step_sound sound taken⟩
    · exact ⟨below,by simp [start],by simp [start],by simp [start],by simp [start]⟩
  exact both.1.bound

/-- A queue that may run one workflow, with one workflow of each of two versions waiting. -/
def oneAtATime : WorkflowQueue := { name := "q",concurrency := some 1 }

def waitingRow (version : String) (createdAt : Int) : WorkflowStatus :=
  { status := ENQUEUED,name := "f",queue_name := some "q",application_version := some version,
    created_at := createdAt,updated_at := createdAt }

def twoVersions : Statuses := (Table.empty.insert "a" (waitingRow "v1" 1)).insert "b" (waitingRow "v2" 2)

def callOf (version : String) : DequeueCall :=
  { queue := oneAtATime,executorID := version,appVersion := version,startTimeMs := 0 }

/-- Executors of both versions read before either commits, and neither meets a lock of the other. -/
def versionsOverlap : List Event :=
  [.begin (callOf "v1"),.begin (callOf "v2"),.read 0,.read 1,
   .select 0 [] [("a",waitingRow "v1" 1)],.select 1 [] [("b",waitingRow "v2" 2)],
   .commit 0 5,.commit 1 5]

/-- Two workflows of one version that tie, so the answers of the SELECTs may differ. -/
def twoTied : Statuses := (Table.empty.insert "a" (waitingRow "v1" 1)).insert "b" (waitingRow "v1" 1)

def tiesOverlap : List Event :=
  [.begin (callOf "v1"),.begin (callOf "v1"),.read 0,.read 1,
   .select 0 [] [("a",waitingRow "v1" 1)],.select 1 [] [("b",waitingRow "v1" 1)],
   .commit 0 5,.commit 1 5]

def secondary (createdAt : Int) : WorkflowStatus := { waitingRow "v1" createdAt with priority := 5 }

/-- Two workflows of one version; "b" is moved ahead of "a" while a call that selected "a" is under way. -/
def twoInOrder : Statuses := (Table.empty.insert "a" (secondary 1)).insert "b" (secondary 2)

def overtaken : List Event :=
  [.begin (callOf "v1"),.begin (callOf "v1"),.read 0,.select 0 [] [("a",secondary 1)],
   .other (.setWorkflowPriority "b" 1 4),.read 1,
   .select 1 [] [("b",{ secondary 2 with priority := 1,updated_at := 4 })],.commit 0 5,.commit 1 5]

theorem running_exceeds_limit :
    (∃ s, Runs step (start twoVersions) versionsOverlap s ∧ s.store.table.count (runningHits "q" none) = 2) ∧
    (∃ s, Runs step (start twoTied) tiesOverlap s ∧ s.store.table.count (runningHits "q" none) = 2) ∧
    ∃ s, Runs step (start twoInOrder) overtaken s ∧ s.store.table.count (runningHits "q" none) = 2 :=
  ⟨⟨_,rfl,rfl⟩,⟨_,rfl,rfl⟩,⟨_,rfl,rfl⟩⟩

/-- Two executors of one version overlap: the second fails on the lock of the first. -/
def oneVersion : List Event :=
  [.begin (callOf "v1"),.begin (callOf "v1"),.read 0,.read 1,.select 0 [] [("a",waitingRow "v1" 1)],
   .fail 1,.commit 0 5]

theorem oneVersion_within : ∃ s, Runs step (start twoVersions) oneVersion s ∧
    s.store.table.count (runningHits "q" none) ≤ 1 := by
  obtain ⟨s,run⟩ : ∃ s, Runs step (start twoVersions) oneVersion s := ⟨_,rfl⟩
  refine ⟨s,run,concurrency_limit (q := oneAtATime) rfl rfl (by decide) ?_ ?_ run⟩
  · intro call member
    simp only [oneVersion,List.mem_cons,Event.begin.injEq,reduceCtorEq,List.not_mem_nil,or_false,or_self] at member
    subst member
    exact fun _ => ⟨rfl,rfl⟩
  · -- Only the two reads have something to show: "a" is first for both, and their versions are the same.
    refine ⟨trivial,?_⟩
    rintro _ ⟨⟩
    refine ⟨trivial,?_⟩
    rintro _ ⟨⟩
    refine ⟨?_,?_⟩
    · rintro call ⟨⟩ _
      refine ⟨.inr ⟨("a",waitingRow "v1" 1),by decide⟩,?_⟩
      rintro (_ | _ | j) session r found reads
      · cases found
        cases reads
      · cases found
        cases reads
      · cases found
    rintro _ ⟨⟩
    refine ⟨?_,?_⟩
    · rintro call ⟨⟩ _
      refine ⟨.inr ⟨("a",waitingRow "v1" 1),by decide⟩,?_⟩
      rintro (_ | _ | j) session r found reads
      · cases found
        cases reads
        exact fun _ => ⟨rfl,rfl⟩
      · cases found
        cases reads
      · cases found
    rintro _ ⟨⟩
    refine ⟨trivial,?_⟩
    rintro _ ⟨⟩
    refine ⟨trivial,?_⟩
    rintro _ ⟨⟩
    refine ⟨trivial,?_⟩
    rintro _ ⟨⟩
    trivial

end Dbos.Concurrency
