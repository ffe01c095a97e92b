import Dbos.ExactlyOnce

/-!
The rate limit of a queue. A call counts the rows that started in the period before its
clock, from its snapshot, and claims what the limit leaves. The count is right as long as
the start of a row stays in the row: cancelling, resuming, re-enqueueing or deleting a
workflow erases it. And calls that overlap lock different rows (SKIP LOCKED), so each of
them uses what the limit left to the other. In runs where neither happens within a period
(`Spared`) every half-open window of that length has at most the limit of starts.
-/
namespace Dbos.RateLimit
open Dbos.Pg Dbos.Schema Dbos.Status Dbos.Dequeue Dbos.Dispatch StatusString
open Dbos.Ops hiding step
open Dbos.ExactlyOnce (Starts HasStatus other_starts_nothing claims_write)

section
variable (q : WorkflowQueue) (key : Option String)

/-- The start time of an ENQUEUED to PENDING transition on the queue, or in the partition. -/
def startOn (e : Write (Option Nat) String WorkflowStatus) : Option Int :=
  match e.before,e.after with
  | some before,some after =>
    if before.status = ENQUEUED ∧ runningHits q.name key e.key after = true then after.started_at_epoch_ms else none
  | _,_ => none

/-- The starts of the queue in the order of their commits, each with its workflow. -/
def startsOf (log : List (Write (Option Nat) String WorkflowStatus)) : List (String × Int) :=
  log.filterMap fun e => (startOn q key e).map fun start => (e.key,start)

/-- The start lies in the window of the given length that begins at `w`. -/
def inWindow (period w : Int) (e : String × Int) : Bool := w ≤ e.2 ∧ e.2 < w + period

/-- No window has more starts than the limit. -/
def Within (limit : QueueRateLimit) (s : System) : Prop :=
  ∀ w, (startsOf q key s.store.log).countP (inWindow limit.limiterPeriodMS w) ≤ limit.limitPerPeriod

/-- The start for which a row is counted, if it is. -/
def countedStart (row : WorkflowStatus) : Option Int :=
  if row.queue_name = some q.name ∧ row.rate_limited = true ∧ row.status ≠ ENQUEUED ∧ row.status ≠ DELAYED ∧
      inPartition key row = true then row.started_at_epoch_ms else none

/-- The start is a period old for every call of the queue that has yet to read. -/
def Expired (period : Int) (s : System) (start : Int) : Prop :=
  start + period ≤ s.now ∧
    ∀ (j : Nat) call, s.calls[j]? = some (.begun call) → Aims q key call → start + period ≤ call.startTimeMs

/-- A call reads the common clock. -/
def CommonClock (s : System) : Event → Prop
  | .begin call => call.startTimeMs = s.now
  | _ => True

instance (s : System) : (e : Event) → Decidable (CommonClock s e)
  | .begin call => inferInstanceAs (Decidable (call.startTimeMs = s.now))
  | .read _ | .select _ _ _ | .commit _ _ | .fail _ | .version _ | .tick _ | .other _ => .isTrue trivial

/-- The condition on the steps: when a call that has rows to claim commits, no call that started
    rows of the queue after its snapshot has a clock within a period of its own; and an
    operation erases only expired starts. -/
def Spared (limit : QueueRateLimit) (s : System) : Event → Prop
  | .commit i _ => ∀ r workflowIDs, s.calls[i]? = some (.selected r workflowIDs) → Aims q key r.call →
    workflowIDs ≠ [] → ∀ e ∈ startsOf q key (s.store.since r.snapshot),
      e.2 + limit.limiterPeriodMS ≤ r.call.startTimeMs ∨ r.call.startTimeMs + limit.limiterPeriodMS ≤ e.2
  | .other op => ∀ k row start, s.store.table.get? k = some row → countedStart q key row = some start →
    ((op.apply s.store.table).get? k).bind (countedStart q key) ≠ some start →
    Expired q key limit.limiterPeriodMS s start
  | _ => True

end

variable {q : WorkflowQueue} {key : Option String} {limit : QueueRateLimit}

/-! ### Starts -/

theorem startsOf_append (first rest : List (Write (Option Nat) String WorkflowStatus)) :
    startsOf q key (first ++ rest) = startsOf q key first ++ startsOf q key rest := List.filterMap_append

theorem startOn_starts {e : Write (Option Nat) String WorkflowStatus} {start : Int} (starts : startOn q key e = some start) :
    Starts e := by
  unfold startOn at starts
  split at starts
  · rename_i before after old new
    split at starts
    · rename_i meets
      have pending := meets.2
      simp only [runningHits,decide_eq_true_eq] at pending
      exact ⟨⟨before,old,meets.1⟩,⟨after,new,pending.2.1⟩⟩
    · cases starts
  · cases starts

theorem startsOf_nil {log : List (Write (Option Nat) String WorkflowStatus)} (none_ : ∀ e ∈ log,startOn q key e = none) :
    startsOf q key log = [] := by
  rw [startsOf,List.filterMap_eq_nil_iff]
  intro e member
  rw [none_ e member]
  rfl

theorem startsOf_other {t : Statuses} {op : Op} (plain : isDequeue op = false) :
    startsOf q key (diff none t (op.apply t)) = [] := by
  refine startsOf_nil ?_
  intro e member
  cases starts : startOn q key e with
  | none => rfl
  | some start => exact absurd (startOn_starts starts) (other_starts_nothing plain member)

/-- A row that waits is not counted. -/
theorem countedStart_waiting {row : WorkflowStatus} (waits : row.status = ENQUEUED) : countedStart q key row = none := by
  simp [countedStart,waits]

section
variable {s : System} {i : Nat} {r : Reading} {workflowIDs new : List String} {now : Int}

/-- A claim on the queue is a start at the clock of the call, and its row is counted for it. -/
theorem claim_start (aims : Aims q key r.call) (rated : q.rateLimit.isSome) {k : String} {row : WorkflowStatus}
    (hit : startableHits r.call r.isLatestVersion k row = true) :
    runningHits q.name key k (claimedRow r.call now row) = true ∧
      countedStart q key (claimedRow r.call now row) = some r.call.startTimeMs := by
  obtain ⟨_,queue,_,within⟩ := startable_iff.mp hit
  rw [aims.1] at queue
  rw [aims.2] at within
  have within' : inPartition key (claimedRow r.call now row) = true := within
  refine ⟨?_,?_⟩
  · simp only [runningHits,within']
    simp [claimedRow,queue]
  · simp only [countedStart,within']
    simp [claimedRow,queue,aims.1,rated]

/-- The starts that a commit of the queue logs: one for each claimed row, all at the clock of the call. -/
theorem startsOf_claims (sound : Sound s) (found : s.calls[i]? = some (.selected r workflowIDs)) (aims : Aims q key r.call)
    (rated : q.rateLimit.isSome) (claims : Claims r.call r.numRecentQueries now workflowIDs [] s.store.table new) :
    startsOf q key (diff (some i) s.store.table
      (claimLoop r.call r.numRecentQueries now workflowIDs [] s.store.table).2) =
      (diff (some i) s.store.table (claimLoop r.call r.numRecentQueries now workflowIDs [] s.store.table).2).map
        fun e => (e.key,r.call.startTimeMs) := by
  rw [startsOf,← List.filterMap_eq_map]
  refine List.filterMap_congr ?_
  intro e member
  obtain ⟨_,listed⟩ := claims_write claims member
  obtain ⟨_,before,after,_⟩ := mem_diff.mp member
  obtain ⟨row,stored,hit,claimed⟩ := claims_startable sound found claims listed
  have start : startOn q key e = some r.call.startTimeMs := by
    rw [startOn,before,after,stored,claimed]
    exact if_pos ⟨(startable_iff.mp hit).1,(claim_start aims rated hit).1⟩
  rw [start]
  rfl

/-- A commit of another queue or partition logs none. -/
theorem startsOf_elsewhere (sound : Sound s) (found : s.calls[i]? = some (.selected r workflowIDs))
    (configured : Configured q r.call) (partition : key.isSome = q.partitionQueue) (elsewhere : ¬ Aims q key r.call)
    (claims : Claims r.call r.numRecentQueries now workflowIDs [] s.store.table new) :
    startsOf q key (diff (some i) s.store.table
      (claimLoop r.call r.numRecentQueries now workflowIDs [] s.store.table).2) = [] := by
  refine startsOf_nil ?_
  intro e member
  obtain ⟨_,listed⟩ := claims_write claims member
  obtain ⟨_,before,after,_⟩ := mem_diff.mp member
  obtain ⟨row,stored,hit,claimed⟩ := claims_startable sound found claims listed
  have other : runningHits q.name key e.key (claimedRow r.call now row) = false :=
    claimed_elsewhere configured partition elsewhere hit
  rw [startOn,before,after,stored,claimed]
  exact if_neg fun meets => by rw [other] at meets; cases meets.2

end

/-! ### The invariant -/

/-- Starts stay within the limit; a start that is not expired is in its row, so the rows that a
    call counts are at least the starts before it. -/
structure Paced (q : WorkflowQueue) (key : Option String) (limit : QueueRateLimit) (s : System) : Prop where
  within : Within q key limit s
  configured : ∀ (i : Nat) session, s.calls[i]? = some session → Configured q session.call
  live : ∀ e ∈ startsOf q key s.store.log,Expired q key limit.limiterPeriodMS s e.2 ∨
    ∃ row, s.store.table.get? e.1 = some row ∧ countedStart q key row = some e.2
  apart : (startsOf q key s.store.log).Pairwise fun a b => a.1 = b.1 → Expired q key limit.limiterPeriodMS s a.2
  counted : ∀ (i : Nat) session r, s.calls[i]? = some session → session.reading = some r → Aims q key r.call →
    (startsOf q key (s.store.log.take r.snapshot.time)).countP
      (fun e => r.call.startTimeMs - limit.limiterPeriodMS < e.2) ≤ r.numRecentQueries

theorem expired_later {period : Int} {s s' : System} {start : Int} (expired : Expired q key period s start)
    (later : s.now ≤ s'.now)
    (begun : ∀ (j : Nat) call, s'.calls[j]? = some (.begun call) →
      s.calls[j]? = some (.begun call) ∨ call.startTimeMs = s.now) : Expired q key period s' start := by
  refine ⟨Int.le_trans expired.1 later,?_⟩
  intro j call found aims
  rcases begun j call found with old | new
  · exact expired.2 j call old aims
  · rw [new]
    exact expired.1

/-- Steps that leave the store and add no reading. -/
theorem paced_quiet {s s' : System} (paced : Paced q key limit s) (same : s'.store = s.store) (later : s.now ≤ s'.now)
    (begun : ∀ (j : Nat) call, s'.calls[j]? = some (.begun call) →
      s.calls[j]? = some (.begun call) ∨ call.startTimeMs = s.now)
    (fewer : ∀ (j : Nat) session, s'.calls[j]? = some session → session.reading.isSome →
      ∃ old, s.calls[j]? = some old ∧ old.reading = session.reading)
    (configured : ∀ (i : Nat) session, s'.calls[i]? = some session → Configured q session.call) :
    Paced q key limit s' := by
  refine ⟨?_,configured,?_,?_,?_⟩
  · intro w
    rw [same]
    exact paced.within w
  · intro e member
    rw [same] at member ⊢
    exact (paced.live e member).imp (fun expired => expired_later expired later begun) id
  · rw [same]
    exact paced.apart.imp fun expired equal => expired_later (expired equal) later begun
  · intro i session r found reads aims
    rw [same]
    obtain ⟨old,before,reads'⟩ := fewer i session found (by simp [reads])
    exact paced.counted i old r before (reads'.trans reads) aims

/-- A call moves on without a new reading. -/
theorem paced_set {s : System} (paced : Paced q key limit s) {i : Nat} {old new : Session}
    (found : s.calls[i]? = some old) (same : new.call = old.call)
    (reads : new.reading = none ∨ new.reading = old.reading) (moved : ∀ call, new ≠ .begun call) :
    Paced q key limit { s with calls := s.calls.set i new } := by
  refine paced_quiet paced rfl (Int.le_refl _) ?_ ?_ (configured_set paced.configured found same)
  · intro j call listed
    rcases party_set_cases found listed with ⟨_,same⟩ | ⟨_,listed⟩
    · exact absurd same.symm (moved call)
    · exact .inl listed
  · intro j session listed some_
    rcases party_set_cases found listed with ⟨here,same⟩ | ⟨here,listed⟩
    · cases same
      rcases reads with none_ | kept
      · simp [none_] at some_
      · exact ⟨old,here ▸ found,kept.symm⟩
    · exact ⟨session,listed,rfl⟩

/-- A call that reads counts every start that is not expired for it. -/
theorem read_counts {s : System} (paced : Paced q key limit s) (rated : q.rateLimit = some limit) {i : Nat}
    {call : DequeueCall} (found : s.calls[i]? = some (.begun call)) (aims : Aims q key call) :
    (startsOf q key s.store.log).countP (fun e => call.startTimeMs - limit.limiterPeriodMS < e.2) ≤
      Dequeue.numRecentQueries call s.store.table := by
  have recent : Dequeue.numRecentQueries call s.store.table = s.store.table.count (recentHits call limit) := by
    rw [Dequeue.numRecentQueries,aims.1,rated]
  have open_ : ∀ e : String × Int, call.startTimeMs - limit.limiterPeriodMS < e.2 →
      ¬ Expired q key limit.limiterPeriodMS s e.2 := by
    intro e young expired
    have old := expired.2 i call found aims
    omega
  let young := (startsOf q key s.store.log).filter fun e => call.startTimeMs - limit.limiterPeriodMS < e.2
  have distinct : (young.map Prod.fst).Nodup := by
    rw [List.Nodup,List.pairwise_map]
    refine (List.Pairwise.filter _ paced.apart).imp_of_mem ?_
    intro a b member _ expired equal
    have fresh := (List.mem_filter.mp member).2
    exact open_ a (by simpa using fresh) (expired equal)
  have listed : young.map Prod.fst ⊆ s.store.table.keys (recentHits call limit) := by
    intro k member
    obtain ⟨e,kept,rfl⟩ := List.mem_map.mp member
    obtain ⟨start,fresh⟩ := List.mem_filter.mp kept
    simp only [decide_eq_true_eq] at fresh
    rcases paced.live e start with expired | ⟨row,stored,counts⟩
    · exact absurd expired (open_ e fresh)
    · refine (Table.mem_keys _ _ _).mpr ⟨row,stored,?_⟩
      unfold countedStart at counts
      split at counts
      · rename_i meets
        obtain ⟨queue,limited,waits,delays,within⟩ := meets
        rw [← aims.2] at within
        simp [recentHits,queue,limited,waits,delays,within,counts,fresh,aims.1]
      · cases counts
  have bound := (List.subperm_of_subset distinct listed).length_le
  rw [recent,Table.count,List.countP_eq_length_filter]
  simpa [young] using bound

theorem paced_read {s : System} (paced : Paced q key limit s) (rated : q.rateLimit = some limit) {i : Nat}
    {call : DequeueCall} (found : s.calls[i]? = some (.begun call)) :
    Paced q key limit { s with calls := s.calls.set i (.counted (readingOf s call)) } := by
  have begun : ∀ (j : Nat) call', (s.calls.set i (.counted (readingOf s call)))[j]? = some (.begun call') →
      s.calls[j]? = some (.begun call') ∨ call'.startTimeMs = s.now := by
    intro j call' listed
    rcases party_set_cases found listed with ⟨here,same⟩ | ⟨here,listed⟩
    · cases same
    · exact .inl listed
  have later : ∀ start, Expired q key limit.limiterPeriodMS s start → Expired q key limit.limiterPeriodMS
      { s with calls := s.calls.set i (.counted (readingOf s call)) } start :=
    fun _ expired => expired_later expired (Int.le_refl s.now) begun
  refine ⟨paced.within,configured_set paced.configured found rfl,?_,?_,?_⟩
  · intro e member
    exact (paced.live e member).imp (later e.2) id
  · exact paced.apart.imp fun expired equal => later _ (expired equal)
  · intro j session r listed reads aims
    rcases party_set_cases found listed with ⟨here,same⟩ | ⟨here,listed⟩
    · cases same
      cases reads
      have whole : s.store.log.take s.store.snapshot.time = s.store.log := List.take_length
      exact whole.symm ▸ read_counts paced rated found aims
    · exact paced.counted j session r listed reads aims

/-- Operations of others start nothing, and erase only expired starts. -/
theorem paced_other {s : System} (paced : Paced q key limit s) {op : Op} (plain : isDequeue op = false)
    (sound : Sound s) (spared : Spared q key limit s (.other op)) :
    Paced q key limit { s with store := s.store.commit none (op.apply s.store.table) } := by
  have same : startsOf q key (s.store.commit none (op.apply s.store.table)).log = startsOf q key s.store.log := by
    rw [Heap.commit,startsOf_append,startsOf_other plain,List.append_nil]
  refine ⟨?_,paced.configured,?_,?_,?_⟩
  · intro w
    show (startsOf q key (s.store.commit none (op.apply s.store.table)).log).countP _ ≤ _
    rw [same]
    exact paced.within w
  · intro e member
    have member' : e ∈ startsOf q key s.store.log := same ▸ member
    rcases paced.live e member' with expired | ⟨row,stored,counts⟩
    · exact .inl expired
    · by_cases kept : ((op.apply s.store.table).get? e.1).bind (countedStart q key) = some e.2
      · obtain ⟨row',stored',counts'⟩ := Option.bind_eq_some_iff.mp kept
        exact .inr ⟨row',stored',counts'⟩
      · exact .inl (spared e.1 row e.2 stored counts kept)
  · show (startsOf q key (s.store.commit none (op.apply s.store.table)).log).Pairwise _
    rw [same]
    exact paced.apart
  · intro i session r found reads aims
    have past := (sound.saw i session r found reads).past
    have kept : (s.store.commit none (op.apply s.store.table)).log.take r.snapshot.time =
        s.store.log.take r.snapshot.time := List.take_append_of_le_length past
    show (startsOf q key ((s.store.commit none (op.apply s.store.table)).log.take r.snapshot.time)).countP _ ≤ _
    rw [kept]
    exact paced.counted i session r found reads aims

section
variable {s : System} {i : Nat} {r : Reading} {workflowIDs new : List String} {now : Int}

/-- An earlier start of a row that is claimed again is expired: the row waited, so the start was erased. -/
theorem claimed_again (paced : Paced q key limit s) (sound : Sound s)
    (found : s.calls[i]? = some (.selected r workflowIDs))
    (claims : Claims r.call r.numRecentQueries now workflowIDs [] s.store.table new) {e : String × Int}
    (member : e ∈ startsOf q key s.store.log) (claimed : e.1 ∈ new) : Expired q key limit.limiterPeriodMS s e.2 := by
  rcases paced.live e member with expired | ⟨row,stored,counts⟩
  · exact expired
  · obtain ⟨row',stored',hit,_⟩ := claims_startable sound found claims claimed
    cases stored.symm.trans stored'
    rw [countedStart_waiting (startable_iff.mp hit).1] at counts
    cases counts

/-- The commit of a call keeps every window within the limit. -/
theorem within_commit (paced : Paced q key limit s) (sound : Sound s) (rated : q.rateLimit = some limit)
    (found : s.calls[i]? = some (.selected r workflowIDs)) (aims : Aims q key r.call)
    (claims : Claims r.call r.numRecentQueries now workflowIDs [] s.store.table new)
    (spared : Spared q key limit s (.commit i now)) (w : Int) :
    (startsOf q key (s.store.log ++ diff (some i) s.store.table
      (claimLoop r.call r.numRecentQueries now workflowIDs [] s.store.table).2)).countP
        (inWindow limit.limiterPeriodMS w) ≤ limit.limitPerPeriod := by
  have starts := startsOf_claims sound found aims (by rw [rated]; rfl) claims
  rw [startsOf_append,List.countP_append,starts]
  have bound := paced.within w
  by_cases here : w ≤ r.call.startTimeMs ∧ r.call.startTimeMs < w + limit.limiterPeriodMS
  · -- The call counted every start of the window that was committed before its snapshot.
    have few : (diff (some i) s.store.table
        (claimLoop r.call r.numRecentQueries now workflowIDs [] s.store.table).2).length ≤ new.length := by
      have listed : (diff (some i) s.store.table
          (claimLoop r.call r.numRecentQueries now workflowIDs [] s.store.table).2).map Write.key ⊆ new := by
        intro k member
        obtain ⟨e,logged,rfl⟩ := List.mem_map.mp member
        exact (claims_write claims logged).2
      have shorter := (List.subperm_of_subset (diff_keys_nodup _ _ _) listed).length_le
      rwa [List.length_map] at shorter
    have added := Nat.le_trans (List.countP_le_length (p := inWindow limit.limiterPeriodMS w)
      (l := (diff (some i) s.store.table (claimLoop r.call r.numRecentQueries now workflowIDs [] s.store.table).2).map
        fun e => (e.key,r.call.startTimeMs))) (Nat.le_of_eq (List.length_map _))
    by_cases idle : new = []
    · rw [idle,List.length_nil] at few
      omega
    · have room := claims.limited limit (by rw [aims.1,rated]) idle
      have busy : workflowIDs ≠ [] := by
        rintro rfl
        exact idle (List.eq_nil_iff_forall_not_mem.mpr fun k member => List.not_mem_nil (claims.listed k member))
      have unseen : (startsOf q key (s.store.since r.snapshot)).countP (inWindow limit.limiterPeriodMS w) = 0 := by
        rw [List.countP_eq_zero]
        intro e member inside
        simp only [inWindow,decide_eq_true_eq] at inside
        have apart := spared r workflowIDs found aims busy e member
        omega
      have seen : (startsOf q key (s.store.log.take r.snapshot.time)).countP (inWindow limit.limiterPeriodMS w) ≤
          r.numRecentQueries := by
        refine Nat.le_trans (List.countP_mono_left ?_) (paced.counted i _ r found rfl aims)
        intro e _ inside
        simp only [inWindow,decide_eq_true_eq] at inside ⊢
        omega
      have split : s.store.log = s.store.log.take r.snapshot.time ++ s.store.since r.snapshot :=
        (List.take_append_drop _ _).symm
      rw [split,startsOf_append,List.countP_append,unseen]
      simp only [List.length_nil] at room
      omega
  · -- The window does not hold the clock of the call.
    have outside : ((diff (some i) s.store.table
        (claimLoop r.call r.numRecentQueries now workflowIDs [] s.store.table).2).map
          fun e => (e.key,r.call.startTimeMs)).countP (inWindow limit.limiterPeriodMS w) = 0 := by
      rw [List.countP_eq_zero]
      intro e member inside
      obtain ⟨x,_,rfl⟩ := List.mem_map.mp member
      simp only [inWindow,decide_eq_true_eq] at inside
      exact here inside
    omega

/-- A start that a commit logs is in its row, and the rows are distinct. -/
theorem commit_starts (sound : Sound s) (rated : q.rateLimit = some limit) (partition : key.isSome = q.partitionQueue)
    (configured : Configured q r.call) (found : s.calls[i]? = some (.selected r workflowIDs))
    (claims : Claims r.call r.numRecentQueries now workflowIDs [] s.store.table new) :
    (∀ e ∈ startsOf q key (diff (some i) s.store.table
      (claimLoop r.call r.numRecentQueries now workflowIDs [] s.store.table).2),
      e.1 ∈ new ∧ ∃ row, (claimLoop r.call r.numRecentQueries now workflowIDs [] s.store.table).2.get? e.1 = some row ∧
        countedStart q key row = some e.2) ∧
      (startsOf q key (diff (some i) s.store.table
        (claimLoop r.call r.numRecentQueries now workflowIDs [] s.store.table).2)).Pairwise fun a b => a.1 ≠ b.1 := by
  by_cases aims : Aims q key r.call
  · have limited : q.rateLimit.isSome := by rw [rated]; rfl
    rw [startsOf_claims sound found aims limited claims]
    refine ⟨?_,?_⟩
    · intro e member
      obtain ⟨x,logged,rfl⟩ := List.mem_map.mp member
      have listed := (claims_write claims logged).2
      obtain ⟨row,_,hit,claimed⟩ := claims_startable sound found claims listed
      exact ⟨listed,_,claimed,(claim_start aims limited hit).2⟩
    · have distinct := diff_keys_nodup (some i) s.store.table
        (claimLoop r.call r.numRecentQueries now workflowIDs [] s.store.table).2
      rw [List.Nodup,List.pairwise_map] at distinct
      exact List.pairwise_map.mpr distinct
  · rw [startsOf_elsewhere sound found configured partition aims claims]
    exact ⟨by simp,List.Pairwise.nil⟩

theorem paced_commit (paced : Paced q key limit s) (sound : Sound s) (rated : q.rateLimit = some limit)
    (partition : key.isSome = q.partitionQueue) (found : s.calls[i]? = some (.selected r workflowIDs))
    (spared : Spared q key limit s (.commit i now)) :
    Paced q key limit { s with
      store := s.store.commit (some i) (claimLoop r.call r.numRecentQueries now workflowIDs [] s.store.table).2
      calls := s.calls.set i
        (.returned r.call (claimLoop r.call r.numRecentQueries now workflowIDs [] s.store.table).1) } := by
  obtain ⟨new,claims⟩ := claimLoop_claims r.call r.numRecentQueries now workflowIDs [] s.store.table
  have configured := paced.configured i _ found
  obtain ⟨logged,distinct⟩ := commit_starts sound rated partition configured found claims
  have later : ∀ start, Expired q key limit.limiterPeriodMS s start → Expired q key limit.limiterPeriodMS { s with
      store := s.store.commit (some i) (claimLoop r.call r.numRecentQueries now workflowIDs [] s.store.table).2
      calls := s.calls.set i
        (.returned r.call (claimLoop r.call r.numRecentQueries now workflowIDs [] s.store.table).1) } start := by
    intro start expired
    refine expired_later expired (Int.le_refl s.now) ?_
    intro j call listed
    rcases party_set_cases found listed with ⟨here,same⟩ | ⟨here,listed⟩
    · cases same
    · exact .inl listed
  refine ⟨?_,configured_set paced.configured found rfl,?_,?_,?_⟩
  · intro w
    by_cases aims : Aims q key r.call
    · exact within_commit paced sound rated found aims claims spared w
    · show (startsOf q key (s.store.log ++ _)).countP _ ≤ _
      rw [startsOf_append,startsOf_elsewhere sound found configured partition aims claims,List.append_nil]
      exact paced.within w
  · intro e member
    have member' : e ∈ startsOf q key (s.store.log ++ _) := member
    rw [startsOf_append] at member'
    rcases List.mem_append.mp member' with old | fresh
    · by_cases claimed : e.1 ∈ new
      · exact .inl (later _ (claimed_again paced sound found claims old claimed))
      · rcases paced.live e old with expired | ⟨row,stored,counts⟩
        · exact .inl (later _ expired)
        · exact .inr ⟨row,(claims.kept e.1 claimed).trans stored,counts⟩
    · exact .inr (logged e fresh).2
  · show (startsOf q key (s.store.log ++ _)).Pairwise _
    rw [startsOf_append]
    refine List.pairwise_append.mpr ⟨?_,?_,?_⟩
    · exact paced.apart.imp fun expired equal => later _ (expired equal)
    · exact distinct.imp fun differ equal => absurd equal differ
    · intro a old b fresh equal
      exact later _ (claimed_again paced sound found claims old (equal ▸ (logged b fresh).1))
  · intro j session r' listed reads aims
    have before := fewer_set found rfl j session listed (by simp [reads])
    have past := (sound.saw j session r' before reads).past
    show (startsOf q key ((s.store.log ++ _).take r'.snapshot.time)).countP _ ≤ _
    rw [List.take_append_of_le_length past]
    exact paced.counted j session r' before reads aims

end

theorem paced_start (t : Statuses) : Paced q key limit (start t) :=
  ⟨fun _ => Nat.zero_le _,by simp [start],by simp [start,Heap.init,startsOf],by simp [start,Heap.init,startsOf],
    by simp [start]⟩

theorem step_paced {s s' : System} {e : Event} (rated : q.rateLimit = some limit) (partition : key.isSome = q.partitionQueue)
    (sound : Sound s) (paced : Paced q key limit s) (fixed : ∀ call, e = .begin call → Configured q call)
    (clock : CommonClock s e) (spared : Spared q key limit s e) (taken : step s e = some s') : Paced q key limit s' := by
  cases step_moves taken with
  | begin call =>
    refine paced_quiet paced rfl (Int.le_refl _) ?_ ?_ ?_
    · intro j call' listed
      rcases party_append listed with old | ⟨_,same⟩
      · exact .inl old
      · cases same
        exact .inr clock
    · intro j session listed reads
      rcases party_append listed with old | ⟨_,rfl⟩
      · exact ⟨session,old,rfl⟩
      · cases reads
    · intro j session listed
      rcases party_append listed with old | ⟨_,rfl⟩
      · exact paced.configured j session old
      · exact fixed call rfl
  | idle i call found nothing => exact paced_set paced found rfl (.inl rfl) (by simp)
  | read i call found work => exact paced_read paced rated found
  | select i r busy rows found selects => exact paced_set paced found rfl (.inr rfl) (by simp)
  | commit i now r workflowIDs found => exact paced_commit paced sound rated partition found spared
  | fail i session found running => exact paced_set paced found rfl (.inl rfl) (by simp)
  | version latestVersion => exact ⟨paced.within,paced.configured,paced.live,paced.apart,paced.counted⟩
  | tick elapsed =>
    refine paced_quiet paced rfl ?_ (fun _ _ old => .inl old) (fun _ session old _ => ⟨session,old,rfl⟩) paced.configured
    show s.now ≤ s.now + elapsed
    omega
  | other op plain free => exact paced_other paced plain sound spared

/-- For a queue with a fixed rate limit, in every run on a common clock whose steps spare the counted
    starts, every half-open window of one period has at most `limitPerPeriod` starts of the queue, or
    of one partition of it. -/
theorem rate_limit {q : WorkflowQueue} {key : Option String} {limit : QueueRateLimit} (rated : q.rateLimit = some limit)
    (partition : key.isSome = q.partitionQueue) {t : Statuses} {events : List Event}
    (fixed : ∀ call, .begin call ∈ events → Configured q call) (clock : Along step CommonClock (start t) events)
    (spared : Along step (Spared q key limit) (start t) events) {s : System} (run : Runs step (start t) events s) (w : Int) :
    (startsOf q key s.store.log).countP (inWindow limit.limiterPeriodMS w) ≤ limit.limitPerPeriod := by
  have along : Along step (fun s e => CommonClock s e ∧ Spared q key limit s e ∧ ∀ call, e = .begin call → Configured q call)
      (start t) events := by
    refine along_iff.mpr ?_
    intro first e rest u split reached
    refine ⟨along_iff.mp clock first e rest u split reached,along_iff.mp spared first e rest u split reached,?_⟩
    rintro call rfl
    exact fixed call (by simp [split])
  have both : Paced q key limit s ∧ Sound s := by
    refine along_invariant (I := fun s => Paced q key limit s ∧ Sound s) ?_ ⟨paced_start t,sound_start t⟩ along run
    rintro s e s' ⟨paced,sound⟩ ⟨clock,spared,fixed⟩ taken
    exact ⟨step_paced rated partition sound paced fixed clock spared taken,step_sound sound taken⟩
  exact both.1.within w

/-- A queue that may start one workflow a second, one at a time on each worker. -/
def onePerSecond : WorkflowQueue := { name := "q",workerConcurrency := some 1,rateLimit := some ⟨1,1000⟩ }

def waitingSince (createdAt : Int) : WorkflowStatus :=
  { status := ENQUEUED,name := "f",queue_name := some "q",application_version := some "v",
    created_at := createdAt,updated_at := createdAt }

def twoQueued : Statuses := (Table.empty.insert "a" (waitingSince 1)).insert "b" (waitingSince 2)

def callAt (startTimeMs : Int) : DequeueCall :=
  { queue := onePerSecond,executorID := "e",appVersion := "v",startTimeMs := startTimeMs }

/-- The first workflow is started and cancelled, which takes its start out of the count of the next call. -/
def cancelledStart : List Event :=
  [.begin (callAt 0),.read 0,.select 0 [] [("a",waitingSince 1)],.commit 0 5,.other (.cancelWorkflows ["a"] 6),
   .begin (callAt 0),.read 1,.select 1 [] [("b",waitingSince 2)],.commit 1 7]

/-- Two calls count before either commits, and the second skips the row that the first has locked. -/
def skippedLock : List Event :=
  [.begin (callAt 0),.begin (callAt 0),.read 0,.read 1,.select 0 [] [("a",waitingSince 1)],
   .select 1 [] [("b",waitingSince 2)],.commit 0 5,.commit 1 5]

theorem starts_exceed_limit :
    (∃ s, Runs step (start twoQueued) cancelledStart s ∧
      (startsOf onePerSecond none s.store.log).countP (inWindow 1000 0) = 2) ∧
    ∃ s, Runs step (start twoQueued) skippedLock s ∧
      (startsOf onePerSecond none s.store.log).countP (inWindow 1000 0) = 2 :=
  ⟨⟨_,rfl,rfl⟩,⟨_,rfl,rfl⟩⟩

/-- The start is cancelled after a second, and the second workflow starts then. -/
def onceASecond : List Event :=
  [.begin (callAt 0),.read 0,.select 0 [] [("a",waitingSince 1)],.commit 0 5,.tick 1000,
   .other (.cancelWorkflows ["a"] 1000),.begin (callAt 1000),.read 1,.select 1 [] [("b",waitingSince 2)],.commit 1 1005]

theorem onceASecond_within : ∃ s, Runs step (start twoQueued) onceASecond s ∧
    startsOf onePerSecond none s.store.log = [("a",0),("b",1000)] ∧
    ∀ w, (startsOf onePerSecond none s.store.log).countP (inWindow 1000 w) ≤ 1 := by
  obtain ⟨s,run,starts⟩ : ∃ s, Runs step (start twoQueued) onceASecond s ∧
      startsOf onePerSecond none s.store.log = [("a",0),("b",1000)] := ⟨_,rfl,rfl⟩
  refine ⟨s,run,starts,fun w => rate_limit (q := onePerSecond) rfl rfl ?_ ?_ ?_ run w⟩
  · intro call member
    simp only [onceASecond,List.mem_cons,Event.begin.injEq,reduceCtorEq,List.not_mem_nil,or_false,or_self,false_or]
      at member
    rcases member with rfl | rfl <;> exact fun _ => ⟨rfl,rfl⟩
  · decide
  · -- No start comes between a snapshot and its commit, and the cancelled start is a period old.
    refine ⟨trivial,?_⟩
    rintro _ ⟨⟩
    refine ⟨trivial,?_⟩
    rintro _ ⟨⟩
    refine ⟨trivial,?_⟩
    rintro _ ⟨⟩
    refine ⟨?_,?_⟩
    · rintro r ids ⟨⟩ _ _ e member
      cases member
    rintro _ ⟨⟩
    refine ⟨trivial,?_⟩
    rintro _ ⟨⟩
    refine ⟨?_,?_⟩
    · intro k row begun stored counts _
      have member := (Table.get?_eq_some _ k row).mp stored
      cases member with
      | head =>
        cases counts
        refine ⟨by decide,?_⟩
        rintro (_ | j) call ⟨⟩
      | tail _ member =>
        cases member with
        | head => cases counts
        | tail _ member => cases member
    rintro _ ⟨⟩
    refine ⟨trivial,?_⟩
    rintro _ ⟨⟩
    refine ⟨trivial,?_⟩
    rintro _ ⟨⟩
    refine ⟨trivial,?_⟩
    rintro _ ⟨⟩
    refine ⟨?_,?_⟩
    · rintro r ids ⟨⟩ _ _ e member
      cases member
    rintro _ ⟨⟩
    trivial

end Dbos.RateLimit
