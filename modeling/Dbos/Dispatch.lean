import Dbos.Ops
import Dbos.Pg.Heap

/-!
Concurrent calls of `findAndMarkStartableWorkflows`. A call reads its clock, then the
counts and the latest version, then selects and locks rows, and then claims them and
commits; between these steps other calls and operations commit. A queue with a global
concurrency or a rate limit runs under REPEATABLE READ, where everything is read from the
snapshot of the first statement and a row changed since then cannot be locked; any other
queue reads the current table. With a global concurrency a locked row fails the call
(NOWAIT), otherwise it is skipped (SKIP LOCKED). The rows of a call are locked from its
SELECT to its end, so its UPDATEs are applied with its COMMIT.
-/
namespace Dbos.Dispatch
open Dbos.Pg Dbos.Schema Dbos.Status Dbos.Dequeue StatusString
open Dbos.Ops hiding step

/-- The committed table and its log; a write is by the call with that number or by another operation. -/
abbrev Store := Heap (Option Nat) String WorkflowStatus

/-- What a call has read before its SELECT. -/
structure Reading where
  call : DequeueCall
  snapshot : Snapshot String WorkflowStatus
  isLatestVersion : Bool
  numRecentQueries : Nat
  maxTasks : Option Nat

inductive Session
  | begun (call : DequeueCall)
  | counted (r : Reading)
  | selected (r : Reading) (workflowIDs : List String)
  | returned (call : DequeueCall) (claimedIDs : List String)
  | threw (call : DequeueCall)

def Session.locks : Session → List String
  | .selected _ workflowIDs => workflowIDs
  | _ => []

/-- A call that has returned or thrown. -/
def Session.over : Session → Bool
  | .returned _ _ => true
  | .threw _ => true
  | _ => false

def Session.call : Session → DequeueCall
  | .begun call => call
  | .counted r => r.call
  | .selected r _ => r.call
  | .returned call _ => call
  | .threw call => call

/-- Calls are numbered in the order in which they begin. `now` is a clock that a call may read, or not. -/
structure System where
  store : Store
  latestVersion : Option String := none
  now : Int := 0
  calls : List Session := []

/-- `busy` are rows that other transactions hold at the SELECT, and `rows` is its answer. -/
inductive Event
  | begin (call : DequeueCall)
  | read (i : Nat)
  | select (i : Nat) (busy : List String) (rows : List (String × WorkflowStatus))
  | commit (i : Nat) (now : Int)
  | fail (i : Nat)
  | version (latestVersion : Option String)
  | tick (elapsed : Nat)
  | other (op : Op)

def repeatableRead (queue : WorkflowQueue) : Bool := queue.concurrency.isSome || queue.rateLimit.isSome

/-- `queue.concurrency ? 'FOR UPDATE NOWAIT' : 'FOR UPDATE SKIP LOCKED'`. -/
def noWait (queue : WorkflowQueue) : Bool := queue.concurrency.any fun n => n ≠ 0

def isDequeue : Op → Bool
  | .findAndMarkStartableWorkflows _ _ _ _ => true
  | _ => false

def System.locked (s : System) (k : String) : Bool := s.calls.any fun c => k ∈ c.locks

/-- The rows that the SELECT of the call ranges over. -/
def System.startable (s : System) (r : Reading) : List (String × WorkflowStatus) :=
  (if repeatableRead r.call.queue then r.snapshot.table else s.store.table).select
    (startableHits r.call r.isLatestVersion)

/-- `rows` can be the answer of the SELECT with its locks taken. -/
def Selects (s : System) (r : Reading) (busy : List String) (rows : List (String × WorkflowStatus)) : Prop :=
  if noWait r.call.queue then
    Answer ahead (s.startable r) r.maxTasks rows ∧ ∀ e ∈ rows,s.locked e.1 = false ∧ s.store.Fresh r.snapshot e.1
  else
    Answer ahead ((s.startable r).filter fun e => !(s.locked e.1 || e.1 ∈ busy)) r.maxTasks rows ∧
      (repeatableRead r.call.queue = true → ∀ e ∈ rows,s.store.Fresh r.snapshot e.1)

instance (s : System) (r : Reading) (busy : List String) (rows : List (String × WorkflowStatus)) :
    Decidable (Selects s r busy rows) :=
  inferInstanceAs (Decidable (if noWait r.call.queue = true then _ ∧ _ else _ ∧ _))

def readingOf (s : System) (call : DequeueCall) : Reading where
  call := call
  snapshot := s.store.snapshot
  isLatestVersion := Dequeue.isLatestVersion s.latestVersion call.appVersion
  numRecentQueries := Dequeue.numRecentQueries call s.store.table
  maxTasks := tasksFor call s.store.table

def step (s : System) : Event → Option System
  | .begin call => some { s with calls := s.calls ++ [.begun call] }
  | .read i =>
    match s.calls[i]? with
    | some (.begun call) =>
      if nothingToDo call s.store.table then some { s with calls := s.calls.set i (.returned call []) }
      else some { s with calls := s.calls.set i (.counted (readingOf s call)) }
    | _ => none
  | .select i busy rows =>
    match s.calls[i]? with
    | some (.counted r) =>
      if Selects s r busy rows then some { s with calls := s.calls.set i (.selected r (rows.map Prod.fst)) } else none
    | _ => none
  | .commit i now =>
    match s.calls[i]? with
    | some (.selected r workflowIDs) =>
      let out := claimLoop r.call r.numRecentQueries now workflowIDs [] s.store.table
      some { s with store := s.store.commit (some i) out.2,calls := s.calls.set i (.returned r.call out.1) }
    | _ => none
  | .fail i =>
    match s.calls[i]? with
    | some session =>
      if session.over then none else some { s with calls := s.calls.set i (.threw session.call) }
    | none => none
  | .version latestVersion => some { s with latestVersion := latestVersion }
  | .tick elapsed => some { s with now := s.now + elapsed }
  | .other op =>
    -- An operation waits for the rows that a call has locked.
    if isDequeue op = false ∧
        ∀ k ∈ s.calls.flatMap Session.locks,(op.apply s.store.table).get? k = s.store.table.get? k then
      some { s with store := s.store.commit none (op.apply s.store.table) }
    else none

def start (t : Statuses) : System := { store := Heap.init t }

/-! ### What a step does -/

/-- Everything that a step can be, with its guards. -/
inductive Moves (s : System) : Event → System → Prop
  | begin (call : DequeueCall) : Moves s (.begin call) { s with calls := s.calls ++ [.begun call] }
  | idle (i : Nat) (call : DequeueCall) (found : s.calls[i]? = some (.begun call))
      (nothing : nothingToDo call s.store.table = true) :
      Moves s (.read i) { s with calls := s.calls.set i (.returned call []) }
  | read (i : Nat) (call : DequeueCall) (found : s.calls[i]? = some (.begun call))
      (work : nothingToDo call s.store.table = false) :
      Moves s (.read i) { s with calls := s.calls.set i (.counted (readingOf s call)) }
  | select (i : Nat) (r : Reading) (busy : List String) (rows : List (String × WorkflowStatus))
      (found : s.calls[i]? = some (.counted r)) (selects : Selects s r busy rows) :
      Moves s (.select i busy rows) { s with calls := s.calls.set i (.selected r (rows.map Prod.fst)) }
  | commit (i : Nat) (now : Int) (r : Reading) (workflowIDs : List String)
      (found : s.calls[i]? = some (.selected r workflowIDs)) :
      Moves s (.commit i now)
        { s with
          store := s.store.commit (some i) (claimLoop r.call r.numRecentQueries now workflowIDs [] s.store.table).2
          calls := s.calls.set i
            (.returned r.call (claimLoop r.call r.numRecentQueries now workflowIDs [] s.store.table).1) }
  | fail (i : Nat) (session : Session) (found : s.calls[i]? = some session) (running : session.over = false) :
      Moves s (.fail i) { s with calls := s.calls.set i (.threw session.call) }
  | version (latestVersion : Option String) : Moves s (.version latestVersion) { s with latestVersion := latestVersion }
  | tick (elapsed : Nat) : Moves s (.tick elapsed) { s with now := s.now + elapsed }
  | other (op : Op) (plain : isDequeue op = false)
      (free : ∀ (i : Nat) (session : Session), s.calls[i]? = some session → ∀ k ∈ session.locks,
        (op.apply s.store.table).get? k = s.store.table.get? k) :
      Moves s (.other op) { s with store := s.store.commit none (op.apply s.store.table) }

theorem step_moves {s s' : System} {e : Event} (taken : step s e = some s') : Moves s e s' := by
  cases e with
  | begin call =>
    cases taken
    exact .begin call
  | read i =>
    simp only [step] at taken
    split at taken
    · rename_i call found
      split at taken
      · cases taken
        exact .idle i call found (by assumption)
      · rename_i work
        cases taken
        exact .read i call found (Bool.eq_false_iff.mpr work)
    · cases taken
  | select i busy rows =>
    simp only [step] at taken
    split at taken
    · rename_i r found
      split at taken
      · cases taken
        exact .select i r busy rows found (by assumption)
      · cases taken
    · cases taken
  | commit i now =>
    simp only [step] at taken
    split at taken
    · rename_i r workflowIDs found
      cases taken
      exact .commit i now r workflowIDs found
    · cases taken
  | fail i =>
    simp only [step] at taken
    split at taken
    · rename_i session found
      split at taken
      · cases taken
      · rename_i running
        cases taken
        exact .fail i session found (Bool.eq_false_iff.mpr running)
    · cases taken
  | version latestVersion =>
    cases taken
    exact .version latestVersion
  | tick elapsed =>
    cases taken
    exact .tick elapsed
  | other op =>
    simp only [step] at taken
    split at taken
    · rename_i allowed
      cases taken
      refine .other op allowed.1 ?_
      intro i session found k member
      exact allowed.2 k (List.mem_flatMap.mpr ⟨session,List.mem_of_getElem? found,member⟩)
    · cases taken

/-! ### What holds of every call that is under way -/

/-- What the call has read and still works with. -/
def Session.reading : Session → Option Reading
  | .counted r => some r
  | .selected r _ => some r
  | _ => none

/-- Readings are those of an earlier state, and the rows of a call stay startable, and
    fresh under REPEATABLE READ, while it holds their locks. -/
structure Sound (s : System) : Prop where
  saw : ∀ (i : Nat) session r, s.calls[i]? = some session → session.reading = some r → s.store.Saw r.snapshot
  counts : ∀ (i : Nat) session r, s.calls[i]? = some session → session.reading = some r →
    r.maxTasks = tasksFor r.call r.snapshot.table ∧
      r.numRecentQueries = Dequeue.numRecentQueries r.call r.snapshot.table ∧ nothingToDo r.call r.snapshot.table = false
  held : ∀ (i : Nat) r ids, s.calls[i]? = some (.selected r ids) → (∀ m ∈ r.maxTasks,ids.length ≤ m) ∧
    ∀ k ∈ ids,∃ row, s.store.table.get? k = some row ∧ startableHits r.call r.isLatestVersion k row = true
  fresh : ∀ (i : Nat) r ids, s.calls[i]? = some (.selected r ids) → repeatableRead r.call.queue = true →
    ∀ k ∈ ids,s.store.Fresh r.snapshot k
  disjoint : ∀ (i j : Nat) r ids r' ids', i ≠ j → s.calls[i]? = some (.selected r ids) →
    s.calls[j]? = some (.selected r' ids') → ∀ k ∈ ids,k ∉ ids'

theorem sound_start (t : Statuses) : Sound (start t) :=
  ⟨by simp [start],by simp [start],by simp [start],by simp [start],by simp [start]⟩

/-- A step after which no call has a reading that it had not before. -/
theorem sound_fewer {s s' : System} (sound : Sound s) (same : s'.store = s.store)
    (fewer : ∀ (j : Nat) session, s'.calls[j]? = some session → session.reading.isSome → s.calls[j]? = some session) :
    Sound s' := by
  refine ⟨?_,?_,?_,?_,?_⟩
  · intro j session r found reads
    rw [same]
    exact sound.saw j session r (fewer j session found (by simp [reads])) reads
  · intro j session r found reads
    exact sound.counts j session r (fewer j session found (by simp [reads])) reads
  · intro j r ids found
    rw [same]
    exact sound.held j r ids (fewer j _ found rfl)
  · intro j r ids found
    rw [same]
    exact sound.fresh j r ids (fewer j _ found rfl)
  · intro i j r ids r' ids' other found found'
    exact sound.disjoint i j r ids r' ids' other (fewer i _ found rfl) (fewer j _ found' rfl)

/-- A commit that leaves the rows of the other calls alone. -/
theorem sound_commit {s : System} (sound : Sound s) {calls : List Session} (w : Option Nat) {t' : Statuses}
    (fewer : ∀ (j : Nat) session, calls[j]? = some session → session.reading.isSome → s.calls[j]? = some session)
    (kept : ∀ (j : Nat) r ids, calls[j]? = some (.selected r ids) → ∀ k ∈ ids,t'.get? k = s.store.table.get? k) :
    Sound { s with store := s.store.commit w t',calls := calls } := by
  refine ⟨?_,?_,?_,?_,?_⟩
  · intro j session r found reads
    exact Heap.saw_commit (sound.saw j session r (fewer j session found (by simp [reads])) reads) w t'
  · intro j session r found reads
    exact sound.counts j session r (fewer j session found (by simp [reads])) reads
  · intro j r ids found
    obtain ⟨bound,rows⟩ := sound.held j r ids (fewer j _ found rfl)
    refine ⟨bound,?_⟩
    intro k member
    obtain ⟨row,stored,hit⟩ := rows k member
    exact ⟨row,(kept j r ids found k member).trans stored,hit⟩
  · intro j r ids found repeatable k member
    have before := fewer j _ found rfl
    have saw := sound.saw j _ r before rfl
    exact (Heap.fresh_commit saw.past w t' k).mpr ⟨sound.fresh j r ids before repeatable k member,kept j r ids found k member⟩
  · intro i j r ids r' ids' other found found'
    exact sound.disjoint i j r ids r' ids' other (fewer i _ found rfl) (fewer j _ found' rfl)

theorem fewer_set {calls : List Session} {i : Nat} {old new : Session} (found : calls[i]? = some old)
    (unread : new.reading = none) (j : Nat) (session : Session) (listed : (calls.set i new)[j]? = some session)
    (reads : session.reading.isSome) : calls[j]? = some session := by
  rcases party_set_cases found listed with ⟨here,same⟩ | ⟨here,listed⟩
  · cases same
    simp [unread] at reads
  · exact listed

/-- A call moves on with the reading that it had. -/
theorem reading_set {calls : List Session} {i j : Nat} {old new session : Session} {r : Reading}
    (found : calls[i]? = some old) (listed : (calls.set i new)[j]? = some session) (reads : session.reading = some r)
    (same : new.reading = old.reading) :
    ∃ before, calls[j]? = some before ∧ before.reading = some r := by
  rcases party_set_cases found listed with ⟨here,rfl⟩ | ⟨_,listed⟩
  · exact ⟨old,here ▸ found,same.symm.trans reads⟩
  · exact ⟨session,listed,reads⟩

theorem mem_select {t : Statuses} {hit : String → WorkflowStatus → Bool} {e : String × WorkflowStatus} :
    e ∈ t.select hit ↔ t.get? e.1 = some e.2 ∧ hit e.1 e.2 = true := by
  rw [Table.select,List.mem_filter,Table.get?_eq_some]

/-- The rows of an answer are startable in the table of the moment, free, and fresh for a snapshot. -/
theorem selects_rows {s : System} {r : Reading} (saw : s.store.Saw r.snapshot) {busy : List String}
    {rows : List (String × WorkflowStatus)} (selects : Selects s r busy rows) :
    (∀ m ∈ r.maxTasks,rows.length ≤ m) ∧ ∀ e ∈ rows,s.locked e.1 = false ∧
      (repeatableRead r.call.queue = true → s.store.Fresh r.snapshot e.1) ∧
      s.store.table.get? e.1 = some e.2 ∧ startableHits r.call r.isLatestVersion e.1 e.2 = true := by
  -- A row of the snapshot that is fresh is the current row.
  have current : ∀ e, e ∈ s.startable r → (repeatableRead r.call.queue = true → s.store.Fresh r.snapshot e.1) →
      s.store.table.get? e.1 = some e.2 ∧ startableHits r.call r.isLatestVersion e.1 e.2 = true := by
    intro e member fresh
    unfold System.startable at member
    split at member
    · rename_i repeatable
      obtain ⟨stored,hit⟩ := mem_select.mp member
      exact ⟨(saw.same e.1 (fresh repeatable)).trans stored,hit⟩
    · exact mem_select.mp member
  unfold Selects at selects
  split at selects
  · obtain ⟨answer,free⟩ := selects
    refine ⟨answer.2.2.2.1,?_⟩
    intro e member
    obtain ⟨unlocked,fresh⟩ := free e member
    exact ⟨unlocked,fun _ => fresh,current e (answer.2.1 e member) fun _ => fresh⟩
  · obtain ⟨answer,fresh⟩ := selects
    refine ⟨answer.2.2.2.1,?_⟩
    intro e member
    obtain ⟨startable,skipped⟩ := List.mem_filter.mp (answer.2.1 e member)
    have unlocked : s.locked e.1 = false := by
      cases locked : s.locked e.1 with
      | false => rfl
      | true => simp [locked] at skipped
    exact ⟨unlocked,fun repeatable => fresh repeatable e member,
      current e startable fun repeatable => fresh repeatable e member⟩

theorem sound_read {s : System} (sound : Sound s) {i : Nat} {call : DequeueCall}
    (found : s.calls[i]? = some (.begun call)) (work : nothingToDo call s.store.table = false) :
    Sound { s with calls := s.calls.set i (.counted (readingOf s call)) } := by
  have before : ∀ (j : Nat) r ids, (s.calls.set i (.counted (readingOf s call)))[j]? = some (.selected r ids) →
      s.calls[j]? = some (.selected r ids) := by
    intro j r ids listed
    rcases party_set_cases found listed with ⟨here,same⟩ | ⟨here,listed⟩
    · cases same
    · exact listed
  refine ⟨?_,?_,?_,?_,?_⟩
  · intro j session r listed reads
    rcases party_set_cases found listed with ⟨here,same⟩ | ⟨here,listed⟩
    · cases same
      cases reads
      exact Heap.saw_snapshot s.store
    · exact sound.saw j session r listed reads
  · intro j session r listed reads
    rcases party_set_cases found listed with ⟨here,same⟩ | ⟨here,listed⟩
    · cases same
      cases reads
      exact ⟨rfl,rfl,work⟩
    · exact sound.counts j session r listed reads
  · intro j r ids listed
    exact sound.held j r ids (before j r ids listed)
  · intro j r ids listed
    exact sound.fresh j r ids (before j r ids listed)
  · intro j k r ids r' ids' other listed listed'
    exact sound.disjoint j k r ids r' ids' other (before j r ids listed) (before k r' ids' listed')

theorem locked_mem {s : System} {i : Nat} {r : Reading} {ids : List String} (found : s.calls[i]? = some (.selected r ids))
    {k : String} (member : k ∈ ids) : s.locked k = true :=
  List.any_eq_true.mpr ⟨.selected r ids,List.mem_of_getElem? found,decide_eq_true member⟩

theorem sound_select {s : System} (sound : Sound s) {i : Nat} {r : Reading} {busy : List String}
    {rows : List (String × WorkflowStatus)} (found : s.calls[i]? = some (.counted r)) (selects : Selects s r busy rows) :
    Sound { s with calls := s.calls.set i (.selected r (rows.map Prod.fst)) } := by
  have saw := sound.saw i _ r found rfl
  obtain ⟨bound,picked⟩ := selects_rows saw selects
  have cases_ : ∀ (j : Nat) r' ids, (s.calls.set i (.selected r (rows.map Prod.fst)))[j]? = some (.selected r' ids) →
      (j = i ∧ r' = r ∧ ids = rows.map Prod.fst) ∨ (j ≠ i ∧ s.calls[j]? = some (.selected r' ids)) := by
    intro j r' ids listed
    rcases party_set_cases found listed with ⟨here,same⟩ | ⟨here,listed⟩
    · cases same
      exact .inl ⟨here,rfl,rfl⟩
    · exact .inr ⟨here,listed⟩
  refine ⟨?_,?_,?_,?_,?_⟩
  · intro j session r' listed reads
    obtain ⟨old,before,reads⟩ := reading_set found listed reads rfl
    exact sound.saw j old r' before reads
  · intro j session r' listed reads
    obtain ⟨old,before,reads⟩ := reading_set found listed reads rfl
    exact sound.counts j old r' before reads
  · intro j r' ids listed
    rcases cases_ j r' ids listed with ⟨_,rfl,rfl⟩ | ⟨_,before⟩
    · refine ⟨by simpa using bound,?_⟩
      intro k member
      obtain ⟨e,listed,rfl⟩ := List.mem_map.mp member
      exact ⟨e.2,(picked e listed).2.2⟩
    · exact sound.held j r' ids before
  · intro j r' ids listed repeatable k member
    rcases cases_ j r' ids listed with ⟨_,rfl,rfl⟩ | ⟨_,before⟩
    · obtain ⟨e,listed,rfl⟩ := List.mem_map.mp member
      exact (picked e listed).2.1 repeatable
    · exact sound.fresh j r' ids before repeatable k member
  · intro j k r₁ ids₁ r₂ ids₂ other listed₁ listed₂ x member
    rcases cases_ j r₁ ids₁ listed₁ with ⟨rfl,rfl,rfl⟩ | ⟨_,before₁⟩
    · rcases cases_ k r₂ ids₂ listed₂ with ⟨rfl,_⟩ | ⟨_,before₂⟩
      · exact absurd rfl other
      · obtain ⟨e,listed,rfl⟩ := List.mem_map.mp member
        intro shared
        have locked := locked_mem before₂ shared
        rw [(picked e listed).1] at locked
        cases locked
    · rcases cases_ k r₂ ids₂ listed₂ with ⟨_,_,rfl⟩ | ⟨_,before₂⟩
      · intro shared
        obtain ⟨e,listed,rfl⟩ := List.mem_map.mp shared
        have locked := locked_mem before₁ member
        rw [(picked e listed).1] at locked
        cases locked
      · exact sound.disjoint j k r₁ ids₁ r₂ ids₂ other before₁ before₂ x member

theorem step_sound {s s' : System} {e : Event} (sound : Sound s) (taken : step s e = some s') : Sound s' := by
  cases step_moves taken with
  | begin call =>
    refine sound_fewer sound rfl ?_
    intro j session listed reads
    rcases party_append listed with old | ⟨_,rfl⟩
    · exact old
    · cases reads
  | idle i call found nothing => exact sound_fewer sound rfl (fewer_set found rfl)
  | read i call found work => exact sound_read sound found work
  | select i r busy rows found selects => exact sound_select sound found selects
  | commit i now r workflowIDs found =>
    refine sound_commit sound (some i) (fewer_set found rfl) ?_
    intro j r' ids listed k member
    obtain ⟨new,claims⟩ := claimLoop_claims r.call r.numRecentQueries now workflowIDs [] s.store.table
    refine claims.kept k ?_
    intro claimed
    rcases party_set_cases found listed with ⟨here,same⟩ | ⟨here,listed⟩
    · cases same
    · exact sound.disjoint j i r' ids r workflowIDs here listed found k member (claims.listed k claimed)
  | fail i session found running => exact sound_fewer sound rfl (fewer_set found rfl)
  | version latestVersion => exact sound_fewer sound rfl fun _ _ listed _ => listed
  | tick elapsed => exact sound_fewer sound rfl fun _ _ listed _ => listed
  | other op plain free => exact sound_commit sound none (fun _ _ listed _ => listed) fun j r ids listed => free j _ listed

/-- A call that nothing interrupts does what the function does. -/
theorem alone_findAndMarkStartableWorkflows {t t' : Statuses} {call : DequeueCall} {latestVersion : Option String}
    {rows : List (String × WorkflowStatus)} {now : Int} {ids : List String}
    (does : findAndMarkStartableWorkflows t call latestVersion rows now = some (ids,t')) :
    ∃ events s, Runs step { start t with latestVersion := latestVersion,now := call.startTimeMs } events s ∧
      s.store.table = t' ∧ s.calls = [.returned call ids] := by
  have begins : step { start t with latestVersion := latestVersion,now := call.startTimeMs } (.begin call) =
      some { start t with latestVersion := latestVersion,now := call.startTimeMs,calls := [.begun call] } := rfl
  unfold findAndMarkStartableWorkflows at does
  split at does
  · rename_i nothing
    cases does
    exact ⟨[.begin call,.read 0],
      { start t with latestVersion := latestVersion,now := call.startTimeMs,calls := [.returned call []] },
      runs_cons.mpr ⟨_,begins,runs_cons.mpr ⟨_,if_pos nothing,runs_nil.mpr rfl⟩⟩,rfl,rfl⟩
  · rename_i work
    split at does
    · rename_i answer
      have out := Option.some.inj does
      obtain rfl : (claimLoop call (numRecentQueries call t) now (rows.map Prod.fst) [] t).1 = ids := congrArg Prod.fst out
      obtain rfl : (claimLoop call (numRecentQueries call t) now (rows.map Prod.fst) [] t).2 = t' := congrArg Prod.snd out
      let s : System := { start t with latestVersion := latestVersion,now := call.startTimeMs,calls := [.begun call] }
      let r : Reading := readingOf s call
      -- No call holds a lock, and nothing was committed since the snapshot.
      have selects : Selects { s with calls := [.counted r] } r [] rows := by
        have startable : System.startable { s with calls := [.counted r] } r =
            t.select (startableHits call (isLatestVersion latestVersion call.appVersion)) := by
          unfold System.startable
          split <;> rfl
        have unlocked : ∀ k, System.locked { s with calls := [.counted r] } k = false := by
          intro k
          simp [System.locked,Session.locks]
        have fresh : ∀ k, s.store.Fresh r.snapshot k := by
          intro k e member
          rw [show s.store.since r.snapshot = [] from Heap.since_snapshot s.store] at member
          cases member
        unfold Selects
        rw [startable]
        split
        · exact ⟨answer,fun e _ => ⟨unlocked e.1,fresh e.1⟩⟩
        · refine ⟨?_,fun _ e _ => fresh e.1⟩
          rw [List.filter_eq_self.mpr]
          · exact answer
          · intro e _
            simp [unlocked]
      have reads : step s (.read 0) = some { s with calls := [.counted r] } := if_neg work
      have picks : step { s with calls := [.counted r] } (.select 0 [] rows) =
          some { s with calls := [.selected r (rows.map Prod.fst)] } := if_pos selects
      exact ⟨[.begin call,.read 0,.select 0 [] rows,.commit 0 now],_,runs_cons.mpr ⟨_,begins,runs_cons.mpr ⟨_,reads,
        runs_cons.mpr ⟨_,picks,runs_cons.mpr ⟨_,rfl,runs_nil.mpr rfl⟩⟩⟩⟩,rfl,rfl⟩
    · cases does

/-! ### The calls on one queue -/

/-- A call on the queue, or on the partition of it, that is looked at. -/
def Aims (q : WorkflowQueue) (key : Option String) (call : DequeueCall) : Prop :=
  call.queue = q ∧ call.queuePartitionKey = key

/-- The calls of the queue have its configuration, and a partition key if it is partitioned. -/
def Configured (q : WorkflowQueue) (call : DequeueCall) : Prop :=
  call.queue.name = q.name → call.queue = q ∧ call.queuePartitionKey.isSome = q.partitionQueue

theorem startable_iff {call : DequeueCall} {latest : Bool} {k : String} {row : WorkflowStatus} :
    startableHits call latest k row = true ↔ row.status = ENQUEUED ∧ row.queue_name = some call.queue.name ∧
      (row.application_version = some call.appVersion ∨ (latest = true ∧ row.application_version = none)) ∧
      inPartition call.queuePartitionKey row = true := by
  simp only [startableHits,decide_eq_true_eq]

section
variable {q : WorkflowQueue}

/-- A row claimed for another queue or partition does not run on this one. -/
theorem claimed_elsewhere {key : Option String} {call : DequeueCall} {latest : Bool} {k : String} {row : WorkflowStatus} {now : Int}
    (configured : Configured q call) (partition : key.isSome = q.partitionQueue) (elsewhere : ¬ Aims q key call)
    (hit : startableHits call latest k row = true) : runningHits q.name key k (claimedRow call now row) = false := by
  obtain ⟨_,queue,_,within⟩ := startable_iff.mp hit
  simp only [runningHits,decide_eq_false_iff_not]
  rintro ⟨queue',_,within'⟩
  have named : call.queue.name = q.name := Option.some.inj (queue.symm.trans queue')
  obtain ⟨same,keyed⟩ := configured named
  refine elsewhere ⟨same,?_⟩
  -- Both keys are there or none is, and the row is in both partitions.
  cases given : call.queuePartitionKey with
  | none =>
    cases target : key with
    | none => rfl
    | some p => simp [given,target,partition.symm] at keyed
  | some p =>
    cases target : key with
    | none => simp [given,target,partition.symm] at keyed
    | some p' =>
      simp only [inPartition,given,Option.all_some,decide_eq_true_eq] at within
      simp only [inPartition,target,Option.all_some,decide_eq_true_eq] at within'
      have shared : some p = some p' := within.symm.trans within'
      exact shared

theorem configured_set {calls : List Session} {i : Nat} {old new : Session}
    (configured : ∀ (i : Nat) session, calls[i]? = some session → Configured q session.call)
    (found : calls[i]? = some old) (same : new.call = old.call) (j : Nat) (session : Session)
    (listed : (calls.set i new)[j]? = some session) : Configured q session.call := by
  rcases party_set_cases found listed with ⟨here,same⟩ | ⟨here,listed⟩
  · cases same
    rw [same]
    exact configured i old found
  · exact configured j session listed

end

section
variable {s : System} {i : Nat} {r : Reading} {workflowIDs new : List String} {now : Int}

/-- A claimed row was startable for the call, and its locks kept it so. -/
theorem claims_startable (sound : Sound s) (found : s.calls[i]? = some (.selected r workflowIDs))
    (claims : Claims r.call r.numRecentQueries now workflowIDs [] s.store.table new) {k : String} (member : k ∈ new) :
    ∃ row, s.store.table.get? k = some row ∧ startableHits r.call r.isLatestVersion k row = true ∧
      (claimLoop r.call r.numRecentQueries now workflowIDs [] s.store.table).2.get? k =
        some (claimedRow r.call now row) := by
  obtain ⟨row,stored,hit⟩ := (sound.held i r workflowIDs found).2 k (claims.listed k member)
  obtain ⟨row',stored',_,after⟩ := claims.claimed k member
  cases stored.symm.trans stored'
  exact ⟨row,stored,hit,after⟩

theorem claims_changed (claims : Claims r.call r.numRecentQueries now workflowIDs [] s.store.table new) {k : String}
    (changed : (claimLoop r.call r.numRecentQueries now workflowIDs [] s.store.table).2.get? k ≠ s.store.table.get? k) :
    k ∈ new := by
  by_contra missing
  exact changed (claims.kept k missing)

end
end Dbos.Dispatch
