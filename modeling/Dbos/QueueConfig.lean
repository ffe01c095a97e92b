import Dbos.Pg.Run
import Dbos.Pg.Table
import Dbos.Schema
import Mathlib.Data.Rat.Defs
import Mathlib.Algebra.Order.Field.Rat

/-!
The configuration of database-backed queues: the checks and setters of `WorkflowQueue` in `src/wfqueue.ts` and the statements on the
`queues` table in `src/system_database.ts`. A setter checks its value against the copies that its handle has, writes its own column and
then assigns its copy; these are separate moments, and other handles write in between.
-/
namespace Dbos.QueueConfig
open Dbos.Pg Dbos.Schema

/-! ### Parameters and records -/

structure QueueRateLimit where
  limitPerPeriod : Option Int := none
  periodSec : Option ℚ := none

structure QueueParameters where
  workerConcurrency : Option Int := none
  concurrency : Option Int := none
  rateLimit : Option QueueRateLimit := none
  priorityEnabled : Option Bool := none
  partitionQueue : Option Bool := none
  minPollingIntervalMs : Option ℚ := none

/-- Both parts of a rate limit are there. -/
def QueueRateLimit.complete (limit : QueueRateLimit) : Bool := limit.limitPerPeriod.isSome && limit.periodSec.isSome

def validateQueueParams (params : QueueParameters) : Except DbosError Unit :=
  if params.workerConcurrency.any fun worker => params.concurrency.any fun all => worker > all then
    .error (.Error "concurrency must be greater than or equal to workerConcurrency")
  else if params.minPollingIntervalMs.any fun ms => ms ≤ 0 then .error (.Error "minPollingIntervalMs must be positive")
  else if params.rateLimit.any fun limit => !limit.complete then
    .error (.Error "rateLimit must specify both limitPerPeriod and periodSec")
  else .ok ()

/-- A row of `queues`; the name is its key. -/
structure QueueRecord where
  concurrency : Option Int := none
  workerConcurrency : Option Int := none
  rateLimitMax : Option Int := none
  rateLimitPeriodSec : Option ℚ := none
  priorityEnabled : Bool := false
  partitionQueue : Bool := false
  pollingIntervalSec : ℚ := 1

abbrev Queues := Table String QueueRecord

def recordFromParams (params : QueueParameters) : QueueRecord where
  concurrency := params.concurrency
  workerConcurrency := params.workerConcurrency
  rateLimitMax := params.rateLimit.bind QueueRateLimit.limitPerPeriod
  rateLimitPeriodSec := params.rateLimit.bind QueueRateLimit.periodSec
  priorityEnabled := params.priorityEnabled.getD false
  partitionQueue := params.partitionQueue.getD false
  pollingIntervalSec := params.minPollingIntervalMs.getD 1000 / 1000

/-- The range of an INT4 column. -/
def int4 (n : Int) : Bool := -2147483648 ≤ n ∧ n ≤ 2147483647

/-- PostgreSQL refuses an integer that its column cannot hold. -/
def storable (numbers : List (Option Int)) : Bool := numbers.all fun number => number.all int4

/-- The transaction of `upsertQueue`: whether the row is new, and the table after it. -/
def upsertQueue (queues : Queues) (name : String) (record : QueueRecord) (updateExisting : Bool) : Except DbosError (Bool × Queues) :=
  if storable [record.concurrency,record.workerConcurrency,record.rateLimitMax] then
    .ok ((queues.get? name).isNone,
      if updateExisting then queues.upsert name record fun _ => record else queues.insert name record)
  else .error (.DatabaseError "22003")

/-- `QueueRecordUpdate`: a field that is not there is not set. -/
structure QueueRecordUpdate where
  concurrency : Option (Option Int) := none
  workerConcurrency : Option (Option Int) := none
  rateLimitMax : Option (Option Int) := none
  rateLimitPeriodSec : Option (Option ℚ) := none
  priorityEnabled : Option Bool := none
  partitionQueue : Option Bool := none
  pollingIntervalSec : Option ℚ := none

def QueueRecordUpdate.apply (fields : QueueRecordUpdate) (record : QueueRecord) : QueueRecord where
  concurrency := fields.concurrency.getD record.concurrency
  workerConcurrency := fields.workerConcurrency.getD record.workerConcurrency
  rateLimitMax := fields.rateLimitMax.getD record.rateLimitMax
  rateLimitPeriodSec := fields.rateLimitPeriodSec.getD record.rateLimitPeriodSec
  priorityEnabled := fields.priorityEnabled.getD record.priorityEnabled
  partitionQueue := fields.partitionQueue.getD record.partitionQueue
  pollingIntervalSec := fields.pollingIntervalSec.getD record.pollingIntervalSec

/-- One UPDATE of the columns that are given. Without a row it does nothing. -/
def updateQueue (queues : Queues) (name : String) (fields : QueueRecordUpdate) : Except DbosError Queues :=
  if storable [fields.concurrency.getD none,fields.workerConcurrency.getD none,fields.rateLimitMax.getD none] then
    .ok (queues.update (fun k _ => k = name) fun _ record => fields.apply record)
  else .error (.DatabaseError "22003")

/-! ### Handles -/

/-- A `WorkflowQueue` with its copies of the configuration. -/
structure WorkflowQueue where
  name : String
  concurrency : Option Int := none
  rateLimit : Option QueueRateLimit := none
  workerConcurrency : Option Int := none
  priorityEnabled : Bool := false
  partitionQueue : Bool := false
  minPollingIntervalMs : Option ℚ := none
  databaseBacked : Bool := false

/-- `_fromRecord`, and what `refreshFromDb` makes of a handle. -/
def fromRecord (name : String) (record : QueueRecord) : WorkflowQueue where
  name := name
  concurrency := record.concurrency
  workerConcurrency := record.workerConcurrency
  rateLimit := if record.rateLimitMax.isSome && record.rateLimitPeriodSec.isSome then
    some ⟨record.rateLimitMax,record.rateLimitPeriodSec⟩ else none
  priorityEnabled := record.priorityEnabled
  partitionQueue := record.partitionQueue
  minPollingIntervalMs := some (record.pollingIntervalSec * 1000)
  databaseBacked := true

/-- A call of a setter with its value. -/
inductive Setter
  | setConcurrency (value : Option Int)
  | setWorkerConcurrency (value : Option Int)
  | setRateLimit (value : Option QueueRateLimit)
  | setPriorityEnabled (value : Bool)
  | setPartitionQueue (value : Bool)
  | setMinPollingIntervalMs (value : ℚ)

/-- What a setter checks before it writes: the other limit is the copy of the handle. -/
def Setter.check (q : WorkflowQueue) : Setter → Except DbosError Unit
  | .setConcurrency value =>
    if value.any fun all => q.workerConcurrency.any fun worker => worker > all then
      .error (.Error "workerConcurrency must be less than or equal to concurrency") else .ok ()
  | .setWorkerConcurrency value =>
    if value.any fun worker => q.concurrency.any fun all => worker > all then
      .error (.Error "workerConcurrency must be less than or equal to concurrency") else .ok ()
  | .setRateLimit value =>
    if value.any fun limit => !limit.complete then .error (.Error "rateLimit must specify both limitPerPeriod and periodSec")
    else .ok ()
  | .setMinPollingIntervalMs value => if value ≤ 0 then .error (.Error "minPollingIntervalMs must be positive") else .ok ()
  | _ => .ok ()

/-- `requireDatabaseBacked` and the check of the setter. -/
def Setter.admit (q : WorkflowQueue) (setter : Setter) : Except DbosError Unit :=
  if q.databaseBacked then setter.check q
  else .error (.Error ("Cannot configure queue " ++ q.name ++
    ": dynamic configuration is only supported for queues registered via DBOS.registerQueue."))

def Setter.fields : Setter → QueueRecordUpdate
  | .setConcurrency value => { concurrency := some value }
  | .setWorkerConcurrency value => { workerConcurrency := some value }
  | .setRateLimit value =>
    { rateLimitMax := some (value.bind QueueRateLimit.limitPerPeriod),rateLimitPeriodSec := some (value.bind QueueRateLimit.periodSec) }
  | .setPriorityEnabled value => { priorityEnabled := some value }
  | .setPartitionQueue value => { partitionQueue := some value }
  | .setMinPollingIntervalMs value => { pollingIntervalSec := some (value / 1000) }

/-- The assignment of the copy after the write. -/
def Setter.assign (q : WorkflowQueue) : Setter → WorkflowQueue
  | .setConcurrency value => { q with concurrency := value }
  | .setWorkerConcurrency value => { q with workerConcurrency := value }
  | .setRateLimit value => { q with rateLimit := value }
  | .setPriorityEnabled value => { q with priorityEnabled := value }
  | .setPartitionQueue value => { q with partitionQueue := value }
  | .setMinPollingIntervalMs value => { q with minPollingIntervalMs := some value }

/-! ### Any number of handles -/

/-- A call of a setter that has passed its check, with the handle as it was then. -/
structure Call where
  handle : Nat
  checked : WorkflowQueue
  setter : Setter
  written : Bool := false

/-- The table, the handles of all processes and what is under way: calls of setters, and refreshes that have read the row. -/
structure System where
  queues : Queues := Table.empty
  handles : List WorkflowQueue := []
  calls : List Call := []
  refreshes : List (Nat × QueueRecord) := []

/-- The moments of the calls. A setter is called, commits its UPDATE and assigns its copy, or it throws at some point; a getter reads the
    row and assigns the copies. `registerQueue` is the upsert and then the retrieval of a handle. -/
inductive Event
  | registerQueue (name : String) (params : QueueParameters) (updateExisting : Bool)
  | retrieveQueue (name : String)
  | deleteQueue (name : String)
  | set (handle : Nat) (setter : Setter)
  | write (i : Nat)
  | assign (i : Nat)
  | throws (i : Nat)
  | refresh (handle : Nat)
  | refreshed (i : Nat)

def registerQueue (queues : Queues) (name : String) (params : QueueParameters) (updateExisting : Bool) : Except DbosError (Bool × Queues) :=
  match validateQueueParams params with
  | .error e => .error e
  | .ok _ => upsertQueue queues name (recordFromParams params) updateExisting

def step (s : System) : Event → Option System
  | .registerQueue name params updateExisting =>
    match registerQueue s.queues name params updateExisting with
    | .error _ => some s
    | .ok (_,queues) => some { s with queues := queues }
  | .retrieveQueue name =>
    match s.queues.get? name with
    | some record => some { s with handles := s.handles ++ [fromRecord name record] }
    | none => some s
  | .deleteQueue name => some { s with queues := s.queues.delete fun k _ => k = name }
  | .set handle setter =>
    match s.handles[handle]? with
    | some q =>
      match setter.admit q with
      | .error _ => some s
      | .ok _ => some { s with calls := s.calls ++ [{ handle := handle,checked := q,setter := setter }] }
    | none => none
  | .write i =>
    match s.calls[i]? with
    | some call =>
      if call.written then none
      else match updateQueue s.queues call.checked.name call.setter.fields with
        | .error _ => some { s with calls := s.calls.eraseIdx i }
        | .ok queues => some { s with queues := queues,calls := s.calls.set i { call with written := true } }
    | none => none
  | .assign i =>
    match s.calls[i]? with
    | some call =>
      if call.written then
        some { s with handles := s.handles.modify call.handle fun q => call.setter.assign q,calls := s.calls.eraseIdx i }
      else none
    | none => none
  | .throws i => some { s with calls := s.calls.eraseIdx i }
  | .refresh handle =>
    match s.handles[handle]? with
    | some q =>
      match s.queues.get? q.name with
      | some record => if q.databaseBacked then some { s with refreshes := s.refreshes ++ [(handle,record)] } else some s
      | none => some s
    | none => none
  | .refreshed i =>
    match s.refreshes[i]? with
    | some (handle,record) =>
      some { s with handles := s.handles.modify handle fun q => fromRecord q.name record,refreshes := s.refreshes.eraseIdx i }
    | none => none

/-! ### What stays valid -/

/-- Where both limits are set, a worker's is not above the one for all. -/
def QueueRecord.Valid (record : QueueRecord) : Prop :=
  ∀ all worker, record.concurrency = some all → record.workerConcurrency = some worker → worker ≤ all

/-- The stored limit that a setter does not write is unset, or the copy that its value was checked against is at least as strict. -/
def Call.guarded (call : Call) (record : QueueRecord) : Bool :=
  match call.setter with
  | .setConcurrency (some _) =>
    record.workerConcurrency.all fun stored => call.checked.workerConcurrency.any fun cached => stored ≤ cached
  | .setWorkerConcurrency (some _) =>
    record.concurrency.all fun stored => call.checked.concurrency.any fun cached => cached ≤ stored
  | _ => true

/-- An UPDATE comes when the row is still guarded by what its call has checked. -/
def current (s : System) : Event → Bool
  | .write i => s.calls[i]?.all fun call => (s.queues.get? call.checked.name).all call.guarded
  | _ => true

/-- The rows are valid, and each call under way has passed its check. -/
structure Sound (s : System) : Prop where
  rows : s.queues.All fun _ record => record.Valid
  checked : ∀ call ∈ s.calls, call.setter.admit call.checked = .ok ()

theorem validated {params : QueueParameters} (passed : validateQueueParams params = .ok ()) : (recordFromParams params).Valid := by
  intro all worker limit share
  have both : params.concurrency = some all ∧ params.workerConcurrency = some worker := ⟨limit,share⟩
  unfold validateQueueParams at passed
  split at passed
  · cases passed
  · rename_i within
    simpa [both] using within

theorem registerQueue_valid {queues queues' : Queues} {name : String} {params : QueueParameters} {updateExisting inserted : Bool}
    (valid : queues.All fun _ record => record.Valid)
    (registered : registerQueue queues name params updateExisting = .ok (inserted,queues')) :
    queues'.All fun _ record => record.Valid := by
  unfold registerQueue at registered
  split at registered
  · cases registered
  rename_i passed
  have new := validated passed
  unfold upsertQueue at registered
  split at registered
  · cases registered
    intro k record found
    split at found
    · rw [Table.get?_upsert] at found
      split at found
      · have same : recordFromParams params = record := by
          cases there : queues.get? name <;> simpa [there] using found
        exact same ▸ new
      · exact valid k record found
    · rcases queues.insert_cases name (recordFromParams params) k with same | ⟨_,_,here⟩
      · exact valid k record (same ▸ found)
      · cases here.symm.trans found
        exact new
  · cases registered

/-- A setter that was checked against strict enough copies leaves a valid row valid. -/
theorem setter_valid {call : Call} {record : QueueRecord} (admitted : call.setter.admit call.checked = .ok ()) (valid : record.Valid)
    (guarded : call.guarded record = true) : (call.setter.fields.apply record).Valid := by
  obtain ⟨handle,q,setter,written⟩ := call
  unfold Setter.admit at admitted
  split at admitted
  · cases setter with
    | setConcurrency value =>
      intro all worker limit share
      have given : value = some all := limit
      have stored : record.workerConcurrency = some worker := share
      subst given
      obtain ⟨cached,copy,strict⟩ : ∃ cached,q.workerConcurrency = some cached ∧ worker ≤ cached := by
        simpa [Call.guarded,stored,Option.any_eq_true] using guarded
      have within : cached ≤ all := by simpa [Setter.check,copy] using admitted
      exact strict.trans within
    | setWorkerConcurrency value =>
      intro all worker limit share
      have given : value = some worker := share
      have stored : record.concurrency = some all := limit
      subst given
      obtain ⟨cached,copy,strict⟩ : ∃ cached,q.concurrency = some cached ∧ cached ≤ all := by
        simpa [Call.guarded,stored,Option.any_eq_true] using guarded
      have within : worker ≤ cached := by simpa [Setter.check,copy] using admitted
      exact within.trans strict
    | _ => exact valid
  · cases admitted

theorem write_valid {queues queues' : Queues} {call : Call} (valid : queues.All fun _ record => record.Valid)
    (admitted : call.setter.admit call.checked = .ok ()) (guarded : (queues.get? call.checked.name).all call.guarded = true)
    (updated : updateQueue queues call.checked.name call.setter.fields = .ok queues') :
    queues'.All fun _ record => record.Valid := by
  unfold updateQueue at updated
  split at updated
  · cases updated
    intro k record found
    rcases queues.update_cases (fun k _ => k = call.checked.name) (fun _ record => call.setter.fields.apply record) k with
      same | ⟨old,there,hit,new⟩
    · exact valid k record (same ▸ found)
    · cases new.symm.trans found
      have own : k = call.checked.name := by simpa using hit
      have strict : call.guarded old = true := by simpa [← own,there] using guarded
      exact setter_valid admitted (valid k old there) strict
  · cases updated

theorem step_sound {s s' : System} {e : Event} (sound : Sound s) (fresh : current s e = true) (taken : step s e = some s') : Sound s' := by
  obtain ⟨rows,checked⟩ := sound
  have fewer : ∀ i, ∀ call ∈ s.calls.eraseIdx i, call.setter.admit call.checked = .ok () := by
    intro i call listed
    exact checked call (List.mem_of_mem_eraseIdx listed)
  cases e with
  | registerQueue name params updateExisting =>
    simp only [step] at taken
    split at taken
    · cases taken
      exact ⟨rows,checked⟩
    · rename_i registered
      cases taken
      exact ⟨registerQueue_valid rows registered,checked⟩
  | retrieveQueue name =>
    simp only [step] at taken
    split at taken <;> cases taken <;> exact ⟨rows,checked⟩
  | deleteQueue name =>
    cases taken
    refine ⟨?_,checked⟩
    intro k record found
    rw [Table.get?_delete] at found
    exact rows k record (Option.eq_some_of_filter_eq_some found)
  | set handle setter =>
    simp only [step] at taken
    split at taken
    · rename_i q _
      split at taken
      · cases taken
        exact ⟨rows,checked⟩
      · rename_i passed
        cases taken
        refine ⟨rows,?_⟩
        intro call listed
        rcases List.mem_append.mp listed with old | new
        · exact checked call old
        · cases List.mem_singleton.mp new
          exact passed
    · cases taken
  | write i =>
    simp only [step] at taken
    split at taken
    · rename_i call under
      have member := List.mem_of_getElem? under
      split at taken
      · cases taken
      split at taken
      · cases taken
        exact ⟨rows,fewer i⟩
      · rename_i queues updated
        cases taken
        refine ⟨?_,?_⟩
        · have guarded : (s.queues.get? call.checked.name).all call.guarded = true := by simpa [current,under] using fresh
          exact write_valid rows (checked call member) guarded updated
        · intro other listed
          rcases List.mem_or_eq_of_mem_set listed with old | rfl
          · exact checked other old
          · exact checked call member
    · cases taken
  | assign i =>
    simp only [step] at taken
    split at taken
    · split at taken
      · cases taken
        exact ⟨rows,fewer i⟩
      · cases taken
    · cases taken
  | throws i =>
    cases taken
    exact ⟨rows,fewer i⟩
  | refresh handle =>
    simp only [step] at taken
    split at taken
    · split at taken
      · split at taken <;> cases taken <;> exact ⟨rows,checked⟩
      · cases taken
        exact ⟨rows,checked⟩
    · cases taken
  | refreshed i =>
    simp only [step] at taken
    split at taken
    · cases taken
      exact ⟨rows,checked⟩
    · cases taken

/-- In a run whose UPDATEs all come when the row is still guarded by what their calls have checked, every stored pair of limits is valid.
    The handles at the start are any, up to date or not. -/
theorem limits_valid {s s' : System} {events : List Event} (valid : s.queues.All fun _ record => record.Valid) (idle : s.calls = [])
    (fresh : Along step (fun s e => current s e = true) s events) (run : Runs step s events s') :
    s'.queues.All fun _ record => record.Valid := by
  have start : Sound s := ⟨valid,by simp [idle]⟩
  exact (along_invariant (fun _ _ _ sound fresh taken => step_sound sound fresh taken) start fresh run).rows

/-- A queue with two handles: one sets the limit for all to 5, and after some reading the other sets that of a worker. -/
def twoHandles (reading : List Event) (worker : Int) : List Event :=
  [Event.registerQueue "q" {} true,.retrieveQueue "q",.retrieveQueue "q",.set 0 (.setConcurrency (some 5)),.write 0,.assign 0] ++ reading ++
    [Event.set 1 (.setWorkerConcurrency (some worker)),.write 0,.assign 0]

theorem limits_valid_refreshed : ∃ s,Runs step {} (twoHandles [.refresh 1,.refreshed 0] 3) s ∧
    s.queues.All fun _ record => record.Valid := by
  obtain ⟨s,run⟩ : ∃ s,Runs step {} (twoHandles [.refresh 1,.refreshed 0] 3) s := ⟨_,rfl⟩
  exact ⟨s,run,limits_valid Table.all_empty rfl (by decide) run⟩

/-- The second handle has not read the limit of the first: 10 for a worker is stored beside 5 for all. -/
theorem stale_handle_invalid : ∃ s,Runs step {} (twoHandles [] 10) s ∧
    ∃ record,s.queues.get? "q" = some record ∧ record.concurrency = some 5 ∧ record.workerConcurrency = some 10 ∧ ¬ record.Valid := by
  refine ⟨_,rfl,_,rfl,rfl,rfl,?_⟩
  intro valid
  exact absurd (valid 5 10 rfl rfl) (by decide)

end Dbos.QueueConfig
