import Mathlib.Data.List.Perm.Subperm
import Dbos.DequeueSpec
import Dbos.Execution
import Dbos.RunOwnership

/-!
The worker limit of a queue. A poll counts the entries of its queue and partition in the running
map, claims as many rows as the limit leaves, and starts them one after the other, each under the
queue and the partition key that its row has by then. No two polls of a queue overlap; everything
else may happen in between: turns of the runs, direct starts, and whatever is written to the
database.
-/
namespace Dbos.WorkerConcurrency
open Dbos.Pg Dbos.Schema Dbos.Dequeue Dbos.DequeueSpec Dbos.RunningMap

/-- The process: the queues that it polls and what it is. -/
structure Config where
  queues : String → WorkflowQueue
  executorID : String
  appVersion : String

/-- The queue and the partition argument of a poll. -/
structure Source where
  queue : String
  partition : Option String
  deriving DecidableEq

/-- Where the poll of a queue stands. -/
inductive Lane
  | idle
  -- in `findAndMarkStartableWorkflows`, after its count of the running workflows
  | counted (call : DequeueCall)
  | dispatching (source : Source) (wfids : List String)
  -- in `executeWorkflowId`, after `getWorkflowStatus`
  | executing (source : Source) (wfid : String) (queueName queuePartitionKey : Option String) (wfids : List String)

/-- `origin` tells from which poll a run was claimed. -/
structure Worker where
  executor : Executor := {}
  table : Statuses := .empty
  lane : String → Lane := fun _ => .idle
  origin : Nat → Option Source := fun _ => none

def countRunningWorkflowsForQueue (map : Table String Entry) (queueName : String) (queuePartitionKey : Option String) : Nat :=
  map.count fun _ entry => entry.queueName = some queueName ∧ entry.queuePartitionKey = queuePartitionKey

inductive Event
  | poll (queue : String) (partition : Option String) (startTimeMs : Int)
  | claim (queue : String) (latestVersion : Option String) (rows : List (String × WorkflowStatus)) (now : Int)
  | claimFails (queue : String)
  | read (queue : String)
  -- `starts`: nothing before the look at the map has failed or decided against a start
  | execute (queue : String) (starts : Bool)
  | pollEnds (queue : String)
  | executor (event : RunningMap.Event)
  | database (t : Statuses)

section System
variable (c : Config)

def Config.call (queue : String) (partition : Option String) (startTimeMs : Int) (localRunningForQueue : Nat) : DequeueCall where
  queue := { c.queues queue with name := queue }
  executorID := c.executorID
  appVersion := c.appVersion
  queuePartitionKey := partition
  startTimeMs := startTimeMs
  localRunningForQueue := localRunningForQueue

def Worker.put (s : Worker) (queue : String) (lane : Lane) : Worker := { s with lane := Function.update s.lane queue lane }

@[simp] theorem Worker.put_lane (s : Worker) (queue : String) (lane : Lane) : (s.put queue lane).lane queue = lane := Function.update_self ..

@[simp] theorem Worker.put_lane_of_ne (s : Worker) {queue queue' : String} (lane : Lane) (other : queue' ≠ queue) :
    (s.put queue lane).lane queue' = s.lane queue' := Function.update_of_ne other ..

/-- The end of `internalWorkflow` for a claimed workflow. -/
def Worker.start (s : Worker) (source : Source) (wfid : String) (queueName queuePartitionKey : Option String) : Worker :=
  { s with
    executor := s.executor.start wfid queueName queuePartitionKey
    origin :=
      if (s.executor.runningWorkflowMap.get? wfid).isSome then s.origin
      else Function.update s.origin s.executor.runs.length (some source) }

def step (s : Worker) : Event → Option Worker
  | .poll queue partition startTimeMs =>
    match s.lane queue with
    | .idle =>
      if (c.queues queue).partitionQueue = partition.isSome then
        let localRunningForQueue := countRunningWorkflowsForQueue s.executor.runningWorkflowMap queue partition
        some (s.put queue (.counted (c.call queue partition startTimeMs localRunningForQueue)))
      else none
    | _ => none
  | .claim queue latestVersion rows now =>
    match s.lane queue with
    | .counted call =>
      match findAndMarkStartableWorkflows s.table call latestVersion rows now with
      | some (claimedIDs,t) => some { s.put queue (.dispatching ⟨queue,call.queuePartitionKey⟩ claimedIDs) with table := t }
      | none => none
    | _ => none
  | .claimFails queue =>
    match s.lane queue with
    | .counted _ => some (s.put queue .idle)
    | _ => none
  | .read queue =>
    match s.lane queue with
    | .dispatching source (wfid :: wfids) =>
      match (s.table.get? wfid).map (Execution.mapWorkflowStatus wfid) with
      | some wfStatus => some (s.put queue (.executing source wfid wfStatus.queueName wfStatus.queuePartitionKey wfids))
      | none => some (s.put queue (.dispatching source wfids))
    | _ => none
  | .execute queue starts =>
    match s.lane queue with
    | .executing source wfid queueName queuePartitionKey wfids =>
      if starts then some ((s.start source wfid queueName queuePartitionKey).put queue (.dispatching source wfids))
      else some (s.put queue (.dispatching source wfids))
    | _ => none
  | .pollEnds queue =>
    match s.lane queue with
    | .dispatching _ [] => some (s.put queue .idle)
    | _ => none
  | .executor event => (RunningMap.step s.executor event).map fun executor => { s with executor := executor }
  | .database t => some { s with table := t }

end System

/-- The unreleased runs that were claimed from a queue, or from a partition of it. -/
def running (s : Worker) (source : Source) : List Nat :=
  (List.range s.executor.runs.length).filter fun i =>
    decide (s.origin i = some source) && (s.executor.runs[i]?).any fun run => !run.runningWorkflowReleased

/-- The claimed workflow that `executeWorkflowId` reads next, and its poll. -/
def Lane.next : Lane → Option (Source × String)
  | .dispatching source (wfid :: _) => some (source,wfid)
  | _ => none

/-- A claimed row has, when it is read, the queue and the partition argument of its poll; and
    no workflow is deleted while a run of it is under way. -/
def AsClaimed (s : Worker) : Event → Prop
  | .read queue => ∀ next ∈ (s.lane queue).next,∀ row ∈ s.table.get? next.2,
    row.queue_name = some next.1.queue ∧ row.queue_partition_key = next.1.partition
  | .executor (.deleteWorkflows allIds) => ∀ run ∈ s.executor.runs,run.runningWorkflowReleased = false → run.workflowID ∉ allIds
  | _ => True

instance (s : Worker) : (event : Event) → Decidable (AsClaimed s event)
  | .read queue => inferInstanceAs (Decidable (∀ next ∈ (s.lane queue).next,∀ row ∈ s.table.get? next.2,_))
  | .executor (.deleteWorkflows allIds) => inferInstanceAs (Decidable (∀ run ∈ s.executor.runs,_ → run.workflowID ∉ allIds))
  | .executor (.internalWorkflow ..) | .executor (.returns _) | .executor (.throws ..) | .executor (.serialized _) |
    .executor (.finishes _) | .executor (.fails _) | .executor (.settles _) => isTrue trivial
  | .poll .. | .claim .. | .claimFails _ | .execute .. | .pollEnds _ | .database _ => isTrue trivial

/-! ### The executor -/

/-- What an event of the executor does that starts no run: runs go on or are released, entries go. -/
structure Shrinks (e e' : Executor) : Prop where
  length : e'.runs.length = e.runs.length
  runs : ∀ (i : Nat) (r' : Run),e'.runs[i]? = some r' → ∃ r,e.runs[i]? = some r ∧
    (r'.runningWorkflowReleased = false → r.runningWorkflowReleased = false) ∧ r'.dropped = r.dropped
  entries : ∀ w x,e'.runningWorkflowMap.get? w = some x → e.runningWorkflowMap.get? w = some x

theorem shrinks_set {e e' : Executor} {i : Nat} {run : Run} (new : Run) (found : e.runs[i]? = some run) (runs : e'.runs = e.runs.set i new)
    (released : new.runningWorkflowReleased = false → run.runningWorkflowReleased = false) (dropped : new.dropped = run.dropped)
    (entries : ∀ w x,e'.runningWorkflowMap.get? w = some x → e.runningWorkflowMap.get? w = some x) : Shrinks e e' := by
  refine ⟨by rw [runs,List.length_set],fun j r' listed => ?_,entries⟩
  rw [runs] at listed
  rcases party_set_cases found listed with ⟨rfl,rfl⟩ | ⟨_,there⟩
  · exact ⟨run,found,released,dropped⟩
  · exact ⟨r',there,id,rfl⟩

theorem get?_of_delete {κ ρ : Type} [DecidableEq κ] {t : Table κ ρ} {hit : κ → ρ → Bool} {k : κ} {r : ρ}
    (there : (t.delete hit).get? k = some r) : t.get? k = some r := by
  rw [Table.get?_delete] at there
  exact (Option.filter_eq_some_iff.mp there).1

theorem shrinks_release {e : Executor} {i : Nat} {run : Run} (found : e.runs[i]? = some run) (phase : Phase) :
    Shrinks e (e.release i run phase) := by
  refine shrinks_set { run with runningWorkflowReleased := true,phase := phase } found rfl (fun released => ?_) rfl fun w x there => ?_
  · cases released
  · simp only [Executor.release] at there
    split at there
    · exact there
    · exact get?_of_delete there

theorem shrinks_delete {e : Executor} {allIds : List String}
    (under : ∀ run ∈ e.runs,run.runningWorkflowReleased = false → run.workflowID ∉ allIds) : Shrinks e (e.deleteWorkflows allIds) := by
  refine ⟨List.length_map _,fun i r' listed => ?_,fun w x there => get?_of_delete there⟩
  simp only [Executor.deleteWorkflows,List.getElem?_map] at listed
  obtain ⟨r,there,rfl⟩ := Option.map_eq_some_iff.mp listed
  refine ⟨r,there,id,?_⟩
  cases open' : r.runningWorkflowReleased with
  | true => simp
  | false => simp [under r (List.mem_of_getElem? there) open']

/-- A start adds a run and its entry, or changes nothing. -/
theorem start_cases (e : Executor) (w : String) (q k : Option String) :
    ((e.runningWorkflowMap.get? w).isSome ∧ e.start w q k = e) ∨
      (e.runningWorkflowMap.get? w = none ∧ (e.start w q k).runs = e.runs ++ [{ workflowID := w }] ∧
        ∀ w' x,(e.start w q k).runningWorkflowMap.get? w' = some x →
          e.runningWorkflowMap.get? w' = some x ∨ x = ⟨e.runs.length,q,k⟩) := by
  unfold Executor.start
  split
  · rename_i taken
    exact .inl ⟨taken,rfl⟩
  · rename_i vacant
    refine .inr ⟨by simpa using vacant,rfl,fun w' x there => ?_⟩
    rcases e.runningWorkflowMap.insert_cases w ⟨e.runs.length,q,k⟩ w' with old | ⟨_,_,new⟩
    · exact .inl (old ▸ there)
    · exact .inr (Option.some.inj (there.symm.trans new))

/-! ### Counting -/

theorem mem_running {s : Worker} {source : Source} {i : Nat} :
    i ∈ running s source ↔ s.origin i = some source ∧ ∃ run,s.executor.runs[i]? = some run ∧ run.runningWorkflowReleased = false := by
  simp only [running,List.mem_filter,List.mem_range,Bool.and_eq_true,decide_eq_true_eq]
  constructor
  · rintro ⟨bound,origin,unreleased⟩
    rw [List.getElem?_eq_getElem bound,Option.any_some,Bool.not_eq_true'] at unreleased
    exact ⟨origin,_,List.getElem?_eq_getElem bound,unreleased⟩
  · rintro ⟨origin,run,found,unreleased⟩
    exact ⟨(List.getElem?_eq_some_iff.mp found).1,origin,by simp [found,unreleased]⟩

theorem running_nodup (s : Worker) (source : Source) : (running s source).Nodup := List.nodup_range.filter _

theorem running_le {s s' : Worker} {source : Source} (more : List Nat) (within : ∀ i ∈ running s' source,i ∈ running s source ∨ i ∈ more) :
    (running s' source).length ≤ (running s source).length + more.length := by
  have included : running s' source ⊆ running s source ++ more := fun i member => List.mem_append.mpr (within i member)
  have bound := (List.subperm_of_subset (running_nodup s' source) included).length_le
  rwa [List.length_append] at bound

/-- Every run that a poll has to count has an entry in the map. -/
theorem running_counted {s : Worker} (source : Source) (registered : Registered s.executor)
    (undropped : ∀ run ∈ s.executor.runs,run.runningWorkflowReleased = false → run.dropped = false)
    (named : ∀ w e,s.executor.runningWorkflowMap.get? w = some e → s.origin e.owner = some source →
      e.queueName = some source.queue ∧ e.queuePartitionKey = source.partition) :
    (running s source).length ≤ countRunningWorkflowsForQueue s.executor.runningWorkflowMap source.queue source.partition := by
  let counted := s.executor.runningWorkflowMap.keys fun _ entry =>
    entry.queueName = some source.queue ∧ entry.queuePartitionKey = source.partition
  have owners : running s source ⊆ counted.map fun w => (s.executor.runningWorkflowMap.get? w).elim 0 Entry.owner := by
    intro i member
    obtain ⟨origin,run,found,unreleased⟩ := mem_running.mp member
    obtain ⟨e,there,rfl⟩ := registered.run i run found unreleased (undropped run (List.mem_of_getElem? found) unreleased)
    refine List.mem_map.mpr ⟨run.workflowID,?_,by rw [there]; rfl⟩
    exact (Table.mem_keys _ _ _).mpr ⟨e,there,by simpa using named _ e there origin⟩
  have few := (List.subperm_of_subset (running_nodup s source) owners).length_le
  rwa [List.length_map] at few

/-! ### The limit -/

section Limit
variable (c : Config)

/-- What a poll still starts keeps within the limit together with what runs. -/
def LaneWithin (s : Worker) (queue : String) : Lane → Prop
  | .idle => True
  | .counted call => call.queue = { c.queues queue with name := queue } ∧
    (running s ⟨queue,call.queuePartitionKey⟩).length ≤ call.localRunningForQueue
  | .dispatching source wfids => source.queue = queue ∧
    ∀ W,(c.queues queue).workerConcurrency = some W → (running s source).length + wfids.length ≤ W
  | .executing source _ queueName queuePartitionKey wfids => source.queue = queue ∧
    (queueName = some queue ∧ queuePartitionKey = source.partition) ∧
      ∀ W,(c.queues queue).workerConcurrency = some W → (running s source).length + (wfids.length + 1) ≤ W

structure Limited (s : Worker) : Prop where
  registered : Registered s.executor
  undropped : ∀ run ∈ s.executor.runs,run.runningWorkflowReleased = false → run.dropped = false
  named : ∀ w e source,s.executor.runningWorkflowMap.get? w = some e → s.origin e.owner = some source →
    e.queueName = some source.queue ∧ e.queuePartitionKey = source.partition
  fresh : ∀ i,s.executor.runs.length ≤ i → s.origin i = none
  lanes : ∀ queue,LaneWithin c s queue (s.lane queue)
  bound : ∀ source W,(c.queues source.queue).workerConcurrency = some W → (running s source).length ≤ W

variable {c}

theorem laneWithin_le {s s' : Worker} {queue : String} {lane : Lane}
    (fewer : ∀ source,source.queue = queue → (running s' source).length ≤ (running s source).length)
    (within : LaneWithin c s queue lane) : LaneWithin c s' queue lane := by
  cases lane with
  | idle => trivial
  | counted call => exact ⟨within.1,Nat.le_trans (fewer ⟨queue,call.queuePartitionKey⟩ rfl) within.2⟩
  | dispatching source wfids =>
    obtain ⟨own,room⟩ := within
    exact ⟨own,fun W limit => Nat.le_trans (Nat.add_le_add_right (fewer source own) _) (room W limit)⟩
  | executing source wfid queueName queuePartitionKey wfids =>
    obtain ⟨own,named,room⟩ := within
    exact ⟨own,named,fun W limit => Nat.le_trans (Nat.add_le_add_right (fewer source own) _) (room W limit)⟩

/-- Only the lane of one queue changes, and the database. -/
theorem limited_put {s : Worker} (limited : Limited c s) (queue : String) (lane : Lane) (within : LaneWithin c s queue lane) (t : Statuses) :
    Limited c { s.put queue lane with table := t } := by
  refine ⟨limited.registered,limited.undropped,limited.named,limited.fresh,fun queue' => ?_,limited.bound⟩
  refine laneWithin_le (s := s) (fun _ _ => Nat.le_refl _) ?_
  by_cases here : queue' = queue
  · subst here
    exact (s.put_lane queue' lane).symm ▸ within
  · exact (s.put_lane_of_ne lane here).symm ▸ limited.lanes queue'

theorem limited_executor {s : Worker} (limited : Limited c s) {e : Executor} (registered : Registered e) (shrinks : Shrinks s.executor e) :
    Limited c { s with executor := e } := by
  have fewer : ∀ source,(running { s with executor := e } source).length ≤ (running s source).length := by
    intro source
    refine running_le [] fun i member => .inl ?_
    obtain ⟨origin,r',found,unreleased⟩ := mem_running.mp member
    obtain ⟨r,there,was,_⟩ := shrinks.runs i r' found
    exact mem_running.mpr ⟨origin,r,there,was unreleased⟩
  refine ⟨registered,fun r' member unreleased => ?_,fun w x source there => limited.named w x source (shrinks.entries w x there),
    fun i high => limited.fresh i (shrinks.length ▸ high),fun queue => laneWithin_le (fun source _ => fewer source) (limited.lanes queue),
    fun source W limit => Nat.le_trans (fewer source) (limited.bound source W limit)⟩
  obtain ⟨i,_,found⟩ := List.getElem_of_mem member
  obtain ⟨r,there,was,same⟩ := shrinks.runs i r' (List.getElem?_eq_some_iff.mpr ⟨_,found⟩)
  rw [same]
  exact limited.undropped r (List.mem_of_getElem? there) (was unreleased)

theorem inTurn_of_limited {s : Worker} (limited : Limited c s) (w : String) (q k : Option String) :
    InTurn s.executor (.internalWorkflow w q k) := by
  intro _ run member _ dropped
  by_contra unreleased
  rw [limited.undropped run member (by simpa using unreleased)] at dropped
  cases dropped

/-- A start adds at most one to what runs of its poll. -/
theorem running_started {s : Worker} (s' : Worker) {w : String} {q k : Option String} {x : Option Source}
    (executor : s'.executor = s.executor.start w q k)
    (origin : s'.origin = if (s.executor.runningWorkflowMap.get? w).isSome then s.origin else Function.update s.origin s.executor.runs.length x)
    (source : Source) : (running s' source).length ≤ (running s source).length + if x = some source then 1 else 0 := by
  rcases start_cases s.executor w q k with ⟨taken,same⟩ | ⟨vacant,runs,_⟩
  · rw [if_pos taken] at origin
    have none : (running s' source).length ≤ (running s source).length := by
      refine running_le [] fun i member => .inl ?_
      rw [mem_running,executor,same,origin] at member
      exact mem_running.mpr member
    omega
  · rw [if_neg (by simp [vacant])] at origin
    have within : ∀ i ∈ running s' source,i ∈ running s source ∨ i ∈ if x = some source then [s.executor.runs.length] else [] := by
      intro i member
      rw [mem_running,executor,origin,runs] at member
      obtain ⟨from',run,found,unreleased⟩ := member
      rcases party_append found with old | ⟨rfl,_⟩
      · have low : i ≠ s.executor.runs.length := Nat.ne_of_lt (List.getElem?_eq_some_iff.mp old).1
        rw [Function.update_of_ne low] at from'
        exact .inl (mem_running.mpr ⟨from',run,old,unreleased⟩)
      · rw [Function.update_self] at from'
        simp [from']
    refine Nat.le_trans (running_le _ within) (Nat.add_le_add_left ?_ _)
    split <;> simp

theorem limited_start {s s' : Worker} (limited : Limited c s) {w : String} {q k : Option String} {x : Option Source}
    (names : ∀ source,x = some source → q = some source.queue ∧ k = source.partition)
    (executor : s'.executor = s.executor.start w q k)
    (origin : s'.origin = if (s.executor.runningWorkflowMap.get? w).isSome then s.origin else Function.update s.origin s.executor.runs.length x)
    (lanes : ∀ queue,LaneWithin c s' queue (s'.lane queue))
    (bound : ∀ source W,(c.queues source.queue).workerConcurrency = some W → (running s' source).length ≤ W) : Limited c s' := by
  have registered := (registered_start limited.registered (inTurn_of_limited limited w q k)).1
  rw [← executor] at registered
  rcases start_cases s.executor w q k with ⟨taken,same⟩ | ⟨vacant,runs,entries⟩
  · rw [if_pos taken] at origin
    rw [same] at executor
    refine ⟨registered,?_,?_,?_,lanes,bound⟩
    · rw [executor]; exact limited.undropped
    · rw [executor,origin]; exact limited.named
    · rw [executor,origin]; exact limited.fresh
  · rw [if_neg (by simp [vacant])] at origin
    refine ⟨registered,?_,?_,?_,lanes,bound⟩
    · rw [executor,runs]
      intro run member unreleased
      rcases List.mem_append.mp member with old | new
      · exact limited.undropped run old unreleased
      · rw [List.mem_singleton.mp new]
    · rw [executor,origin]
      intro w' e source there from'
      rcases entries w' e there with old | rfl
      · obtain ⟨run,found,_⟩ := limited.registered.entry w' e old
        rw [Function.update_of_ne (Nat.ne_of_lt (List.getElem?_eq_some_iff.mp found).1)] at from'
        exact limited.named w' e source old from'
      · rw [Function.update_self] at from'
        exact names source from'
    · rw [executor,origin,runs]
      intro i high
      rw [List.length_append,List.length_singleton] at high
      rw [Function.update_of_ne (by omega)]
      exact limited.fresh i (by omega)

/-- A start that no poll has claimed. -/
theorem limited_direct {s : Worker} (limited : Limited c s) (w : String) (q k : Option String) :
    Limited c { s with executor := s.executor.start w q k } := by
  have origin : s.origin =
      if (s.executor.runningWorkflowMap.get? w).isSome then s.origin else Function.update s.origin s.executor.runs.length none := by
    split
    · rfl
    · rw [← limited.fresh _ (Nat.le_refl _),Function.update_eq_self]
  have fewer : ∀ source,(running { s with executor := s.executor.start w q k } source).length ≤ (running s source).length := fun source => by
    simpa using running_started { s with executor := s.executor.start w q k } rfl origin source
  exact limited_start limited (by simp) rfl origin (fun queue => laneWithin_le (fun source _ => fewer source) (limited.lanes queue))
    fun source W limit => Nat.le_trans (fewer source) (limited.bound source W limit)

/-- A start for a poll takes a place that the poll has left. -/
theorem limited_claimed {s : Worker} (limited : Limited c s) {source : Source} {wfid : String} {queueName queuePartitionKey : Option String}
    {wfids : List String} (lane : s.lane source.queue = .executing source wfid queueName queuePartitionKey wfids) :
    Limited c ((s.start source wfid queueName queuePartitionKey).put source.queue (.dispatching source wfids)) := by
  have within := limited.lanes source.queue
  rw [lane] at within
  obtain ⟨_,names,room⟩ := within
  have more := running_started ((s.start source wfid queueName queuePartitionKey).put source.queue (.dispatching source wfids))
    rfl rfl
  have others : ∀ other,other ≠ source →
      (running ((s.start source wfid queueName queuePartitionKey).put source.queue (.dispatching source wfids)) other).length ≤
        (running s other).length := fun other differ => by
    simpa [Ne.symm differ] using more other
  refine limited_start limited (fun other same => by cases same; exact names) rfl rfl (fun queue => ?_) fun other W limit => ?_
  · by_cases here : queue = source.queue
    · subst here
      rw [Worker.put_lane]
      refine ⟨rfl,fun W limit => ?_⟩
      have := room W limit
      have := more source
      rw [if_pos rfl] at this
      omega
    · rw [Worker.put_lane_of_ne _ _ here]
      exact laneWithin_le (fun other own => others other fun same => here (same ▸ own.symm)) (limited.lanes queue)
  · by_cases here : other = source
    · subst here
      have := room W limit
      have := more other
      rw [if_pos rfl] at this
      omega
    · exact Nat.le_trans (others other here) (limited.bound other W limit)

/-- One event, all of whose claims are as the poll has found them. -/
theorem step_limited {s s' : Worker} {event : Event} (limited : Limited c s) (claimed : AsClaimed s event) (taken : step c s event = some s') :
    Limited c s' := by
  cases event with
  | poll queue partition startTimeMs =>
    simp only [step] at taken
    split at taken
    · split at taken
      · cases taken
        have counted := running_counted ⟨queue,partition⟩ limited.registered limited.undropped fun w e => limited.named w e _
        exact limited_put limited queue (.counted (c.call queue partition startTimeMs _)) ⟨rfl,counted⟩ s.table
      · cases taken
    · cases taken
  | claim queue latestVersion rows now =>
    simp only [step] at taken
    split at taken
    · rename_i call lane
      split at taken
      · rename_i claimedIDs t done
        cases taken
        have counted := limited.lanes queue
        rw [lane] at counted
        obtain ⟨own,most⟩ := counted
        refine limited_put limited queue (.dispatching ⟨queue,call.queuePartitionKey⟩ claimedIDs) ⟨rfl,fun W limit => ?_⟩ t
        have few := Dequeues.within (dequeued done) (by rw [own]; exact limit)
        have bound := limited.bound ⟨queue,call.queuePartitionKey⟩ W limit
        omega
      · cases taken
    · cases taken
  | claimFails queue =>
    simp only [step] at taken
    split at taken
    · cases taken
      exact limited_put limited queue .idle trivial s.table
    · cases taken
  | read queue =>
    simp only [step] at taken
    split at taken
    · rename_i source wfid wfids lane
      have room := limited.lanes queue
      rw [lane] at room
      obtain ⟨rfl,room⟩ := room
      simp only [AsClaimed,lane,Lane.next,Option.mem_some_iff,forall_eq'] at claimed
      split at taken
      · rename_i wfStatus read
        cases taken
        obtain ⟨row,found,rfl⟩ := Option.map_eq_some_iff.mp read
        exact limited_put limited source.queue (.executing source wfid row.queue_name row.queue_partition_key wfids) ⟨rfl,claimed row found,room⟩ s.table
      · cases taken
        refine limited_put limited source.queue (.dispatching source wfids) ⟨rfl,fun W limit => ?_⟩ s.table
        have := room W limit
        rw [List.length_cons] at this
        omega
    · cases taken
  | execute queue starts =>
    simp only [step] at taken
    split at taken
    · rename_i source wfid queueName queuePartitionKey wfids lane
      have room := limited.lanes queue
      rw [lane] at room
      obtain ⟨rfl,names,room⟩ := room
      split at taken
      · cases taken
        exact limited_claimed limited lane
      · cases taken
        refine limited_put limited source.queue (.dispatching source wfids) ⟨rfl,fun W limit => ?_⟩ s.table
        have := room W limit
        omega
    · cases taken
  | pollEnds queue =>
    simp only [step] at taken
    split at taken
    · cases taken
      exact limited_put limited queue .idle trivial s.table
    · cases taken
  | executor event =>
    obtain ⟨e,turn,rfl⟩ := Option.map_eq_some_iff.mp taken
    rcases step_cases turn with ⟨w,q,k,rfl,rfl⟩ | ⟨allIds,rfl,rfl⟩ | ⟨i,run,_,found,⟨phase,rfl⟩ | ⟨phase,rfl⟩⟩
    · exact limited_direct limited w q k
    · exact limited_executor limited (registered_delete limited.registered allIds) (shrinks_delete claimed)
    · exact limited_executor limited (registered_move limited.registered found phase)
        (shrinks_set { run with phase := phase } found rfl id rfl fun _ _ there => there)
    · exact limited_executor limited (registered_release limited.registered found phase) (shrinks_release found phase)
  | database t =>
    cases taken
    exact ⟨limited.registered,limited.undropped,limited.named,limited.fresh,
      fun queue => laneWithin_le (s := s) (fun _ _ => Nat.le_refl _) (limited.lanes queue),limited.bound⟩

end Limit

/-- At most `workerConcurrency` claimed workflows of a queue, or of a partition of it, run at a time,
    if each is started under the queue and the key that it was claimed for. -/
theorem workerConcurrency_within (c : Config) {t : Statuses} {events : List Event} {s : Worker}
    (asClaimed : Along (step c) AsClaimed { table := t } events) (run : Runs (step c) { table := t } events s) (source : Source) {W : Nat}
    (limit : (c.queues source.queue).workerConcurrency = some W) : (running s source).length ≤ W := by
  have idle : Limited c { table := t } :=
    ⟨registered_init,by simp,by simp,fun _ _ => rfl,fun _ => trivial,fun _ _ _ => Nat.zero_le _⟩
  exact (along_invariant (fun s event s' held claimed taken => step_limited held claimed taken) idle asClaimed run).bound source W limit

/-! ### Rows with a partition key on a queue without partitions -/

def oneWorker : Config where
  queues := fun name => { name := name,workerConcurrency := some 1 }
  executorID := "local"
  appVersion := "v"

def waiting (queue_partition_key : Option String) : WorkflowStatus :=
  { status := .ENQUEUED,name := "wf",queue_name := some "q",queue_partition_key := queue_partition_key,created_at := 0,updated_at := 0 }

def twoWaiting (queue_partition_key : Option String) : Statuses :=
  (Table.empty.insert "a" (waiting queue_partition_key)).insert "b" (waiting queue_partition_key)

/-- The first poll claims and starts `a`, and the second one what is left for it. -/
def twoPolls (queue_partition_key : Option String) : List Event :=
  [.poll "q" none 0,.claim "q" none [("a",waiting queue_partition_key)] 0,.read "q",.execute "q" true,.pollEnds "q",
    .poll "q" none 1,.claim "q" none [("b",waiting queue_partition_key)] 1]

theorem workerConcurrency_within_twoPolls :
    ∃ s,Runs (step oneWorker) { table := twoWaiting none } (twoPolls none) s ∧ (running s ⟨"q",none⟩).length ≤ 1 := by
  have ran : ((twoPolls none).foldlM (step oneWorker) { table := twoWaiting none }).isSome := by decide +kernel
  obtain ⟨s,run⟩ := Option.isSome_iff_exists.mp ran
  exact ⟨s,run,workerConcurrency_within oneWorker (by decide +kernel) run ⟨"q",none⟩ rfl⟩

/-- With a key that the poll does not give, the second poll counts nothing and claims `b`. -/
def bothStarted : List Event := twoPolls (some "k") ++ [Event.read "q",.execute "q" true]

theorem partitionKey_not_within :
    ((bothStarted.foldlM (step oneWorker) { table := twoWaiting (some "k") }).map fun s =>
      running s ⟨"q",none⟩) = some [0,1] ∧
    ¬ ∀ (c : Config) (t : Statuses) (events : List Event) (s : Worker) (source : Source) (W : Nat),
      Runs (step c) { table := t } events s → (c.queues source.queue).workerConcurrency = some W → (running s source).length ≤ W := by
  have ran : ((bothStarted.foldlM (step oneWorker) { table := twoWaiting (some "k") }).map fun s =>
      running s ⟨"q",none⟩) = some [0,1] := by decide +kernel
  refine ⟨ran,fun claim => ?_⟩
  obtain ⟨s,run,both⟩ := Option.map_eq_some_iff.mp ran
  have most := claim oneWorker _ _ s ⟨"q",none⟩ 1 run rfl
  rw [both] at most
  exact absurd most (by decide)

end Dbos.WorkerConcurrency
