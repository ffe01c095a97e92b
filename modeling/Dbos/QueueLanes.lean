import Dbos.QueueConfig
import Mathlib.Data.List.Sort
import Mathlib.Data.List.Nodup

/-!
The queue dispatcher of `WFQueueRunner` in `src/wfqueue.ts`: `schedulerLoop` reconciles the queues, starts the polls of the due ones in lanes
and sleeps until it is woken. One thread runs everything, so what happens between two awaits is one event; polls end, the runner is stopped
and queues are registered at any await.
-/
namespace Dbos.QueueLanes
open Dbos.Pg Dbos.QueueConfig
open Dbos.Schema (INTERNAL_QUEUE_NAME)

/-! ### The runner -/

/-- `QueueRuntimeState`. -/
structure QueueRuntimeState where
  queue : WorkflowQueue
  currentPollingMs : ℚ
  nextPollAt : ℚ

/-- A call of `runQueuePoll` with the name that it keeps its lane under and the state object that it was given. -/
structure Poll where
  queueName : String
  state : Nat
  ended : Bool := false

/-- Where `schedulerLoop` stands. A wait has a number, and the time at which its timer is due. -/
inductive Position
  | top
  | reconciling (now : ℚ)
  | transitioning (now : ℚ)
  | waiting (k : Nat) (until_ : ℚ)
  | settling
  | ended

def Position.isWaiting : Position → Bool
  | .waiting .. => true
  | _ => false

/-- The runner with the variables of `schedulerLoop`. State objects and polls are numbered; `states` and `inFlightPolls` refer to them by
    name. `passes` counts the passes of `scheduleDueQueues` and `returns` the waits that have returned; nothing reads them. -/
structure Runner where
  wfQueuesByName : List String := []
  pollerQueueNames : List String := []
  listenQueueNames : Option (List String) := none
  objects : List QueueRuntimeState := []
  states : Table String Nat := Table.empty
  polls : List Poll := []
  inFlightPolls : Table String Nat := Table.empty
  isRunning : Bool := true
  aborted : Bool := false
  wakePending : Bool := false
  wakeScheduler : Option Nat := none
  waits : Nat := 0
  lastReconcileAt : ℚ := 0
  lastTransitionAt : ℚ := 0
  position : Position := .top
  passes : Nat := 0
  returns : Nat := 0

def defaultMinPollingIntervalMs : ℚ := 1000
def defaultMaxPollingIntervalMs : ℚ := 120000
def reconcileIntervalMs : ℚ := 1000
def transitionIntervalMs : ℚ := 1000
def backoffFactor : ℚ := 2
def scalebackFactor : ℚ := 9 / 10

/-! ### Reconciling -/

def Runner.ensureState (s : Runner) (queue : WorkflowQueue) (now : ℚ) : Runner :=
  if (s.states.get? queue.name).isSome then s
  else
    let interval := queue.minPollingIntervalMs.getD defaultMinPollingIntervalMs
    { s with
      objects := s.objects ++ [{ queue := queue,currentPollingMs := interval,nextPollAt := now + interval }]
      states := s.states.insert queue.name s.objects.length }

/-- The records that `refreshDbQueues` does not skip. -/
def Runner.dispatches (s : Runner) (name : String) : Bool :=
  name ≠ INTERNAL_QUEUE_NAME && name ∉ s.wfQueuesByName &&
    s.listenQueueNames.all fun names => name ∈ names || name ∈ s.pollerQueueNames

/-- A record refreshes the configuration of its state in place or gets a state. -/
def Runner.refresh (now : ℚ) (s : Runner) (record : String × QueueRecord) : Runner :=
  match s.states.get? record.1 with
  | some i => { s with objects := s.objects.modify i fun state => { state with queue := fromRecord record.1 record.2 } }
  | none => s.ensureState (fromRecord record.1 record.2) now

/-- `refreshDbQueues` with what `listQueues` returned, or nothing when it threw. -/
def Runner.refreshDbQueues (s : Runner) (records : Option (List (String × QueueRecord))) (now : ℚ) : Runner :=
  match records with
  | none => s
  | some records =>
    let present := records.filter fun record => s.dispatches record.1
    let s := present.foldl (Runner.refresh now) s
    { s with states := s.states.delete fun name i =>
        (s.objects[i]?.any fun state => state.queue.databaseBacked) && name ∉ present.map Prod.fst }

/-! ### Lanes -/

/-- The state objects of the map, in its order. -/
def Runner.live (s : Runner) : List (Nat × QueueRuntimeState) :=
  s.states.entries.filterMap fun e => s.objects[e.2]?.map fun state => (e.2,state)

/-- The synchronous part of `runQueuePoll`, with the lane that its caller sets. -/
def Runner.runQueuePoll (s : Runner) (i : Nat) (state : QueueRuntimeState) : Runner :=
  { s with
    polls := s.polls ++ [{ queueName := state.queue.name,state := i }]
    inFlightPolls := s.inFlightPolls.upsert state.queue.name s.polls.length fun _ => s.polls.length }

/-- The due states without a lane, by `nextPollAt`; the sort is stable. -/
def Runner.due (s : Runner) (now : ℚ) : List (Nat × QueueRuntimeState) :=
  (s.live.filter fun x => now ≥ x.2.nextPollAt && (s.inFlightPolls.get? x.2.queue.name).isNone).insertionSort
    fun a b => a.2.nextPollAt ≤ b.2.nextPollAt

def startLanes (maxConcurrentQueueDispatches : Nat) : List (Nat × QueueRuntimeState) → Runner → Runner
  | [],s => s
  | x :: rest,s =>
    if s.inFlightPolls.entries.length ≥ maxConcurrentQueueDispatches then s
    else startLanes maxConcurrentQueueDispatches rest (s.runQueuePoll x.1 x.2)

def Runner.scheduleDueQueues (s : Runner) (now : ℚ) (maxConcurrentQueueDispatches : Nat) : Runner :=
  if s.isRunning then startLanes maxConcurrentQueueDispatches (s.due now) { s with passes := s.passes + 1 } else s

/-- `adjustInterval`; `jitter` is the random factor. -/
def adjustInterval (state : QueueRuntimeState) (contentionDetected : Bool) (now jitter : ℚ) : QueueRuntimeState :=
  let minPollingMs := state.queue.minPollingIntervalMs.getD defaultMinPollingIntervalMs
  let maxPollingMs := defaultMaxPollingIntervalMs
  let adjusted := if contentionDetected then min maxPollingMs (state.currentPollingMs * backoffFactor)
    else max minPollingMs (state.currentPollingMs * scalebackFactor)
  let currentPollingMs := max minPollingMs (min adjusted maxPollingMs)
  { state with currentPollingMs := currentPollingMs,nextPollAt := now + currentPollingMs * jitter }

/-- The end of `runQueuePoll` up to its wake. -/
def Runner.release (s : Runner) (i : Nat) (poll : Poll) (contentionDetected : Bool) (now jitter : ℚ) : Runner :=
  { s with
    objects := s.objects.modify poll.state fun state => adjustInterval state contentionDetected now jitter
    polls := s.polls.set i { poll with ended := true }
    inFlightPolls := s.inFlightPolls.delete fun name _ => name = poll.queueName }

/-! ### Sleeping and waking -/

/-- The `finish` of the wait `k`: its timer and its listener are gone with it. -/
def Runner.finish (s : Runner) (k : Nat) : Runner :=
  { s with
    wakeScheduler := if s.wakeScheduler = some k then none else s.wakeScheduler
    position := .top
    returns := s.returns + 1 }

def Runner.wake (s : Runner) : Runner :=
  match s.wakeScheduler with
  | some k => s.finish k
  | none => { s with wakePending := true }

def Runner.waitForWakeOrTimeout (s : Runner) (until_ : ℚ) : Runner :=
  if s.aborted then { s with position := .top,returns := s.returns + 1 }
  else if s.wakePending then { s with wakePending := false,position := .top,returns := s.returns + 1 }
  else { s with position := .waiting s.waits until_,wakeScheduler := some s.waits,waits := s.waits + 1 }

/-- The time of the next maintenance, or of an idle queue's next poll while a lane is free. -/
def Runner.nextWakeAt (s : Runner) (maxConcurrentQueueDispatches : Nat) : ℚ :=
  let maintenance := min (s.lastReconcileAt + reconcileIntervalMs) (s.lastTransitionAt + transitionIntervalMs)
  if s.inFlightPolls.entries.length < maxConcurrentQueueDispatches then
    s.live.foldl (fun next x =>
      if (s.inFlightPolls.get? x.2.queue.name).isNone ∧ x.2.nextPollAt < next then x.2.nextPollAt else next) maintenance
  else maintenance

/-! ### The loop -/

/-- What comes at the awaits of the loop and of the polls. `now` and `later` are readings of the clock. -/
inductive Event
  | turn (now later : ℚ)
  | listed (records : Option (List (String × QueueRecord))) (later : ℚ)
  | transitioned (later : ℚ)
  | timer
  | pollEnds (i : Nat) (contentionDetected : Bool) (now jitter : ℚ)
  | stop
  | settled
  | registrations (wfQueuesByName pollerQueueNames : List String)

section Loop
variable (maxConcurrentQueueDispatches : Nat)

/-- From `scheduleDueQueues` to the wait. -/
def Runner.schedule (s : Runner) (now later : ℚ) : Runner :=
  let s := s.scheduleDueQueues now maxConcurrentQueueDispatches
  if s.isRunning then s.waitForWakeOrTimeout (max later (s.nextWakeAt maxConcurrentQueueDispatches))
  else { s with position := .settling }

/-- From the question whether delayed workflows are to be transitioned. -/
def Runner.maintain (s : Runner) (now later : ℚ) : Runner :=
  if now - s.lastTransitionAt ≥ transitionIntervalMs then { s with position := .transitioning now }
  else s.schedule maxConcurrentQueueDispatches now later

def step (s : Runner) : Event → Option Runner
  | .turn now later =>
    match s.position with
    | .top =>
      if s.isRunning then
        if now - s.lastReconcileAt ≥ reconcileIntervalMs then some { s with position := .reconciling now }
        else some (s.maintain maxConcurrentQueueDispatches now later)
      else some { s with position := .settling }
    | _ => none
  | .listed records later =>
    match s.position with
    | .reconciling now =>
      some ({ s.refreshDbQueues records now with lastReconcileAt := now }.maintain maxConcurrentQueueDispatches now later)
    | _ => none
  | .transitioned later =>
    match s.position with
    | .transitioning now => some ({ s with lastTransitionAt := now }.schedule maxConcurrentQueueDispatches now later)
    | _ => none
  | .timer =>
    match s.position with
    | .waiting k _ => some (s.finish k)
    | _ => none
  | .pollEnds i contentionDetected now jitter =>
    match s.polls[i]? with
    | some poll =>
      if poll.ended then none else some (s.release i poll contentionDetected now jitter).wake
    | none => none
  | .stop =>
    if s.isRunning then
      match s.position with
      | .waiting k _ => some ({ s with isRunning := false,aborted := true }.finish k)
      | _ => some { s with isRunning := false,aborted := true }
    else some s
  | .settled =>
    match s.position with
    | .settling => if s.polls.all Poll.ended then some { s with position := .ended } else none
    | _ => none
  | .registrations wfQueuesByName pollerQueueNames =>
    some { s with wfQueuesByName := wfQueuesByName,pollerQueueNames := pollerQueueNames }

end Loop

/-- What `dispatchLoop` prepares: the states of the in-memory queues that it resolves, and of the queues that are in the table. -/
def dispatchLoop (runner : Runner) (inMemory : List WorkflowQueue) (records : Option (List (String × QueueRecord))) (startNow : ℚ) : Runner :=
  let s : Runner := {
    wfQueuesByName := runner.wfQueuesByName
    pollerQueueNames := runner.pollerQueueNames
    listenQueueNames := runner.listenQueueNames
    lastReconcileAt := startNow }
  (inMemory.foldl (fun s queue => s.ensureState queue startNow) s).refreshDbQueues records startNow

/-! ### The passes -/

/-- The state object `i` is due and its queue has no lane. -/
def Due (s : Runner) (now : ℚ) (i : Nat) (state : QueueRuntimeState) : Prop :=
  (i,state) ∈ s.live ∧ state.nextPollAt ≤ now ∧ s.inFlightPolls.get? state.queue.name = none

/-- A pass: while a lane is free, the due queue with the smallest `nextPollAt` is started, until no queue is due. -/
inductive Passes (maxConcurrentQueueDispatches : Nat) (now : ℚ) : Runner → Runner → Prop
  | full (s : Runner) (busy : maxConcurrentQueueDispatches ≤ s.inFlightPolls.entries.length) :
      Passes maxConcurrentQueueDispatches now s s
  | idle (s : Runner) (none : ∀ i state, ¬ Due s now i state) : Passes maxConcurrentQueueDispatches now s s
  | starts (s s' : Runner) (i : Nat) (state : QueueRuntimeState) (free : s.inFlightPolls.entries.length < maxConcurrentQueueDispatches)
      (due : Due s now i state) (first : ∀ j other, Due s now j other → state.nextPollAt ≤ other.nextPollAt)
      (onward : Passes maxConcurrentQueueDispatches now (s.runQueuePoll i state) s') : Passes maxConcurrentQueueDispatches now s s'

/-- Every name of the map has a state object of that name. -/
def Named (s : Runner) : Prop := ∀ name i, s.states.get? name = some i → ∃ state,s.objects[i]? = some state ∧ state.queue.name = name

variable {s s' : Runner} {now : ℚ} {maxConcurrentQueueDispatches : Nat}

theorem live_names (named : Named s) : s.live.map (fun x => x.2.queue.name) = s.states.entries.map Prod.fst := by
  have each : ∀ e ∈ s.states.entries,∃ state,s.objects[e.2]? = some state ∧ state.queue.name = e.1 := by
    rintro ⟨name,i⟩ listed
    exact named name i ((Table.get?_eq_some ..).mpr listed)
  unfold Runner.live
  generalize s.states.entries = entries at each
  induction entries with
  | nil => rfl
  | cons e rest ih =>
    obtain ⟨state,found,name⟩ := each e List.mem_cons_self
    rw [List.filterMap_cons_some (by rw [found]; rfl),List.map_cons,List.map_cons,name,
      ih fun e' listed => each e' (List.mem_cons_of_mem _ listed)]

theorem mem_due {i : Nat} {state : QueueRuntimeState} : (i,state) ∈ s.due now ↔ Due s now i state := by
  unfold Runner.due Due
  rw [List.mem_insertionSort,List.mem_filter]
  simp

/-- The due states have different names. -/
theorem due_names (named : Named s) : ((s.due now).map fun x => x.2.queue.name).Nodup := by
  unfold Runner.due
  rw [((List.perm_insertionSort _ _).map _).nodup_iff]
  refine List.Nodup.sublist (List.filter_sublist.map _) ?_
  rw [live_names named]
  exact s.states.distinct

theorem due_sorted : (s.due now).Pairwise fun a b => a.2.nextPollAt ≤ b.2.nextPollAt := by
  have total : Std.Total fun a b : Nat × QueueRuntimeState => a.2.nextPollAt ≤ b.2.nextPollAt := ⟨fun _ _ => le_total _ _⟩
  have trans : IsTrans (Nat × QueueRuntimeState) fun a b => a.2.nextPollAt ≤ b.2.nextPollAt := ⟨fun _ _ _ => le_trans⟩
  exact List.pairwise_insertionSort _ _

theorem due_runQueuePoll {i j : Nat} {state other : QueueRuntimeState} :
    Due (s.runQueuePoll i state) now j other ↔ Due s now j other ∧ other.queue.name ≠ state.queue.name := by
  have lane : (s.runQueuePoll i state).inFlightPolls.get? other.queue.name = none ↔
      s.inFlightPolls.get? other.queue.name = none ∧ other.queue.name ≠ state.queue.name := by
    simp only [Runner.runQueuePoll,Table.get?_upsert]
    by_cases same : other.queue.name = state.queue.name <;> simp [same]
  have live : (s.runQueuePoll i state).live = s.live := rfl
  unfold Due
  rw [lane,live]
  tauto

/-- Starting the sorted list of the due states as long as a lane is free makes a pass. -/
theorem startLanes_passes {list : List (Nat × QueueRuntimeState)} (listed : ∀ i state, (i,state) ∈ list ↔ Due s now i state)
    (names : (list.map fun x => x.2.queue.name).Nodup) (sorted : list.Pairwise fun a b => a.2.nextPollAt ≤ b.2.nextPollAt) :
    Passes maxConcurrentQueueDispatches now s (startLanes maxConcurrentQueueDispatches list s) := by
  induction list generalizing s with
  | nil => exact .idle s fun i state due => List.not_mem_nil ((listed i state).mpr due)
  | cons x rest ih =>
    obtain ⟨i,state⟩ := x
    rw [List.map_cons,List.nodup_cons] at names
    rw [List.pairwise_cons] at sorted
    unfold startLanes
    split
    · rename_i busy
      exact .full s busy
    · rename_i free
      refine .starts s _ i state (not_le.mp free) ((listed i state).mp List.mem_cons_self) ?_ (ih ?_ names.2 sorted.2)
      · intro j other due
        rcases List.mem_cons.mp ((listed j other).mpr due) with same | later
        · cases same
          exact le_rfl
        · exact sorted.1 (j,other) later
      · intro j other
        rw [due_runQueuePoll,← listed,List.mem_cons]
        constructor
        · intro later
          refine ⟨.inr later,?_⟩
          intro same
          exact names.1 (same ▸ List.mem_map.mpr ⟨(j,other),later,rfl⟩)
        · rintro ⟨here | later,different⟩
          · cases here
            exact absurd rfl different
          · exact later

/-! ### The invariant -/

/-- The poll `i` of the queue is under way. -/
def UnderWay (s : Runner) (name : String) (i : Nat) : Prop :=
  ∃ poll,s.polls[i]? = some poll ∧ poll.ended = false ∧ poll.queueName = name

/-- The polls under way. -/
def Runner.underWay (s : Runner) : List Nat :=
  (List.range s.polls.length).filter fun i => s.polls[i]?.any fun poll => !poll.ended

/-- A queue has a lane exactly while a poll of it is under way, and there are no more lanes than allowed. -/
structure InLanes (maxConcurrentQueueDispatches : Nat) (s : Runner) : Prop where
  lanes : ∀ name i,s.inFlightPolls.get? name = some i ↔ UnderWay s name i
  bounded : s.inFlightPolls.entries.length ≤ maxConcurrentQueueDispatches

/-- Beside the lanes: `wakeScheduler` is set exactly while the loop waits. -/
structure Sound (maxConcurrentQueueDispatches : Nat) (s : Runner) : Prop where
  named : Named s
  inLanes : InLanes maxConcurrentQueueDispatches s
  scheduler : ∀ k,s.wakeScheduler = some k ↔ ∃ until_,s.position = .waiting k until_

theorem mem_underWay {i : Nat} : i ∈ s.underWay ↔ ∃ name,UnderWay s name i := by
  unfold Runner.underWay UnderWay
  rw [List.mem_filter,List.mem_range]
  constructor
  · rintro ⟨_,holds⟩
    obtain ⟨poll,found,open_⟩ := (Option.any_eq_true ..).mp holds
    exact ⟨poll.queueName,poll,found,by simpa using open_,rfl⟩
  · rintro ⟨_,poll,found,open_,_⟩
    exact ⟨(List.getElem?_eq_some_iff.mp found).1,by simp [found,open_]⟩

/-- There are as many polls under way as the lanes allow. -/
theorem underWay_bounded (inLanes : InLanes maxConcurrentQueueDispatches s) : s.underWay.length ≤ maxConcurrentQueueDispatches := by
  have held : s.underWay ⊆ s.inFlightPolls.entries.map Prod.snd := by
    intro i member
    obtain ⟨name,under⟩ := mem_underWay.mp member
    exact List.mem_map.mpr ⟨(name,i),(Table.get?_eq_some ..).mp ((inLanes.lanes name i).mpr under),rfl⟩
  have distinct : s.underWay.Nodup := List.nodup_range.filter _
  calc s.underWay.length ≤ (s.inFlightPolls.entries.map Prod.snd).length := (List.subperm_of_subset distinct held).length_le
    _ = s.inFlightPolls.entries.length := List.length_map _
    _ ≤ maxConcurrentQueueDispatches := inLanes.bounded

/-- A state object that keeps its queue's name may change otherwise. -/
theorem named_modify (named : Named s) {i : Nat} {change : QueueRuntimeState → QueueRuntimeState}
    (same : ∀ state,s.objects[i]? = some state → (change state).queue.name = state.queue.name) :
    Named { s with objects := s.objects.modify i change } := by
  intro name j found
  obtain ⟨state,there,own⟩ := named name j found
  by_cases here : i = j
  · subst here
    exact ⟨change state,by simp [there],(same state there).trans own⟩
  · exact ⟨state,by simp [here,there],own⟩

theorem named_release (named : Named s) (i : Nat) (poll : Poll) (contentionDetected : Bool) (jitter : ℚ) :
    Named (s.release i poll contentionDetected now jitter) := by
  have adjusted : Named { s with
      objects := s.objects.modify poll.state fun state => adjustInterval state contentionDetected now jitter } :=
    named_modify named fun _ _ => rfl
  exact adjusted

/-- Only the states and their objects have changed, and the names still fit. -/
def Reconciled (s t : Runner) : Prop := (Named s → Named t) ∧ ∃ objects states,t = { s with objects := objects,states := states }

theorem reconciled_trans {t u : Runner} (first : Reconciled s t) (second : Reconciled t u) : Reconciled s u := by
  obtain ⟨named,objects,states,rfl⟩ := first
  obtain ⟨named',objects',states',rfl⟩ := second
  exact ⟨named' ∘ named,objects',states',rfl⟩

theorem reconciled_foldl {α : Type} {f : Runner → α → Runner} (each : ∀ s x,Reconciled s (f s x)) (list : List α) (s : Runner) :
    Reconciled s (list.foldl f s) := by
  induction list generalizing s with
  | nil => exact ⟨id,_,_,rfl⟩
  | cons x rest ih => exact reconciled_trans (each s x) (ih (f s x))

theorem reconciled_ensureState (s : Runner) (queue : WorkflowQueue) (now : ℚ) : Reconciled s (s.ensureState queue now) := by
  unfold Runner.ensureState
  split
  · exact ⟨id,_,_,rfl⟩
  · refine ⟨?_,_,_,rfl⟩
    intro named name i found
    rcases s.states.insert_cases queue.name s.objects.length name with same | ⟨rfl,_,here⟩
    · obtain ⟨state,there,own⟩ := named name i (same ▸ found)
      exact ⟨state,by simp [List.getElem?_append_left (List.getElem?_eq_some_iff.mp there).1,there],own⟩
    · cases here.symm.trans found
      exact ⟨_,List.getElem?_concat_length,rfl⟩

theorem reconciled_refresh (now : ℚ) (s : Runner) (record : String × QueueRecord) : Reconciled s (s.refresh now record) := by
  unfold Runner.refresh
  split
  · rename_i i found
    refine ⟨?_,_,_,rfl⟩
    intro named
    refine named_modify named ?_
    intro state there
    obtain ⟨_,here,own⟩ := named record.1 i found
    cases here.symm.trans there
    exact own.symm
  · exact reconciled_ensureState ..

theorem reconciled_refreshDbQueues (records : Option (List (String × QueueRecord))) (s : Runner) (now : ℚ) :
    Reconciled s (s.refreshDbQueues records now) := by
  cases records with
  | none => exact ⟨id,_,_,rfl⟩
  | some records =>
    refine reconciled_trans (reconciled_foldl (reconciled_refresh now) (records.filter fun record => s.dispatches record.1) s) ?_
    refine ⟨?_,_,_,rfl⟩
    intro named name i found
    simp only [Runner.refreshDbQueues,Table.get?_delete] at found
    exact named name i (Option.eq_some_of_filter_eq_some found)

/-! ### Starting and ending polls -/

theorem underWay_runQueuePoll {i j : Nat} {state : QueueRuntimeState} {name : String} :
    UnderWay (s.runQueuePoll i state) name j ↔ UnderWay s name j ∨ j = s.polls.length ∧ name = state.queue.name := by
  simp only [UnderWay,Runner.runQueuePoll]
  by_cases old : j < s.polls.length
  · simp [List.getElem?_append_left old,Nat.ne_of_lt old]
  · rw [List.getElem?_eq_none (not_lt.mp old)]
    by_cases new : j = s.polls.length
    · subst new
      rw [List.getElem?_concat_length]
      constructor
      · rintro ⟨_,⟨⟩,_,rfl⟩
        exact .inr ⟨rfl,rfl⟩
      · rintro (⟨_,⟨⟩,_⟩ | ⟨_,rfl⟩)
        exact ⟨_,rfl,rfl,rfl⟩
    · have beyond : (s.polls ++ [({ queueName := state.queue.name,state := i } : Poll)])[j]? = none := by
        rw [List.getElem?_eq_none]
        simp only [List.length_append,List.length_singleton]
        omega
      simp [beyond,new]

theorem inLanes_runQueuePoll (inLanes : InLanes maxConcurrentQueueDispatches s) {i : Nat} {state : QueueRuntimeState}
    (free : s.inFlightPolls.entries.length < maxConcurrentQueueDispatches) (due : Due s now i state) :
    InLanes maxConcurrentQueueDispatches (s.runQueuePoll i state) := by
  obtain ⟨_,_,unused⟩ := due
  refine ⟨?_,?_⟩
  · intro name j
    rw [underWay_runQueuePoll,← inLanes.lanes]
    simp only [Runner.runQueuePoll,Table.get?_upsert]
    by_cases same : name = state.queue.name
    · subst same
      simp [unused,eq_comm]
    · simp [same]
  · simp only [Runner.runQueuePoll,Table.entries_upsert_new unused,List.length_append,List.length_singleton]
    omega

/-- A pass changes the polls and the lanes only. -/
theorem passes_frame (passes : Passes maxConcurrentQueueDispatches now s s') :
    s' = { s with polls := s'.polls,inFlightPolls := s'.inFlightPolls } := by
  induction passes with
  | full => rfl
  | idle => rfl
  | starts s s' i state free due first onward ih =>
    rw [ih]
    rfl

theorem passes_inLanes (passes : Passes maxConcurrentQueueDispatches now s s') (inLanes : InLanes maxConcurrentQueueDispatches s) :
    InLanes maxConcurrentQueueDispatches s' := by
  induction passes with
  | full => exact inLanes
  | idle => exact inLanes
  | starts s s' i state free due first onward ih => exact ih (inLanes_runQueuePoll inLanes free due)

theorem scheduleDueQueues_passes (named : Named s) (running : s.isRunning = true) :
    Passes maxConcurrentQueueDispatches now { s with passes := s.passes + 1 } (s.scheduleDueQueues now maxConcurrentQueueDispatches) := by
  unfold Runner.scheduleDueQueues
  rw [if_pos running]
  exact startLanes_passes (s := { s with passes := s.passes + 1 }) (fun i state => mem_due) (due_names named) due_sorted

/-- The end of a poll takes its own lane and no other. -/
theorem inLanes_release (inLanes : InLanes maxConcurrentQueueDispatches s) {i : Nat} {poll : Poll} (found : s.polls[i]? = some poll)
    (open_ : poll.ended = false) (contentionDetected : Bool) (jitter : ℚ) :
    InLanes maxConcurrentQueueDispatches (s.release i poll contentionDetected now jitter) := by
  have own : s.inFlightPolls.get? poll.queueName = some i := (inLanes.lanes _ i).mpr ⟨poll,found,open_,rfl⟩
  have under : ∀ name j,UnderWay (s.release i poll contentionDetected now jitter) name j ↔ UnderWay s name j ∧ j ≠ i := by
    intro name j
    simp only [UnderWay,Runner.release]
    by_cases here : j = i
    · subst here
      have bound := (List.getElem?_eq_some_iff.mp found).1
      simp [bound]
    · simp [List.getElem?_set_ne (Ne.symm here),here]
  refine ⟨?_,?_⟩
  · intro name j
    rw [under,← inLanes.lanes]
    show (s.inFlightPolls.delete fun name _ => name = poll.queueName).get? name = some j ↔ _
    rw [Table.get?_delete]
    by_cases same : name = poll.queueName
    · subst same
      rw [own,Option.filter_some,if_neg (by simp)]
      constructor
      · rintro ⟨⟩
      · rintro ⟨lane,other⟩
        exact absurd (Option.some.inj lane).symm other
    · have other : s.inFlightPolls.get? name = some j → j ≠ i := by
        rintro lane rfl
        obtain ⟨_,again,_,rfl⟩ := (inLanes.lanes name j).mp lane
        exact same (by rw [Option.some.inj (again.symm.trans found)])
      cases lane : s.inFlightPolls.get? name with
      | none => simp
      | some k =>
        simp only [Option.filter_some,same,decide_false,Bool.not_false,if_true,Option.some.injEq]
        constructor
        · rintro rfl
          exact ⟨rfl,other lane⟩
        · exact And.left
  · exact (List.length_filter_le _ _).trans inLanes.bounded

/-! ### The steps -/

/-- The loop is awake and so no wait is there to be finished. -/
def Awake (s : Runner) : Prop := s.position.isWaiting = false ∧ s.wakeScheduler = none

theorem sound_awake (sound : Sound maxConcurrentQueueDispatches s) (awake : s.position.isWaiting = false) : Awake s := by
  refine ⟨awake,?_⟩
  cases finish : s.wakeScheduler with
  | none => rfl
  | some k =>
    obtain ⟨until_,waits⟩ := (sound.scheduler k).mp finish
    simp [waits,Position.isWaiting] at awake

theorem awake_scheduler (awake : Awake s) (k : Nat) : s.wakeScheduler = some k ↔ ∃ until_,s.position = .waiting k until_ := by
  rw [awake.2]
  constructor
  · rintro ⟨⟩
  · rintro ⟨until_,waits⟩
    simp [Awake,waits,Position.isWaiting] at awake

theorem finish_awake {k : Nat} (own : s.wakeScheduler = some k ∨ s.wakeScheduler = none) : Awake (s.finish k) := by
  refine ⟨rfl,?_⟩
  rcases own with own | own <;> simp [Runner.finish,own]

theorem wake_awake (scheduler : ∀ k,s.wakeScheduler = some k ↔ ∃ until_,s.position = .waiting k until_) : Awake s.wake := by
  unfold Runner.wake
  cases finish : s.wakeScheduler with
  | some k => exact finish_awake (.inl finish)
  | none =>
    refine ⟨?_,rfl⟩
    cases at_ : s.position with
    | waiting k until_ =>
      rw [(scheduler k).mpr ⟨until_,at_⟩] at finish
      cases finish
    | _ => rfl

theorem wait_scheduler (awake : Awake s) (until_ : ℚ) (k : Nat) :
    (s.waitForWakeOrTimeout until_).wakeScheduler = some k ↔ ∃ until',(s.waitForWakeOrTimeout until_).position = .waiting k until' := by
  unfold Runner.waitForWakeOrTimeout
  split
  · simp [awake.2]
  split
  · simp [awake.2]
  · simp

/-- What a wait leaves of the runner as it was. -/
theorem wait_frame (until_ : ℚ) :
    (s.waitForWakeOrTimeout until_).states = s.states ∧ (s.waitForWakeOrTimeout until_).objects = s.objects ∧
      (s.waitForWakeOrTimeout until_).polls = s.polls ∧ (s.waitForWakeOrTimeout until_).inFlightPolls = s.inFlightPolls ∧
      (s.waitForWakeOrTimeout until_).passes = s.passes := by
  unfold Runner.waitForWakeOrTimeout
  split
  · exact ⟨rfl,rfl,rfl,rfl,rfl⟩
  split
  · exact ⟨rfl,rfl,rfl,rfl,rfl⟩
  · exact ⟨rfl,rfl,rfl,rfl,rfl⟩

/-- The polls that the change from `s` to `s'` starts are those of one pass. -/
def Begins (maxConcurrentQueueDispatches : Nat) (now : ℚ) (s s' : Runner) : Prop :=
  ∃ t t',Passes maxConcurrentQueueDispatches now t t' ∧ t.polls = s.polls ∧ t.inFlightPolls = s.inFlightPolls ∧
    t.states = s'.states ∧ t.objects = s'.objects ∧ t'.polls = s'.polls ∧ t'.inFlightPolls = s'.inFlightPolls

/-- A change to `s'` starts polls by a pass, and without one it starts none. -/
structure Starts (maxConcurrentQueueDispatches : Nat) (now : ℚ) (s s' : Runner) : Prop where
  pass : s.passes < s'.passes → Begins maxConcurrentQueueDispatches now s s'
  noPass : s'.passes ≤ s.passes → s'.polls.length = s.polls.length

/-- What a change from `s` to `s'` keeps: the invariant; polls are started by passes only; the loop falls asleep only right after a pass, and
    not while a wake is pending, which the next wait answers by returning. -/
structure Keeps (maxConcurrentQueueDispatches : Nat) (now : ℚ) (s s' : Runner) : Prop where
  sound : Sound maxConcurrentQueueDispatches s'
  starts : Starts maxConcurrentQueueDispatches now s s'
  passes : s.passes ≤ s'.passes
  returns : s.returns ≤ s'.returns
  asleep : s'.position.isWaiting = true → s.position.isWaiting = true ∨ s.passes < s'.passes
  pending : s.wakePending = true → s.position.isWaiting = false →
    s.returns < s'.returns ∨ s'.wakePending = true ∧ s'.position.isWaiting = false

/-- A change that leaves the polls, the lanes and the counters alone. -/
theorem keeps_quiet (sound : Sound maxConcurrentQueueDispatches s') (polls : s'.polls.length = s.polls.length) (passes : s'.passes = s.passes)
    (returns : s'.returns = s.returns) (position : s'.position.isWaiting = true → s.position.isWaiting = true)
    (pending : s'.wakePending = s.wakePending) : Keeps maxConcurrentQueueDispatches now s s' := by
  refine ⟨sound,⟨?_,fun _ => polls⟩,passes.ge,returns.ge,fun asleep => .inl (position asleep),?_⟩
  · intro more
    rw [passes] at more
    exact absurd more (lt_irrefl _)
  · intro woken awake
    refine .inr ⟨pending.trans woken,?_⟩
    by_contra asleep
    rw [position (by simpa using asleep)] at awake
    cases awake

/-- A wait returns at once when a wake is pending. -/
theorem wait_returns (until_ : ℚ) :
    s.returns ≤ (s.waitForWakeOrTimeout until_).returns ∧ (s.wakePending = true → s.returns < (s.waitForWakeOrTimeout until_).returns) := by
  unfold Runner.waitForWakeOrTimeout
  split
  · exact ⟨Nat.le_succ _,fun _ => Nat.lt_succ_self _⟩
  split
  · exact ⟨Nat.le_succ _,fun _ => Nat.lt_succ_self _⟩
  · rename_i unwoken
    exact ⟨le_rfl,fun woken => absurd woken unwoken⟩

theorem named_congr (named : Named s) (states : s'.states = s.states) (objects : s'.objects = s.objects) : Named s' := by
  unfold Named
  rw [states,objects]
  exact named

theorem inLanes_congr (inLanes : InLanes maxConcurrentQueueDispatches s) (polls : s'.polls = s.polls)
    (lanes : s'.inFlightPolls = s.inFlightPolls) : InLanes maxConcurrentQueueDispatches s' := by
  refine ⟨?_,lanes ▸ inLanes.bounded⟩
  unfold UnderWay
  rw [polls,lanes]
  exact inLanes.lanes

/-- The loop goes on to another await, not to its wait. -/
theorem keeps_moves (named : Named s) (inLanes : InLanes maxConcurrentQueueDispatches s) (awake : Awake s) {position : Position}
    (on : position.isWaiting = false) : Keeps maxConcurrentQueueDispatches now s { s with position := position } := by
  have awake' : Awake { s with position := position } := ⟨on,awake.2⟩
  refine keeps_quiet ⟨named_congr named rfl rfl,inLanes_congr inLanes rfl rfl,awake_scheduler awake'⟩ rfl rfl rfl ?_ rfl
  intro waits
  cases on.symm.trans waits

/-- From `scheduleDueQueues` on, the loop makes a pass and waits, unless it has been stopped. -/
theorem keeps_schedule (named : Named s) (inLanes : InLanes maxConcurrentQueueDispatches s) (awake : Awake s) (later : ℚ) :
    Keeps maxConcurrentQueueDispatches now s (s.schedule maxConcurrentQueueDispatches now later) := by
  unfold Runner.schedule
  by_cases running : s.isRunning = true
  · have passes : Passes maxConcurrentQueueDispatches now { s with passes := s.passes + 1 }
        (s.scheduleDueQueues now maxConcurrentQueueDispatches) := scheduleDueQueues_passes named running
    have frame := passes_frame passes
    have held := passes_inLanes passes ⟨inLanes.lanes,inLanes.bounded⟩
    generalize s.scheduleDueQueues now maxConcurrentQueueDispatches = t at passes frame held
    have running' : t.isRunning = true := by rw [frame]; exact running
    have awake' : Awake t := by rw [frame]; exact awake
    have states : t.states = s.states := by rw [frame]
    have objects : t.objects = s.objects := by rw [frame]
    have counted : t.passes = s.passes + 1 := by rw [frame]
    have returned : t.returns = s.returns := by rw [frame]
    have woken : t.wakePending = s.wakePending := by rw [frame]
    simp only [running',if_true]
    generalize max later (t.nextWakeAt maxConcurrentQueueDispatches) = until_
    obtain ⟨states',objects',polls',lanes',passes'⟩ := wait_frame (s := t) until_
    obtain ⟨onward,answers⟩ := wait_returns (s := t) until_
    refine ⟨⟨?_,inLanes_congr held polls' lanes',wait_scheduler awake' until_⟩,⟨?_,?_⟩,?_,?_,?_,?_⟩
    · exact named_congr named (states'.trans states) (objects'.trans objects)
    · exact fun _ => ⟨_,t,passes,rfl,rfl,(states'.trans states).symm,(objects'.trans objects).symm,polls'.symm,lanes'.symm⟩
    · intro none_
      omega
    · omega
    · omega
    · intro _
      exact .inr (by omega)
    · intro pending _
      have := answers (woken.trans pending)
      exact .inl (by omega)
  · have same : s.scheduleDueQueues now maxConcurrentQueueDispatches = s := by
      unfold Runner.scheduleDueQueues
      rw [if_neg running]
    simp only [same,if_neg running]
    exact keeps_moves named inLanes awake rfl

theorem keeps_maintain (named : Named s) (inLanes : InLanes maxConcurrentQueueDispatches s) (awake : Awake s) (later : ℚ) :
    Keeps maxConcurrentQueueDispatches now s (s.maintain maxConcurrentQueueDispatches now later) := by
  unfold Runner.maintain
  split
  · exact keeps_moves named inLanes awake rfl
  · exact keeps_schedule named inLanes awake later

/-- What is done before the segment and leaves the polls, the lanes and the counters alone. -/
theorem keeps_after {t : Runner} (keeps : Keeps maxConcurrentQueueDispatches now t s') (polls : t.polls = s.polls)
    (lanes : t.inFlightPolls = s.inFlightPolls) (passes : t.passes = s.passes) (returns : t.returns = s.returns)
    (pending : t.wakePending = s.wakePending) (position : t.position = s.position) : Keeps maxConcurrentQueueDispatches now s s' := by
  obtain ⟨sound,⟨pass,noPass⟩,onward,returned,asleep,answered⟩ := keeps
  unfold Begins at pass
  rw [polls,lanes,passes] at pass
  rw [passes,polls] at noPass
  rw [passes] at onward
  rw [passes,position] at asleep
  rw [returns] at returned
  rw [returns,pending,position] at answered
  exact ⟨sound,⟨pass,noPass⟩,onward,returned,asleep,answered⟩

theorem sound_finish {k : Nat} (sound : Sound maxConcurrentQueueDispatches s) (own : s.wakeScheduler = some k ∨ s.wakeScheduler = none) :
    Sound maxConcurrentQueueDispatches (s.finish k) :=
  ⟨named_congr sound.named rfl rfl,inLanes_congr sound.inLanes rfl rfl,awake_scheduler (finish_awake own)⟩

/-- The end of a wait. -/
theorem keeps_finish {k : Nat} (sound : Sound maxConcurrentQueueDispatches s) (own : s.wakeScheduler = some k ∨ s.wakeScheduler = none) :
    Keeps maxConcurrentQueueDispatches now s (s.finish k) := by
  refine ⟨sound_finish sound own,⟨fun more => absurd more (lt_irrefl _),fun _ => rfl⟩,le_rfl,Nat.le_succ _,?_,?_⟩
  · intro waits
    cases waits
  · exact fun _ _ => .inl (Nat.lt_succ_self _)

/-- A wake ends the wait of the loop, or it stays pending. -/
theorem keeps_wake (now : ℚ) (named : Named s) (inLanes : InLanes maxConcurrentQueueDispatches s)
    (scheduler : ∀ k,s.wakeScheduler = some k ↔ ∃ until_,s.position = .waiting k until_) :
    Keeps maxConcurrentQueueDispatches now s s.wake ∧ s.wake.passes = s.passes ∧ s.wake.position.isWaiting = false ∧
      (s.returns < s.wake.returns ∨ s.wake.wakePending = true) := by
  have awake := wake_awake scheduler
  unfold Runner.wake at awake ⊢
  cases finish : s.wakeScheduler with
  | some k => exact ⟨keeps_finish ⟨named,inLanes,scheduler⟩ (.inl finish),rfl,rfl,.inl (Nat.lt_succ_self _)⟩
  | none =>
    rw [finish] at awake
    refine ⟨⟨⟨named_congr named rfl rfl,inLanes_congr inLanes rfl rfl,awake_scheduler awake⟩,?_,le_rfl,le_rfl,?_,?_⟩,rfl,awake.1,.inr rfl⟩
    · exact ⟨fun more => absurd more (lt_irrefl _),fun _ => rfl⟩
    · exact .inl
    · exact fun _ _ => .inr ⟨rfl,awake.1⟩

/-- The reading of the clock that an iteration goes by, at each of its awaits. -/
def Event.reading (s : Runner) : Event → ℚ
  | .turn now _ => now
  | _ =>
    match s.position with
    | .reconciling now | .transitioning now => now
    | _ => 0

/-- What an event does where it can come. -/
inductive Took (maxConcurrentQueueDispatches : Nat) (s : Runner) : Event → Runner → Prop
  | moves {e : Event} {position : Position} (awake : s.position.isWaiting = false) (on : position.isWaiting = false)
    (own : ∀ i contentionDetected now jitter,e ≠ .pollEnds i contentionDetected now jitter) :
    Took maxConcurrentQueueDispatches s e { s with position := position }
  | maintains (now later : ℚ) (top : s.position = .top) :
    Took maxConcurrentQueueDispatches s (.turn now later) (s.maintain maxConcurrentQueueDispatches now later)
  | lists (records : Option (List (String × QueueRecord))) (now later : ℚ) (reconciling : s.position = .reconciling now) :
    Took maxConcurrentQueueDispatches s (.listed records later)
      ({ s.refreshDbQueues records now with lastReconcileAt := now }.maintain maxConcurrentQueueDispatches now later)
  | transitions (now later : ℚ) (transitioning : s.position = .transitioning now) :
    Took maxConcurrentQueueDispatches s (.transitioned later)
      ({ s with lastTransitionAt := now }.schedule maxConcurrentQueueDispatches now later)
  | wakes {k : Nat} {until_ : ℚ} (waits : s.position = .waiting k until_) : Took maxConcurrentQueueDispatches s .timer (s.finish k)
  | ends {i : Nat} {poll : Poll} (contentionDetected : Bool) (now jitter : ℚ) (found : s.polls[i]? = some poll) (open_ : poll.ended = false) :
    Took maxConcurrentQueueDispatches s (.pollEnds i contentionDetected now jitter) (s.release i poll contentionDetected now jitter).wake
  | interrupts {k : Nat} {until_ : ℚ} (waits : s.position = .waiting k until_) :
    Took maxConcurrentQueueDispatches s .stop ({ s with isRunning := false,aborted := true }.finish k)
  | stops : Took maxConcurrentQueueDispatches s .stop { s with isRunning := false,aborted := true }
  | stopped : Took maxConcurrentQueueDispatches s .stop s
  | registers (wfQueuesByName pollerQueueNames : List String) : Took maxConcurrentQueueDispatches s
      (.registrations wfQueuesByName pollerQueueNames) { s with wfQueuesByName := wfQueuesByName,pollerQueueNames := pollerQueueNames }

theorem step_took {e : Event} (taken : step maxConcurrentQueueDispatches s e = some s') : Took maxConcurrentQueueDispatches s e s' := by
  cases e with
  | turn now later =>
    simp only [step] at taken
    split at taken
    · rename_i top
      have awake : s.position.isWaiting = false := by rw [top]; rfl
      split at taken
      · split at taken
        · cases taken
          exact .moves awake rfl nofun
        · cases taken
          exact .maintains now later top
      · cases taken
        exact .moves awake rfl nofun
    · cases taken
  | listed records later =>
    simp only [step] at taken
    split at taken
    · rename_i now reconciling
      cases taken
      exact .lists records now later reconciling
    · cases taken
  | transitioned later =>
    simp only [step] at taken
    split at taken
    · rename_i now transitioning
      cases taken
      exact .transitions now later transitioning
    · cases taken
  | timer =>
    simp only [step] at taken
    split at taken
    · rename_i k until_ waits
      cases taken
      exact .wakes waits
    · cases taken
  | pollEnds i contentionDetected now jitter =>
    simp only [step] at taken
    split at taken
    · rename_i poll found
      split at taken
      · cases taken
      · rename_i open_
        cases taken
        exact .ends contentionDetected now jitter found (by simpa using open_)
    · cases taken
  | stop =>
    simp only [step] at taken
    split at taken
    · split at taken
      · rename_i k until_ waits
        cases taken
        exact .interrupts waits
      · cases taken
        exact .stops
    · cases taken
      exact .stopped
  | settled =>
    simp only [step] at taken
    split at taken
    · rename_i settling
      split at taken
      · cases taken
        exact .moves (by rw [settling]; rfl) rfl nofun
      · cases taken
    · cases taken
  | registrations wfQueuesByName pollerQueueNames =>
    cases taken
    exact .registers _ _

/-- The queues are named alike after they have been refreshed. -/
theorem refreshed_named (named : Named s) (records : Option (List (String × QueueRecord))) (now : ℚ) :
    ∃ objects states,{ s.refreshDbQueues records now with lastReconcileAt := now } =
        { s with objects := objects,states := states,lastReconcileAt := now } ∧
      Named { s with objects := objects,states := states,lastReconcileAt := now } := by
  obtain ⟨onward,objects,states,frame⟩ := reconciled_refreshDbQueues records s now
  have named' := onward named
  rw [frame] at named' ⊢
  exact ⟨objects,states,rfl,named_congr named' rfl rfl⟩

theorem step_keeps {e : Event} (sound : Sound maxConcurrentQueueDispatches s) (taken : step maxConcurrentQueueDispatches s e = some s') :
    Keeps maxConcurrentQueueDispatches (e.reading s) s s' := by
  have ⟨named,inLanes,scheduler⟩ := sound
  cases step_took taken with
  | moves awake on => exact keeps_moves named inLanes (sound_awake sound awake) on
  | maintains now later top => exact keeps_maintain named inLanes (sound_awake sound (by rw [top]; rfl)) later
  | lists records now later reconciling =>
    have awake := sound_awake sound (by rw [reconciling]; rfl)
    have reads : (Event.listed records later).reading s = now := by simp [Event.reading,reconciling]
    obtain ⟨objects,states,frame,named'⟩ := refreshed_named named records now
    rw [reads,frame]
    exact keeps_after (keeps_maintain named' (inLanes_congr inLanes rfl rfl) awake later) rfl rfl rfl rfl rfl rfl
  | transitions now later transitioning =>
    have awake := sound_awake sound (by rw [transitioning]; rfl)
    have reads : (Event.transitioned later).reading s = now := by simp [Event.reading,transitioning]
    have named' : Named { s with lastTransitionAt := now } := named_congr named rfl rfl
    rw [reads]
    exact keeps_after (keeps_schedule named' (inLanes_congr inLanes rfl rfl) awake later) rfl rfl rfl rfl rfl rfl
  | wakes waits => exact keeps_finish sound (.inl ((scheduler _).mpr ⟨_,waits⟩))
  | @ends i poll contentionDetected now jitter found open_ =>
    have inLanes' : InLanes maxConcurrentQueueDispatches (s.release i poll contentionDetected now jitter) :=
      inLanes_release inLanes found open_ contentionDetected jitter
    obtain ⟨woken,passes,awake,answered⟩ := keeps_wake now (named_release named i poll contentionDetected jitter) inLanes' scheduler
    refine ⟨woken.sound,⟨?_,?_⟩,passes.ge,woken.returns,?_,?_⟩
    · intro more
      rw [passes] at more
      exact absurd more (lt_irrefl _)
    · intro none_
      exact (woken.starts.noPass none_).trans (List.length_set ..)
    · intro asleep
      cases awake.symm.trans asleep
    · exact fun _ _ => answered.imp_right fun pending => ⟨pending,awake⟩
  | interrupts waits =>
    have flagged : Sound maxConcurrentQueueDispatches { s with isRunning := false,aborted := true } :=
      ⟨named_congr named rfl rfl,inLanes_congr inLanes rfl rfl,scheduler⟩
    exact keeps_after (keeps_finish flagged (.inl ((scheduler _).mpr ⟨_,waits⟩))) rfl rfl rfl rfl rfl rfl
  | stops => exact keeps_quiet ⟨named,inLanes_congr inLanes rfl rfl,scheduler⟩ rfl rfl rfl id rfl
  | stopped => exact keeps_quiet sound rfl rfl rfl id rfl
  | registers => exact keeps_quiet ⟨named,inLanes_congr inLanes rfl rfl,scheduler⟩ rfl rfl rfl id rfl

/-! ### Taking lanes away -/

theorem passes_lane {name : String} {i : Nat} (passes : Passes maxConcurrentQueueDispatches now s s')
    (lane : s.inFlightPolls.get? name = some i) : s'.inFlightPolls.get? name = some i := by
  induction passes with
  | full => exact lane
  | idle => exact lane
  | starts s s' j state free due first onward ih =>
    refine ih ?_
    have other : name ≠ state.queue.name := by
      rintro rfl
      cases lane.symm.trans due.2.2
    simpa [Runner.runQueuePoll,other] using lane

theorem schedule_lane (named : Named s) {name : String} {i : Nat} (lane : s.inFlightPolls.get? name = some i) (later : ℚ) :
    (s.schedule maxConcurrentQueueDispatches now later).inFlightPolls.get? name = some i := by
  have kept : (s.scheduleDueQueues now maxConcurrentQueueDispatches).inFlightPolls.get? name = some i := by
    by_cases running : s.isRunning = true
    · exact passes_lane (scheduleDueQueues_passes named running) lane
    · unfold Runner.scheduleDueQueues
      rw [if_neg running]
      exact lane
  simp only [Runner.schedule]
  split
  · obtain ⟨_,_,_,same,_⟩ := wait_frame (s := s.scheduleDueQueues now maxConcurrentQueueDispatches)
      (max later ((s.scheduleDueQueues now maxConcurrentQueueDispatches).nextWakeAt maxConcurrentQueueDispatches))
    rw [same]
    exact kept
  · exact kept

theorem maintain_lane (named : Named s) {name : String} {i : Nat} (lane : s.inFlightPolls.get? name = some i) (later : ℚ) :
    (s.maintain maxConcurrentQueueDispatches now later).inFlightPolls.get? name = some i := by
  unfold Runner.maintain
  split
  · exact lane
  · exact schedule_lane named lane later

theorem wake_lanes : s.wake.inFlightPolls = s.inFlightPolls := by
  unfold Runner.wake
  split <;> rfl

/-- A lane goes when its poll ends, and at no other step. -/
theorem step_lane {e : Event} (sound : Sound maxConcurrentQueueDispatches s) (taken : step maxConcurrentQueueDispatches s e = some s')
    {name : String} {i : Nat} (lane : s.inFlightPolls.get? name = some i) :
    s'.inFlightPolls.get? name = some i ∨
      (∃ contentionDetected now jitter,e = .pollEnds i contentionDetected now jitter) ∧ s'.inFlightPolls.get? name = none := by
  have ⟨named,inLanes,_⟩ := sound
  cases step_took taken with
  | moves => exact .inl lane
  | maintains now later => exact .inl (maintain_lane named lane later)
  | lists records now later =>
    obtain ⟨objects,states,frame,named'⟩ := refreshed_named named records now
    rw [frame]
    exact .inl (maintain_lane named' lane later)
  | transitions now later =>
    have named' : Named { s with lastTransitionAt := now } := named_congr named rfl rfl
    exact .inl (schedule_lane named' lane later)
  | wakes => exact .inl lane
  | @ends j poll contentionDetected now jitter found open_ =>
    rw [wake_lanes]
    have after : (s.release j poll contentionDetected now jitter).inFlightPolls =
        s.inFlightPolls.delete fun name _ => name = poll.queueName := rfl
    rw [after,Table.get?_delete,lane]
    by_cases own : name = poll.queueName
    · have under := (inLanes.lanes name j).mpr ⟨poll,found,open_,own.symm⟩
      cases lane.symm.trans under
      exact .inr ⟨⟨_,_,_,rfl⟩,by simp [own]⟩
    · exact .inl (by simp [own])
  | interrupts => exact .inl lane
  | stops => exact .inl lane
  | stopped => exact .inl lane
  | registers => exact .inl lane

/-! ### Every run -/

theorem start_sound (runner : Runner) (inMemory : List WorkflowQueue) (records : Option (List (String × QueueRecord))) (startNow : ℚ) :
    Sound maxConcurrentQueueDispatches (dispatchLoop runner inMemory records startNow) := by
  have empty : Named {
      wfQueuesByName := runner.wfQueuesByName
      pollerQueueNames := runner.pollerQueueNames
      listenQueueNames := runner.listenQueueNames
      lastReconcileAt := startNow } := by
    rintro name i ⟨⟩
  obtain ⟨onward,objects,states,frame⟩ := reconciled_trans
    (reconciled_foldl (fun s queue => reconciled_ensureState s queue startNow) inMemory _)
    (reconciled_refreshDbQueues records _ startNow)
  have named := onward empty
  unfold dispatchLoop
  dsimp only
  rw [frame] at named ⊢
  refine ⟨named,⟨?_,Nat.zero_le _⟩,awake_scheduler ⟨rfl,rfl⟩⟩
  intro name i
  constructor
  · rintro ⟨⟩
  · rintro ⟨_,⟨⟩,_⟩

/-- A poll has ended: `passes` and `returns` are the counters from before, and the loop has not slept since. -/
structure Answered (passes returns : Nat) (s : Runner) : Prop where
  passed : passes ≤ s.passes ∧ (s.position.isWaiting = true → passes < s.passes)
  returned : returns < s.returns ∨ returns ≤ s.returns ∧ s.wakePending = true ∧ s.position.isWaiting = false

theorem answered_keeps {passes returns : Nat} (answered : Answered passes returns s) (keeps : Keeps maxConcurrentQueueDispatches now s s') :
    Answered passes returns s' := by
  obtain ⟨⟨before,passed⟩,returned⟩ := answered
  refine ⟨⟨before.trans keeps.passes,?_⟩,?_⟩
  · intro waits
    rcases keeps.asleep waits with already | pass
    · exact (passed already).trans_le keeps.passes
    · omega
  · rcases returned with done | ⟨within,pending,awake⟩
    · exact .inl (done.trans_le keeps.returns)
    · rcases keeps.pending pending awake with returns_ | still
      · exact .inl (by omega)
      · exact .inr ⟨within.trans keeps.returns,still⟩

theorem pollEnds_answered {i : Nat} {contentionDetected : Bool} {jitter : ℚ} (sound : Sound maxConcurrentQueueDispatches s)
    (taken : step maxConcurrentQueueDispatches s (.pollEnds i contentionDetected now jitter) = some s') :
    (∃ name,s.inFlightPolls.get? name = some i ∧ s'.inFlightPolls.get? name = none) ∧ s'.position.isWaiting = false ∧
      Answered s.passes s.returns s' := by
  have keeps := step_keeps sound taken
  cases step_took taken with
  | moves _ _ own => exact absurd rfl (own _ _ _ _)
  | @ends i poll contentionDetected now jitter found open_ =>
    obtain ⟨_,passes,awake,answered⟩ := keeps_wake now (named_release sound.named i poll contentionDetected jitter)
      (inLanes_release sound.inLanes found open_ contentionDetected jitter) sound.scheduler
    refine ⟨⟨poll.queueName,(sound.inLanes.lanes _ i).mpr ⟨poll,found,open_,rfl⟩,?_⟩,awake,⟨passes.ge,?_⟩,?_⟩
    · rw [wake_lanes]
      show (s.inFlightPolls.delete fun name _ => name = poll.queueName).get? poll.queueName = none
      simp
    · intro asleep
      cases awake.symm.trans asleep
    · exact answered.imp_right fun pending => ⟨keeps.returns,pending,awake⟩

/-- In every state that the loop reaches, at most the allowed number of polls is under way and no two of one queue; a queue has a lane exactly
    while its poll is under way. A step starts polls in a pass only, each time that of the due queue with the smallest `nextPollAt` among those
    without a lane, and takes a lane away only when its poll ends. When a poll ends the loop is not left asleep, and it sleeps again only after
    another pass and after a wait has returned. -/
theorem queue_lanes (maxConcurrentQueueDispatches : Nat) (runner : Runner) (inMemory : List WorkflowQueue)
    (records : Option (List (String × QueueRecord))) (startNow : ℚ) {events : List Event} {s : Runner}
    (run : Runs (step maxConcurrentQueueDispatches) (dispatchLoop runner inMemory records startNow) events s) :
    s.underWay.length ≤ maxConcurrentQueueDispatches ∧
    (∀ name i j,UnderWay s name i → UnderWay s name j → i = j) ∧
    (∀ name i,s.inFlightPolls.get? name = some i ↔ UnderWay s name i) ∧
    (∀ e s',step maxConcurrentQueueDispatches s e = some s' →
      Starts maxConcurrentQueueDispatches (e.reading s) s s' ∧
      ∀ name i,s.inFlightPolls.get? name = some i → s'.inFlightPolls.get? name = some i ∨
        (∃ contentionDetected now jitter,e = .pollEnds i contentionDetected now jitter) ∧ s'.inFlightPolls.get? name = none) ∧
    ∀ i contentionDetected now jitter s',
      step maxConcurrentQueueDispatches s (.pollEnds i contentionDetected now jitter) = some s' →
        (∃ name,s.inFlightPolls.get? name = some i ∧ s'.inFlightPolls.get? name = none) ∧ s'.position.isWaiting = false ∧
        ∀ rest t,Runs (step maxConcurrentQueueDispatches) s' rest t → t.position.isWaiting = true →
          s.passes < t.passes ∧ s.returns < t.returns := by
  have sound : Sound maxConcurrentQueueDispatches s :=
    runs_invariant (fun _ _ _ sound taken => (step_keeps sound taken).sound) (start_sound runner inMemory records startNow) run
  refine ⟨underWay_bounded sound.inLanes,?_,sound.inLanes.lanes,?_,?_⟩
  · intro name i j first second
    exact Option.some.inj (((sound.inLanes.lanes name i).mpr first).symm.trans ((sound.inLanes.lanes name j).mpr second))
  · intro e s' taken
    exact ⟨(step_keeps sound taken).starts,fun name i lane => step_lane sound taken lane⟩
  · intro i contentionDetected now jitter s' taken
    obtain ⟨own,awake,answered⟩ := pollEnds_answered sound taken
    refine ⟨own,awake,?_⟩
    intro rest t onward asleep
    have each : ∀ u e u',Sound maxConcurrentQueueDispatches u ∧ Answered s.passes s.returns u →
        step maxConcurrentQueueDispatches u e = some u' → Sound maxConcurrentQueueDispatches u' ∧ Answered s.passes s.returns u' := by
      rintro u e u' ⟨sound,answered⟩ taken
      exact ⟨(step_keeps sound taken).sound,answered_keeps answered (step_keeps sound taken)⟩
    have held := runs_invariant each ⟨(step_keeps sound taken).sound,answered⟩ onward
    refine ⟨held.2.passed.2 asleep,?_⟩
    rcases held.2.returned with returned | ⟨_,_,awake⟩
    · exact returned
    · cases awake.symm.trans asleep

def twoQueues : List WorkflowQueue := [{ name := "a",minPollingIntervalMs := some 1 },{ name := "b",minPollingIntervalMs := some 1 }]

/-- Two queues on one lane: the poll of the first ends while the loop sleeps, and the other queue is polled. -/
def oneLane : List Event :=
  [.turn 5010 5010,.transitioned 5010,.pollEnds 0 false 5020 1,.turn 5020 5020]

theorem queue_lanes_oneLane : ∃ s,Runs (step 1) (dispatchLoop {} twoQueues (some []) 5000) oneLane s ∧ s.underWay = [1] ∧ s.underWay.length ≤ 1 := by
  have ran : (oneLane.foldlM (step 1) (dispatchLoop {} twoQueues (some []) 5000)).map Runner.underWay = some [1] := by decide +kernel
  obtain ⟨s,run,under⟩ := Option.map_eq_some_iff.mp ran
  exact ⟨s,run,under,(queue_lanes 1 {} twoQueues (some []) 5000 run).1⟩

end Dbos.QueueLanes
