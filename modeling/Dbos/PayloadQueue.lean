import Dbos.Pg.Run
import Dbos.Trigger
import Mathlib.Data.List.Nodup
import Mathlib.Data.List.Range

/-!
The queue between the notifications and catch-up queries of a `DBTrigger` and its dispatch loops: `TriggerPayloadQueue` in
`packages/pgnotifier-receive/src/dbtrigger.ts`. Each method runs without an await and is one event; `dequeue` is called by any number of
loops. The queue object outlives `destroy` and the next `initialize`, so its events go on through `stop` and `restart`.
-/
namespace Dbos.PayloadQueue
open Dbos.Pg

/-! ### The queue -/

/-- `waiting` are `resolve` functions of promises that `dequeue` has returned, of the type `ρ`. -/
structure TriggerPayloadQueue (α ρ : Type) where
  notifyPayloads : List α := []
  catchupPayloads : List α := []
  catchupFinished : Bool := false
  shutdown : Bool := false
  waiting : List ρ := []
  deriving DecidableEq

/-- The promises of `dequeue` that an operation resolves, in order, with their values; `none` is `null`. -/
abbrev Answers (α ρ : Type) := List (ρ × Option α)

namespace TriggerPayloadQueue
variable {α ρ : Type} (q : TriggerPayloadQueue α ρ)

def enqueueCatchup (tp : α) : TriggerPayloadQueue α ρ × Answers α ρ :=
  match q.waiting with
  | resolve :: waiting => ({ q with waiting := waiting },[(resolve,some tp)])
  | [] => ({ q with catchupPayloads := q.catchupPayloads ++ [tp] },[])

def enqueueNotify (tp : α) : TriggerPayloadQueue α ρ × Answers α ρ :=
  if !q.catchupFinished then ({ q with notifyPayloads := q.notifyPayloads ++ [tp] },[])
  else
    match q.waiting with
    | resolve :: waiting => ({ q with waiting := waiting },[(resolve,some tp)])
    | [] => ({ q with notifyPayloads := q.notifyPayloads ++ [tp] },[])

/-- `dequeue`, with the `resolve` of its promise. -/
def dequeue (resolve : ρ) : TriggerPayloadQueue α ρ × Answers α ρ :=
  if q.shutdown then (q,[(resolve,none)])
  else
    match q.catchupPayloads,if q.catchupFinished then q.notifyPayloads else [] with
    | tp :: catchupPayloads,_ => ({ q with catchupPayloads := catchupPayloads },[(resolve,some tp)])
    | [],tp :: notifyPayloads => ({ q with notifyPayloads := notifyPayloads },[(resolve,some tp)])
    | [],[] => ({ q with waiting := q.waiting ++ [resolve] },[])

/-- The loop of `finishCatchup`: the `waiting` and the `notifyPayloads` that it leaves, and what it hands over. -/
def handOver : List ρ → List α → List ρ × List α × Answers α ρ
  | resolve :: waiting,tp :: notifyPayloads =>
    let rest := handOver waiting notifyPayloads
    (rest.1,rest.2.1,(resolve,some tp) :: rest.2.2)
  | waiting,notifyPayloads => (waiting,notifyPayloads,[])

def finishCatchup : TriggerPayloadQueue α ρ × Answers α ρ :=
  let left := handOver q.waiting q.notifyPayloads
  ({ q with catchupFinished := true,waiting := left.1,notifyPayloads := left.2.1 },left.2.2)

def stop : TriggerPayloadQueue α ρ × Answers α ρ :=
  ({ q with shutdown := true,waiting := [] },q.waiting.map fun resolve => (resolve,none))

def restart : TriggerPayloadQueue α ρ × Answers α ρ := ({ q with shutdown := false },[])

/-- What a dequeuer would be given. -/
def deliverable : List α := q.catchupPayloads ++ if q.catchupFinished then q.notifyPayloads else []

theorem enqueueCatchup_stored {q : TriggerPayloadQueue α ρ} (nobody : q.waiting = []) (tp : α) :
    q.enqueueCatchup tp = ({ q with catchupPayloads := q.catchupPayloads ++ [tp] },[]) := by simp [enqueueCatchup,nobody]

theorem enqueueCatchup_handed {q : TriggerPayloadQueue α ρ} {resolve : ρ} {waiting : List ρ} (first : q.waiting = resolve :: waiting)
    (tp : α) : q.enqueueCatchup tp = ({ q with waiting := waiting },[(resolve,some tp)]) := by simp [enqueueCatchup,first]

theorem enqueueNotify_stored {q : TriggerPayloadQueue α ρ} (held : q.waiting ≠ [] → q.catchupFinished = false) (tp : α) :
    q.enqueueNotify tp = ({ q with notifyPayloads := q.notifyPayloads ++ [tp] },[]) := by
  by_cases nobody : q.waiting = []
  · simp [enqueueNotify,nobody]
  · simp [enqueueNotify,held nobody]

theorem enqueueNotify_handed {q : TriggerPayloadQueue α ρ} {resolve : ρ} {waiting : List ρ} (finished : q.catchupFinished = true)
    (first : q.waiting = resolve :: waiting) (tp : α) :
    q.enqueueNotify tp = ({ q with waiting := waiting },[(resolve,some tp)]) := by simp [enqueueNotify,finished,first]

theorem dequeue_stopped {q : TriggerPayloadQueue α ρ} (shutdown : q.shutdown = true) (resolve : ρ) :
    q.dequeue resolve = (q,[(resolve,none)]) := by simp [dequeue,shutdown]

theorem dequeue_catchup {q : TriggerPayloadQueue α ρ} {tp : α} {rest : List α} (running : q.shutdown = false)
    (first : q.catchupPayloads = tp :: rest) (resolve : ρ) :
    q.dequeue resolve = ({ q with catchupPayloads := rest },[(resolve,some tp)]) := by simp [dequeue,running,first]

theorem dequeue_notify {q : TriggerPayloadQueue α ρ} {tp : α} {rest : List α} (running : q.shutdown = false)
    (none_ : q.catchupPayloads = []) (finished : q.catchupFinished = true) (first : q.notifyPayloads = tp :: rest) (resolve : ρ) :
    q.dequeue resolve = ({ q with notifyPayloads := rest },[(resolve,some tp)]) := by simp [dequeue,running,none_,finished,first]

theorem dequeue_waits {q : TriggerPayloadQueue α ρ} (running : q.shutdown = false) (nothing : q.deliverable = []) (resolve : ρ) :
    q.dequeue resolve = ({ q with waiting := q.waiting ++ [resolve] },[]) := by
  rw [deliverable,List.append_eq_nil_iff] at nothing
  simp [dequeue,running,nothing.1,nothing.2]

/-- The two flags. -/
def flags : Bool × Bool := (q.catchupFinished,q.shutdown)

theorem enqueueCatchup_flags (tp : α) : (q.enqueueCatchup tp).1.flags = q.flags := by
  unfold enqueueCatchup
  cases q.waiting <;> rfl

theorem enqueueNotify_flags (tp : α) : (q.enqueueNotify tp).1.flags = q.flags := by
  unfold enqueueNotify
  split
  · rfl
  · cases q.waiting <;> rfl

theorem dequeue_flags (resolve : ρ) : (q.dequeue resolve).1.flags = q.flags := by
  unfold dequeue
  split
  · rfl
  · split <;> rfl

theorem handOver_eq (waiting : List ρ) (notifyPayloads : List α) : handOver waiting notifyPayloads =
    (waiting.drop notifyPayloads.length,notifyPayloads.drop waiting.length,
      (waiting.zip notifyPayloads).map fun pair => (pair.1,some pair.2)) := by
  induction waiting generalizing notifyPayloads with
  | nil => simp [handOver]
  | cons resolve waiting ih =>
    cases notifyPayloads with
    | nil => simp [handOver]
    | cons tp notifyPayloads => simp [handOver,ih]

end TriggerPayloadQueue

/-! ### Payloads and their dequeuers -/

section
variable {α : Type}

inductive Source
  | catchup
  | notify
  deriving DecidableEq

/-- A payload that has been enqueued. Payloads are numbered, so that equal ones are told apart. -/
structure Sent (α : Type) where
  source : Source
  number : Nat
  payload : α
  deriving DecidableEq

def ofSource (source : Source) (payloads : List (Sent α)) : List (Sent α) := payloads.filter fun sent => sent.source = source

def TriggerPayloadQueue.stored {ρ : Type} (q : TriggerPayloadQueue (Sent α) ρ) : Source → List (Sent α)
  | .catchup => q.catchupPayloads
  | .notify => q.notifyPayloads

/-- What was handed over, in order. -/
def handed {ρ : Type} (answers : Answers (Sent α) ρ) : List (Sent α) := answers.filterMap Prod.snd

/-- The queue with its history: what has been enqueued, how often `dequeue` has been called, and the answers to these calls, which are
    numbered. `catchingUp`: since the last start, `finishCatchup` has not been called. Nothing reads the history. -/
structure System (α : Type) where
  queue : TriggerPayloadQueue (Sent α) Nat := {}
  enqueued : List (Sent α) := []
  dequeues : Nat := 0
  answers : Answers (Sent α) Nat := []
  catchingUp : Bool := true
  deriving DecidableEq

def System.delivered (s : System α) : List (Sent α) := handed s.answers

inductive Event (α : Type)
  | enqueueCatchup (tp : α)
  | enqueueNotify (tp : α)
  | dequeue
  | finishCatchup
  | stop
  | restart

def System.sent (s : System α) (source : Source) (tp : α) : Sent α := { source := source,number := s.enqueued.length,payload := tp }

def System.did (s : System α) (result : TriggerPayloadQueue (Sent α) Nat × Answers (Sent α) Nat) : System α :=
  { s with queue := result.1,answers := s.answers ++ result.2 }

def System.next (s : System α) : Event α → System α
  | .enqueueCatchup tp =>
    { s.did (s.queue.enqueueCatchup (s.sent .catchup tp)) with enqueued := s.enqueued ++ [s.sent .catchup tp] }
  | .enqueueNotify tp =>
    { s.did (s.queue.enqueueNotify (s.sent .notify tp)) with enqueued := s.enqueued ++ [s.sent .notify tp] }
  | .dequeue => { s.did (s.queue.dequeue s.dequeues) with dequeues := s.dequeues + 1 }
  | .finishCatchup => { s.did s.queue.finishCatchup with catchingUp := false }
  | .stop => s.did s.queue.stop
  | .restart => { s.did s.queue.restart with catchingUp := true }

def step (s : System α) (e : Event α) : Option (System α) := some (s.next e)

/-! ### What an operation keeps -/

theorem ofSource_append (source : Source) (first rest : List (Sent α)) :
    ofSource source (first ++ rest) = ofSource source first ++ ofSource source rest := List.filter_append first rest

theorem ofSource_same {source : Source} {payloads : List (Sent α)} (same : ∀ sent ∈ payloads,sent.source = source) :
    ofSource source payloads = payloads := List.filter_eq_self.mpr fun sent listed => decide_eq_true (same sent listed)

theorem ofSource_other {source other : Source} {payloads : List (Sent α)} (same : ∀ sent ∈ payloads,sent.source = other)
    (differ : other ≠ source) : ofSource source payloads = [] := by
  refine List.filter_eq_nil_iff.mpr ?_
  intro sent listed
  simp [same sent listed,differ]

section
variable {ρ : Type}

/-- A dequeuer waits only on a running queue that has nothing for it. -/
structure Ready (q : TriggerPayloadQueue (Sent α) ρ) : Prop where
  sorted : ∀ source,∀ sent ∈ q.stored source,sent.source = source
  closed : q.shutdown = true → q.waiting = []
  idle : q.waiting ≠ [] → q.deliverable = []

/-- An operation with the payloads that enter the queue and the dequeuers that ask: of each source, what it hands over and what it leaves is
    what was there and what has entered; and each dequeuer is answered or waits. -/
structure Keeps (q : TriggerPayloadQueue (Sent α) ρ) (entering : List (Sent α)) (asking : List ρ)
    (result : TriggerPayloadQueue (Sent α) ρ × Answers (Sent α) ρ) : Prop where
  ready : Ready result.1
  conserves : ∀ source,ofSource source (handed result.2) ++ result.1.stored source = q.stored source ++ ofSource source entering
  answers : (result.2.map Prod.fst ++ result.1.waiting).Perm (q.waiting ++ asking)

theorem Ready.first {q : TriggerPayloadQueue (Sent α) ρ} (ready : Ready q) {source : Source} {sent : Sent α} {rest : List (Sent α)}
    (first : q.stored source = sent :: rest) : sent.source = source := ready.sorted source sent (first ▸ List.mem_cons_self)

theorem Ready.nothing {q : TriggerPayloadQueue (Sent α) ρ} (ready : Ready q) (waits : q.waiting ≠ []) :
    q.catchupPayloads = [] ∧ (q.catchupFinished = true → q.notifyPayloads = []) := by
  have nothing := ready.idle waits
  rw [TriggerPayloadQueue.deliverable,List.append_eq_nil_iff] at nothing
  refine ⟨nothing.1,?_⟩
  intro finished
  simpa [finished] using nothing.2

/-- The first waiter gets a payload that has just been enqueued. -/
theorem Ready.hands {q : TriggerPayloadQueue (Sent α) ρ} (ready : Ready q) {resolve : ρ} {waiting : List ρ}
    (first : q.waiting = resolve :: waiting) {sent : Sent α} (empty : q.stored sent.source = []) :
    Keeps q [sent] [] ({ q with waiting := waiting },[(resolve,some sent)]) where
  ready := {
    sorted := ready.sorted
    closed := by
      intro shutdown
      rw [ready.closed shutdown] at first
      cases first
    idle := fun _ => ready.idle (first ▸ List.cons_ne_nil resolve waiting) }
  conserves := by
    intro source
    show ofSource source [sent] ++ q.stored source = q.stored source ++ ofSource source [sent]
    by_cases here : sent.source = source
    · rw [← here,empty,List.append_nil,List.nil_append]
    · simp [ofSource,here]
  answers := by simp [first]

/-- A payload is stored while nobody can have it. -/
theorem Ready.stores {q q' : TriggerPayloadQueue (Sent α) ρ} (ready : Ready q) {sent : Sent α}
    (here : q'.stored sent.source = q.stored sent.source ++ [sent])
    (there : ∀ source,source ≠ sent.source → q'.stored source = q.stored source) (shutdown : q'.shutdown = q.shutdown)
    (waiting : q'.waiting = q.waiting) (idle : q'.waiting ≠ [] → q'.deliverable = []) : Keeps q [sent] [] (q',[]) where
  ready := {
    sorted := by
      intro source sent' listed
      by_cases same : source = sent.source
      · subst same
        rw [here,List.mem_append,List.mem_singleton] at listed
        rcases listed with old | rfl
        · exact ready.sorted _ sent' old
        · rfl
      · rw [there source same] at listed
        exact ready.sorted source sent' listed
    closed := by
      intro stopped
      rw [waiting]
      exact ready.closed (shutdown ▸ stopped)
    idle := idle }
  conserves := by
    intro source
    by_cases same : source = sent.source
    · subst same
      rw [here]
      simp [handed,ofSource]
    · rw [there source same]
      simp [handed,ofSource,Ne.symm same]
  answers := by simp [waiting]

theorem enqueueCatchup_keeps {q : TriggerPayloadQueue (Sent α) ρ} (ready : Ready q) {sent : Sent α} (source : sent.source = .catchup) :
    Keeps q [sent] [] (q.enqueueCatchup sent) := by
  cases waiting : q.waiting with
  | nil =>
    rw [TriggerPayloadQueue.enqueueCatchup_stored waiting]
    refine ready.stores ?_ ?_ rfl rfl ?_
    · rw [source]
      rfl
    · intro other differ
      rw [source] at differ
      cases other with
      | catchup => exact absurd rfl differ
      | notify => rfl
    · exact fun waits => absurd waiting waits
  | cons resolve rest =>
    rw [TriggerPayloadQueue.enqueueCatchup_handed waiting]
    have nothing := ready.nothing (waiting ▸ List.cons_ne_nil resolve rest)
    refine ready.hands waiting ?_
    rw [source]
    exact nothing.1

theorem enqueueNotify_keeps {q : TriggerPayloadQueue (Sent α) ρ} (ready : Ready q) {sent : Sent α} (source : sent.source = .notify) :
    Keeps q [sent] [] (q.enqueueNotify sent) := by
  by_cases held : q.waiting ≠ [] → q.catchupFinished = false
  · rw [TriggerPayloadQueue.enqueueNotify_stored held]
    refine ready.stores ?_ ?_ rfl rfl ?_
    · rw [source]
      rfl
    · intro other differ
      rw [source] at differ
      cases other with
      | catchup => rfl
      | notify => exact absurd rfl differ
    · intro waits
      have nothing := ready.nothing waits
      simp [TriggerPayloadQueue.deliverable,held waits,nothing.1]
  · obtain ⟨waits,finished⟩ := Classical.not_imp.mp held
    rw [Bool.not_eq_false] at finished
    obtain ⟨resolve,rest,waiting⟩ := List.exists_cons_of_ne_nil waits
    rw [TriggerPayloadQueue.enqueueNotify_handed finished waiting]
    refine ready.hands waiting ?_
    rw [source]
    exact (ready.nothing waits).2 finished

/-- A dequeuer takes the first payload of a source. -/
theorem Ready.takes {q q' : TriggerPayloadQueue (Sent α) ρ} (ready : Ready q) (source : Source) {sent : Sent α} {rest : List (Sent α)}
    (first : q.stored source = sent :: rest) (here : q'.stored source = rest)
    (there : ∀ other,other ≠ source → q'.stored other = q.stored other) (shutdown : q'.shutdown = q.shutdown)
    (waiting : q'.waiting = q.waiting) (nobody : q.waiting = []) (resolve : ρ) : Keeps q [] [resolve] (q',[(resolve,some sent)]) where
  ready := {
    sorted := by
      intro other sent' listed
      by_cases same : other = source
      · subst same
        rw [here] at listed
        exact ready.sorted other sent' (first ▸ List.mem_cons_of_mem sent listed)
      · rw [there other same] at listed
        exact ready.sorted other sent' listed
    closed := by
      intro stopped
      rw [waiting]
      exact ready.closed (shutdown ▸ stopped)
    idle := fun waits => absurd (waiting.trans nobody) waits }
  conserves := by
    intro other
    have own := ready.first first
    by_cases same : other = source
    · subst same
      rw [here,first]
      simp [handed,ofSource,own]
    · rw [there other same]
      simp [handed,ofSource,own,Ne.symm same]
  answers := by simp [waiting,nobody]

theorem dequeue_keeps {q : TriggerPayloadQueue (Sent α) ρ} (ready : Ready q) (resolve : ρ) : Keeps q [] [resolve] (q.dequeue resolve) := by
  by_cases shutdown : q.shutdown = true
  · rw [TriggerPayloadQueue.dequeue_stopped shutdown]
    exact ⟨ready,fun source => by simp [handed,ofSource],by simp [ready.closed shutdown]⟩
  rw [Bool.not_eq_true] at shutdown
  by_cases nothing : q.deliverable = []
  · rw [TriggerPayloadQueue.dequeue_waits shutdown nothing]
    refine ⟨⟨ready.sorted,?_,fun _ => nothing⟩,fun source => ?_,List.Perm.refl _⟩
    · intro stopped
      rw [shutdown] at stopped
      cases stopped
    · show ofSource source [] ++ q.stored source = q.stored source ++ ofSource source []
      simp [ofSource]
  have nobody : q.waiting = [] := by
    by_contra waits
    exact nothing (ready.idle waits)
  cases catchups : q.catchupPayloads with
  | cons sent rest =>
    rw [TriggerPayloadQueue.dequeue_catchup shutdown catchups]
    refine ready.takes .catchup catchups ?_ ?_ ?_ ?_ nobody resolve
    · rfl
    · intro other differ
      cases other with
      | catchup => exact absurd rfl differ
      | notify => rfl
    · rfl
    · rfl
  | nil =>
    by_cases finished : q.catchupFinished = true
    · cases notifies : q.notifyPayloads with
      | nil => exact absurd (by simp [TriggerPayloadQueue.deliverable,catchups,notifies]) nothing
      | cons sent rest =>
        rw [TriggerPayloadQueue.dequeue_notify shutdown catchups finished notifies]
        refine ready.takes .notify notifies ?_ ?_ ?_ ?_ nobody resolve
        · rfl
        · intro other differ
          cases other with
          | catchup => rfl
          | notify => exact absurd rfl differ
        · rfl
        · rfl
    · exact absurd (by simp [TriggerPayloadQueue.deliverable,catchups,finished]) nothing

theorem handed_zip (waiting : List ρ) (payloads : List (Sent α)) :
    handed ((waiting.zip payloads).map fun pair => (pair.1,some pair.2)) = payloads.take waiting.length := by
  induction waiting generalizing payloads with
  | nil => rfl
  | cons resolve waiting ih =>
    cases payloads with
    | nil => rfl
    | cons sent payloads => simpa [handed] using ih payloads

theorem zip_dequeuers (waiting : List ρ) (payloads : List (Sent α)) :
    ((waiting.zip payloads).map fun pair => (pair.1,some pair.2)).map Prod.fst = waiting.take payloads.length := by
  induction waiting generalizing payloads with
  | nil => simp
  | cons resolve waiting ih =>
    cases payloads with
    | nil => rfl
    | cons sent payloads => simpa using ih payloads

theorem finishCatchup_keeps {q : TriggerPayloadQueue (Sent α) ρ} (ready : Ready q) : Keeps q [] [] q.finishCatchup := by
  have result : q.finishCatchup = ({ q with
      catchupFinished := true,waiting := q.waiting.drop q.notifyPayloads.length
      notifyPayloads := q.notifyPayloads.drop q.waiting.length },
      (q.waiting.zip q.notifyPayloads).map fun pair => (pair.1,some pair.2)) := by
    rw [TriggerPayloadQueue.finishCatchup,TriggerPayloadQueue.handOver_eq]
  rw [result]
  refine ⟨⟨?_,?_,?_⟩,?_,?_⟩
  · intro source sent listed
    cases source with
    | catchup => exact ready.sorted .catchup sent listed
    | notify => exact ready.sorted .notify sent (List.mem_of_mem_drop listed)
  · intro stopped
    simp [ready.closed stopped]
  · intro waits
    have more : q.notifyPayloads.length < q.waiting.length := by
      by_contra few
      exact waits (List.drop_of_length_le (by omega))
    have nothing := ready.nothing (List.ne_nil_of_length_pos (by omega))
    simp [TriggerPayloadQueue.deliverable,nothing.1,more.le]
  · intro source
    rw [handed_zip]
    cases source with
    | catchup =>
      have none_ : ofSource .catchup (q.notifyPayloads.take q.waiting.length) = [] :=
        ofSource_other (fun sent listed => ready.sorted .notify sent (List.mem_of_mem_take listed)) (by simp)
      rw [none_]
      simp [TriggerPayloadQueue.stored,ofSource]
    | notify =>
      have same : ofSource .notify (q.notifyPayloads.take q.waiting.length) = q.notifyPayloads.take q.waiting.length :=
        ofSource_same fun sent listed => ready.sorted .notify sent (List.mem_of_mem_take listed)
      rw [same]
      simp [TriggerPayloadQueue.stored,ofSource]
  · rw [zip_dequeuers,List.take_append_drop,List.append_nil]

theorem stop_keeps {q : TriggerPayloadQueue (Sent α) ρ} (ready : Ready q) : Keeps q [] [] q.stop := by
  refine ⟨⟨ready.sorted,fun _ => rfl,fun waits => absurd rfl waits⟩,?_,?_⟩
  · intro source
    have nothing : handed q.stop.2 = [] := by
      refine List.filterMap_eq_nil_iff.mpr ?_
      simp [TriggerPayloadQueue.stop]
    rw [nothing]
    show ofSource source [] ++ q.stored source = q.stored source ++ ofSource source []
    simp [ofSource]
  · simp [TriggerPayloadQueue.stop,Function.comp_def]

theorem restart_keeps {q : TriggerPayloadQueue (Sent α) ρ} (ready : Ready q) : Keeps q [] [] q.restart := by
  refine ⟨⟨ready.sorted,?_,ready.idle⟩,?_,by simp [TriggerPayloadQueue.restart]⟩
  · intro stopped
    cases stopped
  intro source
  show ofSource source [] ++ q.stored source = q.stored source ++ ofSource source []
  simp [ofSource]

end

/-! ### Runs -/

/-- Each payload has been delivered or is stored, in the order of its source; each dequeuer has one answer or waits. -/
structure Sound (s : System α) : Prop where
  ready : Ready s.queue
  line : ∀ source,ofSource source s.delivered ++ s.queue.stored source = ofSource source s.enqueued
  numbered : s.enqueued.map Sent.number = List.range s.enqueued.length
  answered : (s.answers.map Prod.fst ++ s.queue.waiting).Perm (List.range s.dequeues)

theorem sound_start : Sound ({} : System α) where
  ready := {
    sorted := by
      intro source sent listed
      cases source <;> cases listed
    closed := fun _ => rfl
    idle := fun waits => absurd rfl waits }
  line := by
    intro source
    cases source <;> rfl
  numbered := rfl
  answered := List.Perm.refl []

theorem Sound.keeps {s s' : System α} (sound : Sound s) {entering : List (Sent α)} {asking : List Nat}
    {result : TriggerPayloadQueue (Sent α) Nat × Answers (Sent α) Nat} (keeps : Keeps s.queue entering asking result)
    (queue : s'.queue = result.1) (answers : s'.answers = s.answers ++ result.2) (enqueued : s'.enqueued = s.enqueued ++ entering)
    (numbered : s'.enqueued.map Sent.number = List.range s'.enqueued.length)
    (dequeues : List.range s'.dequeues = List.range s.dequeues ++ asking) : Sound s' where
  ready := queue ▸ keeps.ready
  line := by
    intro source
    have more : s'.delivered = s.delivered ++ handed result.2 := by
      rw [System.delivered,answers]
      exact List.filterMap_append
    rw [more,queue,enqueued,ofSource_append,ofSource_append,← sound.line source,List.append_assoc,keeps.conserves source,List.append_assoc]
  numbered := numbered
  answered := by
    rw [answers,queue,dequeues,List.map_append,List.append_assoc]
    have here := keeps.answers.append_left (s.answers.map Prod.fst)
    have before := sound.answered.append_right asking
    rw [List.append_assoc] at before
    exact here.trans before

theorem Sound.sent_numbered {s : System α} (sound : Sound s) (source : Source) (tp : α) :
    (s.enqueued ++ [s.sent source tp]).map Sent.number = List.range (s.enqueued ++ [s.sent source tp]).length := by
  simp [sound.numbered,System.sent,List.range_succ]

theorem Sound.next {s : System α} (sound : Sound s) (e : Event α) : Sound (s.next e) := by
  cases e with
  | enqueueCatchup tp =>
    refine sound.keeps (enqueueCatchup_keeps sound.ready rfl) rfl rfl rfl (sound.sent_numbered .catchup tp) ?_
    exact (List.append_nil _).symm
  | enqueueNotify tp =>
    refine sound.keeps (enqueueNotify_keeps sound.ready rfl) rfl rfl rfl (sound.sent_numbered .notify tp) ?_
    exact (List.append_nil _).symm
  | dequeue =>
    exact sound.keeps (dequeue_keeps sound.ready s.dequeues) rfl rfl (List.append_nil _).symm sound.numbered List.range_succ
  | finishCatchup =>
    exact sound.keeps (finishCatchup_keeps sound.ready) rfl rfl (List.append_nil _).symm sound.numbered (List.append_nil _).symm
  | stop => exact sound.keeps (stop_keeps sound.ready) rfl rfl (List.append_nil _).symm sound.numbered (List.append_nil _).symm
  | restart => exact sound.keeps (restart_keeps sound.ready) rfl rfl (List.append_nil _).symm sound.numbered (List.append_nil _).symm

theorem sound_runs {events : List (Event α)} {s : System α} (run : Runs step {} events s) : Sound s := by
  refine runs_invariant ?_ sound_start run
  intro s e s' sound taken
  cases taken
  exact sound.next e

/-- No payload is delivered twice. -/
theorem Sound.delivered_nodup {s : System α} (sound : Sound s) : s.delivered.Nodup := by
  classical
  have distinct : s.enqueued.Nodup := List.Nodup.of_map Sent.number (sound.numbered ▸ List.nodup_range)
  refine List.nodup_iff_count_le_one.mpr ?_
  intro sent
  calc s.delivered.count sent = (ofSource sent.source s.delivered).count sent := (List.count_filter (by simp)).symm
    _ ≤ (ofSource sent.source s.enqueued).count sent := by
      rw [← sound.line sent.source,List.count_append]
      exact Nat.le_add_right _ _
    _ ≤ 1 := List.nodup_iff_count_le_one.mp (distinct.filter _) sent

/-! ### Notifications before the end of a catch-up -/

/-- An event before the end of a catch-up delivers no notification. -/
def HoldsBack (s : System α) (e : Event α) : Prop :=
  (s.next e).catchingUp = true → ofSource .notify (s.next e).delivered = ofSource .notify s.delivered

instance [DecidableEq α] (s : System α) (e : Event α) : Decidable (HoldsBack s e) := inferInstanceAs (Decidable (_ → _))

/-- `restart` leaves `catchupFinished` as it was. While it is left over from an earlier start, no loop asks when only notifications are
    stored, and no notification arrives when a loop waits. -/
def Untouched (s : System α) (e : Event α) : Prop :=
  s.catchingUp = true → s.queue.catchupFinished = true →
    match e with
    | .dequeue => ¬ (s.queue.shutdown = false ∧ s.queue.catchupPayloads = [] ∧ s.queue.notifyPayloads ≠ [])
    | .enqueueNotify _ => s.queue.waiting = []
    | _ => True

instance decidableUntouched [DecidableEq α] (s : System α) : (e : Event α) → Decidable (Untouched s e)
  | .dequeue => inferInstanceAs (Decidable (_ → _ → ¬ (_ ∧ _ ∧ _ ≠ _)))
  | .enqueueNotify _ => inferInstanceAs (Decidable (_ → _ → _ = _))
  | .enqueueCatchup _ | .finishCatchup | .stop | .restart => isTrue fun _ _ => trivial

theorem delivered_did (s : System α) (result : TriggerPayloadQueue (Sent α) Nat × Answers (Sent α) Nat) :
    (s.did result).delivered = s.delivered ++ handed result.2 := List.filterMap_append

theorem notified_same {s t : System α} {more : List (Sent α)} (delivered : t.delivered = s.delivered ++ more) :
    ofSource .notify t.delivered = ofSource .notify s.delivered ↔ ofSource .notify more = [] := by
  rw [delivered,ofSource_append]
  simp

theorem enqueueCatchup_notified {ρ : Type} (q : TriggerPayloadQueue (Sent α) ρ) {sent : Sent α} (source : sent.source = .catchup) :
    ofSource .notify (handed (q.enqueueCatchup sent).2) = [] := by
  cases waiting : q.waiting with
  | nil =>
    rw [TriggerPayloadQueue.enqueueCatchup_stored waiting]
    rfl
  | cons resolve rest =>
    rw [TriggerPayloadQueue.enqueueCatchup_handed waiting]
    simp [handed,ofSource,source]

theorem enqueueNotify_notified {ρ : Type} (q : TriggerPayloadQueue (Sent α) ρ) {sent : Sent α} (source : sent.source = .notify) :
    ofSource .notify (handed (q.enqueueNotify sent).2) = [] ↔ (q.catchupFinished = true → q.waiting = []) := by
  by_cases held : q.waiting ≠ [] → q.catchupFinished = false
  · rw [TriggerPayloadQueue.enqueueNotify_stored held]
    refine iff_of_true rfl ?_
    intro finished
    by_contra waits
    rw [held waits] at finished
    cases finished
  · obtain ⟨waits,finished⟩ := Classical.not_imp.mp held
    rw [Bool.not_eq_false] at finished
    obtain ⟨resolve,rest,waiting⟩ := List.exists_cons_of_ne_nil waits
    rw [TriggerPayloadQueue.enqueueNotify_handed finished waiting]
    simp [handed,ofSource,source,finished,waits]

theorem dequeue_notified {ρ : Type} {q : TriggerPayloadQueue (Sent α) ρ} (ready : Ready q) (resolve : ρ) :
    ofSource .notify (handed (q.dequeue resolve).2) = [] ↔
      (q.catchupFinished = true → ¬ (q.shutdown = false ∧ q.catchupPayloads = [] ∧ q.notifyPayloads ≠ [])) := by
  by_cases shutdown : q.shutdown = true
  · rw [TriggerPayloadQueue.dequeue_stopped shutdown]
    simp [handed,ofSource,shutdown]
  rw [Bool.not_eq_true] at shutdown
  cases catchups : q.catchupPayloads with
  | cons sent rest =>
    have own : sent.source = .catchup := ready.first catchups
    rw [TriggerPayloadQueue.dequeue_catchup shutdown catchups]
    simp [handed,ofSource,own]
  | nil =>
    by_cases nothing : q.deliverable = []
    · rw [TriggerPayloadQueue.dequeue_waits shutdown nothing]
      rw [TriggerPayloadQueue.deliverable,catchups,List.nil_append] at nothing
      refine iff_of_true rfl ?_
      rintro finished ⟨_,_,some_⟩
      rw [if_pos finished] at nothing
      exact some_ nothing
    · have finished : q.catchupFinished = true := by
        by_contra unfinished
        exact nothing (by simp [TriggerPayloadQueue.deliverable,catchups,unfinished])
      cases notifies : q.notifyPayloads with
      | nil => exact absurd (by simp [TriggerPayloadQueue.deliverable,catchups,notifies]) nothing
      | cons sent rest =>
        have own : sent.source = .notify := ready.first notifies
        rw [TriggerPayloadQueue.dequeue_notify shutdown catchups finished notifies]
        simp [handed,ofSource,own,finished,shutdown]

theorem stop_notified {ρ : Type} (q : TriggerPayloadQueue (Sent α) ρ) : handed q.stop.2 = [] := by
  refine List.filterMap_eq_nil_iff.mpr ?_
  simp [TriggerPayloadQueue.stop]

theorem holdsBack_iff {s : System α} (sound : Sound s) (e : Event α) : HoldsBack s e ↔ Untouched s e := by
  cases e with
  | enqueueCatchup tp =>
    have none_ := enqueueCatchup_notified s.queue (show (s.sent .catchup tp).source = .catchup from rfl)
    exact iff_of_true (fun _ => (notified_same (delivered_did s _)).mpr none_) fun _ _ => trivial
  | enqueueNotify tp =>
    have notified := enqueueNotify_notified s.queue (show (s.sent .notify tp).source = .notify from rfl)
    exact imp_congr_right fun _ => (notified_same (delivered_did s _)).trans notified
  | dequeue => exact imp_congr_right fun _ => (notified_same (delivered_did s _)).trans (dequeue_notified sound.ready s.dequeues)
  | finishCatchup => exact iff_of_true (fun catching => by cases catching) fun _ _ => trivial
  | stop =>
    have none_ : ofSource .notify (handed s.queue.stop.2) = [] := by rw [stop_notified]; rfl
    exact iff_of_true (fun _ => (notified_same (delivered_did s _)).mpr none_) fun _ _ => trivial
  | restart => exact iff_of_true (fun _ => (notified_same (delivered_did s _)).mpr rfl) fun _ _ => trivial

/-- The runs whose events hold notifications back are those whose events meet `Untouched`. -/
theorem along_holdsBack {events : List (Event α)} :
    Along step HoldsBack ({} : System α) events ↔ Along step Untouched ({} : System α) events := by
  rw [along_iff,along_iff]
  constructor
  · intro all first e rest t split run
    exact (holdsBack_iff (sound_runs run) e).mp (all first e rest t split run)
  · intro all first e rest t split run
    exact (holdsBack_iff (sound_runs run) e).mpr (all first e rest t split run)

theorem next_flags (s : System α) (e : Event α) : (s.next e).queue.flags =
    match e with
    | .finishCatchup => (true,s.queue.shutdown)
    | .stop => (s.queue.catchupFinished,true)
    | .restart => (s.queue.catchupFinished,false)
    | _ => s.queue.flags := by
  cases e with
  | enqueueCatchup tp => exact s.queue.enqueueCatchup_flags _
  | enqueueNotify tp => exact s.queue.enqueueNotify_flags _
  | dequeue => exact s.queue.dequeue_flags _
  | finishCatchup | stop | restart => rfl

theorem next_finished (s : System α) (e : Event α) : (s.next e).queue.catchupFinished =
    match e with
    | .finishCatchup => true
    | _ => s.queue.catchupFinished := by
  have flags := (Prod.ext_iff.mp (next_flags s e)).1
  cases e <;> exact flags

/-- A catch-up that has ended has set `catchupFinished`, which nothing resets. -/
theorem finished_runs {events : List (Event α)} {s : System α} (run : Runs step {} events s) :
    s.catchingUp = false → s.queue.catchupFinished = true := by
  refine runs_invariant (I := fun s : System α => s.catchingUp = false → s.queue.catchupFinished = true) ?_ ?_ run
  · intro s e s' finished taken
    cases taken
    rw [next_finished]
    cases e with
    | enqueueCatchup _ | enqueueNotify _ | dequeue | stop => exact finished
    | finishCatchup => exact fun _ => rfl
    | restart => exact fun caught => by cases caught
  · exact fun caught => by cases caught

/-! ### Any run of the queue -/

/-- Each payload is delivered once or is stored, in the order of its source; each call of `dequeue` has one answer or waits; who waits on a
    running queue has nothing to wait for. Notifications are held back during catch-ups exactly in the runs whose events meet `Untouched`. -/
theorem delivered_once {events : List (Event α)} {s : System α} (run : Runs step {} events s) :
    s.delivered.Nodup ∧ (∀ source,ofSource source s.delivered ++ s.queue.stored source = ofSource source s.enqueued) ∧
      (s.answers.map Prod.fst ++ s.queue.waiting).Perm (List.range s.dequeues) ∧
      (s.queue.shutdown = false → s.queue.waiting ≠ [] →
        s.queue.catchupPayloads = [] ∧ (s.queue.catchupFinished = true ∨ s.catchingUp = false → s.queue.notifyPayloads = [])) ∧
      (Along step HoldsBack {} events ↔ Along step Untouched {} events) := by
  have sound := sound_runs run
  refine ⟨sound.delivered_nodup,sound.line,sound.answered,?_,along_holdsBack⟩
  intro _ waits
  have nothing := sound.ready.nothing waits
  refine ⟨nothing.1,?_⟩
  rintro (finished | caught)
  · exact nothing.2 finished
  · exact nothing.2 (finished_runs run caught)

end

/-- A loop waits while a notification arrives, is given a catch-up payload at once and the notification at the end of the catch-up. -/
theorem delivered_once_caught :
    let events : List (Event Trigger.TriggerPayload) := [.dequeue,.enqueueNotify ⟨.insert,[("id",.number 2)]⟩,
      .enqueueCatchup ⟨.upsert,[("id",.number 1)]⟩,.dequeue,.finishCatchup]
    let s := events.foldl System.next {}
    s.delivered = [⟨.catchup,1,⟨.upsert,[("id",.number 1)]⟩⟩,⟨.notify,0,⟨.insert,[("id",.number 2)]⟩⟩] ∧ s.delivered.Nodup ∧
      Along step HoldsBack {} events := by
  intro events s
  have run : Runs step {} events s := rfl
  have all := delivered_once run
  refine ⟨by decide,all.1,all.2.2.2.2.mpr ?_⟩
  decide

/-- After a restart, the flag of the first catch-up lets a notification through before the second one has ended. -/
theorem stale_catchup :
    let s : System Trigger.TriggerPayload := { enqueued := [⟨.notify,0,⟨.insert,[("id",.number 1)]⟩⟩],dequeues := 1
                                               queue := { catchupFinished := true }
                                               answers := [(0,some ⟨.notify,0,⟨.insert,[("id",.number 1)]⟩⟩)] }
    Runs step {} [.finishCatchup,.stop,.restart,.enqueueNotify ⟨.insert,[("id",.number 1)]⟩,.dequeue] s ∧ s.catchingUp = true ∧
      ¬ Along step HoldsBack ({} : System Trigger.TriggerPayload)
        [.finishCatchup,.stop,.restart,.enqueueNotify ⟨.insert,[("id",.number 1)]⟩,.dequeue] := by decide

/-- A queue that is never restarted with the flag set holds every notification back. -/
theorem reset_holdsBack {α : Type} {events : List (Event α)}
    (reset : Along step (fun s e => e = .restart → s.queue.catchupFinished = false) ({} : System α) events) :
    Along step HoldsBack ({} : System α) events := by
  rw [along_holdsBack]
  refine along_iff.mpr ?_
  intro first e rest s split run catching finished
  have unfinished : s.catchingUp = true → s.queue.catchupFinished = false := by
    refine along_invariant (I := fun s : System α => s.catchingUp = true → s.queue.catchupFinished = false) ?_ (fun _ => rfl)
      (along_append (split ▸ reset)).1 run
    intro s e s' held fresh taken
    cases taken
    rw [next_finished]
    cases e with
    | enqueueCatchup _ | enqueueNotify _ | dequeue | stop => exact held
    | finishCatchup => exact fun catching => by cases catching
    | restart => exact fun _ => fresh rfl
  rw [unfinished catching] at finished
  cases finished

/-! ### The receivers of `Dbos.Trigger` -/

/-- `dequeue` of the receivers in `Dbos.Trigger` is that of a running queue on which nobody waits. -/
theorem receiver_dequeue {ρ : Type} (r : Trigger.Receiver) (resolve : ρ) :
    ({ notifyPayloads := r.notifyPayloads,catchupPayloads := r.catchupPayloads,catchupFinished := r.catchupFinished } :
      TriggerPayloadQueue Trigger.TriggerPayload ρ).dequeue resolve =
    match r.dequeue with
    | some (payload,r') => ({ notifyPayloads := r'.notifyPayloads,catchupPayloads := r'.catchupPayloads
                              catchupFinished := r'.catchupFinished },[(resolve,some payload)])
    | none => ({ notifyPayloads := r.notifyPayloads,catchupPayloads := r.catchupPayloads
                 catchupFinished := r.catchupFinished,waiting := [resolve] },[]) := by
  unfold Trigger.Receiver.dequeue
  cases catchups : r.catchupPayloads with
  | cons payload rest => exact TriggerPayloadQueue.dequeue_catchup rfl rfl resolve
  | nil =>
    cases notifies : r.notifyPayloads with
    | nil => exact TriggerPayloadQueue.dequeue_waits rfl (by simp [TriggerPayloadQueue.deliverable]) resolve
    | cons payload rest =>
      by_cases finished : r.catchupFinished = true
      · simp only [finished,if_true]
        exact TriggerPayloadQueue.dequeue_notify rfl rfl rfl rfl resolve
      · simp only [finished,Bool.false_eq_true,if_false]
        exact TriggerPayloadQueue.dequeue_waits rfl (by simp [TriggerPayloadQueue.deliverable]) resolve

end Dbos.PayloadQueue
