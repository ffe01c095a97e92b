import Dbos.Callbacks
import Dbos.Pg.Run
import Dbos.Pg.Search
import Dbos.StreamReader

/-!
How readers that wait are woken: `#signalNotification`, `#runNotifier`, `flushNotifications` and `#listenForNotifications` of
`src/system_database.ts`, and the loops of `recv`, `getEvent` and `readStream` in which calls wait for a message, an event or a stream
value. Any number of processes share one database, in which everything of `Dbos.Writers` goes on: a process remembers after a COMMIT
what readers are to be told, sends it later, and the listener of each process calls the callbacks that its waiting calls have registered.
What runs between two awaits is one event. A process that has died takes no further step.
-/
namespace Dbos.Notifications
open Dbos.Pg Dbos.Schema Dbos.Communication Dbos.Writers Dbos.Callbacks Dbos.StreamDensity
open Dbos.StreamReader (isWorkflowActive)

/-! ### What is sent -/

inductive Channel
  | dbos_notifications_channel
  | dbos_workflow_events_channel
  | dbos_streams_channel
  deriving DecidableEq

/-- A notification: a channel and a payload. -/
abbrev Notice := Channel × String

def payloadOf (workflowID key : String) : String := s!"{workflowID}::{key}"

/-- What the call signals after its COMMIT: what it has written itself, and not what it replays. -/
def signalOf : Call → Option Notice
  | .invocation inv (.claimed _ _) =>
    match inv.op with
    | .setEvent key _ _ => some (.dbos_workflow_events_channel,payloadOf inv.workflowID key)
    | .writeStream key _ _ => some (.dbos_streams_channel,payloadOf inv.workflowID key)
    | .closeStream key => some (.dbos_streams_channel,payloadOf inv.workflowID key)
    | _ => none
  | .streamWrite w (.inserted _) => some (.dbos_streams_channel,payloadOf w.workflowID w.key)
  | _ => none

/-- `notifications_function`, the trigger on `notifications`. -/
def triggered : Statement → Option Notice
  | .insertNotification _ row => some (.dbos_notifications_channel,payloadOf row.destination_uuid row.topic)
  | _ => none

/-! ### Processes -/

/-- Where `#runNotifier` stands: at its sleep, at the batches that a flush has still to send, at those of the final flush. -/
inductive Notifier
  | sleeping
  | flushing (batches : List (Channel × List String))
  | final (batches : List (Channel × List String))
  | ended
  deriving DecidableEq

/-- A process with its system database. `listens` are the channels that its notifications client has subscribed to, `handler` is set
    once the handler is installed, and `inbox` is what the client has not handed over yet. -/
structure Process where
  shouldUseDBNotifications : Bool := true
  pendingNotifications : Table Channel (List String) := Table.empty
  notifierActive : Bool := true
  notifier : Notifier := .sleeping
  listens : List Channel := []
  handler : Bool := false
  inbox : List Notice := []
  maps : Channel → NotificationMap Nat := fun _ => {}

/-- `#signalNotification`. -/
def Process.signalNotification (proc : Process) (notice : Notice) : Process :=
  if !proc.shouldUseDBNotifications then proc
  else { proc with
    pendingNotifications := proc.pendingNotifications.upsert notice.1 (addTo [] notice.2) fun batch => addTo batch notice.2 }

/-- The batches that a flush has to send. -/
def Process.batches (proc : Process) : List (Channel × List String) := proc.pendingNotifications.entries.filter fun b => b.2 ≠ []

/-- The loop is left: the final flush takes what is pending. -/
def Process.finalFlush (proc : Process) : Process :=
  match proc.batches with
  | [] => { proc with notifier := .ended }
  | batches => { proc with notifier := .final batches,pendingNotifications := Table.empty }

/-- `#runNotifier` after its sleep. -/
def Process.wakeNotifier (proc : Process) : Process :=
  if !proc.notifierActive then proc.finalFlush
  else
    match proc.batches with
    | [] => proc
    | batches => { proc with notifier := .flushing batches,pendingNotifications := Table.empty }

/-- After the last batch of a flush `#runNotifier` looks whether it goes on. -/
def Process.flushed (proc : Process) : Process :=
  if proc.notifierActive then { proc with notifier := .sleeping } else proc.finalFlush

/-- What becomes of a process by itself. `notify` is the statement for the next batch, which fails or sends it. -/
inductive ProcessEvent
  | wakeNotifier
  | notify (succeeds : Bool)
  | destroy
  | listen
  | installHandler
  | lose
  deriving DecidableEq

/-- The process after the event, and the batch that is sent. -/
def Process.act (proc : Process) : ProcessEvent → Option (Process × List Notice)
  | .wakeNotifier =>
    match proc.notifier with
    | .sleeping => some (proc.wakeNotifier,[])
    | _ => none
  | .notify succeeds =>
    match proc.notifier with
    | .flushing (batch :: rest) =>
      some (if rest = [] then proc.flushed else { proc with notifier := .flushing rest },
        if succeeds then batch.2.map (batch.1,·) else [])
    | .final (batch :: rest) =>
      some ({ proc with notifier := if rest = [] then .ended else .final rest },
        if succeeds then batch.2.map (batch.1,·) else [])
    | _ => none
  | .destroy => some ({ proc with notifierActive := false },[])
  | .listen =>
    match proc.listens with
    | [] => some ({ proc with listens := [.dbos_notifications_channel] },[])
    | [_] => some ({ proc with listens := [.dbos_notifications_channel,.dbos_workflow_events_channel] },[])
    | [_,_] =>
      some ({ proc with listens := [.dbos_notifications_channel,.dbos_workflow_events_channel,.dbos_streams_channel] },[])
    | _ => none
  | .installHandler => if proc.listens.length = 3 then some ({ proc with handler := true },[]) else none
  | .lose => some ({ proc with listens := [],handler := false,inbox := [] },[])

/-- Postgres sends the notices to the processes that listen. -/
def post (notices : List Notice) (proc : Process) : Process :=
  { proc with inbox := proc.inbox ++ notices.filter fun notice => notice.1 ∈ proc.listens }

/-! ### Waiting calls -/

/-- What a call waits for. `callerWorkflow` is the workflow that has called `getEvent`. -/
inductive Target
  | recv (workflowID topic : String)
  | getEvent (workflowID key : String) (callerWorkflow : Option String)
  | readStream (workflowID key : String) (offset : Nat)
  deriving DecidableEq

def Target.channel : Target → Channel
  | .recv _ _ => .dbos_notifications_channel
  | .getEvent _ _ _ => .dbos_workflow_events_channel
  | .readStream _ _ _ => .dbos_streams_channel

/-- The key under which the callback is registered. -/
def Target.payload : Target → String
  | .recv workflowID topic => payloadOf workflowID topic
  | .getEvent workflowID key _ => payloadOf workflowID key
  | .readStream workflowID key _ => payloadOf workflowID key

def Target.notice (target : Target) : Notice := (target.channel,target.payload)

/-- The workflow that `#checkIfCanceledLimited` looks at. -/
def Target.checked : Target → Option String
  | .recv workflowID _ => some workflowID
  | .getEvent _ _ callerWorkflow => callerWorkflow
  | .readStream _ _ _ => none

/-- `dbRetry` is around the whole loop. -/
def Target.retried : Target → Bool
  | .readStream _ _ _ => false
  | _ => true

/-- What is waited for is in the database. -/
def Target.there (db : Database) : Target → Bool
  | .recv workflowID topic => 0 < db.notifications.count (unconsumedHits workflowID topic)
  | .getEvent workflowID key _ => (db.workflow_events.get? (workflowID,key)).isSome
  | .readStream workflowID key offset => (db.streams.get? (workflowID,key,offset)).isSome

/-- What the look into the database has said. -/
inductive Answer
  | found (last : Bool)
  | absent (active : Bool)
  | noWorkflow
  deriving DecidableEq

def Target.look (db : Database) : Target → Answer
  | .readStream workflowID key offset =>
    match readStreamValue db workflowID key offset with
    | (none,_) => .noWorkflow
    | (some _,some value) => .found (value.serializedValue = some DBOS_STREAM_CLOSED_SENTINEL)
    | (some status,none) => .absent (isWorkflowActive status)
  | target => if target.there db then .found true else .absent true

/-- Where a waiting call stands: before the `try` of its loop, in it with the number of its callback, or after its loop. `yielded`: the
    consumer has the value. -/
inductive Phase
  | looping
  | registered (ck : Nat)
  | checked (ck : Nat)
  | looked (ck : Nat) (answer : Answer)
  | waiting (ck : Nat)
  | yielded (ck : Nat)
  | left (found : Bool)
  | threw
  deriving DecidableEq

/-- The callback of a call that is in its `try`. -/
def Phase.callback : Phase → Option Nat
  | .registered ck => some ck
  | .checked ck => some ck
  | .looked ck _ => some ck
  | .waiting ck => some ck
  | .yielded ck => some ck
  | _ => none

/-- A call that waits. `resolved` belongs to the promise of the current iteration. -/
structure Waiter where
  process : Nat
  target : Target
  finishTime : Option Int := none
  finalRead : Bool := false
  phase : Phase := .looping
  resolved : Bool := false
  deriving DecidableEq

/-- `wake`: the promise is resolved and the race over; `timeout`: the sleep is. `close`: the consumer of a stream returns, or the value
    cannot be deserialized. `fail`: a query fails, and `dbRetry` calls again or does not. `quit`: the call that `dbRetry` has made
    finds its checkpoint. -/
inductive WaiterEvent
  | register
  | check
  | look
  | answer (now : Int)
  | wake
  | timeout
  | consume
  | close
  | fail (again : Bool)
  | quit

def Target.next : Target → Target
  | .readStream workflowID key offset => .readStream workflowID key (offset + 1)
  | target => target

/-- `finishTime && ct > finishTime`. -/
def Waiter.timeIsUp (w : Waiter) (now : Int) : Bool := w.finishTime.any fun finishTime => finishTime ≠ 0 ∧ finishTime < now

/-- What the call does with the answer. -/
def Waiter.answered (w : Waiter) (ck : Nat) (now : Int) : Answer → Waiter
  | .found last =>
    match w.target with
    | .readStream _ _ _ => { w with phase := if last then .left true else .yielded ck }
    | _ => { w with phase := .left true }
  | .absent active =>
    match w.target with
    | .readStream _ _ _ =>
      if w.finalRead then { w with phase := .left false }
      else if !active then { w with finalRead := true,phase := .looping }
      else { w with phase := .waiting ck }
    | _ => if w.timeIsUp now then { w with phase := .left false } else { w with phase := .waiting ck }
  | .noWorkflow => { w with phase := .threw }

/-- The call after the event; `ck` is the number of the next callback. -/
def Waiter.act (db : Database) (ck : Nat) (w : Waiter) : WaiterEvent → Option Waiter
  | .register =>
    match w.phase with
    | .looping => some { w with resolved := false,phase := if w.target.checked.isSome then .registered ck else .checked ck }
    | _ => none
  | .check =>
    match w.phase,w.target.checked with
    | .registered ck,some workflowID =>
      some { w with phase := if (checkIfCanceled db workflowID).isSome then .threw else .checked ck }
    | _,_ => none
  | .look =>
    match w.phase with
    | .checked ck => some { w with phase := .looked ck (w.target.look db) }
    | _ => none
  | .answer now =>
    match w.phase with
    | .looked ck answer => some (w.answered ck now answer)
    | _ => none
  | .wake =>
    match w.phase with
    | .waiting _ => if w.resolved then some { w with phase := .looping } else none
    | _ => none
  | .timeout =>
    match w.phase with
    | .waiting _ => some { w with phase := .looping }
    | _ => none
  | .consume =>
    match w.phase with
    | .yielded _ => some { w with target := w.target.next,phase := .looping }
    | _ => none
  | .close =>
    match w.phase with
    | .yielded _ => some { w with phase := .left true }
    | _ => none
  | .fail again =>
    match w.phase with
    | .registered _ | .checked _ => some { w with phase := if again ∧ w.target.retried then .looping else .threw }
    | _ => none
  | .quit =>
    match w.phase with
    | .looping => some { w with phase := .left true }
    | _ => none

/-- A call that enters its `try` has registered its callback, one that leaves it deregisters it in `finally`. -/
def Process.settle (proc : Process) (i : Nat) (w w' : Waiter) : Process :=
  let m := proc.maps w.target.channel
  match w.phase.callback,w'.phase.callback with
  | none,some _ => { proc with maps := Function.update proc.maps w.target.channel (m.registerCallback w.target.payload i).2 }
  | some ck,none => { proc with maps := Function.update proc.maps w.target.channel (m.deregisterCallback (w.target.payload,ck)) }
  | _,_ => proc

/-! ### The system -/

/-- `homes` says for each call of `writers` which process has made it, `acks` are COMMITs whose replies are on their way to a process,
    with what it signals then. `trigger`: the migrations have installed the trigger on `notifications`. -/
structure System where
  writers : Writers.System
  homes : List Nat := []
  acks : List (Nat × Notice) := []
  processes : List Process := []
  waiters : List Waiter := []
  trigger : Bool := true

/-- `sendDirect` is one statement. `foreign`: somebody else sends notifications, such as the self-test of a listener. `deliver`: the handler of a process is given a
    notification. -/
inductive Event
  | launch (shouldUseDBNotifications : Bool)
  | call (q : Nat) (call : Call)
  | writers (e : Writers.Event)
  | sendDirect (destinationID : String) (message topic serialization idempotencyKey : Option String) (input : Input)
  | acked (k : Nat)
  | process (q : Nat) (e : ProcessEvent)
  | foreign (notices : List Notice)
  | deliver (q : Nat)
  | wait (q : Nat) (target : Target) (finishTime : Option Int)
  | waiter (i : Nat) (e : WaiterEvent)

/-- What Postgres sends for the statements of a transaction. -/
def System.triggers (s : System) (statements : List Statement) : List Notice :=
  if s.trigger then statements.filterMap triggered else []

/-- What a COMMIT of the call sends by itself, and the reply that goes to its process. -/
def System.committed (s : System) : Writers.Event → List Notice × List (Nat × Notice)
  | .commit i acknowledged =>
    match s.writers.calls[i]?,s.homes[i]? with
    | some call,some q =>
      (s.triggers call.writes,if acknowledged then (signalOf call).toList.map (q,·) else [])
    | _,_ => ([],[])
  | _ => ([],[])

/-- The callbacks resolve the promises of their calls. -/
def resolveAll (called : List Nat) (waiters : List Waiter) : List Waiter :=
  waiters.mapIdx fun i w => if i ∈ called then { w with resolved := true } else w

def step (s : System) : Event → Option System
  | .launch shouldUseDBNotifications =>
    some { s with processes := s.processes ++ [{ shouldUseDBNotifications := shouldUseDBNotifications }] }
  | .call q call =>
    if q < s.processes.length then
      (Writers.step s.writers (.begin call)).map fun writers => { s with writers := writers,homes := s.homes ++ [q] }
    else none
  | .writers (.begin _) => none
  | .writers e =>
    (Writers.step s.writers e).map fun writers =>
      { s with
        writers := writers
        acks := s.acks ++ (s.committed e).2
        processes := s.processes.map (post (s.committed e).1) }
  | .sendDirect destinationID message topic serialization idempotencyKey input =>
    match insertMessage s.writers.db destinationID message topic serialization idempotencyKey input with
    | .error _ => some s
    | .ok statements =>
      if Writers.Free s.writers.calls statements then
        some { s with
          writers := { s.writers with db := applyAll s.writers.db statements }
          processes := s.processes.map (post (s.triggers statements)) }
      else none
  | .acked k =>
    match s.acks[k]? with
    | some (q,notice) =>
      match s.processes[q]? with
      | some proc => some { s with acks := s.acks.eraseIdx k,processes := s.processes.set q (proc.signalNotification notice) }
      | none => none
    | none => none
  | .process q e =>
    match s.processes[q]? with
    | some proc =>
      if proc.shouldUseDBNotifications then
        (proc.act e).map fun out => { s with processes := (s.processes.set q out.1).map (post out.2) }
      else none
    | none => none
  | .foreign notices => some { s with processes := s.processes.map (post notices) }
  | .deliver q =>
    match s.processes[q]? with
    | some proc =>
      match proc.inbox with
      | notice :: inbox =>
        some { s with
          processes := s.processes.set q { proc with inbox := inbox }
          waiters := if proc.handler then resolveAll ((proc.maps notice.1).callCallbacks notice.2) s.waiters else s.waiters }
      | [] => none
    | none => none
  | .wait q target finishTime =>
    if q < s.processes.length then
      some { s with waiters := s.waiters ++ [{ process := q,target := target,finishTime := finishTime }] }
    else none
  | .waiter i e =>
    match s.waiters[i]? with
    | some w =>
      match s.processes[w.process]? with
      | some proc =>
        (w.act s.writers.db (proc.maps w.target.channel).curCK e).map fun w' =>
          { s with waiters := s.waiters.set i w',processes := s.processes.set w.process (proc.settle i w w') }
      | none => none
    | none => none

def start (t : Statuses) (trigger : Bool) : System := { writers := Writers.start t,trigger := trigger }

/-! ### What a step can do -/

/-- Everything that a step can be. -/
inductive Moves (s : System) : Event → System → Prop
  | launch (shouldUseDBNotifications : Bool) :
      Moves s (.launch shouldUseDBNotifications)
        { s with processes := s.processes ++ [{ shouldUseDBNotifications := shouldUseDBNotifications }] }
  | call (q : Nat) (call : Call) (writers : Writers.System) (known : q < s.processes.length)
      (begins : Writers.step s.writers (.begin call) = some writers) :
      Moves s (.call q call) { s with writers := writers,homes := s.homes ++ [q] }
  | writers (e : Writers.Event) (writers : Writers.System) (other : ∀ call, e ≠ .begin call)
      (taken : Writers.step s.writers e = some writers) :
      Moves s (.writers e) { s with
        writers := writers
        acks := s.acks ++ (s.committed e).2
        processes := s.processes.map (post (s.committed e).1) }
  | refused (e : Event) : Moves s e s
  | sendDirect (destinationID : String) (message topic serialization idempotencyKey : Option String) (input : Input)
      (statements : List Statement)
      (inserts : insertMessage s.writers.db destinationID message topic serialization idempotencyKey input = .ok statements) :
      Moves s (.sendDirect destinationID message topic serialization idempotencyKey input) { s with
        writers := { s.writers with db := applyAll s.writers.db statements }
        processes := s.processes.map (post (s.triggers statements)) }
  | acked (k q : Nat) (notice : Notice) (proc : Process) (listed : s.acks[k]? = some (q,notice))
      (found : s.processes[q]? = some proc) :
      Moves s (.acked k) { s with acks := s.acks.eraseIdx k,processes := s.processes.set q (proc.signalNotification notice) }
  | process (q : Nat) (e : ProcessEvent) (proc proc' : Process) (sent : List Notice) (found : s.processes[q]? = some proc)
      (uses : proc.shouldUseDBNotifications = true) (acts : proc.act e = some (proc',sent)) :
      Moves s (.process q e) { s with processes := (s.processes.set q proc').map (post sent) }
  | foreign (notices : List Notice) : Moves s (.foreign notices) { s with processes := s.processes.map (post notices) }
  | deliver (q : Nat) (proc : Process) (notice : Notice) (inbox : List Notice) (found : s.processes[q]? = some proc)
      (first : proc.inbox = notice :: inbox) :
      Moves s (.deliver q) { s with
        processes := s.processes.set q { proc with inbox := inbox }
        waiters := if proc.handler then resolveAll ((proc.maps notice.1).callCallbacks notice.2) s.waiters else s.waiters }
  | wait (q : Nat) (target : Target) (finishTime : Option Int) (known : q < s.processes.length) :
      Moves s (.wait q target finishTime)
        { s with waiters := s.waiters ++ [{ process := q,target := target,finishTime := finishTime }] }
  | waiter (i : Nat) (e : WaiterEvent) (w w' : Waiter) (proc : Process) (listed : s.waiters[i]? = some w)
      (found : s.processes[w.process]? = some proc)
      (acts : w.act s.writers.db (proc.maps w.target.channel).curCK e = some w') :
      Moves s (.waiter i e)
        { s with waiters := s.waiters.set i w',processes := s.processes.set w.process (proc.settle i w w') }

theorem step_writers (s : System) {e : Writers.Event} (other : ∀ call, e ≠ .begin call) :
    step s (.writers e) = (Writers.step s.writers e).map fun writers =>
      { s with
        writers := writers
        acks := s.acks ++ (s.committed e).2
        processes := s.processes.map (post (s.committed e).1) } := by
  cases e with
  | begin call => exact absurd rfl (other call)
  | _ => rfl

theorem step_moves {s s' : System} {e : Event} (taken : step s e = some s') : Moves s e s' := by
  cases e with
  | launch shouldUseDBNotifications =>
    cases taken
    exact .launch shouldUseDBNotifications
  | call q call =>
    simp only [step] at taken
    split at taken
    · obtain ⟨writers,begins,rfl⟩ := Option.map_eq_some_iff.mp taken
      exact .call q call writers (by assumption) begins
    · cases taken
  | writers e =>
    by_cases begins : ∃ call, e = .begin call
    · obtain ⟨call,rfl⟩ := begins
      cases taken
    · have other : ∀ call, e ≠ .begin call := fun call same => begins ⟨call,same⟩
      rw [step_writers s other] at taken
      obtain ⟨writers,happens,rfl⟩ := Option.map_eq_some_iff.mp taken
      exact .writers e writers other happens
  | sendDirect destinationID message topic serialization idempotencyKey input =>
    simp only [step] at taken
    split at taken
    · cases taken
      exact .refused _
    · split at taken <;> cases taken
      exact .sendDirect _ _ _ _ _ _ _ (by assumption)
  | acked k =>
    simp only [step] at taken
    split at taken
    · split at taken <;> cases taken
      exact .acked k _ _ _ (by assumption) (by assumption)
    · cases taken
  | process q e =>
    simp only [step] at taken
    split at taken
    · split at taken
      · obtain ⟨⟨proc',sent⟩,acts,rfl⟩ := Option.map_eq_some_iff.mp taken
        exact .process q e _ proc' sent (by assumption) (by assumption) acts
      · cases taken
    · cases taken
  | foreign notices =>
    cases taken
    exact .foreign notices
  | deliver q =>
    simp only [step] at taken
    split at taken
    · split at taken <;> cases taken
      exact .deliver q _ _ _ (by assumption) (by assumption)
    · cases taken
  | wait q target finishTime =>
    simp only [step] at taken
    split at taken <;> cases taken
    exact .wait q target finishTime (by assumption)
  | waiter i e =>
    simp only [step] at taken
    split at taken
    · split at taken
      · obtain ⟨w',acts,rfl⟩ := Option.map_eq_some_iff.mp taken
        exact .waiter i e _ w' _ (by assumption) (by assumption) acts
      · cases taken
    · cases taken

end Dbos.Notifications
