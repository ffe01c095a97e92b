import Dbos.PayloadQueue

/-!
The life of a `DBTrigger` around its queue: `initialize` and `destroy` in `packages/pgnotifier-receive/src/dbtrigger.ts`. Launches and
shutdowns of DBOS follow one another, `initialize` starts the dispatch loop after its catch-up and `destroy` awaits the loops, so that none
is there when the next catch-up runs; this is what keeps notifications back when the flag of the queue does not.
-/
namespace Dbos.TriggerLife
open Dbos.Pg Dbos.PayloadQueue

section
variable {α : Type}

/-- Where a `DBTrigger` stands: it is not initialized; `initialize` is at its catch-up; `initialize` has returned; `destroy` awaits the
    dispatch loops. -/
inductive Life
  | down
  | starting
  | up
  | stopping
  deriving DecidableEq

/-- The trigger with the number of its dispatch loops that have not ended. -/
structure DBTrigger (α : Type) where
  payloadQ : System α := {}
  life : Life := .down
  dispatchLoops : Nat := 0

/-- Rows come from catch-up queries and from polls. -/
inductive TriggerEvent (α : Type)
  | initializeStarts
  | row (payload : α)
  | notification (payload : α)
  | initializeEnds
  | dequeue
  | loopEnds
  | destroy
  | destroyed

section
variable (hasAnyTrigger hasAnyPoller : Bool)

/-- The call of the queue that an event makes. -/
def TriggerEvent.queued : TriggerEvent α → Option (Event α)
  | .initializeStarts => some .restart
  | .row payload => some (.enqueueCatchup payload)
  | .notification payload => some (.enqueueNotify payload)
  | .initializeEnds => if hasAnyTrigger then some .finishCatchup else none
  | .dequeue => some .dequeue
  | .destroy => some .stop
  | .loopEnds | .destroyed => none

/-- The rest of an event. The first dispatch loop is started after `finishCatchup`, and a launch follows a shutdown. -/
def DBTrigger.proceed (t : DBTrigger α) : TriggerEvent α → Option (DBTrigger α)
  | .initializeStarts => if t.life = .down then some { t with life := .starting } else none
  | .row _ => some t
  | .notification _ => if hasAnyTrigger then some t else none
  | .initializeEnds =>
    if t.life = .starting then
      some { t with life := .up,dispatchLoops := if hasAnyTrigger || hasAnyPoller then t.dispatchLoops + 1 else t.dispatchLoops }
    else none
  | .dequeue => if 0 < t.dispatchLoops then some t else none
  | .loopEnds => if 0 < t.dispatchLoops then some { t with dispatchLoops := t.dispatchLoops - 1 } else none
  | .destroy => some { t with life := .stopping }
  | .destroyed => if t.life = .stopping ∧ t.dispatchLoops = 0 then some { t with life := .down } else none

def DBTrigger.step (t : DBTrigger α) (e : TriggerEvent α) : Option (DBTrigger α) :=
  (t.proceed hasAnyTrigger hasAnyPoller e).map fun t' => { t' with payloadQ := (e.queued hasAnyTrigger).elim t.payloadQ t.payloadQ.next }

end

/-- While a trigger starts, nobody waits; when it is up, its catch-up has ended; without listeners no notification is ever stored. -/
structure Calm (hasAnyTrigger : Bool) (t : DBTrigger α) : Prop where
  sound : Sound t.payloadQ
  down : t.life = .down ∨ t.life = .starting → t.dispatchLoops = 0 ∧ t.payloadQ.queue.waiting = []
  up : t.life = .up → hasAnyTrigger = true → t.payloadQ.catchingUp = false
  stopping : t.life = .stopping → t.payloadQ.queue.shutdown = true
  polled : hasAnyTrigger = false → t.payloadQ.queue.notifyPayloads = []

theorem calm_start (hasAnyTrigger : Bool) : Calm hasAnyTrigger ({} : DBTrigger α) where
  sound := sound_start
  down := fun _ => ⟨rfl,rfl⟩
  up := fun up => by cases up
  stopping := fun stopping => by cases stopping
  polled := fun _ => rfl

theorem enqueueCatchup_notifies {ρ : Type} (q : TriggerPayloadQueue α ρ) (tp : α) :
    (q.enqueueCatchup tp).1.notifyPayloads = q.notifyPayloads := by
  unfold TriggerPayloadQueue.enqueueCatchup
  cases q.waiting <;> rfl

theorem dequeue_notifies {ρ : Type} {q : TriggerPayloadQueue α ρ} (none_ : q.notifyPayloads = []) (resolve : ρ) :
    (q.dequeue resolve).1.notifyPayloads = [] := by
  unfold TriggerPayloadQueue.dequeue
  split
  · exact none_
  · split
    · exact none_
    · simp_all
    · exact none_

theorem Calm.step {hasAnyTrigger hasAnyPoller : Bool} {t t' : DBTrigger α} {e : TriggerEvent α} (calm : Calm hasAnyTrigger t)
    (taken : t.step hasAnyTrigger hasAnyPoller e = some t') : Calm hasAnyTrigger t' := by
  obtain ⟨u,proceeds,rfl⟩ := Option.map_eq_some_iff.mp taken
  cases e with
  | initializeStarts =>
    obtain ⟨down,rest⟩ := Option.ite_none_right_eq_some.mp proceeds
    cases rest
    exact {
      sound := calm.sound.next .restart
      down := fun _ => calm.down (.inl down)
      up := fun up => by cases up
      stopping := fun stopping => by cases stopping
      polled := calm.polled }
  | row payload =>
    cases proceeds
    have flags := next_flags t.payloadQ (.enqueueCatchup payload)
    exact {
      sound := calm.sound.next (.enqueueCatchup payload)
      down := by
        intro down
        obtain ⟨loops,waiting⟩ := calm.down down
        refine ⟨loops,?_⟩
        show (t.payloadQ.queue.enqueueCatchup _).1.waiting = []
        rw [TriggerPayloadQueue.enqueueCatchup_stored waiting]
        exact waiting
      up := calm.up
      stopping := fun stopping => (Prod.ext_iff.mp flags).2.trans (calm.stopping stopping)
      polled := fun polled => (enqueueCatchup_notifies _ _).trans (calm.polled polled) }
  | notification payload =>
    obtain ⟨listens,rest⟩ := Option.ite_none_right_eq_some.mp proceeds
    cases rest
    have flags := next_flags t.payloadQ (.enqueueNotify payload)
    exact {
      sound := calm.sound.next (.enqueueNotify payload)
      down := by
        intro down
        obtain ⟨loops,waiting⟩ := calm.down down
        refine ⟨loops,?_⟩
        show (t.payloadQ.queue.enqueueNotify _).1.waiting = []
        rw [TriggerPayloadQueue.enqueueNotify_stored fun waits => absurd waiting waits]
        exact waiting
      up := calm.up
      stopping := fun stopping => (Prod.ext_iff.mp flags).2.trans (calm.stopping stopping)
      polled := by
        intro polled
        rw [listens] at polled
        cases polled }
  | initializeEnds =>
    obtain ⟨starting,rest⟩ := Option.ite_none_right_eq_some.mp proceeds
    cases rest
    cases hasAnyTrigger with
    | true => exact {
        sound := calm.sound.next .finishCatchup
        down := by rintro (down | starts) <;> contradiction
        up := fun _ _ => rfl
        stopping := fun stopping => by cases stopping
        polled := fun polled => by cases polled }
    | false => exact {
        sound := calm.sound
        down := by rintro (down | starts) <;> contradiction
        up := fun _ listens => by cases listens
        stopping := fun stopping => by cases stopping
        polled := calm.polled }
  | dequeue =>
    obtain ⟨loops,rest⟩ := Option.ite_none_right_eq_some.mp proceeds
    cases rest
    have flags := next_flags t.payloadQ .dequeue
    exact {
      sound := calm.sound.next .dequeue
      down := by
        intro down
        have none_ := (calm.down down).1
        omega
      up := calm.up
      stopping := fun stopping => (Prod.ext_iff.mp flags).2.trans (calm.stopping stopping)
      polled := fun polled => dequeue_notifies (calm.polled polled) _ }
  | loopEnds =>
    obtain ⟨loops,rest⟩ := Option.ite_none_right_eq_some.mp proceeds
    cases rest
    exact {
      sound := calm.sound
      down := by
        intro down
        have none_ := (calm.down down).1
        omega
      up := calm.up
      stopping := calm.stopping
      polled := calm.polled }
  | destroy =>
    cases proceeds
    exact {
      sound := calm.sound.next .stop
      down := by rintro (down | starts) <;> contradiction
      up := fun up => by cases up
      stopping := fun _ => rfl
      polled := calm.polled }
  | destroyed =>
    obtain ⟨⟨stopping,loops⟩,rest⟩ := Option.ite_none_right_eq_some.mp proceeds
    cases rest
    exact {
      sound := calm.sound
      down := fun _ => ⟨loops,calm.sound.ready.closed (calm.stopping stopping)⟩
      up := fun up => by cases up
      stopping := fun stopping => by cases stopping
      polled := calm.polled }

/-- The calls of a trigger never meet the flag that a restart leaves. -/
theorem Calm.untouched {hasAnyTrigger hasAnyPoller : Bool} {t t' : DBTrigger α} {e : TriggerEvent α} {e' : Event α}
    (calm : Calm hasAnyTrigger t) (taken : t.step hasAnyTrigger hasAnyPoller e = some t') (calls : e.queued hasAnyTrigger = some e') :
    Untouched t.payloadQ e' := by
  obtain ⟨u,proceeds,rfl⟩ := Option.map_eq_some_iff.mp taken
  intro catching finished
  cases e with
  | notification payload =>
    cases calls
    obtain ⟨listens,_⟩ := Option.ite_none_right_eq_some.mp proceeds
    show t.payloadQ.queue.waiting = []
    cases life : t.life with
    | down => exact (calm.down (.inl life)).2
    | starting => exact (calm.down (.inr life)).2
    | up =>
      rw [calm.up life listens] at catching
      cases catching
    | stopping => exact calm.sound.ready.closed (calm.stopping life)
  | dequeue =>
    cases calls
    obtain ⟨loops,_⟩ := Option.ite_none_right_eq_some.mp proceeds
    rintro ⟨running,_,some_⟩
    cases life : t.life with
    | down =>
      have none_ := (calm.down (.inl life)).1
      omega
    | starting =>
      have none_ := (calm.down (.inr life)).1
      omega
    | up =>
      cases hasAnyTrigger with
      | true =>
        rw [calm.up life rfl] at catching
        cases catching
      | false => exact some_ (calm.polled rfl)
    | stopping =>
      rw [calm.stopping life] at running
      cases running
  | initializeEnds =>
    cases hasAnyTrigger with
    | true =>
      cases calls
      trivial
    | false => cases calls
  | initializeStarts | row _ | destroy =>
    cases calls
    trivial
  | loopEnds | destroyed => cases calls

/-- A trigger that is launched and shut down in turn holds its notifications back: its first loop starts after the catch-up, and
    `destroy` awaits the loops. -/
theorem trigger_holdsBack (hasAnyTrigger hasAnyPoller : Bool) (events : List (TriggerEvent α)) :
    Along (DBTrigger.step hasAnyTrigger hasAnyPoller)
      (fun t e => ∀ e',e.queued hasAnyTrigger = some e' → (t.step hasAnyTrigger hasAnyPoller e).isSome → HoldsBack t.payloadQ e')
      ({} : DBTrigger α) events := by
  refine along_iff.mpr ?_
  intro first e rest t _ run e' calls taken
  have calm : Calm hasAnyTrigger t := runs_invariant (fun _ _ _ calm taken => calm.step taken) (calm_start hasAnyTrigger) run
  obtain ⟨t',next⟩ := Option.isSome_iff_exists.mp taken
  exact (holdsBack_iff calm.sound e').mpr (calm.untouched next calls)

end

end Dbos.TriggerLife
