import Dbos.Crontab
import Dbos.Ops
import Dbos.Pg.Fields

/-!
Scheduled workflows: `backfillSchedule`, `#scheduleLoop` and the polling loop of `src/scheduler/scheduler.ts`. A firing of a
schedule is a second that matches it, and its workflow has the date of the firing in its ID. Backfills, scheduler
processes and everything else that writes `workflow_status` run beside each other; an enqueue can fail, also after it
has taken effect. A live loop starts at a whole second, a backfill at the instant it is given.
-/
namespace Dbos.Scheduler
open Dbos.Pg Dbos.Schema Dbos.Status Dbos.Start Dbos.Ops Dbos.Crontab StatusString

/-- A schedule. `toISOString` writes the milliseconds of a date; `input` is `serializeArgs([scheduledDate, context])`. -/
structure Schedule where
  scheduleName : String
  workflowName : String
  workflowClassName : String := ""
  queueName : Option String := none
  matcher : TimeMatcher
  toISOString : Int → String
  distinct : ∀ a b, toISOString a = toISOString b → a = b
  input : Int → Option String × Option String

variable (sched : Schedule)

def Schedule.workflowID (date : Int) : String := s!"sched-{sched.scheduleName}-{sched.toISOString date}"

theorem workflowID_injective {a b : Int} (same : sched.workflowID a = sched.workflowID b) : a = b := by
  refine sched.distinct a b ?_
  have texts := congrArg String.toList same
  simp only [Schedule.workflowID,toString,String.toList_append] at texts
  exact String.toList_inj.mp (List.append_cancel_left texts)

/-- The status that `enqueueScheduledWorkflow` builds; `sched.queueName || INTERNAL_QUEUE_NAME`. -/
def scheduledStatus (date : Int) (latestVersion : String) (now : Int) : WorkflowStatusInternal where
  workflowUUID := sched.workflowID date
  status := ENQUEUED
  workflowName := sched.workflowName
  workflowClassName := sched.workflowClassName
  applicationVersion := some latestVersion
  queueName := some (if truthy sched.queueName then sched.queueName.getD "" else INTERNAL_QUEUE_NAME)
  executorId := ""
  createdAt := now
  input := (sched.input date).1
  serialization := (sched.input date).2
  scheduleName := some sched.scheduleName

/-- The operation of `enqueueScheduledWorkflow` on the table. -/
def enqueueOp (date : Int) (latestVersion : String) (now : Int) : Op :=
  .initWorkflowStatus ⟨scheduledStatus sched date latestVersion now,by
    refine ⟨?_,?_,?_,?_⟩ <;> intro given <;> first | rfl | cases given⟩ none {} now

/-! ### A backfill by itself -/

/-- One iteration of the loop of `backfillSchedule`. -/
inductive Iteration
  | stop
  | skip (next : Int)
  | enqueue (next : Int)

def iteration (m : TimeMatcher) (end_ current : Int) : Iteration :=
  if current < end_ then
    let next := m.nextWakeupTime current
    if m.match_ next = false then .skip next
    else if end_ ≤ next then .stop
    else .enqueue next
  else .stop

/-- The dates that the loop enqueues from `current` on, in at most `fuel` iterations. -/
def backfillDates (m : TimeMatcher) (end_ : Int) : Nat → Int → List Int
  | 0,_ => []
  | fuel + 1,current =>
    match iteration m end_ current with
    | .stop => []
    | .skip next => backfillDates m end_ fuel next
    | .enqueue next => next :: backfillDates m end_ fuel next

/-- `backfillSchedule`: what it returns when no enqueue fails. -/
def backfillSchedule (start end_ : Int) : List String :=
  (backfillDates sched.matcher end_ (end_ - start).toNat start).map sched.workflowID

/-- What an iteration does: nothing matches between `current` and the instant it comes to, and it stops only when
    nothing is left. -/
inductive Iterates (m : TimeMatcher) (end_ current : Int) : Iteration → Prop
  | stop (rest : ∀ t, current < t → t < end_ → t % 1000 = current % 1000 → m.match_ t = false) : Iterates m end_ current .stop
  | skip (next : Int) (wakes : Wakes m current next) (before : current < end_) (idle : m.match_ next = false) :
      Iterates m end_ current (.skip next)
  | enqueue (next : Int) (wakes : Wakes m current next) (inside : next < end_) (fires : m.match_ next = true) :
      Iterates m end_ current (.enqueue next)

theorem iteration_iterates (m : TimeMatcher) (end_ current : Int) : Iterates m end_ current (iteration m end_ current) := by
  have wakes := nextWakeupTime_wakes (m := m) current
  unfold iteration
  by_cases before : current < end_
  · rw [if_pos before]
    dsimp only
    by_cases idle : m.match_ (m.nextWakeupTime current) = false
    · rw [if_pos idle]
      exact .skip _ wakes before idle
    · rw [if_neg idle]
      by_cases past : end_ ≤ m.nextWakeupTime current
      · rw [if_pos past]
        exact .stop fun t after inside phase => wakes.skipped t after (by omega) phase
      · rw [if_neg past]
        exact .enqueue _ wakes (by omega) (by simpa using idle)
  · rw [if_neg before]
    exact .stop fun t after inside phase => by omega

/-- A backfill enqueues the instants that match, at a distance of whole seconds from its start. -/
theorem mem_backfillDates {m : TimeMatcher} {end_ date : Int} {fuel : Nat} {current : Int} (enough : end_ - current ≤ fuel) :
    date ∈ backfillDates m end_ fuel current ↔
      current < date ∧ date < end_ ∧ date % 1000 = current % 1000 ∧ m.match_ date = true := by
  induction fuel generalizing current with
  | zero =>
    simp only [backfillDates,List.not_mem_nil,false_iff]
    rintro ⟨after,before,_⟩
    omega
  | succ fuel ih =>
    have iterates := iteration_iterates m end_ current
    simp only [backfillDates]
    generalize iteration m end_ current = i at iterates
    cases iterates with
    | stop rest =>
      simp only [List.not_mem_nil,false_iff]
      rintro ⟨after,before,phase,fires⟩
      rw [rest date after before phase] at fires
      cases fires
    | skip next wakes before idle =>
      have later := wakes.later
      have phase := wakes.phase
      rw [ih (by omega)]
      constructor
      · rintro ⟨after,inside,same,fires⟩
        exact ⟨by omega,inside,by omega,fires⟩
      · rintro ⟨after,inside,same,fires⟩
        refine ⟨?_,inside,by omega,fires⟩
        by_contra early
        by_cases here : date = next
        · rw [here,idle] at fires
          cases fires
        · rw [wakes.skipped date after (by omega) same] at fires
          cases fires
    | enqueue next wakes inside fires =>
      have later := wakes.later
      have phase := wakes.phase
      rw [List.mem_cons,ih (by omega)]
      constructor
      · rintro (rfl | ⟨after,inside,same,fires⟩)
        · exact ⟨by omega,inside,phase,fires⟩
        · exact ⟨by omega,inside,by omega,fires⟩
      · rintro ⟨after,before,same,matches_⟩
        by_cases here : date = next
        · exact .inl here
        · refine .inr ⟨?_,before,by omega,matches_⟩
          by_contra early
          rw [wakes.skipped date after (by omega) same] at matches_
          cases matches_

/-- A firing of the schedule: a second that matches. -/
def Firing (t : Int) : Prop := t % 1000 = 0 ∧ sched.matcher.match_ t = true

instance (t : Int) : Decidable (Firing sched t) := inferInstanceAs (Decidable (_ ∧ _))

/-- The start of a window is a whole second, unless there is nothing to fire in the window. -/
def Aligned (start end_ : Int) : Prop := start % 1000 = 0 ∨ ∀ t, start < t → t < end_ → ¬ Firing sched t

/-- An instant that matches lies in a second that fires. -/
theorem firing_secondOf {date : Int} (fires : sched.matcher.match_ date = true) : Firing sched (secondOf date) :=
  ⟨secondOf_whole date,(match_secondOf date).trans fires⟩

/-- In an aligned window, what a backfill comes to at a distance of whole seconds from its start is a firing. -/
theorem firing_of_aligned {start end_ date : Int} (aligned : Aligned sched start end_) (later : start + 1000 ≤ date)
    (inside : date < end_) (phase : date % 1000 = start % 1000) (fires : sched.matcher.match_ date = true) : Firing sched date := by
  rcases aligned with whole | idle
  · exact ⟨by omega,fires⟩
  · have before := secondOf_le date
    have after : start < secondOf date := by
      unfold secondOf
      omega
    exact absurd (firing_secondOf sched fires) (idle _ after (by omega))

/-- What a backfill of a window is meant to enqueue: every ID is the one of a firing, and every firing has its ID. -/
structure NamesFirings (start end_ : Int) : Prop where
  named : ∀ date ∈ backfillDates sched.matcher end_ (end_ - start).toNat start, sched.workflowID date = sched.workflowID (secondOf date)
  complete : ∀ t, start < t → t < end_ → Firing sched t → sched.workflowID t ∈ backfillSchedule sched start end_

theorem namesFirings_iff (start end_ : Int) : NamesFirings sched start end_ ↔ Aligned sched start end_ := by
  have enough : end_ - start ≤ ((end_ - start).toNat : Int) := Int.self_le_toNat _
  constructor
  · rintro ⟨_,complete⟩
    by_cases whole : start % 1000 = 0
    · exact .inl whole
    · refine .inr ?_
      intro t after before firing
      -- the firing is named after a date of the backfill, and those are not whole seconds
      obtain ⟨date,listed,same⟩ := List.mem_map.mp (complete t after before firing)
      obtain ⟨_,_,phase,_⟩ := (mem_backfillDates enough).mp listed
      have equal : date = t := workflowID_injective sched same
      have second := firing.1
      omega
  · intro aligned
    constructor
    · intro date listed
      obtain ⟨after,before,phase,fires⟩ := (mem_backfillDates enough).mp listed
      have firing := firing_of_aligned sched aligned (by omega) before phase fires
      rw [secondOf_eq_self.mpr firing.1]
    · intro t after before firing
      rcases aligned with whole | idle
      · have listed := (mem_backfillDates enough).mpr ⟨after,before,by have := firing.1; omega,firing.2⟩
        exact List.mem_map.mpr ⟨t,listed,rfl⟩
      · exact absurd firing (idle t after before)

/-! ### Backfills and live loops beside each other -/

/-- Where a backfill or a scheduler process stands. A process has `listed` the schedule; a `backfill` has come to `current`,
    and the one of a process (`polled`) is followed by its live loop, however it ends. `due` has slept until its firing,
    `missing` has found no workflow. -/
inductive Phase
  | listed (lastFiredAt : Option Int)
  | backfill (start end_ current : Int) (polled : Bool)
  | polled (lastFired now : Int)
  | live (lastExec : Int)
  | due (nextExec : Int)
  | missing (nextExec : Int)
  | enqueued (nextExec : Int)
  | stopped
  deriving DecidableEq

/-- A row that was created: its date and the window of the backfill, `none` for a live loop. -/
structure Created where
  date : Int
  window : Option (Int × Int)
  deriving DecidableEq

/-- `windows` are those of the backfills that have come to their end. -/
structure System where
  table : Statuses := Table.empty
  lastFiredAt : Option Int := none
  loops : List Phase := []
  created : List Created := []
  windows : List (Int × Int) := []

/-- An enqueue is sent, and its success is seen or not; or it fails before. -/
inductive Attempt
  | sent (latestVersion : String) (now : Int) (acknowledged : Bool)
  | failed

/-- `now` is the clock that is read. `existing` and `update` are given whether the statement fails. -/
inductive Event
  | backfillSchedule (start end_ : Int)
  | listSchedules
  | poll (i : Nat) (now : Int)
  | iterate (i : Nat) (attempt : Attempt)
  | startLoop (i : Nat) (now : Int)
  | wake (i : Nat)
  | existing (i : Nat) (fails : Bool)
  | enqueue (i : Nat) (attempt : Attempt)
  | update (i : Nat) (fails : Bool)
  | stop (i : Nat)
  | other (op : Op)

/-- The workflow of the firing is there. -/
def System.Has (s : System) (date : Int) : Prop := (s.table.get? (sched.workflowID date)).isSome

instance (s : System) (date : Int) : Decidable (s.Has sched date) := inferInstanceAs (Decidable (_ = true))

/-- `enqueueScheduledWorkflow`, and whether it returns. -/
def System.enqueue (s : System) (window : Option (Int × Int)) (date : Int) : Attempt → Bool × System
  | .failed => (false,s)
  | .sent latestVersion now acknowledged =>
    let result := initWorkflowStatus s.table (scheduledStatus sched date latestVersion now) none {} now
    let s' := { s with table := result.2 }
    (result.1.isOk && acknowledged,
      if ¬ s.Has sched date ∧ s'.Has sched date then { s' with created := s.created ++ [⟨date,window⟩] } else s')

def System.move (s : System) (i : Nat) (phase : Phase) : System := { s with loops := s.loops.set i phase }

/-- Where a backfill goes on when its loop has ended or an enqueue has thrown. -/
def afterBackfill (start end_ : Int) (polled : Bool) : Phase := if polled then .polled start end_ else .stopped

/-- One iteration of a backfill. -/
def System.iterate (s : System) (i : Nat) (start end_ current : Int) (polled : Bool) (attempt : Attempt) : System :=
  match iteration sched.matcher end_ current with
  | .stop => { s with windows := s.windows ++ [(start,end_)] }.move i (afterBackfill start end_ polled)
  | .skip next => s.move i (.backfill start end_ next polled)
  | .enqueue next =>
    let (done,s') := s.enqueue sched (some (start,end_)) next attempt
    s'.move i (if done then .backfill start end_ next polled else afterBackfill start end_ polled)

/-- A schedule with `automaticBackfill`: `if (sched.lastFiredAt)` and `if (lastFired < now)`. -/
def pollPhase (lastFiredAt : Option Int) (now : Int) : Phase :=
  match lastFiredAt with
  | some lastFired => if lastFired < now then .backfill lastFired now lastFired true else .polled lastFired now
  | none => .polled now now

def step (s : System) : Event → Option System
  | .backfillSchedule start end_ => some { s with loops := s.loops ++ [.backfill start end_ start false] }
  | .listSchedules => some { s with loops := s.loops ++ [.listed s.lastFiredAt] }
  | .poll i now =>
    match s.loops[i]? with
    | some (.listed lastFiredAt) => some (s.move i (pollPhase lastFiredAt now))
    | _ => none
  | .iterate i attempt =>
    match s.loops[i]? with
    | some (.backfill start end_ current polled) => some (s.iterate sched i start end_ current polled attempt)
    | _ => none
  | .startLoop i now =>
    match s.loops[i]? with
    | some (.polled _ _) => some (s.move i (.live (secondOf now)))
    | _ => none
  | .wake i =>
    match s.loops[i]? with
    | some (.live lastExec) =>
      let nextExec := sched.matcher.nextWakeupTime lastExec
      some (s.move i (if sched.matcher.match_ nextExec then .due nextExec else .live nextExec))
    | _ => none
  | .existing i fails =>
    match s.loops[i]? with
    | some (.due nextExec) =>
      some (s.move i (if fails = true ∨ s.Has sched nextExec then .live nextExec else .missing nextExec))
    | _ => none
  | .enqueue i attempt =>
    match s.loops[i]? with
    | some (.missing nextExec) =>
      let (done,s') := s.enqueue sched none nextExec attempt
      some (s'.move i (if done then .enqueued nextExec else .live nextExec))
    | _ => none
  | .update i fails =>
    match s.loops[i]? with
    | some (.enqueued nextExec) =>
      some ({ s with lastFiredAt := if fails then s.lastFiredAt else some nextExec }.move i (.live nextExec))
    | _ => none
  | .stop i =>
    match s.loops[i]? with
    | some _ => some (s.move i .stopped)
    | none => none
  -- a row that is deleted would be a firing again, so that nobody deletes workflows here
  | .other op => if keepsRows op = true then some { s with table := op.apply s.table } else none

/-! ### Steps and rows -/

variable {sched}

/-- An enqueue keeps the rows, creates at most the one of its date, and has it when it returns. -/
structure Enqueues (sched : Schedule) (s : System) (window : Option (Int × Int)) (date : Int) (result : Bool × System) : Prop where
  keeps : ∀ k, (s.table.get? k).isSome → (result.2.table.get? k).isSome
  there : result.1 = true → result.2.Has sched date
  created : result.2.created = s.created ∨
    (result.2.created = s.created ++ [⟨date,window⟩] ∧ ¬ s.Has sched date ∧ result.2.Has sched date)
  loops : result.2.loops = s.loops
  windows : result.2.windows = s.windows
  lastFiredAt : result.2.lastFiredAt = s.lastFiredAt

theorem enqueue_enqueues (s : System) (window : Option (Int × Int)) (date : Int) (attempt : Attempt) :
    Enqueues sched s window date (s.enqueue sched window date attempt) := by
  cases attempt with
  | failed => exact ⟨fun _ there => there,by simp [System.enqueue],.inl rfl,rfl,rfl,rfl⟩
  | sent latestVersion now acknowledged =>
    have keeps : ∀ k, (s.table.get? k).isSome →
        ((initWorkflowStatus s.table (scheduledStatus sched date latestVersion now) none {} now).2.get? k).isSome :=
      fun k there => apply_keeps (enqueueOp sched date latestVersion now) rfl there
    have there : (initWorkflowStatus s.table (scheduledStatus sched date latestVersion now) none {} now).1.isOk = true →
        ((initWorkflowStatus s.table (scheduledStatus sched date latestVersion now) none {} now).2.get? (sched.workflowID date)).isSome := by
      intro done
      cases result : (initWorkflowStatus s.table (scheduledStatus sched date latestVersion now) none {} now).1 with
      | ok r => exact init_there result
      | error e =>
        rw [result] at done
        cases done
    simp only [System.enqueue]
    split
    · rename_i new
      refine ⟨keeps,?_,.inr ⟨rfl,new.1,new.2⟩,rfl,rfl,rfl⟩
      intro done
      exact there (by simpa using (Bool.and_eq_true _ _ ▸ done : _ ∧ _).1)
    · refine ⟨keeps,?_,.inl rfl,rfl,rfl,rfl⟩
      intro done
      exact there (by simpa using (Bool.and_eq_true _ _ ▸ done : _ ∧ _).1)

/-- Everything that an event does. -/
inductive Moves (sched : Schedule) (s : System) : Event → System → Prop
  | backfillSchedule (start end_ : Int) :
      Moves sched s (.backfillSchedule start end_) { s with loops := s.loops ++ [.backfill start end_ start false] }
  | listSchedules : Moves sched s .listSchedules { s with loops := s.loops ++ [.listed s.lastFiredAt] }
  | poll {i : Nat} {now : Int} {lastFiredAt : Option Int} : s.loops[i]? = some (.listed lastFiredAt) →
      Moves sched s (.poll i now) (s.move i (pollPhase lastFiredAt now))
  | iterate {i : Nat} {attempt : Attempt} {start end_ current : Int} {polled : Bool} :
      s.loops[i]? = some (.backfill start end_ current polled) →
      Moves sched s (.iterate i attempt) (s.iterate sched i start end_ current polled attempt)
  | startLoop {i : Nat} {now lastFired polled : Int} : s.loops[i]? = some (.polled lastFired polled) →
      Moves sched s (.startLoop i now) (s.move i (.live (secondOf now)))
  | wake {i : Nat} {lastExec : Int} : s.loops[i]? = some (.live lastExec) →
      Moves sched s (.wake i) (s.move i
        (if sched.matcher.match_ (sched.matcher.nextWakeupTime lastExec) then .due (sched.matcher.nextWakeupTime lastExec)
          else .live (sched.matcher.nextWakeupTime lastExec)))
  | existing {i : Nat} {fails : Bool} {nextExec : Int} : s.loops[i]? = some (.due nextExec) →
      Moves sched s (.existing i fails)
        (s.move i (if fails = true ∨ s.Has sched nextExec then .live nextExec else .missing nextExec))
  | enqueue {i : Nat} {attempt : Attempt} {nextExec : Int} : s.loops[i]? = some (.missing nextExec) →
      Moves sched s (.enqueue i attempt) ((s.enqueue sched none nextExec attempt).2.move i
        (if (s.enqueue sched none nextExec attempt).1 then .enqueued nextExec else .live nextExec))
  | update {i : Nat} {fails : Bool} {nextExec : Int} : s.loops[i]? = some (.enqueued nextExec) →
      Moves sched s (.update i fails)
        ({ s with lastFiredAt := if fails then s.lastFiredAt else some nextExec }.move i (.live nextExec))
  | stop (i : Nat) : Moves sched s (.stop i) (s.move i .stopped)
  | other {op : Op} : keepsRows op = true → Moves sched s (.other op) { s with table := op.apply s.table }

theorem step_moves {s s' : System} {e : Event} (taken : step sched s e = some s') : Moves sched s e s' := by
  cases e with
  | backfillSchedule start end_ => cases taken; exact .backfillSchedule start end_
  | listSchedules => cases taken; exact .listSchedules
  | poll i now =>
    simp only [step] at taken
    split at taken
    · rename_i found
      cases taken
      exact .poll found
    · cases taken
  | iterate i attempt =>
    simp only [step] at taken
    split at taken
    · rename_i found
      cases taken
      exact .iterate found
    · cases taken
  | startLoop i now =>
    simp only [step] at taken
    split at taken
    · rename_i found
      cases taken
      exact .startLoop found
    · cases taken
  | wake i =>
    simp only [step] at taken
    split at taken
    · rename_i found
      cases taken
      exact .wake found
    · cases taken
  | existing i fails =>
    simp only [step] at taken
    split at taken
    · rename_i found
      cases taken
      exact .existing found
    · cases taken
  | enqueue i attempt =>
    simp only [step] at taken
    split at taken
    · rename_i found
      cases taken
      exact .enqueue found
    · cases taken
  | update i fails =>
    simp only [step] at taken
    split at taken
    · rename_i found
      cases taken
      exact .update found
    · cases taken
  | stop i =>
    simp only [step] at taken
    split at taken
    · cases taken
      exact .stop i
    · cases taken
  | other op =>
    simp only [step] at taken
    split at taken
    · rename_i keeps
      cases taken
      exact .other keeps
    · cases taken

/-- The rows that are there stay there. -/
theorem step_keeps {s s' : System} {e : Event} (taken : step sched s e = some s') (date : Int) (there : s.Has sched date) :
    s'.Has sched date := by
  cases step_moves taken with
  | @iterate i attempt start end_ current polled found =>
    simp only [System.iterate]
    split
    · exact there
    · exact there
    · exact (enqueue_enqueues s _ _ attempt).keeps _ there
  | @enqueue i attempt nextExec found => exact (enqueue_enqueues s none nextExec attempt).keeps _ there
  | @other op keeps => exact apply_keeps op keeps there
  | _ => exact there

/-! ### Every firing once -/

/-- The firing that a live loop is at. -/
def Phase.firing : Phase → Option Int
  | .due nextExec => some nextExec
  | .missing nextExec => some nextExec
  | .enqueued nextExec => some nextExec
  | _ => none

/-- Each firing of a window that was backfilled has its workflow, and what was created are workflows of firings, one for
    each; those are the firings that live loops come to. -/
structure OneEach (sched : Schedule) (s : System) : Prop where
  each : ∀ window ∈ s.windows, ∀ t, window.1 < t → t < window.2 → Firing sched t → s.Has sched t
  named : ∀ c ∈ s.created, Firing sched c.date ∧ ∀ window ∈ c.window, window.1 < c.date ∧ c.date < window.2
  once : (s.created.map Created.date).Nodup
  live : ∀ phase ∈ s.loops, ∀ t ∈ phase.firing, Firing sched t

/-- The window of a backfill that begins is aligned. -/
def AlignedWindow (sched : Schedule) (s : System) : Event → Prop
  | .backfillSchedule start end_ => Aligned sched start end_
  | .poll i now => ∀ lastFired, s.loops[i]? = some (.listed (some lastFired)) → lastFired < now → Aligned sched lastFired now
  | _ => True

/-- What holds of a loop: a backfill has enqueued what lies before `current`, a live loop is at a whole second. -/
def Orderly (sched : Schedule) (s : System) : Phase → Prop
  | .backfill start end_ current _ =>
    Aligned sched start end_ ∧ start ≤ current ∧ current % 1000 = start % 1000 ∧
      ∀ t, start < t → t ≤ current → t < end_ → Firing sched t → s.Has sched t
  | .live lastExec => lastExec % 1000 = 0
  | .due nextExec => Firing sched nextExec
  | .missing nextExec => Firing sched nextExec
  | .enqueued nextExec => Firing sched nextExec
  | .listed _ => True
  | .polled _ _ => True
  | .stopped => True

theorem Orderly.mono {s s' : System} {phase : Phase} (orderly : Orderly sched s phase)
    (keeps : ∀ t, s.Has sched t → s'.Has sched t) : Orderly sched s' phase := by
  cases phase with
  | backfill start end_ current polled =>
    obtain ⟨window,begun,phase,covered⟩ := orderly
    exact ⟨window,begun,phase,fun t after upTo inside firing => keeps t (covered t after upTo inside firing)⟩
  | _ => exact orderly

theorem Orderly.after (s : System) (start end_ : Int) (polled : Bool) : Orderly sched s (afterBackfill start end_ polled) := by
  cases polled <;> trivial

structure Good (sched : Schedule) (s : System) : Prop where
  each : ∀ window ∈ s.windows, ∀ t, window.1 < t → t < window.2 → Firing sched t → s.Has sched t
  named : ∀ c ∈ s.created, Firing sched c.date ∧ ∀ window ∈ c.window, window.1 < c.date ∧ c.date < window.2
  once : (s.created.map Created.date).Nodup
  there : ∀ c ∈ s.created, s.Has sched c.date
  orderly : ∀ phase ∈ s.loops, Orderly sched s phase

theorem Good.oneEach {s : System} (good : Good sched s) : OneEach sched s := by
  refine ⟨good.each,good.named,good.once,?_⟩
  intro phase listed t at_
  have orderly := good.orderly phase listed
  cases phase with
  | due | missing | enqueued =>
    cases at_
    exact orderly
  | _ => cases at_

/-- A loop goes on, and nothing else changes. -/
theorem Good.move {s : System} (good : Good sched s) (i : Nat) {phase : Phase} (orderly : Orderly sched s phase) :
    Good sched (s.move i phase) :=
  ⟨good.each,good.named,good.once,good.there,all_set good.orderly orderly i⟩

/-- An enqueue of a firing in its window. -/
theorem Good.enqueue {s : System} (good : Good sched s) (window : Option (Int × Int)) {date : Int} (firing : Firing sched date)
    (inside : ∀ w ∈ window, w.1 < date ∧ date < w.2) (attempt : Attempt) : Good sched (s.enqueue sched window date attempt).2 := by
  have enqueues : Enqueues sched s window date _ := enqueue_enqueues s window date attempt
  generalize s.enqueue sched window date attempt = result at enqueues
  have keeps : ∀ t, s.Has sched t → result.2.Has sched t := fun t there => enqueues.keeps _ there
  constructor
  · rw [enqueues.windows]
    intro w listed t after before fires
    exact keeps t (good.each w listed t after before fires)
  · rcases enqueues.created with same | ⟨new,_,_⟩
    · rw [same]
      exact good.named
    · rw [new]
      intro c listed
      rcases List.mem_append.mp listed with old | added
      · exact good.named c old
      · cases List.mem_singleton.mp added
        exact ⟨firing,inside⟩
  · rcases enqueues.created with same | ⟨new,absent,_⟩
    · rw [same]
      exact good.once
    · rw [new,List.map_append,List.map_singleton,← List.concat_eq_append,List.nodup_concat]
      refine ⟨?_,good.once⟩
      intro old
      obtain ⟨c,listed,here⟩ := List.mem_map.mp old
      -- the row of a date that was created is still there
      have there := good.there c listed
      rw [here] at there
      exact absent there
  · rcases enqueues.created with same | ⟨new,_,present⟩
    · rw [same]
      exact fun c listed => keeps _ (good.there c listed)
    · rw [new]
      intro c listed
      rcases List.mem_append.mp listed with old | added
      · exact keeps _ (good.there c old)
      · cases List.mem_singleton.mp added
        exact present
  · rw [enqueues.loops]
    exact fun phase listed => (good.orderly phase listed).mono keeps

/-- What an iteration does in an aligned window: it comes to the next firing, or to an instant before which nothing fires. -/
inductive Progress (sched : Schedule) (end_ current : Int) : Iteration → Prop
  | stop (rest : ∀ t, current < t → t < end_ → ¬ Firing sched t) : Progress sched end_ current .stop
  | skip (next : Int) (later : current < next) (phase : next % 1000 = current % 1000)
      (quiet : ∀ t, current < t → t ≤ next → t < end_ → ¬ Firing sched t) : Progress sched end_ current (.skip next)
  | enqueue (next : Int) (later : current < next) (phase : next % 1000 = current % 1000) (inside : next < end_)
      (firing : Firing sched next) (quiet : ∀ t, current < t → t < next → ¬ Firing sched t) : Progress sched end_ current (.enqueue next)

theorem iteration_progress {start end_ current : Int} (window : Aligned sched start end_) (begun : start ≤ current)
    (phase : current % 1000 = start % 1000) : Progress sched end_ current (iteration sched.matcher end_ current) := by
  have iterates := iteration_iterates sched.matcher end_ current
  generalize iteration sched.matcher end_ current = it at iterates
  -- nothing fires in the window when it is not at whole seconds
  have idle : ∀ t, current < t → t < end_ → t % 1000 ≠ current % 1000 → ¬ Firing sched t := by
    intro t after before differ firing
    rcases window with whole | nothing
    · have second := firing.1
      omega
    · exact nothing t (by omega) before firing
  have skipped : ∀ {next}, Wakes sched.matcher current next → ∀ t, current < t → t < next → t < end_ → ¬ Firing sched t := by
    intro next wakes t after before inside firing
    by_cases same : t % 1000 = current % 1000
    · have fires := firing.2
      rw [wakes.skipped t after before same] at fires
      cases fires
    · exact idle t after inside same firing
  cases iterates with
  | stop rest =>
    refine .stop ?_
    intro t after before firing
    by_cases same : t % 1000 = current % 1000
    · have fires := firing.2
      rw [rest t after before same] at fires
      cases fires
    · exact idle t after before same firing
  | skip next wakes before nothing =>
    have later := wakes.later
    refine .skip next (by omega) wakes.phase ?_
    intro t after upTo inside firing
    by_cases here : t = next
    · have fires := firing.2
      rw [here,nothing] at fires
      cases fires
    · exact skipped wakes t after (by omega) inside firing
  | enqueue next wakes inside fires =>
    have later := wakes.later
    have same := wakes.phase
    have firing := firing_of_aligned sched window (by omega) inside (by omega) fires
    exact .enqueue next (by omega) same inside firing fun t after before => skipped wakes t after before (by omega)

/-- An iteration of a backfill. -/
theorem Good.iterate {s : System} (good : Good sched s) {i : Nat} {start end_ current : Int} {polled : Bool}
    (found : s.loops[i]? = some (.backfill start end_ current polled)) (attempt : Attempt) :
    Good sched (s.iterate sched i start end_ current polled attempt) := by
  obtain ⟨window,begun,phase,covered⟩ := good.orderly _ (List.mem_of_getElem? found)
  have progress := iteration_progress window begun phase
  simp only [System.iterate]
  generalize iteration sched.matcher end_ current = it at progress
  cases progress with
  | stop rest =>
    have done : Good sched { s with windows := s.windows ++ [(start,end_)] } := by
      refine ⟨?_,good.named,good.once,good.there,fun p listed => (good.orderly p listed).mono fun _ there => there⟩
      intro w listed t after before firing
      rcases List.mem_append.mp listed with old | added
      · exact good.each w old t after before firing
      · cases List.mem_singleton.mp added
        by_cases passed : t ≤ current
        · exact covered t after passed before firing
        · exact absurd firing (rest t (by omega) before)
    exact done.move i (.after _ _ _ _)
  | skip next later same quiet =>
    refine good.move i ⟨window,by omega,by omega,?_⟩
    intro t after upTo inside firing
    by_cases passed : t ≤ current
    · exact covered t after passed inside firing
    · exact absurd firing (quiet t (by omega) upTo inside)
  | enqueue next later same inside firing quiet =>
    have enqueued := good.enqueue (some (start,end_)) firing (by rintro w ⟨⟩; exact ⟨by omega,inside⟩) attempt
    have enqueues : Enqueues sched s (some (start,end_)) next _ := enqueue_enqueues s _ next attempt
    dsimp only
    generalize s.enqueue sched (some (start,end_)) next attempt = result at enqueued enqueues
    obtain ⟨done,s'⟩ := result
    refine enqueued.move i ?_
    cases done with
    | false => exact .after _ _ _ _
    | true =>
      refine ⟨window,by omega,by omega,?_⟩
      intro t after upTo before fires
      by_cases here : t = next
      · rw [here]
        exact enqueues.there rfl
      · by_cases passed : t ≤ current
        · exact enqueues.keeps _ (covered t after passed before fires)
        · exact absurd fires (quiet t (by omega) (by omega))

theorem Good.append {s : System} (good : Good sched s) {phase : Phase} (orderly : Orderly sched s phase) :
    Good sched { s with loops := s.loops ++ [phase] } := by
  refine ⟨good.each,good.named,good.once,good.there,?_⟩
  intro p listed
  rcases List.mem_append.mp listed with old | new
  · exact good.orderly p old
  · cases List.mem_singleton.mp new
    exact orderly

theorem step_good {s s' : System} {e : Event} (good : Good sched s) (aligns : AlignedWindow sched s e) (taken : step sched s e = some s') :
    Good sched s' := by
  have begins : ∀ start end_ polled, Aligned sched start end_ → Orderly sched s (.backfill start end_ start polled) :=
    fun start end_ polled window => ⟨window,Int.le_refl _,rfl,fun t after upTo => by omega⟩
  cases step_moves taken with
  | backfillSchedule start end_ => exact good.append (begins start end_ false aligns)
  | listSchedules => exact good.append trivial
  | @poll i now lastFiredAt found =>
    refine good.move i ?_
    unfold pollPhase
    split
    · rename_i lastFired
      split
      · rename_i before
        exact begins lastFired now true (aligns lastFired found before)
      · trivial
    · trivial
  | @iterate i attempt start end_ current polled found => exact good.iterate found attempt
  | @startLoop i now lastFired polled found => exact good.move i (secondOf_whole now)
  | @wake i lastExec found =>
    have whole : lastExec % 1000 = 0 := good.orderly _ (List.mem_of_getElem? found)
    have phase := (nextWakeupTime_wakes (m := sched.matcher) lastExec).phase
    refine good.move i ?_
    by_cases fires : sched.matcher.match_ (sched.matcher.nextWakeupTime lastExec) = true
    · rw [if_pos fires]
      exact ⟨by omega,fires⟩
    · rw [if_neg fires]
      exact phase.trans whole
  | @existing i fails nextExec found =>
    have firing : Firing sched nextExec := good.orderly _ (List.mem_of_getElem? found)
    refine good.move i ?_
    by_cases goesOn : fails = true ∨ s.Has sched nextExec
    · rw [if_pos goesOn]
      exact firing.1
    · rw [if_neg goesOn]
      exact firing
  | @enqueue i attempt nextExec found =>
    have firing : Firing sched nextExec := good.orderly _ (List.mem_of_getElem? found)
    refine (good.enqueue none firing (by rintro w ⟨⟩) attempt).move i ?_
    by_cases done : (s.enqueue sched none nextExec attempt).1 = true
    · rw [if_pos done]
      exact firing
    · rw [if_neg done]
      exact firing.1
  | @update i fails nextExec found =>
    have firing : Firing sched nextExec := good.orderly _ (List.mem_of_getElem? found)
    have stored : Good sched { s with lastFiredAt := if fails then s.lastFiredAt else some nextExec } :=
      ⟨good.each,good.named,good.once,good.there,fun p listed => (good.orderly p listed).mono fun _ there => there⟩
    exact stored.move i firing.1
  | stop i => exact good.move i trivial
  | @other op keepsOp =>
    have keeps := step_keeps taken
    exact ⟨fun w listed t after before firing => keeps t (good.each w listed t after before firing),good.named,good.once,
      fun c listed => keeps _ (good.there c listed),fun p listed => (good.orderly p listed).mono keeps⟩

/-- A backfill names all firings of its window as the live loop does exactly when the window is aligned. When the windows are,
    every firing of a window is created once, in any run of backfills and live loops. -/
theorem backfill_names_firings (sched : Schedule) :
    (∀ start end_, NamesFirings sched start end_ ↔ Aligned sched start end_) ∧
      ∀ (t : Statuses) (lastFiredAt : Option Int) (events : List Event) (s : System),
        Along (step sched) (AlignedWindow sched) { table := t,lastFiredAt := lastFiredAt } events →
        Runs (step sched) { table := t,lastFiredAt := lastFiredAt } events s → OneEach sched s := by
  refine ⟨namesFirings_iff sched,?_⟩
  intro t lastFiredAt events s along run
  have begins : Good sched { table := t,lastFiredAt := lastFiredAt } := by
    refine ⟨?_,?_,List.nodup_nil,?_,?_⟩ <;> intro _ listed <;> cases listed
  exact (along_invariant (fun _ _ _ good aligns taken => step_good good aligns taken) begins along run).oneEach

/-- The fields of an instant of the first day of 1970, in UTC. -/
def firstDay : Calendar where
  fields msec :=
    let second := msec / 1000
    ⟨(second % 60).toNat,(second / 60 % 60).toNat,(second / 3600 % 24).toNat,1,0,4⟩
  whole msec := by
    have same : (msec - msec % 1000) / 1000 = msec / 1000 := by omega
    simp only [same]

def digits (n : Nat) : List Char := [Nat.digitChar (n / 100),Nat.digitChar (n / 10 % 10),Nat.digitChar (n % 10)]

theorem digits_injective : ∀ a < 1000, ∀ b < 1000, digits a = digits b → a = b := by
  have digit : ∀ a < 10, ∀ b < 10, Nat.digitChar a = Nat.digitChar b → a = b := by decide
  intro a small b small' same
  simp only [digits,List.cons.injEq,and_true] at same
  obtain ⟨hundreds,tens,ones⟩ := same
  have := digit _ (by omega) _ (by omega) hundreds
  have := digit _ (by omega) _ (by omega) tens
  have := digit _ (by omega) _ (by omega) ones
  omega

/-- `toISOString` of the first ten seconds. -/
def firstSeconds (msec : Int) : String :=
  String.ofList ((if msec < 0 then ['-'] else []) ++ "1970-01-01T00:00:0".toList ++ Nat.toDigits 10 (msec / 1000).natAbs ++ ['.'] ++
    digits (msec % 1000).toNat ++ ['Z'])

theorem firstSeconds_injective (a b : Int) (same : firstSeconds a = firstSeconds b) : a = b := by
  unfold firstSeconds at same
  have texts := congrArg String.toList same
  simp only [String.toList_ofList,List.append_left_inj] at texts
  have ends := List.append_inj' texts (by simp only [digits,List.length_cons,List.length_nil])
  have millis := digits_injective _ (by omega) _ (by omega) ends.2
  have begins := ends.1
  simp only [List.append_left_inj] at begins
  by_cases first : a < 0 <;> by_cases second : b < 0 <;> simp only [first,second,if_true,if_false] at begins
  · have seconds := Fields.digits_injective (List.append_cancel_left begins)
    omega
  · cases begins
  · cases begins
  · have seconds := Fields.digits_injective (List.append_cancel_left begins)
    omega

/-- `1,2,3 0 0 1 1 *`. -/
def threeTimes : Schedule where
  scheduleName := "s"
  workflowName := "w"
  matcher := ⟨firstDay,"1,2,3","0","0","1","1","0,1,2,3,4,5,6"⟩
  toISOString := firstSeconds
  distinct := firstSeconds_injective
  input _ := (some "[]",none)

/-- A backfill of the window, beside a process whose live loop comes to the first firing. -/
def beside (start end_ : Int) : List Event :=
  [.backfillSchedule start end_,.listSchedules,.poll 1 500,.startLoop 1 500,.wake 1,.existing 1 false,.iterate 0 (.sent "1" 7 true),
    .enqueue 1 (.sent "1" 8 true),.update 1 false,.iterate 0 (.sent "1" 9 true),.iterate 0 .failed]

/-- Enough for `AlignedWindow`, and decided. -/
def begunWhole (s : System) : Event → Bool
  | .backfillSchedule start _ => start % 1000 = 0
  | .poll i _ => s.loops[i]? = some (.listed none)
  | _ => true

theorem aligned_of_begunWhole (s : System) (e : Event) (whole : begunWhole s e = true) : AlignedWindow sched s e := by
  cases e with
  | backfillSchedule start end_ => exact .inl (by simpa [begunWhole] using whole)
  | poll i now =>
    have never : s.loops[i]? = some (.listed none) := by simpa [begunWhole] using whole
    intro lastFired listed
    rw [never] at listed
    cases listed
  | _ => trivial

theorem backfill_names_beside : ∃ s, Runs (step threeTimes) {} (beside 0 3000) s ∧ s.windows = [(0,3000)] ∧
    s.created = [⟨1000,some (0,3000)⟩,⟨2000,some (0,3000)⟩] ∧ OneEach threeTimes s := by
  have ran : ((beside 0 3000).foldlM (step threeTimes) {}).map (fun s => (s.windows,s.created)) =
      some ([(0,3000)],[⟨1000,some (0,3000)⟩,⟨2000,some (0,3000)⟩]) := by decide +kernel
  obtain ⟨s,run,history⟩ := Option.map_eq_some_iff.mp ran
  have whole : Along (step threeTimes) (fun s e => begunWhole s e = true) {} (beside 0 3000) := by decide +kernel
  have each := (backfill_names_firings threeTimes).2 Table.empty none _ s (along_imp aligned_of_begunWhole whole) run
  exact ⟨s,run,congrArg Prod.fst history,congrArg Prod.snd history,each⟩

/-- A backfill that starts half a second later names the same firing differently, and its workflow is created twice. -/
theorem backfill_names_twice :
    (∃ s, Runs (step threeTimes) {} (beside 500 3000) s ∧ s.created = [⟨1500,some (500,3000)⟩,⟨1000,none⟩,⟨2500,some (500,3000)⟩] ∧
      threeTimes.workflowID 1500 = "sched-s-1970-01-01T00:00:01.500Z" ∧
      threeTimes.workflowID (secondOf 1500) = "sched-s-1970-01-01T00:00:01.000Z") ∧
    ¬ ∀ (sched : Schedule) (start end_ : Int), ∀ date ∈ backfillDates sched.matcher end_ (end_ - start).toNat start,
      sched.workflowID date = sched.workflowID (secondOf date) := by
  refine ⟨?_,?_⟩
  · have ran : ((beside 500 3000).foldlM (step threeTimes) {}).map System.created =
        some [⟨1500,some (500,3000)⟩,⟨1000,none⟩,⟨2500,some (500,3000)⟩] := by decide +kernel
    obtain ⟨s,run,created⟩ := Option.map_eq_some_iff.mp ran
    exact ⟨s,run,created,by decide +kernel,by decide +kernel⟩
  · intro always
    have listed : 1500 ∈ backfillDates threeTimes.matcher 3000 (3000 - 500 : Int).toNat 500 :=
      (mem_backfillDates (by decide)).mpr ⟨by decide,by decide,by decide,by decide +kernel⟩
    have same := workflowID_injective threeTimes (always threeTimes 500 3000 1500 listed)
    exact absurd same (by decide)

end Dbos.Scheduler
