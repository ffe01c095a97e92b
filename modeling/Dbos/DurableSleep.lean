import Mathlib
import Dbos.Communication

/-!
The durable sleep. Every execution of a workflow that comes to a sleep, or to the deadline of a
`recv`, a `getEvent` or a `getResult`, calls `#durableSleep` with its own clock and looks for the
end time under the function ID before it records its own. The look-up and the INSERT are two
statements, and nobody looks at what the INSERT gives back. `durableSleepms` then waits in slices
until its clock has passed the end time that it was given. Times and durations are whole
milliseconds.
-/
namespace Dbos.DurableSleep
open Dbos.Pg Dbos.Schema Dbos.Status Dbos.Checkpoints
open Dbos.Communication (Database checkIfCanceled sleepCheckpoint DBOS_FUNCNAME_SLEEP)

/-- `sleepConfig.maxTimeoutMS`. -/
def maxTimeoutMS : Int := 2147483647

/-- Where an invocation stands; for other callers than `durableSleepms` it ends with `looking`. -/
inductive Phase
  | called
  | uncancelled
  | missed
  -- the INSERT has given back the completion time of the call
  | won
  -- `#durableSleep` has returned, and the loop is at its condition
  | looking (endTime : Int)
  | sleeping (endTime delay : Int)
  -- the loop has ended at a reading of the clock
  | awake (endTime clock : Int)
  | returned (endTime clock : Int)
  | threw (e : DbosError)
  -- the process, the connection or a statement has failed
  | gone
  deriving DecidableEq

structure Invocation where
  executorID : String
  calledAt : Int
  durationMS : Int
  phase : Phase := .called

/-- `Date.now() + durationMS`, at the call. -/
def Invocation.endTimeMs (inv : Invocation) : Int := inv.calledAt + inv.durationMS

structure State where
  db : Database
  invocations : List Invocation := []

/-- `JSON.parse(res.output!)`. -/
def OperationOutput.endTime (row : OperationOutput) : Option Int := row.output.bind String.toInt?

inductive Turn
  | checks
  | looksUp
  -- `acknowledged`: the answer arrives
  | inserts (startTimeEpochMs endTimeEpochMs : Int) (acknowledged : Bool)
  | claims
  -- two readings of the clock: for the condition and for the delay
  | looks (now now' : Int)
  | wakes
  | dies

/-- `statuses`: a transaction of others on `workflow_status`. -/
inductive Event
  | call (executorID : String) (durationMS now : Int)
  | turn (i : Nat) (turn : Turn)
  | statuses (t : Statuses)

section System
variable (key : String × Nat)

/-- The end time of the row of the function ID. -/
def storedEnd (db : Database) : Option Int := (db.outputs.get? key).bind OperationOutput.endTime

def Invocation.checkpoint (inv : Invocation) (startTimeEpochMs endTimeEpochMs : Int) : CheckpointCall :=
  { sleepCheckpoint endTimeEpochMs inv.endTimeMs with startTimeEpochMs := startTimeEpochMs }

/-- The next statement of an invocation. The look-up takes the first `checkIfCanceled`, and the
    loop is followed by another. -/
def Invocation.advance (inv : Invocation) (db : Database) : Turn → Option (Phase × Database)
  | .checks =>
    match inv.phase with
    | .called => some ((checkIfCanceled db key.1).elim .uncancelled .threw,db)
    | .awake endTime clock => some ((checkIfCanceled db key.1).elim (.returned endTime clock) .threw,db)
    | _ => none
  | .looksUp =>
    match inv.phase with
    | .uncancelled =>
      match db.outputs.get? key with
      | none => some (.missed,db)
      | some row =>
        if row.function_name = DBOS_FUNCNAME_SLEEP then some ((OperationOutput.endTime row).elim .gone .looking,db)
        else some (.threw (.DBOSUnexpectedStepError key.1 key.2 DBOS_FUNCNAME_SLEEP row.function_name),db)
    | _ => none
  | .inserts startTimeEpochMs endTimeEpochMs acknowledged =>
    match inv.phase with
    | .missed =>
      let outputs := insertCheckpoint db.outputs key (inv.checkpoint startTimeEpochMs endTimeEpochMs)
      -- `checkConflict` is false: the completion time that comes back only decides about the marker.
      some (if acknowledged = false then .gone else if recordedEnd outputs key = endTimeEpochMs then .won else .looking inv.endTimeMs,
        { db with outputs := outputs })
    | _ => none
  | .claims =>
    match inv.phase with
    | .won => some (.looking inv.endTimeMs,{ db with statuses := claimExecutor db.statuses inv.executorID key.1 })
    | _ => none
  | .looks now now' =>
    match inv.phase with
    | .looking endTime =>
      if now < endTime then some (.sleeping endTime (min (endTime - now') maxTimeoutMS),db) else some (.awake endTime now,db)
    | _ => none
  | .wakes =>
    match inv.phase with
    | .sleeping endTime _ => some (.looking endTime,db)
    | _ => none
  | .dies => some (.gone,db)

def step (s : State) : Event → Option State
  | .call executorID durationMS now => some { s with invocations := s.invocations ++ [⟨executorID,now,durationMS,.called⟩] }
  | .turn i turn =>
    match s.invocations[i]? with
    | none => none
    | some inv => (inv.advance key s.db turn).map fun (phase,db) => ⟨db,s.invocations.set i { inv with phase := phase }⟩
  | .statuses t => some { s with db := { s.db with statuses := t } }

end System

/-- What `#durableSleep` has returned. -/
def Phase.yielded : Phase → Option Int
  | .looking endTime => some endTime
  | .sleeping endTime _ => some endTime
  | .awake endTime _ => some endTime
  | .returned endTime _ => some endTime
  | _ => none

/-- The clock at which the loop has ended. -/
def Phase.awokeAt : Phase → Option Int
  | .awake _ clock => some clock
  | .returned _ clock => some clock
  | _ => none

/-- The delay of a timer that is set. -/
def Phase.delay : Phase → Option Int
  | .sleeping _ delay => some delay
  | _ => none

/-- The invocations agree on the end time of the row, none is awake before it, and no timer is
    set for longer than it can wait. -/
structure Agreed (key : String × Nat) (s : State) : Prop where
  yields : ∀ inv ∈ s.invocations,∀ endTime ∈ inv.phase.yielded,storedEnd key s.db = some endTime
  waits : ∀ inv ∈ s.invocations,∀ clock ∈ inv.phase.awokeAt,∃ endTime,storedEnd key s.db = some endTime ∧ endTime ≤ clock
  sliced : ∀ inv ∈ s.invocations,∀ delay ∈ inv.phase.delay,delay ≤ maxTimeoutMS

/-- At its INSERT an invocation finds no row, or one with the end time that its own clock and
    duration give. -/
def Unrivalled (key : String × Nat) (s : State) : Event → Prop
  | .turn i (.inserts _ _ true) => ∀ inv ∈ s.invocations[i]?,∀ row ∈ s.db.outputs.get? key,
    OperationOutput.endTime row = some (inv.calledAt + inv.durationMS)
  | _ => True

instance (key : String × Nat) (s : State) : (event : Event) → Decidable (Unrivalled key s event)
  | .turn i (.inserts _ _ true) => inferInstanceAs (Decidable (∀ inv ∈ s.invocations[i]?,∀ row ∈ s.db.outputs.get? key,_))
  | .turn _ (.inserts _ _ false) => isTrue trivial
  | .turn _ .checks | .turn _ .looksUp | .turn _ .claims | .turn _ (.looks ..) | .turn _ .wakes | .turn _ .dies => isTrue trivial
  | .call .. | .statuses _ => isTrue trivial

/-! ### Agreement -/

section Agreement
variable {key : String × Nat}

/-- The end time that an invocation goes by, or will. -/
def Invocation.expects (inv : Invocation) : Option Int :=
  match inv.phase with
  | .won => some inv.endTimeMs
  | phase => phase.yielded

def Phase.Timely : Phase → Prop
  | .sleeping _ delay => delay ≤ maxTimeoutMS
  | .awake endTime clock => endTime ≤ clock
  | .returned endTime clock => endTime ≤ clock
  | _ => True

structure Agrees (key : String × Nat) (db : Database) (inv : Invocation) : Prop where
  expects : ∀ endTime ∈ inv.expects,storedEnd key db = some endTime
  timely : inv.phase.Timely

theorem agreed_of_agrees {s : State} (agrees : ∀ inv ∈ s.invocations,Agrees key s.db inv) : Agreed key s := by
  refine ⟨fun inv member endTime yielded => ?_,fun inv member clock awoke => ?_,fun inv member delay set => ?_⟩
  · refine (agrees inv member).expects endTime ?_
    unfold Invocation.expects
    split
    · rename_i phase
      rw [phase] at yielded
      cases yielded
    · exact yielded
  · obtain ⟨expects,timely⟩ := agrees inv member
    unfold Invocation.expects at expects
    cases phase : inv.phase with
    | awake endTime clock' | returned endTime clock' =>
      rw [phase] at awoke expects timely
      cases awoke
      exact ⟨endTime,expects endTime rfl,timely⟩
    | _ => rw [phase] at awoke; cases awoke
  · have timely := (agrees inv member).timely
    cases phase : inv.phase with
    | sleeping endTime delay' =>
      rw [phase] at set timely
      cases set
      exact timely
    | _ => rw [phase] at set; cases set

/-- A row that is stored stays. -/
theorem agrees_later {db db' : Database} {inv : Invocation} (kept : ∀ endTime,storedEnd key db = some endTime →
    storedEnd key db' = some endTime) (agrees : Agrees key db inv) : Agrees key db' inv :=
  ⟨fun endTime expected => kept endTime (agrees.expects endTime expected),agrees.timely⟩

theorem agrees_quiet {db : Database} {inv : Invocation} {phase : Phase} (quiet : phase ≠ .won) (none : phase.yielded = none) (timely : phase.Timely) :
    Agrees key db { inv with phase := phase } := by
  refine ⟨fun endTime expected => ?_,timely⟩
  unfold Invocation.expects at expected
  split at expected
  · rename_i won
    exact absurd won quiet
  · simp only [none] at expected
    cases expected

theorem storedEnd_insert {db : Database} {endTime : Int} {call : CheckpointCall} (stored : storedEnd key db = some endTime) :
    storedEnd key { db with outputs := insertCheckpoint db.outputs key call } = some endTime := by
  obtain ⟨row,found,ends⟩ := Option.bind_eq_some_iff.mp stored
  simp [storedEnd,found,ends]

theorem endTime_checkpoint (inv : Invocation) (startTimeEpochMs endTimeEpochMs : Int) :
    OperationOutput.endTime (checkpointRow (inv.checkpoint startTimeEpochMs endTimeEpochMs)) = some inv.endTimeMs :=
  Int.toInt?_repr inv.endTimeMs

theorem advance_keeps {db db' : Database} {inv : Invocation} {turn : Turn} {phase : Phase}
    (taken : inv.advance key db turn = some (phase,db')) (endTime : Int) (stored : storedEnd key db = some endTime) :
    storedEnd key db' = some endTime := by
  cases turn with
  | inserts startTimeEpochMs endTimeEpochMs acknowledged =>
    simp only [Invocation.advance] at taken
    split at taken
    · cases taken
      exact storedEnd_insert stored
    · cases taken
  | dies => cases taken; exact stored
  | _ =>
    simp only [Invocation.advance] at taken
    repeat' split at taken
    all_goals cases taken
    all_goals exact stored

/-- One turn of an invocation that finds no rival's row. -/
theorem advance_agrees {db db' : Database} {inv : Invocation} {turn : Turn} {phase : Phase} (agrees : Agrees key db inv)
    (unrivalled : ∀ startTimeEpochMs endTimeEpochMs,turn = .inserts startTimeEpochMs endTimeEpochMs true → ∀ row ∈ db.outputs.get? key,
      OperationOutput.endTime row = some inv.endTimeMs)
    (taken : inv.advance key db turn = some (phase,db')) : Agrees key db' { inv with phase := phase } := by
  obtain ⟨expects,timely⟩ := agrees
  unfold Invocation.expects at expects
  cases turn with
  | checks =>
    simp only [Invocation.advance] at taken
    split at taken
    · cases taken
      cases checkIfCanceled db key.1 <;> exact agrees_quiet (by simp) rfl trivial
    · rename_i endTime clock awake
      rw [awake] at expects timely
      cases taken
      cases checkIfCanceled db key.1 with
      | none => exact ⟨expects,timely⟩
      | some e => exact agrees_quiet (by simp) rfl trivial
    · cases taken
  | looksUp =>
    simp only [Invocation.advance] at taken
    split at taken
    · split at taken
      · cases taken
        exact agrees_quiet (by simp) rfl trivial
      · rename_i row found
        split at taken
        · cases taken
          cases ends : OperationOutput.endTime row with
          | none => exact agrees_quiet (by simp) rfl trivial
          | some stored =>
            refine ⟨fun endTime expected => ?_,trivial⟩
            cases expected
            simp [storedEnd,found,ends]
        · cases taken
          exact agrees_quiet (by simp) rfl trivial
    · cases taken
  | inserts startTimeEpochMs endTimeEpochMs acknowledged =>
    simp only [Invocation.advance] at taken
    split at taken
    · cases taken
      cases acknowledged with
      | false => exact agrees_quiet (by simp) rfl trivial
      | true =>
        have stored : storedEnd key { db with outputs := insertCheckpoint db.outputs key (inv.checkpoint startTimeEpochMs endTimeEpochMs) } =
            some inv.endTimeMs := by
          cases found : db.outputs.get? key with
          | none => simp [storedEnd,found,endTime_checkpoint]
          | some row => exact storedEnd_insert (by simp [storedEnd,found,unrivalled _ _ rfl row found])
        by_cases won : recordedEnd (insertCheckpoint db.outputs key (inv.checkpoint startTimeEpochMs endTimeEpochMs)) key = endTimeEpochMs
        · simp only [won,if_true,if_false,Bool.true_eq_false]
          exact ⟨fun endTime expected => by cases expected; exact stored,trivial⟩
        · simp only [won,if_false,Bool.true_eq_false]
          exact ⟨fun endTime expected => by cases expected; exact stored,trivial⟩
    · cases taken
  | claims =>
    simp only [Invocation.advance] at taken
    split at taken
    · rename_i won
      rw [won] at expects
      cases taken
      exact ⟨expects,trivial⟩
    · cases taken
  | looks now now' =>
    simp only [Invocation.advance] at taken
    split at taken
    · rename_i endTime looking
      rw [looking] at expects
      split at taken
      · cases taken
        exact ⟨expects,Int.min_le_right _ _⟩
      · cases taken
        exact ⟨expects,Int.not_lt.mp ‹_›⟩
    · cases taken
  | wakes =>
    simp only [Invocation.advance] at taken
    split at taken
    · rename_i endTime delay asleep
      rw [asleep] at expects
      cases taken
      exact ⟨expects,trivial⟩
    · cases taken
  | dies =>
    cases taken
    exact agrees_quiet (by simp) rfl trivial

theorem step_agrees {s s' : State} {event : Event} (agrees : ∀ inv ∈ s.invocations,Agrees key s.db inv)
    (unrivalled : Unrivalled key s event) (taken : step key s event = some s') : ∀ inv ∈ s'.invocations,Agrees key s'.db inv := by
  cases event with
  | call executorID durationMS now =>
    cases taken
    intro inv member
    rcases List.mem_append.mp member with old | new
    · exact agrees inv old
    · rw [List.mem_singleton.mp new]
      exact ⟨fun _ expected => (by cases expected),trivial⟩
  | statuses t =>
    cases taken
    exact fun inv member => ⟨(agrees inv member).expects,(agrees inv member).timely⟩
  | turn i turn =>
    simp only [step] at taken
    split at taken
    · cases taken
    · rename_i inv found
      obtain ⟨⟨phase,db⟩,advances,rfl⟩ := Option.map_eq_some_iff.mp taken
      have here := advance_agrees (agrees inv (List.mem_of_getElem? found)) (fun a b same row stored => ?_) advances
      · exact all_set (fun other member => agrees_later (advance_keeps advances) (agrees other member)) here i
      · subst same
        exact unrivalled inv found row stored

end Agreement

/-- In every execution without a rival's INSERT between the look-up and the INSERT of an
    invocation, whatever crashes and whatever the clocks and durations are, every end time that is
    yielded is that of the row, and nobody wakes before it. -/
theorem durableSleep_agrees (key : String × Nat) {db : Database} {events : List Event} {s : State}
    (unrivalled : Along (step key) (Unrivalled key) { db := db } events) (run : Runs (step key) { db := db } events s) : Agreed key s :=
  agreed_of_agrees (along_invariant (I := fun s => ∀ inv ∈ s.invocations,Agrees key s.db inv)
    (fun _ _ _ agrees condition taken => step_agrees agrees condition taken) (by simp) unrivalled run)

def sleepKey : String × Nat := ("w",0)

/-- A sleep of more than 2^31 - 1 ms: it takes two timers. -/
def longSleep : List Event :=
  [.call "a" 3000000000 0,.turn 0 .checks,.turn 0 .looksUp,.turn 0 (.inserts 1 1 true),.turn 0 .claims,.turn 0 (.looks 2 2),.turn 0 .wakes,
    .turn 0 (.looks 2147483649 2147483649),.turn 0 .wakes,.turn 0 (.looks 3000000000 3000000000),.turn 0 .checks]

theorem durableSleep_agrees_longSleep :
    ∃ s,Runs (step sleepKey) { db := {} } longSleep s ∧ Agreed sleepKey s ∧
      s.invocations.map Invocation.phase = [.returned 3000000000 3000000000] := by
  have ran : (longSleep.foldlM (step sleepKey) { db := {} }).map (fun s => s.invocations.map Invocation.phase) =
      some [.returned 3000000000 3000000000] := by decide +kernel
  obtain ⟨s,run,ends⟩ := Option.map_eq_some_iff.mp ran
  exact ⟨s,run,durableSleep_agrees sleepKey (by decide +kernel) run,ends⟩

/-- Both executors look before either inserts. The one whose clock is behind comes second, keeps its
    own end time and wakes 5 ms before the one that is recorded. -/
def raced : List Event :=
  [.call "a" 10 5,.call "b" 10 0,.turn 0 .checks,.turn 1 .checks,.turn 0 .looksUp,.turn 1 .looksUp,
    .turn 0 (.inserts 6 6 true),.turn 1 (.inserts 1 1 true),.turn 1 (.looks 2 2),.turn 1 .wakes,.turn 1 (.looks 10 10),.turn 1 .checks]

theorem raced_not_agreed :
    (∃ s,Runs (step sleepKey) { db := {} } raced s ∧ storedEnd sleepKey s.db = some 15 ∧
      s.invocations.map Invocation.phase = [.won,.returned 10 10]) ∧
    ¬ ∀ (key : String × Nat) (db : Database) (events : List Event) (s : State),Runs (step key) { db := db } events s → Agreed key s := by
  have ran : (raced.foldlM (step sleepKey) { db := {} }).map (fun s =>
      ((s.db.outputs.get? sleepKey).bind OperationOutput.output,s.invocations.map Invocation.phase)) =
        some (some "15",[.won,.returned 10 10]) := by decide +kernel
  obtain ⟨s,run,ends⟩ := Option.map_eq_some_iff.mp ran
  obtain ⟨text,phases⟩ := Prod.mk.inj ends
  have stored : storedEnd sleepKey s.db = some 15 := by
    obtain ⟨row,found,output⟩ := Option.bind_eq_some_iff.mp text
    rw [storedEnd,found,Option.bind_some,OperationOutput.endTime,output]
    exact Int.toInt?_repr 15
  refine ⟨⟨s,run,stored,phases⟩,fun claim => ?_⟩
  obtain ⟨inv,member,phase⟩ := List.mem_map.mp (phases ▸ (by simp) : Phase.returned 10 10 ∈ s.invocations.map Invocation.phase)
  have own := (claim sleepKey {} raced s run).yields inv member 10 (by rw [phase]; rfl)
  rw [stored] at own
  cases own

end Dbos.DurableSleep
