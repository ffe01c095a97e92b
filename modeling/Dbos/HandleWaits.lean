import Dbos.Finality

/-!
Waiting for several workflows: `waitFirst` and `waitAll` of `src/dbos.ts` with `awaitFirstWorkflowId` and `awaitWorkflowIds` of
`src/system_database.ts`. A call polls `workflow_status` while everything else writes it; `dbRetry` starts its loop anew.
-/
namespace Dbos.HandleWaits
open Dbos.Pg Dbos.Schema Dbos.Status Dbos.Ops Dbos.Finality StatusString

/-! ### The calls -/

inductive Kind
  | waitFirst
  | waitAll
  deriving DecidableEq

/-- The ID of the first handle whose ID has come before. -/
def duplicate (handleMap : List String) : List String → Option String
  | [] => none
  | id :: rest => if id ∈ handleMap then some id else duplicate (id :: handleMap) rest

/-- Where a call stands: before the check of its caller, before a poll or asleep, each with the IDs that it waits for; `returned` has the
    ID of the handle that `waitFirst` returns, and `waitAll` returns all of its handles. -/
inductive Phase
  | checking (workflowIds : List String)
  | polling (workflowIds : List String)
  | sleeping (workflowIds : List String)
  | returned (first : Option String)
  | threw (e : DbosError)
  deriving DecidableEq

structure Call where
  kind : Kind
  handles : List String
  callerID : Option String := none

def Call.workflowIds (call : Call) : List String :=
  match call.kind with
  | .waitFirst => call.handles
  | .waitAll => call.handles.eraseDups

def Call.start (call : Call) : Phase :=
  match call.kind with
  | .waitFirst =>
    if call.handles = [] then .threw (.Error "handles must not be empty")
    else
      match duplicate [] call.handles with
      | some id => .threw (.Error s!"Duplicate workflow ID in waitFirst: {id}")
      | none => .checking call.workflowIds
  | .waitAll => if call.handles = [] then .returned none else .checking call.workflowIds

/-- `status NOT IN (PENDING, ENQUEUED, DELAYED)`. -/
def inactive (row : WorkflowStatus) : Bool := row.status ≠ PENDING ∧ row.status ≠ ENQUEUED ∧ row.status ≠ DELAYED

/-- The row of the ID, if the queries find it. -/
def done (t : Statuses) (id : String) : Option WorkflowStatus := (t.get? id).filter inactive

/-! ### The system -/

/-- `seen` are the rows for which the call has stopped waiting. -/
structure System where
  table : Statuses
  phase : Phase
  seen : List (String × WorkflowStatus) := []

/-- The answer to a poll of `waitFirst` is any row of LIMIT 1. -/
inductive Event
  | check
  | poll (answer : Option String)
  | wake
  | retry
  | fails (e : DbosError)
  | other (op : Op)

def step (call : Call) (s : System) : Event → Option System
  | .check =>
    match s.phase with
    | .checking ids =>
      match call.callerID with
      | some callerID =>
        if (s.table.get? callerID).any fun row => row.status = CANCELLED then
          some { s with phase := .threw (.DBOSWorkflowCancelledError callerID) }
        else some { s with phase := .polling ids }
      | none => some { s with phase := .polling ids }
    | _ => none
  | .poll answer =>
    match s.phase,call.kind with
    | .polling ids,.waitFirst =>
      match answer with
      | some id =>
        match done s.table id with
        | some row => if id ∈ ids then some { s with phase := .returned (some id),seen := [(id,row)] } else none
        | none => none
      | none => if ids.all fun id => (done s.table id).isNone then some { s with phase := .sleeping ids } else none
    | .polling ids,.waitAll =>
      let rest := ids.filter fun id => (done s.table id).isNone
      let s := { s with seen := s.seen ++ ids.filterMap fun id => (done s.table id).map fun row => (id,row) }
      if rest = [] then some { s with phase := .returned none } else some { s with phase := .sleeping rest }
    | _,_ => none
  | .wake =>
    match s.phase with
    | .sleeping ids => some { s with phase := .checking ids }
    | _ => none
  | .retry =>
    match s.phase with
    | .checking _ => some { s with phase := .checking call.workflowIds,seen := [] }
    | .polling _ => some { s with phase := .checking call.workflowIds,seen := [] }
    | _ => none
  | .fails e =>
    match s.phase with
    | .checking _ => some { s with phase := .threw e }
    | .polling _ => some { s with phase := .threw e }
    | _ => none
  | .other op => some { s with table := op.apply s.table }

def start (call : Call) (t : Statuses) : System := { table := t,phase := call.start }

/-- No row is deleted, and a recording that finds its row finished repeats it. -/
def Orderly (s : System) : Event → Prop
  | .other op => keepsRows op = true ∧ RecordsOnce s.table op
  | _ => True

/-! ### What a call has seen -/

section
variable {call : Call} {s s' : System} {t : Statuses}

/-- The row is there, and has the outcome that was seen. -/
def Still (t : Statuses) (id : String) (row : WorkflowStatus) : Prop :=
  inactive row = true ∧ ∃ row', t.get? id = some row' ∧ (Finished row.status → SameOutcome row row')

def Phase.waitsFor : Phase → List String
  | .checking ids => ids
  | .polling ids => ids
  | .sleeping ids => ids
  | _ => []

structure Sound (call : Call) (s : System) : Prop where
  still : ∀ e ∈ s.seen,Still s.table e.1 e.2
  open_ : ∀ id ∈ s.phase.waitsFor,id ∈ call.handles
  first : call.kind = .waitFirst → ∀ id, s.phase = .returned id →
    ∃ id' row, id = some id' ∧ id' ∈ call.handles ∧ (id',row) ∈ s.seen
  all : call.kind = .waitAll → (∀ e, s.phase ≠ .threw e) → ∀ id ∈ call.handles,
    id ∈ s.phase.waitsFor ∨ ∃ row, (id,row) ∈ s.seen

theorem done_some {id : String} {row : WorkflowStatus} : done t id = some row ↔ t.get? id = some row ∧ inactive row = true :=
  Option.filter_eq_some_iff

theorem still_of_done {id : String} {row : WorkflowStatus} (found : done t id = some row) : Still t id row := by
  obtain ⟨there,ended⟩ := done_some.mp found
  exact ⟨ended,row,there,fun _ => ⟨rfl,rfl,rfl,rfl⟩⟩

theorem Still.apply {id : String} {row : WorkflowStatus} (still : Still t id row) {op : Op} (keeps : keepsRows op = true)
    (once : RecordsOnce t op) : Still (op.apply t) id row := by
  obtain ⟨ended,row',there,same⟩ := still
  refine ⟨ended,?_⟩
  by_cases finished : Finished row.status
  · have before := same finished
    obtain ⟨row'',after,again⟩ := apply_finished once there (before.status.symm ▸ finished) fun allIds deletes => by
      rw [deletes] at keeps
      cases keeps
    exact ⟨row'',after,fun _ => ⟨again.status.trans before.status,again.output.trans before.output,again.error.trans before.error,
      again.serialization.trans before.serialization⟩⟩
  · obtain ⟨row'',after⟩ := Option.isSome_iff_exists.mp (apply_keeps op keeps (Option.isSome_iff_exists.mpr ⟨row',there⟩))
    exact ⟨row'',after,fun finished' => absurd finished' finished⟩

theorem mem_workflowIds {id : String} : id ∈ call.workflowIds ↔ id ∈ call.handles := by
  unfold Call.workflowIds
  cases call.kind with
  | waitFirst => exact Iff.rfl
  | waitAll => exact List.mem_eraseDups

theorem sound_checking (call : Call) (t : Statuses) : Sound call { table := t,phase := .checking call.workflowIds } where
  still := by intro e listed; cases listed
  open_ := fun _ listed => mem_workflowIds.mp listed
  first := by intro _ id returned; cases returned
  all := fun _ _ _ listed => .inl (mem_workflowIds.mpr listed)

theorem sound_threw (call : Call) (t : Statuses) (e : DbosError) {seen : List (String × WorkflowStatus)}
    (still : ∀ e ∈ seen,Still t e.1 e.2) : Sound call { table := t,phase := .threw e,seen := seen } where
  still := still
  open_ := by intro id listed; cases listed
  first := by intro _ id returned; cases returned
  all := fun _ calm => absurd rfl (calm e)

theorem start_cases (call : Call) : (∃ e, call.start = .threw e) ∨ call.start = .checking call.workflowIds ∨
    call.kind = .waitAll ∧ call.handles = [] ∧ call.start = .returned none := by
  unfold Call.start
  cases kind : call.kind with
  | waitFirst =>
    dsimp only
    split
    · exact .inl ⟨_,rfl⟩
    · split
      · exact .inl ⟨_,rfl⟩
      · exact .inr (.inl rfl)
  | waitAll =>
    dsimp only
    split
    · rename_i empty
      exact .inr (.inr ⟨rfl,empty,rfl⟩)
    · exact .inr (.inl rfl)

theorem sound_start (call : Call) (t : Statuses) : Sound call (start call t) := by
  unfold start
  rcases start_cases call with ⟨e,begins⟩ | begins | ⟨kind,empty,begins⟩
  · rw [begins]
    exact sound_threw call t e (by intro e listed; cases listed)
  · rw [begins]
    exact sound_checking call t
  · rw [begins]
    refine ⟨?_,?_,?_,?_⟩
    · intro e listed
      cases listed
    · intro id listed
      cases listed
    · intro other
      rw [kind] at other
      cases other
    · intro _ _ id listed
      rw [empty] at listed
      cases listed

/-- The call waits on, for the same workflows. -/
theorem Sound.waits (sound : Sound call s) {phase : Phase} (same : phase.waitsFor = s.phase.waitsFor) (running : ∀ id, phase ≠ .returned id)
    (calm : ∀ e, s.phase ≠ .threw e) : Sound call { s with phase := phase } where
  still := sound.still
  open_ := by intro id listed; rw [same] at listed; exact sound.open_ id listed
  first := fun _ id returned => absurd returned (running id)
  all := by
    intro kind _ id listed
    rw [same]
    exact sound.all kind calm id listed

/-- A poll of `waitFirst` has found the row. -/
theorem Sound.found (sound : Sound call s) {ids : List String} (phase : s.phase = .polling ids) (kind : call.kind = .waitFirst)
    {id : String} {row : WorkflowStatus} (listed : id ∈ ids) (found : done s.table id = some row) :
    Sound call { s with phase := .returned (some id),seen := [(id,row)] } where
  still := by
    intro e member
    rw [List.mem_singleton.mp member]
    exact still_of_done found
  open_ := by intro other waiting; cases waiting
  first := by
    rintro _ _ ⟨⟩
    exact ⟨id,row,rfl,sound.open_ id (by rw [phase]; exact listed),List.mem_singleton_self _⟩
  all := by
    intro other
    rw [kind] at other
    cases other

/-- A poll of `waitAll` has found some rows, and the call waits for the others, if there are any. -/
theorem Sound.polled (sound : Sound call s) {ids : List String} (phase : s.phase = .polling ids) (kind : call.kind = .waitAll)
    {onward : Phase} (rest : onward.waitsFor = ids.filter fun id => (done s.table id).isNone) :
    Sound call { s with phase := onward,seen := s.seen ++ ids.filterMap fun id => (done s.table id).map fun row => (id,row) } where
  still := by
    intro e member
    rcases List.mem_append.mp member with before | now
    · exact sound.still e before
    · obtain ⟨id,_,found⟩ := List.mem_filterMap.mp now
      obtain ⟨row,there,rfl⟩ := Option.map_eq_some_iff.mp found
      exact still_of_done there
  open_ := by
    intro id listed
    rw [rest] at listed
    exact sound.open_ id (by rw [phase]; exact (List.mem_filter.mp listed).1)
  first := by
    intro other
    rw [kind] at other
    cases other
  all := by
    intro _ _ id listed
    rcases sound.all kind (fun _ => by rw [phase]; exact Phase.noConfusion) id listed with waiting | ⟨row,seen⟩
    · rw [phase] at waiting
      cases found : done s.table id with
      | none => exact .inl (by rw [rest]; exact List.mem_filter.mpr ⟨waiting,by rw [found]; rfl⟩)
      | some row =>
        exact .inr ⟨row,List.mem_append_right _ (List.mem_filterMap.mpr ⟨id,waiting,by rw [found]; rfl⟩)⟩
    · exact .inr ⟨row,List.mem_append_left _ seen⟩

theorem step_sound {e : Event} (sound : Sound call s) (orderly : Orderly s e) (taken : step call s e = some s') : Sound call s' := by
  cases e with
  | check =>
    simp only [step] at taken
    split at taken
    · rename_i ids phase
      have onward : Sound call { s with phase := .polling ids } :=
        sound.waits (by rw [phase]; rfl) (fun _ => Phase.noConfusion) (fun _ => by rw [phase]; exact Phase.noConfusion)
      split at taken
      · split at taken
        · cases taken
          exact sound_threw call s.table _ sound.still
        · cases taken
          exact onward
      · cases taken
        exact onward
    · cases taken
  | poll answer =>
    simp only [step] at taken
    split at taken
    · rename_i ids phase kind
      split at taken
      · rename_i id
        split at taken
        · rename_i row found
          split at taken
          · rename_i listed
            cases taken
            exact sound.found phase kind listed found
          · cases taken
        · cases taken
      · split at taken
        · cases taken
          exact sound.waits (by rw [phase]; rfl) (fun _ => Phase.noConfusion) (fun _ => by rw [phase]; exact Phase.noConfusion)
        · cases taken
    · rename_i ids phase kind
      split at taken
      · rename_i empty
        cases taken
        exact sound.polled phase kind empty.symm
      · cases taken
        exact sound.polled phase kind rfl
    · cases taken
  | wake =>
    simp only [step] at taken
    split at taken
    · rename_i ids phase
      cases taken
      exact sound.waits (by rw [phase]; rfl) (fun _ => Phase.noConfusion) (fun _ => by rw [phase]; exact Phase.noConfusion)
    · cases taken
  | retry =>
    simp only [step] at taken
    split at taken
    · cases taken
      exact sound_checking call s.table
    · cases taken
      exact sound_checking call s.table
    · cases taken
  | fails e =>
    simp only [step] at taken
    split at taken
    · cases taken
      exact sound_threw call s.table e sound.still
    · cases taken
      exact sound_threw call s.table e sound.still
    · cases taken
  | other op =>
    cases taken
    exact ⟨fun e listed => (sound.still e listed).apply orderly.1 orderly.2,sound.open_,sound.first,sound.all⟩

/-- What is returned has been seen to have ended, and its result can be read now, unless it had been cancelled or given up then. -/
def Ready (s : System) (id : String) : Prop :=
  ∃ row, (id,row) ∈ s.seen ∧ inactive row = true ∧
    (Finished row.status → awaitWorkflowResult id [s.table] = storedResult row ∧ (storedResult row).any StoredResult.isOutcome = true)

theorem ready_of_still {id : String} {row : WorkflowStatus} (seen : (id,row) ∈ s.seen) (still : Still s.table id row) : Ready s id := by
  obtain ⟨ended,row',there,same⟩ := still
  refine ⟨row,seen,ended,?_⟩
  intro finished
  constructor
  · rw [awaitWorkflowResult,awaitWorkflowResult,there,Option.bind_some,storedResult_same (same finished),Option.or_none]
  · rcases finished with success | error
    · rw [storedResult,success]
      rfl
    · rw [storedResult,error]
      rfl

/-- A call returns what has ended: `waitFirst` one of its handles and `waitAll` no sooner than each of them was seen to have ended, whatever
    else writes the table; and a result that was there is there when the call returns. -/
theorem waits_return {events : List Event} (run : Runs (step call) (start call t) events s)
    (orderly : Along (step call) Orderly (start call t) events) {first : Option String} (returned : s.phase = .returned first) :
    (call.kind = .waitFirst → ∃ id ∈ call.handles,first = some id ∧ Ready s id) ∧
      (call.kind = .waitAll → ∀ id ∈ call.handles,Ready s id) := by
  have sound : Sound call s :=
    along_invariant (fun s e s' sound orderly taken => step_sound sound orderly taken) (sound_start call t) orderly run
  constructor
  · intro kind
    obtain ⟨id,row,rfl,listed,seen⟩ := sound.first kind first returned
    exact ⟨id,listed,rfl,ready_of_still seen (sound.still _ seen)⟩
  · intro kind id listed
    rcases sound.all kind (fun e => by rw [returned]; exact Phase.noConfusion) id listed with waiting | ⟨row,seen⟩
    · rw [returned] at waiting
      cases waiting
    · exact ready_of_still seen (sound.still _ seen)

end

/-- One workflow has ended and one runs. -/
def oneEnded : Statuses :=
  (Table.empty.insert "a" { status := .SUCCESS,name := "f",output := some "1",created_at := 1,updated_at := 1 }).insert "b"
    { status := .PENDING,name := "f",created_at := 1,updated_at := 1 }

def recordsB : Op :=
  .recordWorkflowOutput "b" { workflowUUID := "b",status := .PENDING,workflowName := "f",createdAt := 1,output := some "2" } 3

theorem waits_return_all : ∃ s, Runs (step ⟨.waitAll,["a","b","a"],none⟩) (start ⟨.waitAll,["a","b","a"],none⟩ oneEnded)
    [.check,.poll none,.other recordsB,.wake,.check,.poll none] s ∧ s.phase = .returned none ∧ Ready s "a" ∧ Ready s "b" := by
  obtain ⟨s,run,returned⟩ : ∃ s, Runs (step ⟨.waitAll,["a","b","a"],none⟩) (start ⟨.waitAll,["a","b","a"],none⟩ oneEnded)
      [.check,.poll none,.other recordsB,.wake,.check,.poll none] s ∧ s.phase = .returned none := ⟨_,rfl,rfl⟩
  have once : RecordsOnce oneEnded recordsB := by
    intro workflowID outcome now row records found finished
    cases records
    cases found
    rcases finished with finished | finished <;> cases finished
  have orderly : Along (step ⟨.waitAll,["a","b","a"],none⟩) Orderly (start ⟨.waitAll,["a","b","a"],none⟩ oneEnded)
      [.check,.poll none,.other recordsB,.wake,.check,.poll none] := by
    refine ⟨trivial,?_⟩
    rintro _ ⟨⟩
    refine ⟨trivial,?_⟩
    rintro _ ⟨⟩
    refine ⟨⟨rfl,once⟩,?_⟩
    rintro _ ⟨⟩
    refine ⟨trivial,?_⟩
    rintro _ ⟨⟩
    refine ⟨trivial,?_⟩
    rintro _ ⟨⟩
    refine ⟨trivial,?_⟩
    rintro _ ⟨⟩
    trivial
  have ready := (waits_return run orderly returned).2 rfl
  exact ⟨s,run,returned,ready "a" (by decide),ready "b" (by decide)⟩

end Dbos.HandleWaits
