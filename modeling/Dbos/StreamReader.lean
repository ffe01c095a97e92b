import Mathlib.Logic.Function.Iterate
import Dbos.Pg.Log
import Dbos.SerializerChange
import Dbos.StreamDensity

/-!
`readStream` of `src/dbos.ts` and of `src/client.ts`: a generator that asks for one offset after the other, beside everything that
`Dbos.Writers` lets happen. Each query is one statement and gives the value together with the status of the workflow; whatever happens
between two queries, the values that have been given are those at the front of the stream.
-/
namespace Dbos.StreamReader
open Dbos.Pg Dbos.Schema Dbos.Communication Dbos.Writers Dbos.StreamDensity Dbos.Serialization

/-! ### Readers -/

def isWorkflowActive (status : StatusString) : Bool := status = .PENDING ∨ status = .ENQUEUED ∨ status = .DELAYED

/-- Where a generator stands: before a query, with the row of the query, at the `yield`, or at the wait for a notification or the timer. -/
inductive Phase (Value : Type)
  | reading
  | read (status : Option StatusString) (value : Option Result)
  | suspended
  | waiting
  | returned
  | threw (e : DbosError ⊕ Thrown Value)

/-- A generator and the values that it has given. -/
structure Reader (Value : Type) where
  offset : Nat := 0
  finalRead : Bool := false
  phase : Phase Value := .reading
  yielded : List Value := []

section
variable {Value : Type} (formats : Formats Value) (serializer : DBOSSerializer Value) (workflowID key : String)

/-- The generator goes on until it waits for somebody; `unknown` is what becomes of it when there is no such workflow. -/
def readStream (unknown : Phase Value) (db : Database) (r : Reader Value) : Reader Value :=
  match r.phase with
  | .reading =>
    let (status,value) := readStreamValue db workflowID key r.offset
    { r with phase := .read status value }
  | .read none _ => { r with phase := unknown }
  | .read (some _) (some value) =>
    if value.serializedValue = some DBOS_STREAM_CLOSED_SENTINEL then { r with phase := .returned }
    else
      match deserializeValue formats value.serializedValue value.serialization serializer with
      | .ok v => { r with phase := .suspended,yielded := r.yielded ++ [v] }
      | .error e => { r with phase := .threw (.inr e) }
  | .read (some status) none =>
    if r.finalRead then { r with phase := .returned }
    else if isWorkflowActive status then { r with phase := .waiting }
    else { r with phase := .reading,finalRead := true }
  | .suspended => { r with phase := .reading,offset := r.offset + 1 }
  | .waiting => { r with phase := .reading }
  | .returned => r
  | .threw _ => r

def DBOS.readStream : Database → Reader Value → Reader Value :=
  StreamReader.readStream formats serializer workflowID key
    (.threw (.inl (.DBOSNonExistentWorkflowError ("Workflow " ++ workflowID ++ " does not exist"))))

/-- An unknown workflow ends the generator quietly. -/
def DBOSClient.readStream : Database → Reader Value → Reader Value :=
  StreamReader.readStream formats serializer workflowID key .returned

/-- A generator and all that writes. -/
structure State (Value : Type) where
  sys : Writers.System
  reader : Reader Value

inductive Event
  | writers (event : Writers.Event)
  | reader

def step (turn : Database → Reader Value → Reader Value) (s : State Value) : Event → Option (State Value)
  | .writers event => (Writers.step s.sys event).map fun sys => { s with sys := sys }
  | .reader => some { s with reader := turn s.sys.db s.reader }

/-- The workflows that the step deletes. -/
def Event.deleted : Event → List String
  | .writers (.deleteWorkflows allIds) => allIds
  | _ => []

/-! ### What there is to read -/

def closes (entry : StreamEntry) : Bool := entry.value = DBOS_STREAM_CLOSED_SENTINEL

def logOf (streams : Streams) (offset : Nat) : Option StreamEntry := streams.get? (workflowID,key,offset)

/-- The entries at 0, 1, 2, ... before the first sentinel and the first empty offset. -/
def readable (streams : Streams) : List StreamEntry := readFrom (logOf workflowID key streams) closes 0 (nextOffset streams workflowID key)

def decode (entry : StreamEntry) : Except (Thrown Value) Value :=
  deserializeValue formats (some entry.value) entry.serialization serializer

theorem readable_whole (streams : Streams) : Whole (logOf workflowID key streams) closes (readable workflowID key streams) := by
  have whole := readFrom_whole (logOf workflowID key streams) closes 0 (nextOffset streams workflowID key)
    fun o there => by simpa using (nextOffset_spec streams workflowID key).1 o there
  have same : (fun i => logOf workflowID key streams (0 + i)) = logOf workflowID key streams := by
    funext i
    rw [Nat.zero_add]
  rwa [same] at whole

end

/-! ### What writers leave alone -/

section
variable {workflowID key : String} {db db' db'' : Database}

/-- The entries of the stream stay, and so does the workflow. -/
structure Keeps (workflowID key : String) (db db' : Database) : Prop where
  entries : Extends (logOf workflowID key db.streams) (logOf workflowID key db'.streams)
  workflow : (db.statuses.get? workflowID).isSome → (db'.statuses.get? workflowID).isSome

theorem Keeps.refl (db : Database) : Keeps workflowID key db db := ⟨.refl _,id⟩

theorem Keeps.trans (first : Keeps workflowID key db db') (second : Keeps workflowID key db' db'') : Keeps workflowID key db db'' :=
  ⟨first.entries.trans second.entries,fun there => second.workflow (first.workflow there)⟩

theorem apply_keeps (db : Database) (statement : Statement) : Keeps workflowID key db (statement.apply db) := by
  refine ⟨?_,by rw [apply_status_isSome]; exact id⟩
  rw [apply_streams]
  cases streamRow statement with
  | none => exact .refl _
  | some e =>
    intro o entry there
    rcases db.streams.insert_cases e.1 e.2 (workflowID,key,o) with same | ⟨_,absent,_⟩
    · exact same.trans there
    · rw [logOf,absent] at there
      cases there

theorem applyAll_keeps (db : Database) (statements : List Statement) : Keeps workflowID key db (applyAll db statements) := by
  induction statements generalizing db with
  | nil => exact .refl db
  | cons statement rest ih => exact (apply_keeps db statement).trans (ih _)

theorem inserts_keeps {statuses : List (String × WorkflowStatus)} {outputs : List ((String × Nat) × OperationOutput)}
    {events : List ((String × String) × WorkflowEvent)} {history : List ((String × Nat × String) × WorkflowEvent)}
    {streams : List ((String × String × Nat) × StreamEntry)} (inserts : Inserts db statuses outputs events history streams db') :
    Keeps workflowID key db db' := by
  refine ⟨?_,fun there => (insertRows_isSome inserts.statuses _).mpr (.inl there)⟩
  intro o entry there
  exact (Table.insertRows_get? inserts.streams _ _).mpr (.inl there)

theorem imports_keeps {payloads : List Export} (inserts : payloads.foldlM importOne db = some db') : Keeps workflowID key db db' := by
  induction payloads generalizing db with
  | nil =>
    cases inserts
    exact .refl _
  | cons x rest ih =>
    rw [List.foldlM_cons] at inserts
    obtain ⟨between,first,onward⟩ := Option.bind_eq_some_iff.mp inserts
    exact (inserts_keeps (insertOwned_inserts first)).trans (ih onward)

theorem writers_keep {sys sys' : Writers.System} {event : Writers.Event} (taken : Writers.step sys event = some sys')
    (spared : workflowID ∉ (Event.writers event).deleted) : Keeps workflowID key sys.db sys'.db := by
  cases step_moves taken with
  | next i input call call' auto found advances owned free => exact applyAll_keeps sys.db auto
  | commit i acknowledged call call' done found commits => exact applyAll_keeps sys.db done
  | forkCommit i f db found complete inserts =>
    have kept : Keeps workflowID key sys.db db := inserts_keeps inserts
    exact ⟨kept.entries,fun there => by simpa [markForked] using kept.workflow there⟩
  | importWorkflow exports payloads db known complete inserts => exact imports_keeps inserts
  | deleteWorkflows allIds idle =>
    have other : workflowID ∉ allIds := spared
    refine ⟨?_,by simp [deleteCascade,Status.deleteWorkflows,other]⟩
    intro o entry there
    simpa [logOf,deleteCascade,other] using there
  | statuses t kept unreserved => exact ⟨.refl _,kept workflowID⟩
  | _ => exact .refl sys.db

end

/-! ### What a reader has given -/

section
variable {Value : Type} {formats : Formats Value} {serializer : DBOSSerializer Value} {workflowID key : String} {unknown : Phase Value}
variable {db db' : Database} {r : Reader Value} {taken whole : List StreamEntry}

/-- How many entries the generator has read. -/
def Reader.position (r : Reader Value) : Nat :=
  match r.phase with
  | .suspended => r.offset + 1
  | _ => r.offset

/-- The row of a query that found the workflow. -/
def RowOf (log : Nat → Option StreamEntry) (offset : Nat) : Phase Value → Prop
  | .read status value => status.isSome ∧ ∀ v ∈ value,∃ entry,log offset = some entry ∧ v = ⟨some entry.value,entry.serialization⟩
  | _ => True

/-- The generator has given the entries at the front of the stream. -/
structure Gave (formats : Formats Value) (serializer : DBOSSerializer Value) (log : Nat → Option StreamEntry) (r : Reader Value)
    (taken : List StreamEntry) : Prop where
  front : Front log closes taken
  given : r.yielded.map .ok = taken.map (decode formats serializer)
  count : taken.length = r.position
  row : RowOf log r.offset r.phase

theorem gave_start (log : Nat → Option StreamEntry) : Gave formats serializer log {} [] := ⟨front_nil,rfl,rfl,trivial⟩

theorem Gave.extends {log log' : Nat → Option StreamEntry} (gave : Gave formats serializer log r taken) (more : Extends log log') :
    Gave formats serializer log' r taken := by
  obtain ⟨offset,finalRead,phase,yielded⟩ := r
  refine ⟨gave.front.extends more,gave.given,gave.count,?_⟩
  have row := gave.row
  cases phase with
  | read status value =>
    refine ⟨row.1,?_⟩
    intro v listed
    obtain ⟨entry,there,same⟩ := row.2 v listed
    exact ⟨entry,more _ _ there,same⟩
  | _ => trivial

variable (key) in
theorem readStreamValue_row (existing : (db.statuses.get? workflowID).isSome) (offset : Nat) :
    ∃ row,db.statuses.get? workflowID = some row ∧ readStreamValue db workflowID key offset =
      (some row.status,(logOf workflowID key db.streams offset).map fun entry => ⟨some entry.value,entry.serialization⟩) := by
  obtain ⟨row,found⟩ := Option.isSome_iff_exists.mp existing
  exact ⟨row,found,by simp [readStreamValue,found,logOf]⟩

theorem gave_turn (existing : (db.statuses.get? workflowID).isSome) (gave : Gave formats serializer (logOf workflowID key db.streams) r taken) :
    ∃ taken',Gave formats serializer (logOf workflowID key db.streams) (readStream formats serializer workflowID key unknown db r) taken' := by
  obtain ⟨offset,finalRead,phase,yielded⟩ := r
  obtain ⟨front,given,count,row⟩ := gave
  cases phase with
  | reading =>
    obtain ⟨here,_,asked⟩ := readStreamValue_row key existing offset
    refine ⟨taken,front,given,count,?_⟩
    simp only [readStream,asked]
    refine ⟨rfl,?_⟩
    intro v listed
    obtain ⟨entry,there,rfl⟩ := Option.map_eq_some_iff.mp listed
    exact ⟨entry,there,rfl⟩
  | read status value =>
    obtain ⟨known,found⟩ := row
    obtain ⟨status,rfl⟩ := Option.isSome_iff_exists.mp known
    cases value with
    | none =>
      refine ⟨taken,?_⟩
      simp only [readStream]
      split
      · exact ⟨front,given,count,trivial⟩
      · split
        · exact ⟨front,given,count,trivial⟩
        · exact ⟨front,given,count,trivial⟩
    | some v =>
      obtain ⟨entry,there,rfl⟩ := found v rfl
      simp only [readStream]
      split
      · exact ⟨taken,front,given,count,trivial⟩
      · rename_i other
        split
        · rename_i v decoded
          have goes : closes entry = false := by simpa [closes] using other
          have next : logOf workflowID key db.streams taken.length = some entry := by
            rw [show taken.length = offset from count]
            exact there
          refine ⟨taken ++ [entry],front.concat next goes,?_,?_,trivial⟩
          · rw [List.map_append,List.map_append,given,List.map_singleton,List.map_singleton,← decoded]
            rfl
          · rw [List.length_append,show taken.length = offset from count]
            rfl
        · exact ⟨taken,front,given,count,trivial⟩
  | suspended => exact ⟨taken,front,given,count,trivial⟩
  | waiting => exact ⟨taken,front,given,count,trivial⟩
  | returned => exact ⟨taken,front,given,count,trivial⟩
  | threw e => exact ⟨taken,front,given,count,trivial⟩

/-- The workflow exists, and the generator has given what is at the front of its stream. -/
def Sound (formats : Formats Value) (serializer : DBOSSerializer Value) (workflowID key : String) (s : State Value) : Prop :=
  (s.sys.db.statuses.get? workflowID).isSome ∧ ∃ taken,Gave formats serializer (logOf workflowID key s.sys.db.streams) s.reader taken

theorem step_sound {s s' : State Value} {event : Event} (sound : Sound formats serializer workflowID key s)
    (spared : workflowID ∉ event.deleted) (stepped : step (readStream formats serializer workflowID key unknown) s event = some s') :
    Sound formats serializer workflowID key s' := by
  obtain ⟨existing,taken,gave⟩ := sound
  cases event with
  | writers event =>
    obtain ⟨sys,moved,rfl⟩ := Option.map_eq_some_iff.mp stepped
    have keeps : Keeps workflowID key s.sys.db sys.db := writers_keep moved spared
    exact ⟨keeps.workflow existing,taken,gave.extends keeps.entries⟩
  | reader =>
    cases stepped
    exact ⟨existing,gave_turn existing gave⟩

/-- A generator that has found its workflow does not come to know whether others would have been told so. -/
theorem readStream_known {log : Nat → Option StreamEntry} (row : RowOf log r.offset r.phase) (unknown other : Phase Value) (db : Database) :
    readStream formats serializer workflowID key unknown db r = readStream formats serializer workflowID key other db r := by
  obtain ⟨offset,finalRead,phase,yielded⟩ := r
  cases phase with
  | read status value =>
    obtain ⟨status,rfl⟩ := Option.isSome_iff_exists.mp row.1
    cases value <;> rfl
  | _ => rfl

theorem runs_known {s t : State Value} {events : List Event} (sound : Sound formats serializer workflowID key s)
    (spared : ∀ e ∈ events,workflowID ∉ e.deleted) (other : Phase Value)
    (run : Runs (step (readStream formats serializer workflowID key unknown)) s events t) :
    Sound formats serializer workflowID key t ∧ Runs (step (readStream formats serializer workflowID key other)) s events t := by
  induction events generalizing s with
  | nil =>
    cases runs_nil.mp run
    exact ⟨sound,runs_nil.mpr rfl⟩
  | cons event rest ih =>
    obtain ⟨s',stepped,onward⟩ := runs_cons.mp run
    have sound' := step_sound sound (spared event List.mem_cons_self) stepped
    obtain ⟨last,others⟩ := ih sound' (fun e member => spared e (List.mem_cons_of_mem _ member)) onward
    refine ⟨last,runs_cons.mpr ⟨s',?_,others⟩⟩
    cases event with
    | writers event => exact stepped
    | reader =>
      obtain ⟨_,taken,gave⟩ := sound
      rw [← stepped,step,step,readStream_known gave.row other unknown]

/-! ### After the workflow has ended -/

/-- What the caller has got when the generator is through, with what has been thrown at the end. -/
def Reader.outcome (r : Reader Value) : Option (List Value × Option (Thrown Value)) :=
  match r.phase with
  | .returned => some (r.yielded,none)
  | .threw (.inr e) => some (r.yielded,some e)
  | _ => none

/-- The turns until the generator is through, when nothing is written any more. -/
def Reader.ahead (length : Nat) (r : Reader Value) : Nat :=
  match r.phase with
  | .reading => 3 * (length - r.offset) + if r.finalRead then 2 else 4
  | .read _ (some _) => 3 * (length - r.offset) + if r.finalRead then 1 else 3
  | .read _ none => if r.finalRead then 1 else 3
  | .suspended => 3 * (length - r.offset) - 2 + if r.finalRead then 2 else 4
  | .waiting => 0
  | .returned => 0
  | .threw _ => 0

/-- What a generator is like whose next query finds that the workflow has ended. -/
def Stands (formats : Formats Value) (serializer : DBOSSerializer Value) (log : Nat → Option StreamEntry) (whole : List StreamEntry)
    (r : Reader Value) : Prop :=
  match r.phase with
  | .read status value => (∃ st ∈ status,isWorkflowActive st = false) ∧
      value = (log r.offset).map fun entry => ⟨some entry.value,entry.serialization⟩
  | .waiting => False
  | .returned => decodeAll (decode formats serializer) whole = (r.yielded,none)
  | .threw e => ∃ thrown,e = .inr thrown ∧ decodeAll (decode formats serializer) whole = (r.yielded,some thrown)
  | .reading => True
  | .suspended => True

variable (unknown) in
/-- The turn of a generator after the workflow has ended. -/
theorem stands_turn {row : WorkflowStatus} (found : db.statuses.get? workflowID = some row) (ended : isWorkflowActive row.status = false)
    (all : Whole (logOf workflowID key db.streams) closes whole) (gave : Gave formats serializer (logOf workflowID key db.streams) r taken)
    (stands : Stands formats serializer (logOf workflowID key db.streams) whole r) :
    Stands formats serializer (logOf workflowID key db.streams) whole (readStream formats serializer workflowID key unknown db r) ∧
      (readStream formats serializer workflowID key unknown db r).ahead whole.length ≤ r.ahead whole.length - 1 := by
  have within : taken.length ≤ whole.length := List.IsPrefix.length_le (gave.front.below all)
  obtain ⟨offset,finalRead,phase,yielded⟩ := r
  obtain ⟨front,given,count,_⟩ := gave
  cases phase with
  | reading =>
    have asked : readStreamValue db workflowID key offset =
        (some row.status,(logOf workflowID key db.streams offset).map fun entry => ⟨some entry.value,entry.serialization⟩) := by
      simp [readStreamValue,found,logOf]
    simp only [readStream,asked]
    refine ⟨⟨⟨_,rfl,ended⟩,rfl⟩,?_⟩
    cases logOf workflowID key db.streams offset with
    | none => cases finalRead <;> simp [Reader.ahead]
    | some entry => cases finalRead <;> simp [Reader.ahead]
  | read status value =>
    obtain ⟨⟨status,rfl,ended⟩,same⟩ := stands
    dsimp only at given same
    subst same
    have here : taken.length = offset := count
    cases there : logOf workflowID key db.streams offset with
    | none =>
      have last : Whole (logOf workflowID key db.streams) closes taken := ⟨front,by rw [here,there]; simp⟩
      rw [last.unique all] at given here
      cases finalRead with
      | true => exact ⟨decodeAll_ok given,by simp [readStream,Reader.ahead]⟩
      | false => simp [readStream,ended,Stands,Reader.ahead,here]
    | some entry =>
      simp only [Option.map_some,readStream]
      split
      · rename_i closed
        have last : Whole (logOf workflowID key db.streams) closes taken := by
          refine ⟨front,?_⟩
          rw [here,there]
          simpa [closes] using closed
        rw [last.unique all] at given
        exact ⟨decodeAll_ok given,by simp [Reader.ahead]⟩
      · rename_i other
        have goes : closes entry = false := by simpa [closes] using other
        obtain ⟨later,rfl⟩ : taken ++ [entry] <+: whole := (front.concat (by rw [here]; exact there) goes).below all
        split
        · refine ⟨trivial,?_⟩
          cases finalRead <;> simp [Reader.ahead,here] <;> omega
        · rename_i thrown failed
          refine ⟨⟨thrown,rfl,?_⟩,by simp [Reader.ahead]⟩
          have error : decode formats serializer entry = .error thrown := failed
          rw [List.append_assoc,decodeAll_append given]
          simp [decodeAll,error]
  | suspended =>
    have here : taken.length = offset + 1 := count
    refine ⟨trivial,?_⟩
    cases finalRead <;> simp [readStream,Reader.ahead] <;> omega
  | waiting => cases stands
  | returned => exact ⟨stands,by simp [readStream,Reader.ahead]⟩
  | threw e => exact ⟨stands,by simp [readStream,Reader.ahead]⟩

/-- The workflow has ended, and the step writes nothing to the stream. -/
def Quiet (workflowID key : String) (turn : Database → Reader Value → Reader Value) (s : State Value) (event : Event) : Prop :=
  (∃ row ∈ s.sys.db.statuses.get? workflowID,isWorkflowActive row.status = false) ∧
    ∀ s' ∈ step turn s event,logOf workflowID key s'.sys.db.streams = logOf workflowID key s.sys.db.streams

def Event.isReader : Event → Bool
  | .reader => true
  | .writers _ => false

theorem stands_run {s t : State Value} {events : List Event} (sound : Sound formats serializer workflowID key s)
    (all : Whole (logOf workflowID key s.sys.db.streams) closes whole)
    (stands : Stands formats serializer (logOf workflowID key s.sys.db.streams) whole s.reader)
    (spared : ∀ e ∈ events,workflowID ∉ e.deleted)
    (quiet : Along (step (readStream formats serializer workflowID key unknown))
      (Quiet workflowID key (readStream formats serializer workflowID key unknown)) s events)
    (run : Runs (step (readStream formats serializer workflowID key unknown)) s events t) :
    Whole (logOf workflowID key t.sys.db.streams) closes whole ∧
      Stands formats serializer (logOf workflowID key t.sys.db.streams) whole t.reader ∧
      t.reader.ahead whole.length ≤ s.reader.ahead whole.length - events.countP Event.isReader := by
  induction events generalizing s with
  | nil =>
    cases runs_nil.mp run
    exact ⟨all,stands,Nat.le_refl _⟩
  | cons event rest ih =>
    obtain ⟨s',stepped,onward⟩ := runs_cons.mp run
    obtain ⟨⟨⟨row,found,ended⟩,unwritten⟩,later⟩ := quiet
    have same := unwritten s' stepped
    have sound' := step_sound sound (spared event List.mem_cons_self) stepped
    have onward' := ih sound' (by rw [same]; exact all)
    have others : ∀ e ∈ rest,workflowID ∉ e.deleted := fun e member => spared e (List.mem_cons_of_mem _ member)
    cases event with
    | writers event =>
      obtain ⟨sys,_,rfl⟩ := Option.map_eq_some_iff.mp stepped
      rw [same] at onward'
      simpa [Event.isReader] using onward' stands others (later _ stepped) onward
    | reader =>
      cases stepped
      obtain ⟨_,taken,gave⟩ := sound
      obtain ⟨stands',less⟩ := stands_turn unknown found ended all gave stands
      obtain ⟨all',stands'',fewer⟩ := onward' stands' others (later _ rfl) onward
      refine ⟨all',stands'',?_⟩
      simp only [List.countP_cons,Event.isReader,if_true]
      dsimp only at fewer
      omega

theorem stands_outcome {log : Nat → Option StreamEntry} {result : List Value × Option (Thrown Value)}
    (stands : Stands formats serializer log whole r) (through : r.outcome = some result) :
    result = decodeAll (decode formats serializer) whole := by
  obtain ⟨offset,finalRead,phase,yielded⟩ := r
  cases phase with
  | returned =>
    cases through
    exact stands.symm
  | threw e =>
    obtain ⟨thrown,rfl,same⟩ := stands
    cases through
    exact same.symm
  | _ => cases through

theorem stands_through {log : Nat → Option StreamEntry} (stands : Stands formats serializer log whole r)
    (through : r.ahead whole.length = 0) : r.outcome.isSome := by
  obtain ⟨offset,finalRead,phase,yielded⟩ := r
  cases phase with
  | read status value => cases value <;> cases finalRead <;> simp [Reader.ahead] at through
  | waiting => cases stands
  | returned => rfl
  | threw e =>
    obtain ⟨thrown,rfl,_⟩ := stands
    rfl
  | _ => cases finalRead <;> simp [Reader.ahead] at through

/-! ### A generator alone -/

theorem runs_readers (turn : Database → Reader Value → Reader Value) (s : State Value) (n : Nat) :
    Runs (step turn) s (List.replicate n .reader) { s with reader := (turn s.sys.db)^[n] s.reader } := by
  induction n generalizing s with
  | zero => exact runs_nil.mpr rfl
  | succ n ih => exact runs_cons.mpr ⟨{ s with reader := turn s.sys.db s.reader },rfl,ih _⟩

theorem quiet_readers {turn : Database → Reader Value → Reader Value} {s : State Value}
    (ended : ∃ row ∈ s.sys.db.statuses.get? workflowID,isWorkflowActive row.status = false) (n : Nat) :
    Along (step turn) (Quiet workflowID key turn) s (List.replicate n .reader) := by
  induction n generalizing s with
  | zero => trivial
  | succ n ih =>
    refine ⟨⟨ended,?_⟩,?_⟩
    · rintro s' stepped
      cases stepped
      rfl
    · rintro s' stepped
      cases stepped
      exact ih ended

/-- A generator that nobody disturbs after the workflow has ended. -/
theorem alone_delivers {row : WorkflowStatus} (found : db.statuses.get? workflowID = some row) (ended : isWorkflowActive row.status = false)
    {n : Nat} (turns : 3 * (readable workflowID key db.streams).length + 4 ≤ n) :
    ((readStream formats serializer workflowID key unknown db)^[n] {}).outcome =
      some (decodeAll (decode formats serializer) (readable workflowID key db.streams)) := by
  have sound : Sound formats serializer workflowID key ⟨{ db := db },{}⟩ := ⟨by rw [found]; rfl,[],gave_start _⟩
  have start : Stands formats serializer (logOf workflowID key db.streams) (readable workflowID key db.streams) {} := trivial
  obtain ⟨_,stands,fewer⟩ := stands_run sound (readable_whole workflowID key db.streams) start
    (by simp [Event.deleted]) (quiet_readers ⟨row,found,ended⟩ n) (runs_readers (readStream formats serializer workflowID key unknown) _ n)
  have enough : Reader.ahead (readable workflowID key db.streams).length ({} : Reader Value) -
      (List.replicate n Event.reader).countP Event.isReader ≤ 0 := by
    have turned : (List.replicate n Event.reader).countP Event.isReader = n := by
      rw [List.countP_replicate]
      rfl
    simp only [Reader.ahead,turned,Bool.false_eq_true,if_false]
    omega
  obtain ⟨result,through⟩ := Option.isSome_iff_exists.mp (stands_through stands (Nat.le_zero.mp (Nat.le_trans fewer enough)))
  rw [stands_outcome stands through] at through
  exact through

/-- Whatever happens beside it, a generator gives the values at the front of the stream, each once. From the moment that it finds the
    workflow ended and nobody writes, it comes to its end in a bounded number of turns, with all that the stream has before a
    sentinel or an empty offset; only a text that cannot be decoded stops it there. The two generators do the same. -/
theorem readStream_delivers (formats : Formats Value) (serializer : DBOSSerializer Value) (workflowID key : String) {sys : Writers.System}
    (existing : (sys.db.statuses.get? workflowID).isSome) {events : List Event} (spared : ∀ e ∈ events,workflowID ∉ e.deleted)
    (s : State Value) :
    (Runs (step (DBOS.readStream formats serializer workflowID key)) ⟨sys,{}⟩ events s ↔
      Runs (step (DBOSClient.readStream formats serializer workflowID key)) ⟨sys,{}⟩ events s) ∧
    (Runs (step (DBOS.readStream formats serializer workflowID key)) ⟨sys,{}⟩ events s →
      s.reader.yielded.map .ok <+: (readable workflowID key s.sys.db.streams).map (decode formats serializer) ∧
      ∀ more t,s.reader.phase = .reading → (∀ e ∈ more,workflowID ∉ e.deleted) →
        Along (step (DBOS.readStream formats serializer workflowID key))
          (Quiet workflowID key (DBOS.readStream formats serializer workflowID key)) s more →
        Runs (step (DBOS.readStream formats serializer workflowID key)) s more t →
        (∀ result,t.reader.outcome = some result →
          result = decodeAll (decode formats serializer) (readable workflowID key t.sys.db.streams)) ∧
        (3 * (readable workflowID key t.sys.db.streams).length + 4 ≤ more.countP Event.isReader → t.reader.outcome.isSome) ∧
        ((∀ entry ∈ readable workflowID key t.sys.db.streams,∃ v,decode formats serializer entry = .ok v) →
          ∀ values e,t.reader.outcome = some (values,e) →
            e = none ∧ values.map .ok = (readable workflowID key t.sys.db.streams).map (decode formats serializer))) := by
  have start : Sound formats serializer workflowID key ⟨sys,{}⟩ := ⟨existing,[],gave_start _⟩
  refine ⟨⟨fun run => (runs_known start spared _ run).2,fun run => (runs_known start spared _ run).2⟩,?_⟩
  intro run
  obtain ⟨sound,_⟩ := runs_known start spared .returned run
  have all := readable_whole workflowID key s.sys.db.streams
  obtain ⟨existing',taken,gave⟩ := sound
  refine ⟨?_,?_⟩
  · rw [gave.given]
    exact (gave.front.below all).map _
  · intro more t turn spared' quiet onward
    have stands : Stands formats serializer (logOf workflowID key s.sys.db.streams) (readable workflowID key s.sys.db.streams) s.reader := by
      unfold Stands
      rw [turn]
      trivial
    obtain ⟨all',stands',fewer⟩ := stands_run ⟨existing',taken,gave⟩ all stands spared' quiet onward
    rw [all'.unique (readable_whole workflowID key t.sys.db.streams)] at stands' fewer
    obtain ⟨_,decoded,everything⟩ := decodeAll_spec (decode formats serializer) (readable workflowID key t.sys.db.streams)
    refine ⟨fun result through => stands_outcome stands' through,?_,?_⟩
    · intro turns
      refine stands_through stands' ?_
      have few : s.reader.ahead (readable workflowID key t.sys.db.streams).length ≤
          3 * (readable workflowID key t.sys.db.streams).length + 4 := by
        unfold Reader.ahead
        rw [turn]
        dsimp only
        split <;> omega
      omega
    · intro fine values e through
      have same := stands_outcome stands' through
      have none_ := decoded.mpr fine
      have values_ := everything none_
      rw [← same] at none_ values_
      exact ⟨none_,values_⟩

end

/-! ### Two streams -/

/-- A step of `w` writes a text to the stream `k`; it is the `i`-th call. -/
def puts (functionID i : Nat) (serializedValue serialization : String) : List Event :=
  [.writers (.begin (.streamWrite ⟨"w",functionID,"k",serializedValue,some serialization⟩ .called)),.writers (.next i {}),
    .writers (.next i {}),.writers (.commit i true)]

/-- `w` succeeds. -/
def succeeds : Event := .writers (.statuses (Table.empty.insert "w" { status := .SUCCESS,name := "f",created_at := 1,updated_at := 2 }))

abbrev sampleTurn : Database → Reader Sample → Reader Sample := DBOS.readStream sampleFormats superjson "w" "k"

/-- The generator waits before anything is written. The last value is behind a sentinel. -/
def waited : List Event :=
  [Event.reader,.reader] ++ puts 0 0 "\"a\"" "portable_json" ++ puts 1 1 DBOS_STREAM_CLOSED_SENTINEL "portable_json" ++
    puts 2 2 "\"b\"" "portable_json" ++ [succeeds,.reader]

theorem readStream_delivers_waited :
    ∃ s t,Runs (step sampleTurn) ⟨start running,{}⟩ waited s ∧ Runs (step sampleTurn) s (List.replicate 7 .reader) t ∧
      t.reader.outcome = some ([.string "a"],none) := by
  obtain ⟨s,run,turn,ended,all⟩ : ∃ s,Runs (step sampleTurn) ⟨start running,{}⟩ waited s ∧ s.reader.phase = .reading ∧
      (∃ row ∈ s.sys.db.statuses.get? "w",isWorkflowActive row.status = false) ∧
      readable "w" "k" s.sys.db.streams = [⟨"\"a\"",0,some "portable_json"⟩] := ⟨_,rfl,rfl,⟨_,rfl,rfl⟩,by decide⟩
  have more := runs_readers sampleTurn s 7
  have existing : ((start running).db.statuses.get? "w").isSome := rfl
  have spared : ∀ e ∈ waited,"w" ∉ e.deleted := by decide
  obtain ⟨_,delivers⟩ := readStream_delivers sampleFormats superjson "w" "k" existing spared s
  obtain ⟨given,through,_⟩ := (delivers run).2 _ _ turn (by decide) (quiet_readers ended 7) more
  dsimp only at given through
  rw [all] at given through
  obtain ⟨result,same⟩ := Option.isSome_iff_exists.mp (through (by decide))
  refine ⟨s,_,run,more,?_⟩
  rw [same,given result same]
  rfl

/-- A value that another application has written, with a serializer that this one has not. -/
def foreign : List Event :=
  puts 0 0 "\"a\"" "reversed" ++ puts 1 1 "\"b\"" "portable_json" ++ [succeeds]

/-- The generator throws at a text that it cannot decode, and does not give what is behind it. -/
theorem readStream_undecodable :
    (∃ s t e,Runs (step sampleTurn) ⟨start running,{}⟩ foreign s ∧ Runs (step sampleTurn) s (List.replicate 10 .reader) t ∧
      t.reader.outcome = some ([],some (.typeError e)) ∧ (readable "w" "k" t.sys.db.streams).length = 2 ∧
      decode sampleFormats superjson ⟨"\"b\"",1,some "portable_json"⟩ = .ok (.string "b")) ∧
    ¬ ∀ (formats : Formats Sample) (serializer : DBOSSerializer Sample) (workflowID key : String) (sys : Writers.System)
        (events more : List Event) (s t : State Sample),
      (sys.db.statuses.get? workflowID).isSome → (∀ e ∈ events ++ more,workflowID ∉ e.deleted) →
      Runs (step (DBOS.readStream formats serializer workflowID key)) ⟨sys,{}⟩ events s → s.reader.phase = .reading →
      Along (step (DBOS.readStream formats serializer workflowID key))
        (Quiet workflowID key (DBOS.readStream formats serializer workflowID key)) s more →
      Runs (step (DBOS.readStream formats serializer workflowID key)) s more t →
      3 * (readable workflowID key t.sys.db.streams).length + 4 ≤ more.countP Event.isReader →
      ∃ values,t.reader.outcome = some (values,none) ∧
        values.map .ok = (readable workflowID key t.sys.db.streams).map (decode formats serializer) := by
  obtain ⟨s,run,turn,ended,length,through⟩ : ∃ s,Runs (step sampleTurn) ⟨start running,{}⟩ foreign s ∧ s.reader.phase = .reading ∧
      (∃ row ∈ s.sys.db.statuses.get? "w",isWorkflowActive row.status = false) ∧ (readable "w" "k" s.sys.db.streams).length = 2 ∧
      ((sampleTurn s.sys.db)^[10] s.reader).outcome =
        some ([],some (.typeError "Value deserialization type reversed is not available")) := ⟨_,rfl,rfl,⟨_,rfl,rfl⟩,rfl,rfl⟩
  have more := runs_readers sampleTurn s 10
  refine ⟨⟨s,_,_,run,more,through,length,rfl⟩,?_⟩
  intro always
  obtain ⟨values,result,_⟩ := always sampleFormats superjson "w" "k" (start running) foreign _ s _ rfl (by decide) run turn
    (quiet_readers ended 10) more (by rw [length]; decide)
  rw [through] at result
  cases result

end Dbos.StreamReader
