import Dbos.Ops

/-!
Workflows that a database table triggers: `packages/pgnotifier-receive/src/dbtrigger.ts`. Records come from catch-up queries, which read
again what is within `sequenceNumJitter` or `timestampSkewMS` of the stored high-water mark, from polls and from notifications.
`payloadFunc` computes a workflow ID from the version of the record and hands it to `DBOS.startWorkflow` as `workflowUUID`, a
name that `startWorkflow` does not read: every delivery starts a workflow under a new ID.
-/
namespace Dbos.Trigger
open Dbos.Pg Dbos.Schema Dbos.Status Dbos.Start Dbos.Ops StatusString

/-- A value of a record, as `JSON.parse` gives it; `fraction` is a number that is no integer. -/
inductive Json
  | null
  | number (n : Int)
  | fraction (text : String)
  | text (s : String)
  | other (text : String)
  deriving DecidableEq

abbrev Record := List (String × Json)

/-- A time in milliseconds, or NaN. -/
abbrev Time := Option Int

inductive TriggerOperation
  | insert
  | delete
  | update
  | upsert
  deriving DecidableEq

structure TriggerPayload where
  operation : TriggerOperation
  record : Record
  deriving DecidableEq

/-- The configuration of a trigger workflow and its registration. `bigInt` is `BigInt` of a string, which may throw, and `getTime`
    reads the time of a date. -/
structure TriggerWorkflow where
  className : String
  name : String
  recordIDColumns : List String := []
  sequenceNumColumn : Option String := none
  sequenceNumJitter : Int := 0
  timestampColumn : Option String := none
  timestampSkewMS : Int := 0
  queueName : Option String := none
  bigInt : String → Option Int
  getTime : String → Time

/-- A version of a record: its key, sequence number and timestamp. -/
structure Version where
  key : List (Option Json)
  recseqnum : Option Int
  rectmstmp : Option Time
  deriving DecidableEq

/-- What `payloadFunc` passes on. -/
structure TriggerParams where
  workflowUUID : String
  queueName : Option String
  deriving DecidableEq

/-- What `DBOS.startWorkflow` reads. -/
structure StartWorkflowParams where
  workflowID : Option String := none
  queueName : Option String := none
  deriving DecidableEq

def TriggerParams.asStartWorkflowParams (params : TriggerParams) : StartWorkflowParams := { queueName := params.queueName }

/-- What comes of a payload: nothing, an error, or the start of a workflow. -/
inductive Delivery
  | skipped
  | throws
  | start (version : Version) (params : TriggerParams)
  deriving DecidableEq

/-- A column that is read: it is not configured, has a value, or does not fit. -/
inductive Reading (α : Type)
  | read (value : Option α)
  | unfit
  | throws

section
variable (trig : TriggerWorkflow)

def columnText : Option Json → String
  | some (.number n) => toString n
  | some (.fraction text) => text
  | some (.text s) => s
  | some (.other text) => text
  | _ => "undefined"

def readSequenceNum (record : Record) : Reading Int :=
  match trig.sequenceNumColumn with
  | none => .read none
  | some column =>
    match record.lookup column with
    | some (.number n) => .read (some n)
    | some (.fraction _) => .throws
    | some (.text s) => match trig.bigInt s with
      | some n => .read (some n)
      | none => .throws
    | _ => .unfit

/-- Timestamps are whole milliseconds; the source takes a fraction as well. -/
def readTimestamp (record : Record) : Reading Time :=
  match trig.timestampColumn with
  | none => .read none
  | some column =>
    match record.lookup column with
    | some (.number n) => .read (some (some n))
    | some (.text s) => .read (some (trig.getTime s))
    | _ => .unfit

def timeText (time : Time) : String := time.elim "NaN" toString

def payloadFunc (payload : TriggerPayload) : Delivery :=
  let key := trig.recordIDColumns.map fun kn => payload.record.lookup kn
  match readSequenceNum trig payload.record with
  | .unfit => .skipped
  | .throws => .throws
  | .read recseqnum =>
    match readTimestamp trig payload.record with
    | .unfit => .skipped
    | .throws => .throws
    | .read rectmstmp =>
      let keystr := key.map columnText ++ (recseqnum.map toString).toList ++ (rectmstmp.map timeText).toList
      if payload.operation = .delete then .skipped
      else if payload.operation = .update ∧ recseqnum = none ∧ rectmstmp = none then .skipped
      else .start ⟨key,recseqnum,rectmstmp⟩ {
        workflowUUID := "dbt_" ++ trig.className ++ "_" ++ trig.name ++ "_" ++ "|".intercalate keystr ++
          (rectmstmp.map fun time => "_" ++ timeText time).getD "" ++ (recseqnum.map fun num => "_" ++ toString num).getD ""
        queueName := trig.queueName }

/-- The ID of the workflow in `internalWorkflow`. There is no context from which `getNextWFID` could take one. -/
def workflowIDOf (params : StartWorkflowParams) (randomUUID : String) : String :=
  if truthy params.workflowID then params.workflowID.getD "" else randomUUID

def startedStatus (params : StartWorkflowParams) (randomUUID : String) (input : Option String) (now : Int) : WorkflowStatusInternal :=
  internalStatus { workflowName := trig.name,workflowClassName := trig.className,input := input }
    { workflowUUID := workflowIDOf params randomUUID,queueName := params.queueName } now

/-! ### Catching up -/

/-- The row of `event_dispatch_kv`. -/
structure DispatchState where
  updateSeq : Option Int := none
  updateTime : Option Int := none
  deriving DecidableEq

/-- `GREATEST` ignores NULL. -/
def greatest : Option Int → Option Int → Option Int
  | some a,some b => some (max a b)
  | some a,none => some a
  | none,b => b

/-- A number that is given and neither 0 nor NaN. -/
def truthyNumber (n : Option Int) : Option Int := n.filter fun n => n ≠ 0

def upsertEventDispatchState (last : Option DispatchState) (version : Version) : DispatchState where
  updateSeq := greatest (truthyNumber version.recseqnum) (last.bind DispatchState.updateSeq)
  updateTime := greatest (truthyNumber version.rectmstmp.join) (last.bind DispatchState.updateTime)

/-- `createPoll`: the numbers after which the catch-up query reads. -/
def createPoll (last : Option DispatchState) : Option Int × Option Int :=
  ((truthyNumber (last.bind DispatchState.updateSeq)).map fun num => num - trig.sequenceNumJitter,
    (last.bind DispatchState.updateTime).map fun time => if time ≠ 0 then time - trig.timestampSkewMS else time)

/-- The predicates of `createCatchupSql`; a NULL is not greater than anything. -/
def isAfter (poll : Option Int × Option Int) (record : Record) : Bool :=
  let after := fun (column : Option String) (start : Option Int) (value : Json → Option Int) =>
    match column,truthyNumber start with
    | some column,some start => (record.lookup column).any fun v => (value v).any fun n => start < n
    | _,_ => true
  let num := fun v => match v with
    | Json.number n => some n
    | _ => none
  let time := fun v => match v with
    | Json.text s => trig.getTime s
    | _ => none
  after trig.sequenceNumColumn poll.1 num && after trig.timestampColumn poll.2 time

/-- A receiver: its queue of payloads, the catch-up queries it has yet to run, and the version whose workflow it has started and not
    checkpointed. -/
structure Receiver where
  catchupPayloads : List TriggerPayload := []
  notifyPayloads : List TriggerPayload := []
  catchupFinished : Bool := false
  polls : List (Option Int × Option Int) := []
  upserting : Option Version := none

/-- `records` is the table of the user; `started` are the workflows that were created, with the versions they are for. -/
structure System where
  records : List Record := []
  statuses : Statuses := Table.empty
  last : Option DispatchState := none
  receivers : List (Option Receiver) := []
  started : List (Version × String) := []

/-- `startWorkflow` reaches the database, and its success is seen or not; or it fails before. -/
inductive Attempt
  | sent (randomUUID : String) (input : Option String) (now : Int) (acknowledged : Bool)
  | failed

inductive Event
  | write (records : List Record)
  | initReceiver
  | createPoll (i : Nat)
  | query (i : Nat) (fails : Bool)
  | notify (i : Nat) (payload : TriggerPayload)
  | finishCatchup (i : Nat)
  | dispatch (i : Nat) (attempt : Attempt)
  | upsert (i : Nat) (fails : Bool)
  | destroy (i : Nat)
  | other (op : Op)

/-- `dequeue`. -/
def Receiver.dequeue (r : Receiver) : Option (TriggerPayload × Receiver) :=
  match r.catchupPayloads,r.notifyPayloads with
  | payload :: rest,_ => some (payload,{ r with catchupPayloads := rest })
  | [],payload :: rest => if r.catchupFinished then some (payload,{ r with notifyPayloads := rest }) else none
  | [],[] => none

def System.put (s : System) (i : Nat) (r : Receiver) : System := { s with receivers := s.receivers.set i (some r) }

/-- `payloadFunc` up to the checkpoint. -/
def System.deliver (s : System) (i : Nat) (r : Receiver) (payload : TriggerPayload) (attempt : Attempt) : System :=
  match payloadFunc trig payload,attempt with
  | .start version params,.sent randomUUID input now acknowledged =>
    let status := startedStatus trig params.asStartWorkflowParams randomUUID input now
    let result := initWorkflowStatus s.statuses status none {} now
    let created := (s.statuses.get? status.workflowUUID).isNone && (result.2.get? status.workflowUUID).isSome
    { s with
      statuses := result.2
      receivers := s.receivers.set i (some { r with upserting := if result.1.isOk && acknowledged then some version else none })
      started := if created then s.started ++ [(version,status.workflowUUID)] else s.started }
  | _,_ => s.put i r

/-- `randomUUID` gives an ID that nobody has. -/
def System.unused (s : System) : Attempt → Bool
  | .sent randomUUID _ _ _ => (s.statuses.get? randomUUID).isNone && !(s.started.map Prod.snd).contains randomUUID
  | .failed => true

def step (s : System) : Event → Option System
  | .write records => some { s with records := records }
  | .initReceiver => some { s with receivers := s.receivers ++ [some {}] }
  | .createPoll i =>
    match s.receivers[i]? with
    | some (some r) => some (s.put i { r with polls := r.polls ++ [createPoll trig s.last] })
    | _ => none
  | .query i fails =>
    match s.receivers[i]? with
    | some (some r) =>
      match r.polls with
      | [] => none
      | poll :: rest =>
        let rows := if fails then [] else s.records.filter (isAfter trig poll)
        some (s.put i { r with polls := rest,catchupPayloads := r.catchupPayloads ++ rows.map fun record => ⟨.upsert,record⟩ })
    | _ => none
  | .notify i payload =>
    match s.receivers[i]? with
    | some (some r) => some (s.put i { r with notifyPayloads := r.notifyPayloads ++ [payload] })
    | _ => none
  | .finishCatchup i =>
    match s.receivers[i]? with
    | some (some r) => some (s.put i { r with catchupFinished := true })
    | _ => none
  | .dispatch i attempt =>
    match s.receivers[i]? with
    | some (some r) =>
      if r.upserting = none ∧ s.unused attempt = true then
        r.dequeue.map fun taken => s.deliver trig i taken.2 taken.1 attempt
      else none
    | _ => none
  | .upsert i fails =>
    match s.receivers[i]? with
    | some (some r) =>
      r.upserting.map fun version =>
        { s with
          last := if fails then s.last else some (upsertEventDispatchState s.last version)
          receivers := s.receivers.set i (some { r with upserting := none }) }
    | _ => none
  | .destroy i =>
    match s.receivers[i]? with
    | some _ => some { s with receivers := s.receivers.set i none }
    | none => none
  | .other op => some { s with statuses := op.apply s.statuses }

/-! ### Once only -/

/-- Each version has started at most one workflow, and no two workflows have one ID. -/
structure OnceOnly (s : System) : Prop where
  versions : (s.started.map Prod.fst).Nodup
  ids : (s.started.map Prod.snd).Nodup

/-- What a delivery would start is not a version that has been started. -/
def Undelivered (s : System) : Event → Prop
  | .dispatch i (.sent randomUUID input now _) =>
    ∀ r payload r' version params, s.receivers[i]? = some (some r) → r.dequeue = some (payload,r') →
      payloadFunc trig payload = .start version params →
      ((initWorkflowStatus s.statuses (startedStatus trig params.asStartWorkflowParams randomUUID input now) none {} now).2.get?
        randomUUID).isSome →
      version ∉ s.started.map Prod.fst
  | _ => True

variable {trig}

/-- `startWorkflow` does not see the ID. -/
theorem startedStatus_workflowUUID (params : TriggerParams) (randomUUID : String) (input : Option String) (now : Int) :
    (startedStatus trig params.asStartWorkflowParams randomUUID input now).workflowUUID = randomUUID := rfl

/-- What a step starts: nothing, or the workflow of a delivery, under the new ID. -/
inductive Starts (trig : TriggerWorkflow) (s : System) : Event → System → Prop
  | nothing (e : Event) (s' : System) (same : s'.started = s.started) (idle : Undelivered trig s e) : Starts trig s e s'
  | delivered (i : Nat) (randomUUID : String) (input : Option String) (now : Int) (acknowledged : Bool) (r r' : Receiver)
      (payload : TriggerPayload) (version : Version) (params : TriggerParams) (s' : System)
      (found : s.receivers[i]? = some (some r)) (taken : r.dequeue = some (payload,r'))
      (delivers : payloadFunc trig payload = .start version params)
      (created : ((initWorkflowStatus s.statuses (startedStatus trig params.asStartWorkflowParams randomUUID input now) none {} now).2.get?
        randomUUID).isSome)
      (fresh : randomUUID ∉ s.started.map Prod.snd) (grown : s'.started = s.started ++ [(version,randomUUID)]) :
      Starts trig s (.dispatch i (.sent randomUUID input now acknowledged)) s'

/-- A payload that starts nothing is not a version that has been started. -/
theorem undelivered_of_idle {s : System} {i : Nat} {r r' : Receiver} {payload : TriggerPayload} {randomUUID : String}
    {input : Option String} {now : Int} {acknowledged : Bool} (found : s.receivers[i]? = some (some r))
    (head : r.dequeue = some (payload,r')) (idle : ∀ version params, payloadFunc trig payload ≠ .start version params) :
    Undelivered trig s (.dispatch i (.sent randomUUID input now acknowledged)) := by
  intro r₁ payload₁ r₁' version₁ params₁ found₁ head₁ delivers₁
  cases found.symm.trans found₁
  cases head.symm.trans head₁
  exact absurd delivers₁ (idle version₁ params₁)

theorem step_starts {s s' : System} {e : Event} (taken : step trig s e = some s') : Starts trig s e s' := by
  cases e with
  | dispatch i attempt =>
    simp only [step] at taken
    split at taken
    · rename_i r found
      split at taken
      · rename_i may
        obtain ⟨⟨payload,r'⟩,head,same⟩ := Option.map_eq_some_iff.mp taken
        cases attempt with
        | failed =>
          refine .nothing _ _ ?_ trivial
          rw [← same]
          unfold System.deliver
          split
          · rename_i sent
            cases sent
          · rfl
        | sent randomUUID input now acknowledged =>
          cases delivers : payloadFunc trig payload with
          | start version params =>
            simp only [System.deliver,delivers,startedStatus_workflowUUID] at same
            have unused := may.2
            simp only [System.unused,Bool.and_eq_true,Bool.not_eq_true',List.contains_eq_mem,decide_eq_false_iff_not] at unused
            by_cases created : ((initWorkflowStatus s.statuses (startedStatus trig params.asStartWorkflowParams randomUUID input now) none {}
                now).2.get? randomUUID).isSome = true
            · refine .delivered i randomUUID input now acknowledged r r' payload version params s' found head delivers created unused.2 ?_
              rw [← same]
              simp [unused.1,created]
            · refine .nothing _ _ ?_ ?_
              · rw [← same]
                simp [created]
              · intro r₁ payload₁ r₁' version₁ params₁ found₁ head₁ delivers₁ created₁
                cases found.symm.trans found₁
                cases head.symm.trans head₁
                cases delivers.symm.trans delivers₁
                exact absurd created₁ created
          | skipped =>
            simp only [System.deliver,delivers] at same
            exact .nothing _ _ (same ▸ rfl) (undelivered_of_idle found head (by simp [delivers]))
          | throws =>
            simp only [System.deliver,delivers] at same
            exact .nothing _ _ (same ▸ rfl) (undelivered_of_idle found head (by simp [delivers]))
      · cases taken
    · cases taken
  | query i fails =>
    simp only [step] at taken
    split at taken
    · split at taken
      · cases taken
      · cases taken
        exact .nothing _ _ rfl trivial
    · cases taken
  | upsert i fails =>
    simp only [step] at taken
    split at taken
    · obtain ⟨version,_,same⟩ := Option.map_eq_some_iff.mp taken
      exact .nothing _ _ (same ▸ rfl) trivial
    · cases taken
  | write | initReceiver | other =>
    cases taken
    exact .nothing _ _ rfl trivial
  | createPoll | notify | finishCatchup | destroy =>
    simp only [step] at taken
    split at taken
    · cases taken
      exact .nothing _ _ rfl trivial
    · cases taken

/-- A step keeps the property exactly when it starts nothing again. -/
theorem onceOnly_step {s s' : System} {e : Event} (once : OnceOnly s) (taken : step trig s e = some s') :
    OnceOnly s' ↔ Undelivered trig s e := by
  have starts := step_starts taken
  cases starts with
  | nothing _ _ same idle =>
    have kept : OnceOnly s' := by
      refine ⟨?_,?_⟩
      · rw [same]
        exact once.versions
      · rw [same]
        exact once.ids
    exact iff_of_true kept idle
  | delivered i randomUUID input now acknowledged r r' payload version params _ found head delivers created fresh grown =>
    constructor
    · intro after r₁ payload₁ r₁' version₁ params₁ found₁ head₁ delivers₁ _
      cases found.symm.trans found₁
      cases head.symm.trans head₁
      cases delivers.symm.trans delivers₁
      have distinct := after.versions
      rw [grown,List.map_append,List.map_singleton,← List.concat_eq_append,List.nodup_concat] at distinct
      exact distinct.1
    · intro undelivered
      have absent := undelivered r payload r' version params found head delivers created
      refine ⟨?_,?_⟩
      · rw [grown,List.map_append,List.map_singleton,← List.concat_eq_append,List.nodup_concat]
        exact ⟨absent,once.versions⟩
      · rw [grown,List.map_append,List.map_singleton,← List.concat_eq_append,List.nodup_concat]
        exact ⟨fresh,once.ids⟩

/-- In every run each version starts at most one workflow, in every state of it, exactly when no step of the run delivers a version
    again after a delivery has started its workflow. -/
theorem trigger_once_iff {t : Statuses} {records : List Record} {last : Option DispatchState} {events : List Event} {s : System}
    (run : Runs (step trig) { records := records,statuses := t,last := last } events s) :
    (∀ first rest s', events = first ++ rest → Runs (step trig) { records := records,statuses := t,last := last } first s' →
        OnceOnly s') ↔
      Along (step trig) (Undelivered trig) { records := records,statuses := t,last := last } events := by
  constructor
  · intro always
    refine along_iff.mpr ?_
    intro first e rest s' split reached
    rw [split] at run
    obtain ⟨u,reached',onward⟩ := runs_append.mp run
    cases reached.symm.trans reached'
    obtain ⟨s'',taken,_⟩ := runs_cons.mp onward
    have later : Runs (step trig) { records := records,statuses := t,last := last } (first ++ [e]) s'' :=
      runs_append.mpr ⟨s',reached,runs_cons.mpr ⟨s'',taken,runs_nil.mpr rfl⟩⟩
    have before := always first (e :: rest) s' split reached
    exact (onceOnly_step before taken).mp (always (first ++ [e]) rest s'' (by simp [split]) later)
  · intro undelivered first rest s' split reached
    rw [split] at undelivered
    have begins : OnceOnly { records := records,statuses := t,last := last } := ⟨List.nodup_nil,List.nodup_nil⟩
    exact along_invariant (fun _ _ _ once fresh taken => (onceOnly_step once taken).mpr fresh) begins (along_append undelivered).1 reached

end

/-- A workflow on the table of orders, with sequence numbers that are up to ten off. -/
def orders : TriggerWorkflow where
  className := "C"
  name := "m"
  recordIDColumns := ["id"]
  sequenceNumColumn := some "seq"
  sequenceNumJitter := 10
  bigInt := String.toInt?
  getTime _ := none

def order : Record := [("id",.number 1),("seq",.number 5)]

/-- A process starts, catches up and delivers what it has read. -/
def catchUp (i : Nat) (randomUUID : String) : List Event :=
  [.initReceiver,.createPoll i,.query i false,.finishCatchup i,.dispatch i (.sent randomUUID (some "[]") 7 true),.upsert i false]

def launched : List Event := [Event.write [order]] ++ catchUp 0 "u1"

/-- Enough for `Undelivered`, and decided. -/
def firstDelivery (s : System) : Event → Bool
  | .dispatch _ _ => s.started = []
  | _ => true

theorem undelivered_of_first (s : System) (e : Event) (first : firstDelivery s e = true) : Undelivered orders s e := by
  cases e with
  | dispatch i attempt =>
    have nothing : s.started = [] := by simpa [firstDelivery] using first
    cases attempt with
    | failed => trivial
    | sent randomUUID input now acknowledged =>
      intro r payload r' version params _ _ _ _
      rw [nothing]
      exact List.not_mem_nil
  | _ => trivial

theorem trigger_once_first : ∃ s, Runs (step orders) {} launched s ∧
    s.started = [(⟨[some (.number 1)],some 5,none⟩,"u1")] ∧ s.last = some { updateSeq := some 5 } ∧ OnceOnly s := by
  have ran : (launched.foldlM (step orders) {}).map (fun s => (s.started,s.last)) =
      some ([(⟨[some (.number 1)],some 5,none⟩,"u1")],some { updateSeq := some 5 }) := by decide +kernel
  obtain ⟨s,run,ends⟩ := Option.map_eq_some_iff.mp ran
  have first : Along (step orders) (fun s e => firstDelivery s e = true) {} launched := by decide +kernel
  have once := (trigger_once_iff run).mpr (along_imp undelivered_of_first first) _ [] s (by simp) run
  exact ⟨s,run,congrArg Prod.fst ends,congrArg Prod.snd ends,once⟩

/-- After a restart the catch-up reads the order again, and its workflow is started again. -/
def restarted : List Event := launched ++ [Event.destroy 0] ++ catchUp 1 "u2"

theorem trigger_started_twice :
    payloadFunc orders ⟨.upsert,order⟩ = .start ⟨[some (.number 1)],some 5,none⟩ ⟨"dbt_C_m_1|5_5",none⟩ ∧
    (∃ s, Runs (step orders) {} restarted s ∧
      s.started = [(⟨[some (.number 1)],some 5,none⟩,"u1"),(⟨[some (.number 1)],some 5,none⟩,"u2")]) ∧
    ¬ ∀ (trig : TriggerWorkflow) events s, Runs (step trig) {} events s → OnceOnly s := by
  have ran : (restarted.foldlM (step orders) {}).map System.started =
      some [(⟨[some (.number 1)],some 5,none⟩,"u1"),(⟨[some (.number 1)],some 5,none⟩,"u2")] := by decide +kernel
  obtain ⟨s,run,twice⟩ := Option.map_eq_some_iff.mp ran
  refine ⟨by decide +kernel,⟨s,run,twice⟩,?_⟩
  intro always
  have versions := (always orders restarted s run).versions
  rw [twice] at versions
  exact absurd versions (by decide)

end Dbos.Trigger
