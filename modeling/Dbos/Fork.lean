import Dbos.Pg.Copy
import Dbos.Communication

/-!
Forks: `bulkForkWorkflows` of `src/system_database.ts`. Its transaction inserts the statuses of
all forks and copies the checkpoints, streams and event history of the originals with one
statement for each table. The current events come from a window over the history that is
partitioned by the original and the key, so of the forks of one original only one gets an event.
-/
namespace Dbos.Fork
open Dbos.Pg Dbos.Schema Dbos.Status Dbos.Communication

/-- The original, the fork and the start step, an `int` of the database. -/
abbrev ForkMapping := Mapping String Int

/-- `function_id < m.start_step`. -/
def below (startStep : Int) (functionID : Nat) : Bool := (functionID : Int) < startStep

/-- `CASE WHEN oo.child_workflow_id = $1 THEN $2 ... ELSE oo.child_workflow_id END`. -/
def replaceChild (replacementChildren : List (String × String)) (row : OperationOutput) : OperationOutput :=
  { row with child_workflow_id := row.child_workflow_id.map fun child => (replacementChildren.lookup child).getD child }

def forkMappings (originalWorkflowIDs forkedWorkflowIDs : List String) (startSteps : List Int) : List ForkMapping :=
  ((originalWorkflowIDs.zip (forkedWorkflowIDs.zip startSteps)).map fun e => ⟨e.1,e.2.1,e.2.2⟩).filter fun m => 0 < m.bound

def outputHits (startStep : Int) (functionID : Nat) (_ : OperationOutput) : Bool := below startStep functionID
def streamHits (startStep : Int) (_ : String × Nat) (row : StreamEntry) : Bool := below startStep row.function_id
def historyHits (startStep : Int) (k : Nat × String) (_ : WorkflowEvent) : Bool := below startStep k.1

/-- The first three copies. -/
def copyCheckpoints (db : Database) (replacementChildren : List (String × String)) (mapping : List ForkMapping) :
    Option Database :=
  match db.outputs.insertRows (copied db.outputs outputHits (replaceChild replacementChildren) mapping) with
  | none => none
  | some outputs =>
    match db.streams.insertRows (copied db.streams streamHits id mapping) with
    | none => none
    | some streams =>
      match db.workflow_events_history.insertRows (copied db.workflow_events_history historyHits id mapping) with
      | none => none
      | some history => some { db with outputs := outputs,streams := streams,workflow_events_history := history }

/-- A row of the join that the window function ranks: the mapping and the history row. -/
abbrev RankedEvent := ForkMapping × (String × Nat × String) × WorkflowEvent

def historyJoin (history : WorkflowEventsHistory) (mapping : List ForkMapping) : List RankedEvent :=
  mapping.flatMap fun m => (history.select fun k _ => k.1 = m.source ∧ below m.bound k.2.1).map fun e => (m,e)

/-- `PARTITION BY weh.workflow_uuid, weh.key`. -/
def partitionOf (e : RankedEvent) : String × String := (e.2.1.1,e.2.1.2.2)

/-- `ORDER BY weh.function_id`. -/
def orderOf (e : RankedEvent) : Nat := e.2.1.2.1

def eventRows (ranked : List RankedEvent) : List ((String × String) × WorkflowEvent) :=
  ranked.map fun e => ((e.1.target,e.2.1.2.2),e.2.2)

/-- `ranked` are the rows with `rn = 1`; the result is `none` when they are no answer to the window. -/
def bulkForkWorkflows (db : Database) (originalWorkflowIDs forkedWorkflowIDs : List String) (startSteps : List Int)
    (options : ForkOptions) (replacementChildren : List (String × String)) (now : Int) (ranked : List RankedEvent) :
    Option (Except DbosError (List String) × Database) :=
  if originalWorkflowIDs = [] then some (.ok [],db)
  else if originalWorkflowIDs.length ≠ forkedWorkflowIDs.length ∨ originalWorkflowIDs.length ≠ startSteps.length then
    some (.error (.Error "originalWorkflowIDs, forkedWorkflowIDs, and startSteps must have the same length"),db)
  else
    match bulkForkStatuses db.statuses originalWorkflowIDs forkedWorkflowIDs options now with
    | (.error e,_) => some (.error e,db)
    | (.ok ids,statuses) =>
      let mapping := forkMappings originalWorkflowIDs forkedWorkflowIDs startSteps
      match copyCheckpoints { db with statuses := statuses } replacementChildren mapping with
      | none => some (.error (.DatabaseError "23505"),db)
      | some copies =>
        if FirstRanked partitionOf orderOf (historyJoin copies.workflow_events_history mapping) ranked then
          match copies.workflow_events.insertRows (eventRows ranked) with
          | none => some (.error (.DatabaseError "23505"),db)
          | some events => some (.ok ids,{ copies with workflow_events := events })
        else none

/-- The value of an event with the greatest function ID that is allowed. -/
def latestEvent (history : WorkflowEventsHistory) (workflowID key : String) (allowed : Nat → Bool) : Option WorkflowEvent :=
  ((history.keys fun k _ => k.1 = workflowID ∧ k.2.2 = key ∧ allowed k.2.1).map fun k => k.2.1).max?.bind
    fun n => history.get? (workflowID,n,key)

theorem latestEvent_iff {history : WorkflowEventsHistory} {workflowID key : String} {allowed : Nat → Bool} {event : WorkflowEvent} :
    latestEvent history workflowID key allowed = some event ↔ ∃ n, allowed n = true ∧
      history.get? (workflowID,n,key) = some event ∧
      ∀ n', allowed n' = true → (history.get? (workflowID,n',key)).isSome → n' ≤ n := by
  have listed : ∀ n, n ∈ ((history.keys fun k _ => k.1 = workflowID ∧ k.2.2 = key ∧ allowed k.2.1).map fun k => k.2.1) ↔
      allowed n = true ∧ (history.get? (workflowID,n,key)).isSome := by
    intro n
    simp only [List.mem_map,Table.mem_keys,decide_eq_true_eq]
    constructor
    · rintro ⟨⟨w,n',key'⟩,⟨r,found,rfl,rfl,may⟩,rfl⟩
      exact ⟨may,by rw [found]; rfl⟩
    · rintro ⟨may,present⟩
      obtain ⟨r,found⟩ := Option.isSome_iff_exists.mp present
      exact ⟨(workflowID,n,key),⟨r,found,rfl,rfl,may⟩,rfl⟩
  rw [latestEvent,Option.bind_eq_some_iff]
  constructor
  · rintro ⟨n,greatest,found⟩
    obtain ⟨member,bounds⟩ := List.max?_eq_some_iff.mp greatest
    refine ⟨n,((listed n).mp member).1,found,?_⟩
    intro n' may present
    exact bounds n' ((listed n').mpr ⟨may,present⟩)
  · rintro ⟨n,may,found,bounds⟩
    refine ⟨n,List.max?_eq_some_iff.mpr ⟨(listed n).mpr ⟨may,by rw [found]; rfl⟩,?_⟩,found⟩
    intro n' member
    exact bounds n' ((listed n').mp member).1 ((listed n').mp member).2

theorem latestEvent_isSome {history : WorkflowEventsHistory} {workflowID key : String} {allowed : Nat → Bool} {n : Nat}
    (may : allowed n = true) (present : (history.get? (workflowID,n,key)).isSome) :
    (latestEvent history workflowID key allowed).isSome := by
  have member : n ∈ ((history.keys fun k _ => k.1 = workflowID ∧ k.2.2 = key ∧ allowed k.2.1).map fun k => k.2.1) := by
    obtain ⟨r,found⟩ := Option.isSome_iff_exists.mp present
    exact List.mem_map.mpr ⟨(workflowID,n,key),(Table.mem_keys _ _ _).mpr ⟨r,found,by simp [may]⟩,rfl⟩
  cases greatest : ((history.keys fun k _ => k.1 = workflowID ∧ k.2.2 = key ∧ allowed k.2.1).map fun k => k.2.1).max? with
  | none =>
    rw [List.max?_eq_none_iff.mp greatest] at member
    cases member
  | some n' =>
    obtain ⟨⟨w,n'',key'⟩,listed,rfl⟩ := List.mem_map.mp (List.max?_eq_some_iff.mp greatest).1
    obtain ⟨r,found,hit⟩ := (Table.mem_keys _ _ _).mp listed
    simp only [decide_eq_true_eq] at hit
    obtain ⟨rfl,rfl,_⟩ := hit
    rw [latestEvent,greatest,Option.bind_some,found]
    rfl

/-! ### What forks contain -/

/-- Some table has a row of the workflow. -/
def Owns (db : Database) (w : String) : Prop :=
  (db.statuses.get? w).isSome ∨ (∃ k, (db.outputs.get? (w,k)).isSome) ∨ (∃ k, (db.streams.get? (w,k)).isSome) ∨
    (∃ k, (db.workflow_events_history.get? (w,k)).isSome) ∨ ∃ k, (db.workflow_events.get? (w,k)).isSome

/-- An original is marked, any other row stays. -/
def marked (ms : List ForkMapping) (k : String) (row : WorkflowStatus) : WorkflowStatus :=
  if k ∈ ms.map Mapping.source then { row with was_forked_from := true } else row

/-- The current events after the forks. -/
def eventAt (db : Database) (ms : List ForkMapping) (k : String × String) : Option WorkflowEvent :=
  match ms.find? fun m => m.target = k.1 with
  | some m => latestEvent db.workflow_events_history m.source k.2 (below m.bound)
  | none => db.workflow_events.get? k

/-- All tables but the current events hold what the forks are to have, and nothing else changed. -/
structure Copies (db : Database) (ms : List ForkMapping) (options : ForkOptions) (replacementChildren : List (String × String))
    (db' : Database) : Prop where
  forks : ∀ m ∈ ms,∃ ws now, db.statuses.get? m.source = some ws ∧
    db'.statuses.get? m.target = some (forkedRow m.source ws options now)
  others : ∀ k, k ∉ ms.map Mapping.target → db'.statuses.get? k = (db.statuses.get? k).map (marked ms k)
  outputs : ∀ k, db'.outputs.get? k = copyAt db.outputs outputHits (replaceChild replacementChildren) ms k
  streams : ∀ k, db'.streams.get? k = copyAt db.streams streamHits id ms k
  history : ∀ k, db'.workflow_events_history.get? k = copyAt db.workflow_events_history historyHits id ms k
  notifications : db'.notifications = db.notifications

structure Contents (db : Database) (ms : List ForkMapping) (options : ForkOptions)
    (replacementChildren : List (String × String)) (db' : Database) : Prop extends
    Copies db ms options replacementChildren db' where
  events : ∀ k, db'.workflow_events.get? k = eventAt db ms k

/-- The condition on the forks: two of one original have no event before both start steps. -/
def Apart (history : WorkflowEventsHistory) (ms : List ForkMapping) : Prop :=
  ∀ a ∈ ms,∀ b ∈ ms,a.target ≠ b.target → a.source = b.source → ∀ n key, below a.bound n = true → below b.bound n = true →
    history.get? (a.source,n,key) = none

/-! ### The statements -/

variable {db : Database} {ms : List ForkMapping} {options : ForkOptions} {replacementChildren : List (String × String)}
  {now : Int}

theorem insertForks_total (options : ForkOptions) (now : Int) {originals t : Statuses} (distinct : (ms.map Mapping.target).Nodup)
    (free : ∀ m ∈ ms,t.get? m.target = none) (exist : ∀ m ∈ ms,(originals.get? m.source).isSome) :
    ∃ t', (ms.map fun m => (m.source,m.target)).foldlM (insertFork originals options now) t = .ok t' ∧
      (∀ m ∈ ms,∃ ws, originals.get? m.source = some ws ∧ t'.get? m.target = some (forkedRow m.source ws options now)) ∧
      ∀ k, k ∉ ms.map Mapping.target → t'.get? k = t.get? k := by
  induction ms generalizing t with
  | nil => exact ⟨t,rfl,by simp,fun _ _ => rfl⟩
  | cons m rest ih =>
    rw [List.map_cons,List.nodup_cons] at distinct
    obtain ⟨ws,original⟩ := Option.isSome_iff_exists.mp (exist m List.mem_cons_self)
    have absent := free m List.mem_cons_self
    have first : insertFork originals options now t (m.source,m.target) =
        .ok (t.insert m.target (forkedRow m.source ws options now)) := by
      simp [insertFork,original,absent]
    obtain ⟨t',done,forks,others⟩ := ih (t := t.insert m.target (forkedRow m.source ws options now)) distinct.2
      (by
        intro m' member
        have other : m'.target ≠ m.target := fun same => distinct.1 (same ▸ List.mem_map_of_mem member)
        simpa [other] using free m' (List.mem_cons_of_mem _ member))
      (fun m' member => exist m' (List.mem_cons_of_mem _ member))
    refine ⟨t',?_,?_,?_⟩
    · rw [List.map_cons,List.foldlM_cons,first]
      exact done
    · intro m' member
      rcases List.mem_cons.mp member with rfl | later
      · refine ⟨ws,original,?_⟩
        rw [others _ distinct.1]
        simp [absent]
      · exact forks m' later
    · intro k elsewhere
      obtain ⟨here,later⟩ := not_or.mp (mt List.mem_cons.mpr elsewhere)
      rw [others k later]
      simp [here]

theorem bulkForkStatuses_total (options : ForkOptions) (now : Int) {t : Statuses}
    (distinct : (ms.map Mapping.target).Nodup)
    (free : ∀ m ∈ ms,t.get? m.target = none) (exist : ∀ m ∈ ms,(t.get? m.source).isSome) :
    ∃ t', bulkForkStatuses t (ms.map Mapping.source) (ms.map Mapping.target) options now = (.ok (ms.map Mapping.target),t') ∧
      (∀ m ∈ ms,∃ ws, t.get? m.source = some ws ∧ t'.get? m.target = some (forkedRow m.source ws options now)) ∧
      ∀ k, k ∉ ms.map Mapping.target → t'.get? k = (t.get? k).map (marked ms k) := by
  obtain ⟨t',done,forks,others⟩ := insertForks_total options now distinct free exist
  have zipped : (ms.map Mapping.source).zip (ms.map Mapping.target) = ms.map fun m => (m.source,m.target) :=
    List.zip_map'
  have existing : (ms.map Mapping.source).find? (fun wid => (t.get? wid).isNone) = none := by
    rw [List.find?_eq_none]
    intro wid member
    obtain ⟨m,listed,rfl⟩ := List.mem_map.mp member
    simpa [Option.isSome_iff_ne_none] using exist m listed
  refine ⟨t'.update (fun k _ => k ∈ ms.map Mapping.source) fun _ row => { row with was_forked_from := true },?_,?_,?_⟩
  · rw [bulkForkStatuses,existing,zipped,done]
  · intro m member
    obtain ⟨ws,original,stored⟩ := forks m member
    refine ⟨ws,original,?_⟩
    -- A fork is no original, since the originals are there before.
    have other : m.target ∉ ms.map Mapping.source := by
      intro taken
      obtain ⟨m',listed,same⟩ := List.mem_map.mp taken
      have present := exist m' listed
      rw [same,free m member] at present
      cases present
    rw [Table.get?_update,stored,Option.map_some,if_neg (by simpa using other)]
  · intro k elsewhere
    rw [Table.get?_update,others k elsewhere]
    simp only [decide_eq_true_eq]
    rfl

theorem copied_positive {κ ρ : Type} [DecidableEq κ] (t : Table (String × κ) ρ) (hit : Int → κ → ρ → Bool) (set : ρ → ρ)
    (never : ∀ bound k r, bound ≤ 0 → hit bound k r = false) :
    copied t hit set (ms.filter fun m => 0 < m.bound) = copied t hit set ms := by
  induction ms with
  | nil => rfl
  | cons m rest ih =>
    by_cases positive : 0 < m.bound
    · rw [List.filter_cons_of_pos (by simpa using positive)]
      simp only [copied,List.flatMap_cons] at ih ⊢
      rw [ih]
    · have nothing : (t.select fun k r => k.1 = m.source ∧ hit m.bound k.2 r) = [] := by
        simp [Table.select,never m.bound _ _ (by omega)]
      rw [List.filter_cons_of_neg (by simpa using positive),ih]
      simp only [copied,List.flatMap_cons,nothing,List.map_nil,List.nil_append]

theorem below_positive {startStep : Int} (nonpositive : startStep ≤ 0) (n : Nat) : below startStep n = false := by
  simp only [below,decide_eq_false_iff_not]
  omega

theorem mem_historyJoin {history : WorkflowEventsHistory} {e : RankedEvent} :
    e ∈ historyJoin history ms ↔ e.1 ∈ ms ∧ e.2.1.1 = e.1.source ∧ below e.1.bound e.2.1.2.1 = true ∧
      history.get? e.2.1 = some e.2.2 := by
  obtain ⟨m,k,event⟩ := e
  simp only [historyJoin,List.mem_flatMap,List.mem_map,Table.select,List.mem_filter,decide_eq_true_eq,Table.get?_eq_some,
    Prod.mk.injEq]
  constructor
  · rintro ⟨m',member,e,⟨found,owner,early⟩,rfl,rfl⟩
    exact ⟨member,owner,early,found⟩
  · rintro ⟨member,owner,early,found⟩
    exact ⟨m,member,(k,event),⟨found,owner,early⟩,rfl,rfl⟩

theorem forkMappings_eq (ms : List ForkMapping) :
    forkMappings (ms.map Mapping.source) (ms.map Mapping.target) (ms.map Mapping.bound) = ms.filter fun m => 0 < m.bound := by
  have zipped : (ms.map Mapping.target).zip (ms.map Mapping.bound) = ms.map fun m => (m.target,m.bound) := List.zip_map'
  rw [forkMappings,zipped,List.zip_map',List.map_map]
  exact congrArg _ (List.map_id ms)

/-- The originals exist and the forks do not, so no fork is an original. -/
theorem source_ne_target (fresh : Fresh ms (Owns db)) (exist : ∀ m ∈ ms,(db.statuses.get? m.source).isSome) {m : ForkMapping}
    (member : m ∈ ms) : m.source ∉ ms.map Mapping.target := by
  intro taken
  obtain ⟨m',listed,same⟩ := List.mem_map.mp taken
  exact fresh.unowned m' listed (same ▸ .inl (exist m member))

theorem copyCheckpoints_total (fresh : Fresh ms (Owns db)) (replacementChildren : List (String × String)) (statuses : Statuses) :
    ∃ copies, copyCheckpoints { db with statuses := statuses } replacementChildren (ms.filter fun m => 0 < m.bound) =
        some copies ∧ copies.statuses = statuses ∧ copies.notifications = db.notifications ∧
      copies.workflow_events = db.workflow_events ∧
      (∀ k, copies.outputs.get? k = copyAt db.outputs outputHits (replaceChild replacementChildren) ms k) ∧
      (∀ k, copies.streams.get? k = copyAt db.streams streamHits id ms k) ∧
      ∀ k, copies.workflow_events_history.get? k = copyAt db.workflow_events_history historyHits id ms k := by
  have outputsFresh : Fresh ms fun w => ∃ k, (db.outputs.get? (w,k)).isSome := fresh.mono fun w owned => .inr (.inl owned)
  have streamsFresh : Fresh ms fun w => ∃ k, (db.streams.get? (w,k)).isSome :=
    fresh.mono fun w owned => .inr (.inr (.inl owned))
  have historyFresh : Fresh ms fun w => ∃ k, (db.workflow_events_history.get? (w,k)).isSome :=
    fresh.mono fun w owned => .inr (.inr (.inr (.inl owned)))
  obtain ⟨outputs,copiedOutputs⟩ := copy_total db.outputs outputHits (replaceChild replacementChildren) outputsFresh
  obtain ⟨streams,copiedStreams⟩ := copy_total db.streams streamHits id streamsFresh
  obtain ⟨history,copiedHistory⟩ := copy_total db.workflow_events_history historyHits id historyFresh
  refine ⟨⟨statuses,outputs,db.notifications,db.workflow_events,history,streams⟩,?_,rfl,rfl,rfl,copy_get? outputsFresh copiedOutputs,
    copy_get? streamsFresh copiedStreams,copy_get? historyFresh copiedHistory⟩
  rw [copyCheckpoints,copied_positive _ outputHits _ fun _ n _ nonpositive => below_positive nonpositive n,
    copied_positive _ streamHits _ fun _ _ r nonpositive => below_positive nonpositive r.function_id,
    copied_positive _ historyHits _ fun _ k _ nonpositive => below_positive nonpositive k.1]
  dsimp only
  rw [copiedOutputs,copiedStreams,copiedHistory]

/-- The window ranks what the originals had before the copies. -/
theorem historyJoin_copies (fresh : Fresh ms (Owns db)) (exist : ∀ m ∈ ms,(db.statuses.get? m.source).isSome)
    {history : WorkflowEventsHistory} (copies : ∀ k, history.get? k = copyAt db.workflow_events_history historyHits id ms k)
    (e : RankedEvent) :
    e ∈ historyJoin history (ms.filter fun m => 0 < m.bound) ↔ e ∈ historyJoin db.workflow_events_history ms := by
  have same : e.1 ∈ ms → e.2.1.1 = e.1.source → history.get? e.2.1 = db.workflow_events_history.get? e.2.1 := by
    intro member owner
    exact (copies _).trans (copyAt_other (owner ▸ source_ne_target fresh exist member))
  rw [mem_historyJoin,mem_historyJoin,List.mem_filter]
  constructor
  · rintro ⟨⟨member,_⟩,owner,early,found⟩
    exact ⟨member,owner,early,same member owner ▸ found⟩
  · rintro ⟨member,owner,early,found⟩
    refine ⟨⟨member,?_⟩,owner,early,(same member owner).trans found⟩
    by_contra nonpositive
    simp only [decide_eq_true_eq] at nonpositive
    rw [below_positive (by omega)] at early
    cases early

/-! ### The events -/

variable {ranked : List RankedEvent}

theorem mapping_unique (distinct : (ms.map Mapping.target).Nodup) {a b : ForkMapping} (first : a ∈ ms) (second : b ∈ ms)
    (same : a.target = b.target) : a = b := List.inj_on_of_nodup_map distinct first second same

theorem eventRows_distinct (distinct : (ms.map Mapping.target).Nodup)
    (answer : FirstRanked partitionOf orderOf (historyJoin db.workflow_events_history ms) ranked) :
    ((eventRows ranked).map Prod.fst).Nodup := by
  rw [eventRows,List.map_map]
  refine List.Nodup.map_on ?_ (List.Nodup.of_map _ answer.2.2)
  intro e member e' member' same
  simp only [Function.comp_apply,Prod.mk.injEq] at same
  obtain ⟨listed,owner,_⟩ := mem_historyJoin.mp (answer.1 e member).1
  obtain ⟨listed',owner',_⟩ := mem_historyJoin.mp (answer.1 e' member').1
  have one := mapping_unique distinct listed listed' same.1
  refine List.inj_on_of_nodup_map answer.2.2 member member' ?_
  rw [partitionOf,partitionOf,owner,owner',one,same.2]

/-- The events of forks that are new can be inserted. -/
theorem eventRows_insert (fresh : Fresh ms (Owns db))
    (answer : FirstRanked partitionOf orderOf (historyJoin db.workflow_events_history ms) ranked) :
    ∃ events, db.workflow_events.insertRows (eventRows ranked) = some events := by
  refine Table.insertRows_total (eventRows_distinct fresh.distinct answer) ?_
  rintro ⟨k,event⟩ member
  obtain ⟨e,listed,same⟩ := List.mem_map.mp member
  cases same
  by_contra present
  exact fresh.unowned e.1 (mem_historyJoin.mp (answer.1 e listed).1).1
    (.inr (.inr (.inr (.inr ⟨_,Option.isSome_iff_ne_none.mpr present⟩))))

/-- Where two forks of one original have no common event, each gets the latest of its own. -/
theorem events_of_apart (fresh : Fresh ms (Owns db))
    (answer : FirstRanked partitionOf orderOf (historyJoin db.workflow_events_history ms) ranked) {events : WorkflowEvents}
    (done : db.workflow_events.insertRows (eventRows ranked) = some events) (apart : Apart db.workflow_events_history ms)
    (k : String × String) : events.get? k = eventAt db ms k := by
  ext event
  rw [Table.insertRows_get? done,eventAt]
  have rows : (k,event) ∈ eventRows ranked ↔ ∃ e ∈ ranked,(e.1.target,e.2.1.2.2) = k ∧ e.2.2 = event := by
    simp [eventRows]
  rw [rows]
  cases target : ms.find? fun m => m.target = k.1 with
  | none =>
    refine or_iff_left ?_
    rintro ⟨e,member,rfl,_⟩
    have other := List.find?_eq_none.mp target e.1 (mem_historyJoin.mp (answer.1 e member).1).1
    simp at other
  | some m =>
    have member := List.mem_of_find?_eq_some target
    have same : m.target = k.1 := by simpa using List.find?_some target
    have absent : db.workflow_events.get? k ≠ some event := by
      intro present
      exact fresh.unowned m member (.inr (.inr (.inr (.inr ⟨k.2,by rw [same,present]; rfl⟩))))
    simp only [absent,false_or]
    rw [latestEvent_iff]
    constructor
    · rintro ⟨⟨m',⟨w,n,key⟩,event'⟩,chosen,rfl,rfl⟩
      obtain ⟨listed,best⟩ := answer.1 _ chosen
      obtain ⟨member',owner,early,found⟩ := mem_historyJoin.mp listed
      dsimp only at same owner early found ⊢
      cases mapping_unique fresh.distinct member' member same.symm
      subst owner
      refine ⟨n,early,found,?_⟩
      intro n' early' present
      obtain ⟨other,found'⟩ := Option.isSome_iff_exists.mp present
      exact best (m',(m'.source,n',key),other) (mem_historyJoin.mpr ⟨member',rfl,early',found'⟩) rfl
    · rintro ⟨n,early,found,latest⟩
      have joins : (m,(m.source,n,k.2),event) ∈ historyJoin db.workflow_events_history ms :=
        mem_historyJoin.mpr ⟨member,rfl,early,found⟩
      obtain ⟨⟨m',⟨w,n',key⟩,event'⟩,chosen,part⟩ := answer.2.1 _ joins
      obtain ⟨listed,best⟩ := answer.1 _ chosen
      obtain ⟨member',owner,early',found'⟩ := mem_historyJoin.mp listed
      simp only [partitionOf,Prod.mk.injEq] at part
      dsimp only at owner early' found'
      obtain ⟨rfl,rfl⟩ := part
      -- The smaller of the two function IDs is before both start steps.
      have one : m' = m := by
        by_contra differ
        have targets : m'.target ≠ m.target := fun equal => differ (mapping_unique fresh.distinct member' member equal)
        simp only [below,decide_eq_true_eq] at early early'
        rcases Nat.le_total n n' with le | le
        · have missing := apart m member m' member' (Ne.symm targets) owner n k.2 (by simp only [below,decide_eq_true_eq]; omega)
            (by simp only [below,decide_eq_true_eq]; omega)
          cases missing.symm.trans found
        · have missing := apart m member m' member' (Ne.symm targets) owner n' k.2 (by simp only [below,decide_eq_true_eq]; omega)
            (by simp only [below,decide_eq_true_eq]; omega)
          cases missing.symm.trans found'
      subst one
      have above : n ≤ n' := best _ joins rfl
      have under := latest n' early' (by rw [found']; rfl)
      obtain rfl : n = n' := by omega
      cases found.symm.trans found'
      exact ⟨_,chosen,by simp [same],rfl⟩

/-- Two forks of one original with a common event are in one partition, and one of them gets
    no event. -/
theorem apart_of_events (fresh : Fresh ms (Owns db))
    (answer : FirstRanked partitionOf orderOf (historyJoin db.workflow_events_history ms) ranked) {events : WorkflowEvents}
    (done : db.workflow_events.insertRows (eventRows ranked) = some events) (right : ∀ k, events.get? k = eventAt db ms k) :
    Apart db.workflow_events_history ms := by
  intro a memberA b memberB targets sources n key earlyA earlyB
  by_contra present
  have some_ : (db.workflow_events_history.get? (a.source,n,key)).isSome := Option.isSome_iff_ne_none.mpr present
  have chosen : ∀ m ∈ ms,m.source = a.source → below m.bound n = true → ∃ e ∈ ranked,e.1.target = m.target ∧
      partitionOf e = (a.source,key) := by
    intro m member source early
    have latest : (latestEvent db.workflow_events_history m.source key (below m.bound)).isSome :=
      latestEvent_isSome early (by rw [source]; exact some_)
    obtain ⟨event,stored⟩ := Option.isSome_iff_exists.mp latest
    have inserted : events.get? (m.target,key) = some event := by
      rw [right,eventAt,find?_target fresh.distinct member]
      exact stored
    rcases (Table.insertRows_get? done _ _).mp inserted with old | new
    · exact absurd (.inr (.inr (.inr (.inr ⟨key,by rw [old]; rfl⟩)))) (fresh.unowned m member)
    · obtain ⟨e,listed,same⟩ := List.mem_map.mp new
      simp only [Prod.mk.injEq] at same
      obtain ⟨⟨target,rfl⟩,_⟩ := same
      obtain ⟨member',owner,_⟩ := mem_historyJoin.mp (answer.1 e listed).1
      have one := mapping_unique fresh.distinct member' member target
      exact ⟨e,listed,target,by rw [partitionOf,owner,one,source]⟩
  obtain ⟨ea,listedA,targetA,partA⟩ := chosen a memberA rfl earlyA
  obtain ⟨eb,listedB,targetB,partB⟩ := chosen b memberB sources.symm earlyB
  have one := List.inj_on_of_nodup_map answer.2.2 listedA listedB (partA.trans partB.symm)
  exact targets (targetA.symm.trans (one ▸ targetB))

/-! ### One call -/

theorem copies_nil : Contents db [] options replacementChildren db := by
  refine ⟨⟨by simp,?_,fun _ => rfl,fun _ => rfl,fun _ => rfl,rfl⟩,fun _ => rfl⟩
  intro k _
  have same : marked [] k = id := rfl
  rw [same,Option.map_id_fun,id]

/-- A call for forks that are new, of originals that exist: it has an answer, it succeeds with
    every answer, and only the events can be wrong. -/
theorem bulkFork_spec (options : ForkOptions) (replacementChildren : List (String × String)) (now : Int)
    (fresh : Fresh ms (Owns db)) (exist : ∀ m ∈ ms,(db.statuses.get? m.source).isSome) :
    (∃ ranked out, bulkForkWorkflows db (ms.map Mapping.source) (ms.map Mapping.target) (ms.map Mapping.bound) options
      replacementChildren now ranked = some out) ∧
    ∀ ranked out, bulkForkWorkflows db (ms.map Mapping.source) (ms.map Mapping.target) (ms.map Mapping.bound) options
        replacementChildren now ranked = some out →
      ∃ db', out = (.ok (ms.map Mapping.target),db') ∧ Copies db ms options replacementChildren db' ∧
        ((∀ k, db'.workflow_events.get? k = eventAt db ms k) ↔ Apart db.workflow_events_history ms) := by
  by_cases nothing : ms = []
  · subst nothing
    refine ⟨⟨[],(.ok [],db),rfl⟩,?_⟩
    intro ranked out called
    cases called
    exact ⟨db,rfl,copies_nil.toCopies,fun _ => by simp [Apart],fun _ _ => rfl⟩
  · obtain ⟨statuses,inserted,forks,others⟩ := bulkForkStatuses_total options now fresh.distinct
      (fun m member => by
        by_contra present
        exact fresh.unowned m member (.inl (Option.isSome_iff_ne_none.mpr present))) exist
    obtain ⟨copies,copied,sameStatuses,sameNotifications,sameEvents,outputs,streams,history⟩ :=
      copyCheckpoints_total fresh replacementChildren statuses
    have answers : ∀ ranked, FirstRanked partitionOf orderOf
        (historyJoin copies.workflow_events_history (ms.filter fun m => 0 < m.bound)) ranked ↔
        FirstRanked partitionOf orderOf (historyJoin db.workflow_events_history ms) ranked :=
      fun ranked => firstRanked_congr (historyJoin_copies fresh exist history)
    have runs : ∀ ranked, bulkForkWorkflows db (ms.map Mapping.source) (ms.map Mapping.target) (ms.map Mapping.bound) options
        replacementChildren now ranked =
        if FirstRanked partitionOf orderOf (historyJoin db.workflow_events_history ms) ranked then
          match db.workflow_events.insertRows (eventRows ranked) with
          | none => some (.error (.DatabaseError "23505"),db)
          | some events => some (.ok (ms.map Mapping.target),{ copies with workflow_events := events })
        else none := by
      intro ranked
      rw [bulkForkWorkflows,if_neg (by simpa using nothing),if_neg (by simp),inserted]
      dsimp only
      rw [forkMappings_eq,copied]
      simp only [answers,sameEvents]
    refine ⟨?_,?_⟩
    · obtain ⟨ranked,answer⟩ := exists_firstRanked partitionOf orderOf (historyJoin db.workflow_events_history ms)
      obtain ⟨events,done⟩ := eventRows_insert fresh answer
      exact ⟨ranked,_,by rw [runs,if_pos answer,done]⟩
    · intro ranked out called
      rw [runs] at called
      split at called
      · rename_i answer
        obtain ⟨events,done⟩ := eventRows_insert fresh answer
        rw [done] at called
        cases called
        refine ⟨_,rfl,⟨?_,?_,outputs,streams,history,sameNotifications⟩,?_⟩
        · intro m member
          obtain ⟨ws,original,stored⟩ := forks m member
          exact ⟨ws,now,original,by dsimp only; rw [sameStatuses]; exact stored⟩
        · intro k elsewhere
          dsimp only
          rw [sameStatuses]
          exact others k elsewhere
        · exact ⟨apart_of_events fresh answer done,events_of_apart fresh answer done⟩
      · cases called

end Dbos.Fork
