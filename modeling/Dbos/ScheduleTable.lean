import Dbos.Pg.Like
import Dbos.Pg.Run
import Dbos.Schema
import Dbos.ScheduleLoops
import Dbos.WorkflowList
import Mathlib.Data.List.Sort

/-!
The table of schedules: the statements of `src/system_database.ts` on `workflow_schedules`, each as the rows that it writes, with the row
that it waits for when another transaction has written it and has not committed. What a statement writes depends on these rows alone.
-/
namespace Dbos.ScheduleTable
open Dbos.Pg Dbos.Schema Dbos.ScheduleLoops Dbos.WorkflowList

/-! ### Rows -/

/-- A row of `workflow_schedules`; its key is `schedule_name`, and `schedule_id` is unique too. -/
structure WorkflowSchedule where
  scheduleId : String
  workflowName : String
  workflowClassName : String
  schedule : String
  status : ScheduleStatus
  context : String
  lastFiredAt : Option String
  automaticBackfill : Bool
  cronTimezone : Option String
  queueName : Option String
  deriving DecidableEq

structure WorkflowScheduleInternal extends WorkflowSchedule where
  scheduleName : String
  deriving DecidableEq

abbrev Schedules := Table String WorkflowSchedule

/-- The columns that an UPDATE sets, which are never the name and the ID. -/
structure Changes where
  workflowName : Option String := none
  workflowClassName : Option String := none
  schedule : Option String := none
  status : Option ScheduleStatus := none
  context : Option String := none
  lastFiredAt : Option (Option String) := none
  automaticBackfill : Option Bool := none
  cronTimezone : Option (Option String) := none
  queueName : Option (Option String) := none
  deriving DecidableEq

def Changes.apply (changes : Changes) (row : WorkflowSchedule) : WorkflowSchedule where
  scheduleId := row.scheduleId
  workflowName := changes.workflowName.getD row.workflowName
  workflowClassName := changes.workflowClassName.getD row.workflowClassName
  schedule := changes.schedule.getD row.schedule
  status := changes.status.getD row.status
  context := changes.context.getD row.context
  lastFiredAt := changes.lastFiredAt.getD row.lastFiredAt
  automaticBackfill := changes.automaticBackfill.getD row.automaticBackfill
  cronTimezone := changes.cronTimezone.getD row.cronTimezone
  queueName := changes.queueName.getD row.queueName

/-- A row that a statement writes. -/
inductive Write
  | insert (scheduleName : String) (row : WorkflowSchedule)
  | update (scheduleName : String) (changes : Changes)
  | delete (scheduleName : String)
  deriving DecidableEq

def Write.apply (t : Schedules) : Write → Schedules
  | .insert scheduleName row => t.insert scheduleName row
  | .update scheduleName changes => t.update (fun k _ => k = scheduleName) fun _ => changes.apply
  | .delete scheduleName => t.delete fun k _ => k = scheduleName

def applyAll (t : Schedules) (writes : List Write) : Schedules := writes.foldl Write.apply t

/-- What a transaction locks: the row under a name, an entry of the index on `schedule_id`, a checkpoint. -/
inductive Resource
  | name (scheduleName : String)
  | id (scheduleId : String)
  | checkpoint (key : String × Nat)
  deriving DecidableEq

def Write.resources : Write → List Resource
  | .insert scheduleName row => [.name scheduleName,.id row.scheduleId]
  | .update scheduleName _ => [.name scheduleName]
  | .delete scheduleName => [.name scheduleName]

/-! ### Statements -/

/-- The unique indexes refuse the row. -/
def taken (t : Schedules) (scheduleName scheduleId : String) : Bool :=
  (t.get? scheduleName).isSome || t.entries.any fun e => e.2.scheduleId = scheduleId

/-- An INSERT waits for the rows that it could conflict with. -/
def insertWaits (t : Schedules) (scheduleName scheduleId : String) : List Resource :=
  .name scheduleName :: .id scheduleId :: (t.keys fun _ row => row.scheduleId = scheduleId).map .name

def createSchedule (t : Schedules) (schedule : WorkflowScheduleInternal) : Except DbosError (List Write) :=
  if taken t schedule.scheduleName schedule.scheduleId then .error (.Error s!"Schedule '{schedule.scheduleName}' already exists")
  else .ok [.insert schedule.scheduleName schedule.toWorkflowSchedule]

/-- A statement on the row under a name hits it when it is there. -/
def onRow (t : Schedules) (scheduleName : String) (write : Write) : List Write :=
  if (t.get? scheduleName).isSome then [write] else []

def deleteSchedule (t : Schedules) (name : String) : List Write := onRow t name (.delete name)

def setScheduleStatus (t : Schedules) (name : String) (status : ScheduleStatus) : List Write :=
  onRow t name (.update name { status := some status })

def updateLastFiredAt (t : Schedules) (name lastFiredAt : String) : List Write :=
  onRow t name (.update name { lastFiredAt := some (some lastFiredAt) })

/-- The keys that are in the object; `null` clears a column. -/
structure WorkflowScheduleUpdate where
  schedule : Option String := none
  context : Option String := none
  automaticBackfill : Option Bool := none
  cronTimezone : Option (Option String) := none
  queueName : Option (Option String) := none
  deriving DecidableEq

def WorkflowScheduleUpdate.changes (updates : WorkflowScheduleUpdate) : Changes where
  schedule := updates.schedule
  context := updates.context
  automaticBackfill := updates.automaticBackfill
  cronTimezone := updates.cronTimezone
  queueName := updates.queueName

/-- Without a column to set, a SELECT looks whether the schedule is there. -/
def updateSchedule (t : Schedules) (name : String) (updates : WorkflowScheduleUpdate) : Except DbosError (List Write) :=
  if (t.get? name).isNone then .error (.DBOSError s!"Schedule '{name}' not found")
  else if updates = {} then .ok []
  else .ok (onRow t name (.update name updates.changes))

/-- The columns of the definition, which DO UPDATE takes from the new row. -/
def WorkflowSchedule.definition (row : WorkflowSchedule) : Changes where
  workflowName := some row.workflowName
  workflowClassName := some row.workflowClassName
  schedule := some row.schedule
  context := some row.context
  automaticBackfill := some row.automaticBackfill
  cronTimezone := some row.cronTimezone
  queueName := some row.queueName

/-- INSERT ... ON CONFLICT (schedule_name) DO UPDATE. -/
def upsertSchedule (t : Schedules) (sched : WorkflowScheduleInternal) : Except DbosError Write :=
  if (t.get? sched.scheduleName).isSome then .ok (.update sched.scheduleName sched.toWorkflowSchedule.definition)
  else if taken t sched.scheduleName sched.scheduleId then .error (.DatabaseError "23505")
  else .ok (.insert sched.scheduleName sched.toWorkflowSchedule)

def upsertWaits (t : Schedules) (sched : WorkflowScheduleInternal) : List Resource :=
  if (t.get? sched.scheduleName).isSome then [.name sched.scheduleName] else insertWaits t sched.scheduleName sched.scheduleId

def applySchedules (t : Schedules) : List WorkflowScheduleInternal → Except DbosError (List Write)
  | [] => .ok []
  | sched :: rest =>
    match upsertSchedule t sched with
    | .error e => .error e
    | .ok write => (applySchedules (write.apply t) rest).map (write :: ·)

structure ScheduleFilters where
  status : Option OneOrMany := none
  workflowName : Option OneOrMany := none
  scheduleNamePrefix : Option OneOrMany := none
  deriving DecidableEq

def statusText : ScheduleStatus → String
  | .ACTIVE => "ACTIVE"
  | .PAUSED => "PAUSED"

/-- The empty text is no filter. -/
def admits (test : String → Bool) : Option OneOrMany → Bool
  | none => true
  | some (.one s) => s = "" || test s
  | some (.many l) => l.any test

/-- The order of names under the collation of the database, and `serializer.stringify`. -/
structure Host (ρ : Type) where
  nameAtMost : String → String → Bool
  stringify : ρ → String

def listed (filters : ScheduleFilters) (name : String) (row : WorkflowSchedule) : Bool :=
  admits (· = statusText row.status) filters.status && admits (· = row.workflowName) filters.workflowName &&
    admits (fun p => likeMatch (p ++ "%").toList name.toList) filters.scheduleNamePrefix

/-- An empty array makes a condition that does not parse. -/
def listSchedules {ρ : Type} (host : Host ρ) (t : Schedules) (filters : ScheduleFilters) :
    Except DbosError (List WorkflowScheduleInternal) :=
  if some (.many []) ∈ [filters.status,filters.workflowName,filters.scheduleNamePrefix] then .error (.DatabaseError "42601")
  else .ok (((t.select (listed filters)).map fun e => ⟨e.2,e.1⟩).insertionSort
    fun (a b : WorkflowScheduleInternal) => host.nameAtMost a.scheduleName b.scheduleName)

def getSchedule (t : Schedules) (name : String) : Option WorkflowScheduleInternal := (t.get? name).map fun row => ⟨row,name⟩

/-! ### What a statement depends on -/

/-- The tables have the same rows under the names, and nothing has come to be under the IDs. -/
structure Agrees (R : List Resource) (t t' : Schedules) : Prop where
  name : ∀ n, .name n ∈ R → t'.get? n = t.get? n
  id : ∀ i, .id i ∈ R → ∀ n row, t'.get? n = some row → row.scheduleId = i →
    ∃ row', t.get? n = some row' ∧ row'.scheduleId = i

section
variable {R : List Resource} {t t' : Schedules}

theorem Agrees.refl (R : List Resource) (t : Schedules) : Agrees R t t :=
  ⟨fun _ _ => rfl,fun _ _ _ row found same => ⟨row,found,same⟩⟩

theorem Agrees.trans {t'' : Schedules} (first : Agrees R t t') (second : Agrees R t' t'') : Agrees R t t'' where
  name n member := (second.name n member).trans (first.name n member)
  id i member n row found same := by
    obtain ⟨row',found',same'⟩ := second.id i member n row found same
    exact first.id i member n row' found' same'

/-- What a write makes of the row under a name. -/
theorem Write.get?_apply (w : Write) (t : Schedules) (n : String) :
    (w.apply t).get? n = match w with
      | .insert n' row => if n = n' then some ((t.get? n).getD row) else t.get? n
      | .update n' changes => (t.get? n).map fun row => if n = n' then changes.apply row else row
      | .delete n' => if n = n' then none else t.get? n := by
  cases w with
  | insert n' row =>
    simp only [Write.apply,Table.get?_insert]
    split
    · rename_i here
      subst here
      cases t.get? n <;> rfl
    · rfl
  | update n' changes => simp [Write.apply]
  | delete n' =>
    simp only [Write.apply,Table.get?_delete]
    by_cases here : n = n'
    · cases t.get? n <;> simp [here]
    · cases t.get? n <;> simp [here]

/-- A write elsewhere. -/
theorem Write.agrees (w : Write) (apart : ∀ r ∈ w.resources,r ∉ R) (t : Schedules) : Agrees R t (w.apply t) where
  name n member := by
    rw [Write.get?_apply]
    cases w with
    | insert n' row | delete n' =>
      have differ : n ≠ n' := fun same => apart (.name n') List.mem_cons_self (same ▸ member)
      simp only [if_neg differ]
    | update n' changes =>
      have differ : n ≠ n' := fun same => apart (.name n') List.mem_cons_self (same ▸ member)
      simp [differ]
  id i member n row found same := by
    rw [Write.get?_apply] at found
    cases w with
    | insert n' row' =>
      simp only at found
      split at found
      · cases old : t.get? n with
        | some row'' =>
          rw [old] at found
          cases found
          exact ⟨_,rfl,same⟩
        | none =>
          rw [old] at found
          cases found
          exact absurd (same ▸ member) (apart (.id _) (List.mem_cons_of_mem _ List.mem_cons_self))
      · exact ⟨row,found,same⟩
    | update n' changes =>
      obtain ⟨row',found',rfl⟩ := Option.map_eq_some_iff.mp found
      refine ⟨row',found',?_⟩
      split at same
      · exact same
      · exact same
    | delete n' =>
      simp only at found
      split at found
      · cases found
      · exact ⟨row,found,same⟩

theorem agrees_applyAll {writes : List Write} (apart : ∀ w ∈ writes,∀ r ∈ w.resources,r ∉ R) (t : Schedules) :
    Agrees R t (applyAll t writes) := by
  induction writes generalizing t with
  | nil => exact Agrees.refl R t
  | cons w rest ih =>
    have first := Write.agrees w (apart w List.mem_cons_self) t
    exact first.trans (ih (fun v member => apart v (List.mem_cons_of_mem _ member)) (w.apply t))

/-- The same write on both sides. -/
theorem Agrees.apply (agrees : Agrees R t t') {w : Write} (within : ∀ r ∈ w.resources,r ∈ R) : Agrees R (w.apply t) (w.apply t') where
  name n member := by
    rw [Write.get?_apply,Write.get?_apply,agrees.name n member]
  id i member n row found same := by
    rw [Write.get?_apply] at found
    rw [Write.get?_apply]
    cases w with
    | insert n' row' =>
      simp only at found ⊢
      by_cases here : n = n'
      · subst here
        rw [if_pos rfl,agrees.name n (within _ List.mem_cons_self)] at found
        rw [if_pos rfl]
        exact ⟨row,found,same⟩
      · rw [if_neg here] at found ⊢
        exact agrees.id i member n row found same
    | update n' changes =>
      obtain ⟨old,found',rfl⟩ := Option.map_eq_some_iff.mp found
      have kept : old.scheduleId = i := by
        split at same
        · exact same
        · exact same
      obtain ⟨old',there,same'⟩ := agrees.id i member n old found' kept
      refine ⟨_,Option.map_eq_some_iff.mpr ⟨old',there,rfl⟩,?_⟩
      split
      · exact same'
      · exact same'
    | delete n' =>
      simp only at found ⊢
      split at found
      · cases found
      · rename_i other
        rw [if_neg other]
        exact agrees.id i member n row found same

theorem taken_iff (t : Schedules) (scheduleName scheduleId : String) :
    taken t scheduleName scheduleId = true ↔
      (t.get? scheduleName).isSome = true ∨ ∃ n row, t.get? n = some row ∧ row.scheduleId = scheduleId := by
  simp only [taken,Bool.or_eq_true,List.any_eq_true,decide_eq_true_eq,Table.get?_eq_some]
  constructor
  · rintro (named | ⟨e,member,same⟩)
    · exact .inl named
    · exact .inr ⟨e.1,e.2,member,same⟩
  · rintro (named | ⟨n,row,member,same⟩)
    · exact .inl named
    · exact .inr ⟨(n,row),member,same⟩

/-- What is free stays free. -/
theorem Agrees.free {n i : String} (agrees : Agrees R t t') (named : .name n ∈ R) (identified : .id i ∈ R)
    (free : taken t n i = false) : taken t' n i = false := by
  rw [← Bool.not_eq_true,taken_iff] at free ⊢
  rintro (there | ⟨k,row,found,same⟩)
  · exact free (.inl (agrees.name n named ▸ there))
  · obtain ⟨row',found',same'⟩ := agrees.id i identified k row found same
    exact free (.inr ⟨k,row',found',same'⟩)

theorem Agrees.onRow {n : String} {w : Write} (agrees : Agrees R t t') (named : .name n ∈ R) : onRow t' n w = onRow t n w := by
  rw [ScheduleTable.onRow,ScheduleTable.onRow,agrees.name n named]

theorem upsertSchedule_agrees {sched : WorkflowScheduleInternal} {w : Write} (upserts : upsertSchedule t sched = .ok w)
    (within : ∀ r ∈ w.resources,r ∈ R) (agrees : Agrees R t t') : upsertSchedule t' sched = .ok w := by
  unfold upsertSchedule at upserts ⊢
  split at upserts
  · rename_i there
    cases upserts
    rw [if_pos (by rw [agrees.name _ (within _ List.mem_cons_self)]; exact there)]
  · rename_i absent
    split at upserts
    · cases upserts
    · rename_i free
      cases upserts
      have named := within _ List.mem_cons_self
      have identified := within (.id sched.scheduleId) (List.mem_cons_of_mem _ List.mem_cons_self)
      have free' := agrees.free named identified (Bool.not_eq_true _ ▸ free)
      rw [if_neg (by rw [agrees.name _ named]; exact absent),if_neg (by rw [free']; exact Bool.false_ne_true)]

theorem applySchedules_cons {sched : WorkflowScheduleInternal} {rest : List WorkflowScheduleInternal} {writes : List Write} :
    applySchedules t (sched :: rest) = .ok writes ↔
      ∃ w ws, upsertSchedule t sched = .ok w ∧ applySchedules (w.apply t) rest = .ok ws ∧ w :: ws = writes := by
  cases first : upsertSchedule t sched with
  | error e => simp [applySchedules,first]
  | ok w =>
    cases later : applySchedules (w.apply t) rest with
    | error e => simp [applySchedules,first,later,Except.map]
    | ok ws => simp [applySchedules,first,later,Except.map]

/-- `applySchedules` writes the same where the rows that it writes are the same. -/
theorem applySchedules_agrees {schedules : List WorkflowScheduleInternal} {writes : List Write}
    (applies : applySchedules t schedules = .ok writes) (within : ∀ w ∈ writes,∀ r ∈ w.resources,r ∈ R) (agrees : Agrees R t t') :
    applySchedules t' schedules = .ok writes := by
  induction schedules generalizing t t' writes with
  | nil => exact applies
  | cons sched rest ih =>
    obtain ⟨w,ws,first,later,rfl⟩ := applySchedules_cons.mp applies
    have here := within w List.mem_cons_self
    have later' := ih later (fun v member => within v (List.mem_cons_of_mem _ member)) (agrees.apply here)
    exact applySchedules_cons.mpr ⟨w,ws,upsertSchedule_agrees first here agrees,later',rfl⟩

/-- One schedule after the others. -/
theorem applySchedules_concat {schedules : List WorkflowScheduleInternal} {writes : List Write} {sched : WorkflowScheduleInternal}
    {w : Write} (applies : applySchedules t schedules = .ok writes) (upserts : upsertSchedule (applyAll t writes) sched = .ok w) :
    applySchedules t (schedules ++ [sched]) = .ok (writes ++ [w]) := by
  induction schedules generalizing t writes with
  | nil =>
    cases applies
    exact applySchedules_cons.mpr ⟨w,[],upserts,rfl,rfl⟩
  | cons sched' rest ih =>
    obtain ⟨v,ws,first,later,rfl⟩ := applySchedules_cons.mp applies
    exact applySchedules_cons.mpr ⟨v,ws ++ [w],first,ih later upserts,rfl⟩

end

/-! ### Applying schedules again -/

/-- The definition that the last schedule of the list under a name has. -/
def lastDefinition (name : String) : List WorkflowScheduleInternal → Option Changes
  | [] => none
  | sched :: rest =>
    (lastDefinition name rest).or (if sched.scheduleName = name then some sched.toWorkflowSchedule.definition else none)

/-- The row has this definition, if there is one. -/
def Defined (changes : Option Changes) (row : Option WorkflowSchedule) : Prop :=
  ∀ c, changes = some c → ∃ r, row = some r ∧ r.definition = c

section
variable {t u u' : Schedules} {l l' : List WorkflowScheduleInternal} {writes : List Write}

/-- What one upsert makes of the row under a name. -/
theorem get?_upsertSchedule {sched : WorkflowScheduleInternal} {w : Write} (upserts : upsertSchedule t sched = .ok w) (n : String) :
    (w.apply t).get? n = if sched.scheduleName = n
      then some (((t.get? n).map fun old => sched.toWorkflowSchedule.definition.apply old).getD sched.toWorkflowSchedule)
      else t.get? n := by
  unfold upsertSchedule at upserts
  split at upserts
  · rename_i there
    cases upserts
    rw [Write.get?_apply]
    by_cases here : sched.scheduleName = n
    · subst here
      obtain ⟨old,found⟩ := Option.isSome_iff_exists.mp there
      simp [found]
    · cases found : t.get? n <;> simp [here,Ne.symm here]
  · rename_i absent
    split at upserts
    · cases upserts
    · cases upserts
      rw [Write.get?_apply]
      by_cases here : sched.scheduleName = n
      · subst here
        have none_ : t.get? sched.scheduleName = none := by simpa using absent
        simp [none_]
      · simp [here,Ne.symm here]

/-- Whatever is applied leaves each row as it was, or with the last definition under its name. -/
theorem get?_applySchedules (applies : applySchedules t l = .ok writes) (n : String) :
    (lastDefinition n l = none → (applyAll t writes).get? n = t.get? n) ∧
      Defined (lastDefinition n l) ((applyAll t writes).get? n) ∧
      ∀ old, t.get? n = some old →
        (applyAll t writes).get? n = some ((lastDefinition n l).elim old fun changes => changes.apply old) := by
  induction l generalizing t writes with
  | nil =>
    cases applies
    have defines : Defined (lastDefinition n []) ((applyAll t []).get? n) := by
      intro c defined
      cases defined
    exact ⟨fun _ => rfl,defines,fun old found => found⟩
  | cons sched rest ih =>
    obtain ⟨w,ws,first,later,rfl⟩ := applySchedules_cons.mp applies
    obtain ⟨same,defined,kept⟩ := ih later
    have new := get?_upsertSchedule first n
    have onward : applyAll t (w :: ws) = applyAll (w.apply t) ws := rfl
    rw [onward]
    by_cases here : sched.scheduleName = n
    · rw [if_pos here] at new
      have stored := kept _ new
      cases last : lastDefinition n rest with
      | none =>
        rw [last] at stored
        refine ⟨by simp [lastDefinition,last,here],?_,?_⟩
        · intro c what
          simp only [lastDefinition,last,here,if_true,Option.none_or,Option.some.injEq] at what
          subst what
          refine ⟨_,stored,?_⟩
          cases t.get? n <;> rfl
        · intro old found
          rw [stored,found]
          simp [lastDefinition,last,here]
      | some c =>
        rw [last] at stored defined
        refine ⟨by simp [lastDefinition,last],?_,?_⟩
        · simpa only [lastDefinition,last,Option.some_or] using defined
        · intro old found
          rw [stored,found]
          obtain ⟨r,there,mine⟩ := defined c rfl
          have whole : c.apply (sched.toWorkflowSchedule.definition.apply old) = c.apply old := by
            rw [← mine]
            rfl
          simp [lastDefinition,last,whole]
    · rw [if_neg here] at new
      have last : lastDefinition n (sched :: rest) = lastDefinition n rest := by simp [lastDefinition,here]
      rw [last]
      refine ⟨fun none_ => (same none_).trans new,defined,?_⟩
      intro old found
      exact kept old (new.trans found)

/-- Where all names are there, `applySchedules` does not fail. -/
theorem applySchedules_there (there : ∀ sched ∈ l,(t.get? sched.scheduleName).isSome = true) :
    ∃ writes, applySchedules t l = .ok writes := by
  induction l generalizing t with
  | nil => exact ⟨[],rfl⟩
  | cons sched rest ih =>
    have first : upsertSchedule t sched = .ok (.update sched.scheduleName sched.toWorkflowSchedule.definition) := by
      rw [upsertSchedule,if_pos (there sched List.mem_cons_self)]
    have still : ∀ other ∈ rest,(((Write.update sched.scheduleName sched.toWorkflowSchedule.definition).apply t).get?
        other.scheduleName).isSome = true := by
      intro other member
      rw [Write.get?_apply]
      have before := there other (List.mem_cons_of_mem _ member)
      cases found : t.get? other.scheduleName with
      | none => simp [found] at before
      | some row => rfl
    obtain ⟨ws,later⟩ := ih still
    exact ⟨_,applySchedules_cons.mpr ⟨_,ws,first,later,rfl⟩⟩

end

/-- What changes the runtime state of schedules. -/
inductive RuntimeEvent
  | setScheduleStatus (name : String) (status : ScheduleStatus)
  | updateLastFiredAt (name lastFiredAt : String)

def runtimeStep (t : Schedules) : RuntimeEvent → Option Schedules
  | .setScheduleStatus name status => some (applyAll t (setScheduleStatus t name status))
  | .updateLastFiredAt name lastFiredAt => some (applyAll t (updateLastFiredAt t name lastFiredAt))

section
variable {t u u' : Schedules} {l l' : List WorkflowScheduleInternal} {writes : List Write}

theorem get?_onRow {changes : Changes} (runtime : ∀ row, (changes.apply row).definition = row.definition) (name n : String)
    {c : Option Changes} (defined : Defined c (t.get? n)) : Defined c ((applyAll t (onRow t name (.update name changes))).get? n) := by
  intro d what
  obtain ⟨r,found,mine⟩ := defined d what
  unfold onRow
  split
  · have updated : (applyAll t [.update name changes]).get? n = some (if n = name then changes.apply r else r) := by
      have single : applyAll t [.update name changes] = (Write.update name changes).apply t := rfl
      rw [single,Write.get?_apply,found]
      rfl
    refine ⟨_,updated,?_⟩
    split
    · rw [runtime,mine]
    · exact mine
  · exact ⟨r,found,mine⟩

theorem runtimeStep_defined {n : String} {c : Option Changes} {e : RuntimeEvent} (defined : Defined c (t.get? n))
    (taken : runtimeStep t e = some u) : Defined c (u.get? n) := by
  cases e with
  | setScheduleStatus name status =>
    cases taken
    exact get?_onRow (fun _ => rfl) name n defined
  | updateLastFiredAt name lastFiredAt =>
    cases taken
    exact get?_onRow (fun _ => rfl) name n defined

theorem lastDefinition_some {sched : WorkflowScheduleInternal} (member : sched ∈ l) :
    ∃ c, lastDefinition sched.scheduleName l = some c := by
  induction l with
  | nil => cases member
  | cons first rest ih =>
    cases later : lastDefinition sched.scheduleName rest with
    | some c => exact ⟨c,by simp [lastDefinition,later]⟩
    | none =>
      rcases List.mem_cons.mp member with rfl | member
      · exact ⟨sched.toWorkflowSchedule.definition,by simp [lastDefinition,later]⟩
      · obtain ⟨c,found⟩ := ih member
        cases later.symm.trans found

/-- The names and the definitions are the same; the IDs are new. -/
def SameDefinitions : List WorkflowScheduleInternal → List WorkflowScheduleInternal → Prop :=
  List.Forall₂ fun a b => b.scheduleName = a.scheduleName ∧ b.toWorkflowSchedule.definition = a.toWorkflowSchedule.definition

theorem SameDefinitions.last (same : SameDefinitions l l') (n : String) : lastDefinition n l' = lastDefinition n l := by
  induction same with
  | nil => rfl
  | cons here _ ih => simp only [lastDefinition,ih,here.1,here.2]

/-- An unchanged re-apply is a no-op, whatever has happened to the runtime state of the schedules in between. -/
theorem reapply_unchanged {events : List RuntimeEvent} (applied : applySchedules t l = .ok writes)
    (run : Runs runtimeStep (applyAll t writes) events u) (same : SameDefinitions l l') :
    ∃ writes', applySchedules u l' = .ok writes' ∧ ∀ n, (applyAll u writes').get? n = u.get? n := by
  have defined : ∀ n, Defined (lastDefinition n l') (u.get? n) := by
    intro n
    rw [same.last]
    refine runs_invariant (I := fun t => Defined (lastDefinition n l) (t.get? n)) ?_ (get?_applySchedules applied n).2.1 run
    intro _ _ _ held taken
    exact runtimeStep_defined held taken
  have there : ∀ sched ∈ l',(u.get? sched.scheduleName).isSome = true := by
    intro sched member
    obtain ⟨c,last⟩ := lastDefinition_some member
    obtain ⟨r,found,_⟩ := defined _ c last
    rw [found]
    rfl
  obtain ⟨writes',applies⟩ := applySchedules_there there
  refine ⟨writes',applies,?_⟩
  intro n
  obtain ⟨untouched,_,kept⟩ := get?_applySchedules applies n
  cases last : lastDefinition n l' with
  | none => exact untouched last
  | some c =>
    obtain ⟨r,found,mine⟩ := defined n c last
    rw [kept r found,last,found,← mine]
    rfl

end

/-- A schedule with a new ID. -/
def hourly (scheduleId : String) : WorkflowScheduleInternal where
  scheduleId := scheduleId
  scheduleName := "hourly"
  workflowName := "report"
  workflowClassName := ""
  schedule := "0 * * * *"
  status := .ACTIVE
  context := "null"
  lastFiredAt := none
  automaticBackfill := true
  cronTimezone := none
  queueName := none

/-- It is paused and fires once more before it is applied again. -/
def pausedBetween : List RuntimeEvent := [.setScheduleStatus "hourly" .PAUSED,.updateLastFiredAt "hourly" "2024-01-01T00:00:00.000Z"]

theorem reapply_unchanged_paused : ∃ u writes', Runs runtimeStep ((Write.insert "hourly" (hourly "a").toWorkflowSchedule).apply Table.empty)
    pausedBetween u ∧ (u.get? "hourly").map WorkflowSchedule.status = some .PAUSED ∧
    applySchedules u [hourly "b"] = .ok writes' ∧ ∀ n, (applyAll u writes').get? n = u.get? n := by
  have applied : applySchedules Table.empty [hourly "a"] = .ok [.insert "hourly" (hourly "a").toWorkflowSchedule] := rfl
  obtain ⟨u,run,paused⟩ : ∃ u, Runs runtimeStep (applyAll Table.empty [.insert "hourly" (hourly "a").toWorkflowSchedule]) pausedBetween u ∧
      (u.get? "hourly").map WorkflowSchedule.status = some .PAUSED := ⟨_,rfl,rfl⟩
  have same : SameDefinitions [hourly "a"] [hourly "b"] := .cons ⟨rfl,rfl⟩ .nil
  obtain ⟨writes',applies,unchanged⟩ := reapply_unchanged applied run same
  exact ⟨u,writes',run,paused,applies,unchanged⟩

end Dbos.ScheduleTable
