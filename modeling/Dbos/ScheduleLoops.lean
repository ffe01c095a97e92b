import Dbos.Pg.Run
import Dbos.Pg.Table

/-!
The loops of the dynamic scheduler: `#pollingLoop` and `destroy` of `DynamicSchedulerLoop` in `src/scheduler/scheduler.ts`. The polling
loop lists the schedules again and again and keeps one loop running for each active one with its current definition. It runs without an
await from the answer to its next sleep, but for the backfills; `destroy` can come at any await.
-/
namespace Dbos.ScheduleLoops
open Dbos.Pg

/-! ### The scheduler -/

inductive ScheduleStatus
  | ACTIVE
  | PAUSED
  deriving DecidableEq

/-- What `scheduleSignature` writes as JSON, `cronTimezone` and `queueName` with `null` for what is missing. -/
structure Signature where
  workflowName : String
  workflowClassName : String
  schedule : String
  context : String
  cronTimezone : Option String
  queueName : Option String
  deriving DecidableEq

/-- A row of `workflow_schedules`, with the instant of `lastFiredAt`. -/
structure Sched where
  scheduleName : String
  status : ScheduleStatus
  signature : Signature
  automaticBackfill : Bool
  lastFiredAt : Option Int
  deriving DecidableEq

/-- A call of `#scheduleLoop` with the signal that it was given. -/
structure Loop where
  scheduleName : String
  signature : Signature
  aborted : Bool := false
  deriving DecidableEq

/-- `ScheduleLoopEntry`: the number of a loop stands for its controller and its promise. -/
structure ScheduleLoopEntry where
  loop : Nat
  signature : Signature
  deriving DecidableEq

/-- Where the polling loop stands; `rest` is what is left of `schedules` behind the one that is backfilled. -/
inductive Polling
  | listing
  | backfilling (sched : Sched) (rest : List Sched)
  | sleeping
  | ended
  deriving DecidableEq

/-- `schedules` is what the last `listSchedules` has returned, `destroyed` says that `destroy` was called, and `cleared` that it has
    returned. -/
structure Scheduler where
  aborted : Bool := false
  polling : Polling := .listing
  schedules : List Sched := []
  scheduleLoops : Table String ScheduleLoopEntry := Table.empty
  loops : List Loop := []
  cleared : Bool := false

/-- `controller.abort()`. -/
def Scheduler.abort (s : Scheduler) (i : Nat) : Scheduler :=
  { s with loops := s.loops.modify i fun loop => { loop with aborted := true } }

/-- The loop of the schedule is aborted and its entry removed. -/
def Scheduler.remove (s : Scheduler) (name : String) : Scheduler :=
  match s.scheduleLoops.get? name with
  | some entry => { s.abort entry.loop with scheduleLoops := s.scheduleLoops.delete fun key _ => key = name }
  | none => s

/-- Stop loops for deleted schedules. -/
def Scheduler.removeDeleted (s : Scheduler) (schedules : List Sched) : Scheduler :=
  (s.scheduleLoops.entries.map Prod.fst).foldl
    (fun s name => if name ∈ schedules.map Sched.scheduleName then s else s.remove name) s

/-- A loop is started. -/
def Scheduler.startLoop (s : Scheduler) (sched : Sched) : Scheduler :=
  { s with
    loops := s.loops ++ [{ scheduleName := sched.scheduleName,signature := sched.signature }]
    scheduleLoops := s.scheduleLoops.insert sched.scheduleName ⟨s.loops.length,sched.signature⟩ }

/-- What is stopped for a schedule: the loop of a paused one, and the loop that runs an older definition. -/
def Scheduler.stopStale (s : Scheduler) (sched : Sched) : Scheduler :=
  match s.scheduleLoops.get? sched.scheduleName with
  | some existing =>
    if sched.status = .PAUSED ∨ existing.signature ≠ sched.signature then s.remove sched.scheduleName else s
  | none => s

/-- Missed executions are to be backfilled: `lastFired < now`. -/
def Sched.backfills (sched : Sched) (now : Int) : Bool := sched.automaticBackfill ∧ sched.lastFiredAt.any fun lastFired => lastFired < now

/-- The loop over the schedules, up to the next await. `clock` is what the clock says when a schedule is looked at. -/
def Scheduler.process (clock : String → Int) : Scheduler → List Sched → Scheduler
  | s,[] => { s with polling := .sleeping }
  | s,sched :: rest =>
    let s := s.stopStale sched
    if sched.status = .ACTIVE ∧ s.scheduleLoops.get? sched.scheduleName = none then
      if sched.backfills (clock sched.scheduleName) then { s with polling := .backfilling sched rest }
      else Scheduler.process clock (s.startLoop sched) rest
    else Scheduler.process clock s rest

/-- `listSchedules` answers or throws; a backfill ends; a sleep of the polling loop ends, and it is at its `while`; `destroy` is called,
    and returns when all that it waits for has ended. -/
inductive Event
  | listed (schedules : Option (List Sched)) (clock : String → Int)
  | backfilled (clock : String → Int)
  | wake
  | destroy
  | destroyed

/-- The names of schedules are distinct. -/
def step (s : Scheduler) : Event → Option Scheduler
  | .listed schedules clock =>
    match s.polling,schedules with
    | .listing,none => some { s with polling := .sleeping }
    | .listing,some schedules =>
      if (schedules.map Sched.scheduleName).Nodup then
        some (({ s with schedules := schedules }.removeDeleted schedules).process clock schedules)
      else none
    | _,_ => none
  | .backfilled clock =>
    match s.polling with
    | .backfilling sched rest => some ((s.startLoop sched).process clock rest)
    | _ => none
  | .wake =>
    match s.polling with
    | .sleeping => some { s with polling := if s.aborted then .ended else .listing }
    | _ => none
  | .destroy =>
    if s.aborted then none
    else some { (s.scheduleLoops.entries.map fun e => e.2.loop).foldl Scheduler.abort s with aborted := true }
  | .destroyed =>
    if s.aborted ∧ s.polling = .ended ∧ ¬ s.cleared then some { s with scheduleLoops := Table.empty,cleared := true } else none

/-! ### One loop for each entry -/

section
variable {s : Scheduler}

/-- An entry is that of its loop, and a loop that was not aborted has its entry. -/
structure Kept (s : Scheduler) : Prop where
  entries : ∀ name entry, s.scheduleLoops.get? name = some entry → ∃ loop, s.loops[entry.loop]? = some loop ∧
    loop.scheduleName = name ∧ loop.signature = entry.signature
  alive : ∀ (i : Nat) loop, s.loops[i]? = some loop → loop.aborted = false →
    s.scheduleLoops.get? loop.scheduleName = some ⟨i,loop.signature⟩

theorem getElem?_abort (s : Scheduler) (i j : Nat) :
    (s.abort i).loops[j]? = (s.loops[j]?).map fun loop => if j = i then { loop with aborted := true } else loop := by
  simp only [Scheduler.abort,List.getElem?_modify]
  cases s.loops[j]? <;> simp [eq_comm]

theorem get?_remove (s : Scheduler) (name key : String) :
    (s.remove name).scheduleLoops.get? key = if key = name then none else s.scheduleLoops.get? key := by
  unfold Scheduler.remove
  split
  · rename_i entry found
    rw [Table.get?_delete]
    by_cases here : key = name
    · rw [if_pos here]
      cases s.scheduleLoops.get? key <;> simp [here]
    · rw [if_neg here]
      cases s.scheduleLoops.get? key <;> simp [here]
  · rename_i absent
    by_cases here : key = name
    · rw [if_pos here,here,absent]
    · rw [if_neg here]

/-- Only the loop of the name is aborted. -/
theorem loops_remove (kept : Kept s) (name : String) (i : Nat) :
    (s.remove name).loops[i]? =
      (s.loops[i]?).map fun loop => if loop.scheduleName = name then { loop with aborted := true } else loop := by
  unfold Scheduler.remove
  split
  · rename_i entry found
    obtain ⟨loop,listed,named,_⟩ := kept.entries name entry found
    have aborts := getElem?_abort s entry.loop i
    rw [show ({ s.abort entry.loop with scheduleLoops := s.scheduleLoops.delete fun key _ => decide (key = name) } : Scheduler).loops =
      (s.abort entry.loop).loops from rfl,aborts]
    cases there : s.loops[i]? with
    | none => rfl
    | some other =>
      simp only [Option.map_some,Option.some.injEq]
      by_cases mine : i = entry.loop
      · subst mine
        cases listed.symm.trans there
        rw [if_pos rfl,if_pos named]
      · rw [if_neg mine]
        by_cases same : other.scheduleName = name
        · -- Another loop of the name is not alive.
          rw [if_pos same]
          cases gone : other.aborted with
          | true => cases other; simp_all
          | false =>
            have entry' := kept.alive i other there gone
            rw [same,found] at entry'
            cases entry'
            exact absurd rfl mine
        · rw [if_neg same]
  · rename_i absent
    cases there : s.loops[i]? with
    | none => rfl
    | some other =>
      simp only [Option.map_some,Option.some.injEq]
      by_cases same : other.scheduleName = name
      · rw [if_pos same]
        cases gone : other.aborted with
        | true => cases other; simp_all
        | false =>
          have entry := kept.alive i other there gone
          rw [same,absent] at entry
          cases entry
      · rw [if_neg same]

theorem Kept.remove (kept : Kept s) (name : String) : Kept (s.remove name) where
  entries := by
    intro key entry found
    rw [get?_remove] at found
    by_cases here : key = name
    · rw [if_pos here] at found
      cases found
    · rw [if_neg here] at found
      obtain ⟨loop,listed,named,same⟩ := kept.entries key entry found
      refine ⟨loop,?_,named,same⟩
      rw [loops_remove kept,listed,Option.map_some,if_neg (by rw [named]; exact here)]
  alive := by
    intro i loop listed lives
    rw [loops_remove kept] at listed
    obtain ⟨old,there,rfl⟩ := Option.map_eq_some_iff.mp listed
    by_cases here : old.scheduleName = name
    · rw [if_pos here] at lives
      cases lives
    · rw [if_neg here] at lives ⊢
      rw [get?_remove,if_neg here]
      exact kept.alive i old there lives

theorem Kept.startLoop (kept : Kept s) (sched : Sched) (free : s.scheduleLoops.get? sched.scheduleName = none) :
    Kept (s.startLoop sched) where
  entries := by
    intro key entry found
    simp only [Scheduler.startLoop,Table.get?_insert,free,Option.none_or] at found
    by_cases here : key = sched.scheduleName
    · rw [if_pos here] at found
      cases found
      exact ⟨_,List.getElem?_concat_length ..,here.symm,rfl⟩
    · rw [if_neg here] at found
      obtain ⟨loop,listed,named,same⟩ := kept.entries key entry found
      exact ⟨loop,(List.getElem?_append_left (List.getElem?_eq_some_iff.mp listed).1).trans listed,named,same⟩
  alive := by
    intro i loop listed lives
    simp only [Scheduler.startLoop,Table.get?_insert,free,Option.none_or]
    rcases party_append listed with old | ⟨rfl,rfl⟩
    · have entry := kept.alive i loop old lives
      have other : loop.scheduleName ≠ sched.scheduleName := by
        intro same
        rw [same,free] at entry
        cases entry
      rw [if_neg other]
      exact entry
    · rw [if_pos rfl]

/-- What runs for an entry. -/
theorem Kept.running (kept : Kept s) {name : String} {entry : ScheduleLoopEntry} (found : s.scheduleLoops.get? name = some entry)
    {loop : Loop} (there : s.loops[entry.loop]? = some loop) (lives : loop.aborted = false) :
    s.loops[entry.loop]? = some ⟨name,entry.signature,false⟩ := by
  obtain ⟨other,there',named,same⟩ := kept.entries name entry found
  cases there.symm.trans there'
  cases loop
  cases named
  cases same
  cases lives
  exact there

theorem stopStale_cases (s : Scheduler) (sched : Sched) :
    s.stopStale sched = s.remove sched.scheduleName ∨
      (s.stopStale sched = s ∧ ∀ entry, s.scheduleLoops.get? sched.scheduleName = some entry →
        sched.status = .ACTIVE ∧ entry.signature = sched.signature) := by
  unfold Scheduler.stopStale
  split
  · rename_i existing found
    split
    · exact .inl rfl
    · rename_i fits
      refine .inr ⟨rfl,?_⟩
      intro entry there
      cases found.symm.trans there
      have both := not_or.mp fits
      refine ⟨?_,by simpa using both.2⟩
      cases status : sched.status with
      | ACTIVE => rfl
      | PAUSED => exact absurd status both.1
  · rename_i absent
    refine .inr ⟨rfl,?_⟩
    intro entry there
    rw [absent] at there
    cases there

theorem Kept.stopStale (kept : Kept s) (sched : Sched) : Kept (s.stopStale sched) := by
  rcases stopStale_cases s sched with removes | ⟨stays,_⟩
  · rw [removes]
    exact kept.remove _
  · rw [stays]
    exact kept

theorem Kept.position (kept : Kept s) (polling : Polling) (schedules : List Sched) (aborted : Bool) :
    Kept { s with polling := polling,schedules := schedules,aborted := aborted } := ⟨kept.entries,kept.alive⟩

/-- What the removal of some names has done. -/
theorem foldl_remove (names : List String) (stays : String → Bool) (kept : Kept s) :
    Kept (names.foldl (fun s name => if stays name then s else s.remove name) s) ∧
      ∀ key, (names.foldl (fun s name => if stays name then s else s.remove name) s).scheduleLoops.get? key =
        if key ∈ names ∧ stays key = false then none else s.scheduleLoops.get? key := by
  induction names generalizing s with
  | nil => exact ⟨kept,by simp⟩
  | cons name rest ih =>
    rw [List.foldl_cons]
    by_cases keeps : stays name
    · rw [if_pos keeps]
      refine ⟨(ih kept).1,?_⟩
      intro key
      rw [(ih kept).2]
      by_cases same : key = name
      · subst same
        simp [keeps]
      · simp [same]
    · rw [if_neg keeps]
      refine ⟨(ih (kept.remove name)).1,?_⟩
      intro key
      rw [(ih (kept.remove name)).2,get?_remove]
      by_cases same : key = name
      · subst same
        simp [keeps]
      · simp [same]

theorem mem_names_of_get? {κ ρ : Type} [DecidableEq κ] {t : Table κ ρ} {k : κ} {r : ρ} (found : t.get? k = some r) :
    k ∈ t.entries.map Prod.fst := List.mem_map.mpr ⟨(k,r),(Table.get?_eq_some _ _ _).mp found,rfl⟩

theorem get?_removeDeleted (kept : Kept s) (schedules : List Sched) (key : String) :
    (s.removeDeleted schedules).scheduleLoops.get? key =
      if key ∈ schedules.map Sched.scheduleName then s.scheduleLoops.get? key else none := by
  have all := (foldl_remove (s.scheduleLoops.entries.map Prod.fst) (fun name => name ∈ schedules.map Sched.scheduleName) kept).2 key
  simp only [decide_eq_true_eq,decide_eq_false_iff_not] at all
  unfold Scheduler.removeDeleted
  rw [all]
  by_cases listed : key ∈ schedules.map Sched.scheduleName
  · rw [if_pos listed,if_neg fun both => both.2 listed]
  · rw [if_neg listed]
    cases found : s.scheduleLoops.get? key with
    | none => simp
    | some entry => rw [if_pos ⟨mem_names_of_get? found,listed⟩]

theorem Kept.removeDeleted (kept : Kept s) (schedules : List Sched) : Kept (s.removeDeleted schedules) := by
  have all := (foldl_remove (s.scheduleLoops.entries.map Prod.fst) (fun name => name ∈ schedules.map Sched.scheduleName) kept).1
  unfold Scheduler.removeDeleted
  simpa only [decide_eq_true_eq] using all

/-! ### One pass over the schedules -/

/-- The entry of the name is that of the active schedule of that name, if there is one. -/
def Current (s : Scheduler) (name : String) : Prop :=
  ∀ signature, (s.scheduleLoops.get? name).map ScheduleLoopEntry.signature = some signature ↔
    ∃ sched ∈ s.schedules,sched.scheduleName = name ∧ sched.status = .ACTIVE ∧ sched.signature = signature

/-- The entries are current but for the schedules that the pass has still to look at. -/
def Follows (s : Scheduler) : Polling → Prop
  | .backfilling sched rest => (∃ done, s.schedules = done ++ sched :: rest) ∧ sched.status = .ACTIVE ∧
      s.scheduleLoops.get? sched.scheduleName = none ∧ ∀ name, name ∉ (sched :: rest).map Sched.scheduleName → Current s name
  | _ => ∀ name, Current s name

/-- An entry after `destroy`: it was there with its loop aborted, or its loop is a new one, of another definition. -/
def Split (before : Table String ScheduleLoopEntry) (s : Scheduler) : Prop :=
  ∀ name entry, s.scheduleLoops.get? name = some entry → ∃ loop, s.loops[entry.loop]? = some loop ∧
    ((loop.aborted = true ∧ before.get? name = some entry) ∨
      (loop.aborted = false ∧ (before.get? name).map ScheduleLoopEntry.signature ≠ some entry.signature))

/-- What a pass after `destroy` has still to look at is as it was. -/
def Leaves (before : Table String ScheduleLoopEntry) (s : Scheduler) : Polling → Prop
  | .listing => ∀ name, s.scheduleLoops.get? name = before.get? name
  | .backfilling sched rest => (∀ name ∈ rest.map Sched.scheduleName,s.scheduleLoops.get? name = before.get? name) ∧
      (before.get? sched.scheduleName).map ScheduleLoopEntry.signature ≠ some sched.signature
  | _ => True

theorem Split.remove {before : Table String ScheduleLoopEntry} (split : Split before s) (kept : Kept s) (name : String) :
    Split before (s.remove name) := by
  intro key entry found
  rw [get?_remove] at found
  by_cases here : key = name
  · rw [if_pos here] at found
    cases found
  · rw [if_neg here] at found
    obtain ⟨loop,listed,cases_⟩ := split key entry found
    obtain ⟨loop',listed',named,_⟩ := kept.entries key entry found
    cases listed.symm.trans listed'
    refine ⟨loop,?_,cases_⟩
    rw [loops_remove kept,listed,Option.map_some,if_neg (by rw [named]; exact here)]

theorem Split.stopStale {before : Table String ScheduleLoopEntry} (split : Split before s) (kept : Kept s) (sched : Sched) :
    Split before (s.stopStale sched) := by
  rcases stopStale_cases s sched with removes | ⟨stays,_⟩
  · rw [removes]
    exact split.remove kept _
  · rw [stays]
    exact split

theorem Split.startLoop {before : Table String ScheduleLoopEntry} (split : Split before s) (sched : Sched)
    (free : s.scheduleLoops.get? sched.scheduleName = none)
    (new : (before.get? sched.scheduleName).map ScheduleLoopEntry.signature ≠ some sched.signature) :
    Split before (s.startLoop sched) := by
  intro key entry found
  simp only [Scheduler.startLoop,Table.get?_insert,free,Option.none_or] at found
  by_cases here : key = sched.scheduleName
  · subst here
    rw [if_pos rfl] at found
    cases found
    exact ⟨_,List.getElem?_concat_length ..,.inr ⟨rfl,new⟩⟩
  · rw [if_neg here] at found
    obtain ⟨loop,listed,cases_⟩ := split key entry found
    exact ⟨loop,(List.getElem?_append_left (List.getElem?_eq_some_iff.mp listed).1).trans listed,cases_⟩

theorem get?_stopStale_other (s : Scheduler) (sched : Sched) {name : String} (other : name ≠ sched.scheduleName) :
    (s.stopStale sched).scheduleLoops.get? name = s.scheduleLoops.get? name := by
  rcases stopStale_cases s sched with removes | ⟨stays,_⟩
  · rw [removes,get?_remove,if_neg other]
  · rw [stays]

theorem get?_startLoop_other (s : Scheduler) (sched : Sched) {name : String} (other : name ≠ sched.scheduleName) :
    (s.startLoop sched).scheduleLoops.get? name = s.scheduleLoops.get? name := by
  simp only [Scheduler.startLoop,Table.get?_insert,if_neg other]

theorem stopStale_fields (s : Scheduler) (sched : Sched) : (s.stopStale sched).schedules = s.schedules ∧
    (s.stopStale sched).aborted = s.aborted ∧ (s.stopStale sched).cleared = s.cleared := by
  rcases stopStale_cases s sched with removes | ⟨stays,_⟩
  · rw [removes]
    unfold Scheduler.remove
    split <;> exact ⟨rfl,rfl,rfl⟩
  · rw [stays]
    exact ⟨rfl,rfl,rfl⟩

/-- Each schedule is the only one of its name. -/
theorem sched_unique {schedules : List Sched} (distinct : (schedules.map Sched.scheduleName).Nodup) {a b : Sched} (first : a ∈ schedules)
    (second : b ∈ schedules) (same : a.scheduleName = b.scheduleName) : a = b := by
  exact List.inj_on_of_nodup_map distinct first second same

/-- After its turn the entry of a schedule is current. -/
theorem current_turn {sched : Sched} (distinct : (s.schedules.map Sched.scheduleName).Nodup) (member : sched ∈ s.schedules)
    (entry : (s.scheduleLoops.get? sched.scheduleName).map ScheduleLoopEntry.signature =
      if sched.status = .ACTIVE then some sched.signature else none) : Current s sched.scheduleName := by
  intro signature
  rw [entry]
  constructor
  · intro found
    split at found
    · rename_i active
      cases found
      exact ⟨sched,member,rfl,active,rfl⟩
    · cases found
  · rintro ⟨other,member',named,active,rfl⟩
    cases sched_unique distinct member' member named
    rw [if_pos active]

theorem current_frame {s' : Scheduler} {name : String} (current : Current s name)
    (entry : s'.scheduleLoops.get? name = s.scheduleLoops.get? name) (schedules : s'.schedules = s.schedules) : Current s' name := by
  intro signature
  rw [entry,schedules]
  exact current signature

/-- Where a pass leads. -/
structure Passed (before : Option (Table String ScheduleLoopEntry)) (s s' : Scheduler) : Prop where
  kept : Kept s'
  follows : Follows s' s'.polling
  leaves : ∀ table ∈ before,Split table s' ∧ Leaves table s' s'.polling
  schedules : s'.schedules = s.schedules
  aborted : s'.aborted = s.aborted
  cleared : s'.cleared = s.cleared
  turns : s'.polling = .sleeping ∨ ∃ sched rest, s'.polling = .backfilling sched rest

theorem process_passed (before : Option (Table String ScheduleLoopEntry)) (clock : String → Int) (rest : List Sched) :
    ∀ (s : Scheduler) (done : List Sched), Kept s → (s.schedules.map Sched.scheduleName).Nodup → s.schedules = done ++ rest →
      (∀ name, name ∉ rest.map Sched.scheduleName → Current s name) →
      (∀ table ∈ before,Split table s ∧ ∀ name ∈ rest.map Sched.scheduleName,s.scheduleLoops.get? name = table.get? name) →
      Passed before s (s.process clock rest) := by
  induction rest with
  | nil =>
    intro s done kept distinct split current leaves
    exact ⟨⟨kept.entries,kept.alive⟩,fun name => current name (by simp),fun table member => ⟨(leaves table member).1,trivial⟩,rfl,rfl,rfl,
      .inl rfl⟩
  | cons sched rest ih =>
    intro s done kept distinct split current leaves
    have member : sched ∈ s.schedules := by rw [split]; simp
    have behind : sched.scheduleName ∉ rest.map Sched.scheduleName := by
      rw [split,List.map_append,List.map_cons] at distinct
      exact (List.nodup_cons.mp (List.nodup_append.mp distinct).2.1).1
    have other : ∀ name, name ∈ rest.map Sched.scheduleName → name ≠ sched.scheduleName := by
      rintro name later rfl
      exact behind later
    obtain ⟨schedules,aborted,cleared⟩ := stopStale_fields s sched
    have kept' := kept.stopStale sched
    have current' : ∀ name, name ∉ (sched :: rest).map Sched.scheduleName → Current (s.stopStale sched) name := by
      intro name absent
      have apart : name ≠ sched.scheduleName := by
        rintro rfl
        exact absent (by simp)
      exact current_frame (current name absent) (get?_stopStale_other s sched apart) schedules
    have leaves' : ∀ table ∈ before,Split table (s.stopStale sched) ∧
        ∀ name ∈ rest.map Sched.scheduleName,(s.stopStale sched).scheduleLoops.get? name = table.get? name := by
      intro table given
      refine ⟨(leaves table given).1.stopStale kept sched,?_⟩
      intro name later
      rw [get?_stopStale_other s sched (other name later)]
      exact (leaves table given).2 name (List.mem_cons_of_mem _ later)
    simp only [Scheduler.process]
    split
    · rename_i starts
      -- A schedule without an entry had none with its definition before.
      have new : ∀ table ∈ before,(table.get? sched.scheduleName).map ScheduleLoopEntry.signature ≠ some sched.signature := by
        intro table given same
        obtain ⟨entry,found,signature⟩ := Option.map_eq_some_iff.mp same
        rw [← (leaves table given).2 sched.scheduleName (by simp)] at found
        have free := starts.2
        unfold Scheduler.stopStale at free
        rw [found] at free
        simp only [starts.1,signature,reduceCtorEq,ne_eq,not_true_eq_false,or_self,if_false] at free
        rw [found] at free
        cases free
      split
      · exact ⟨⟨kept'.entries,kept'.alive⟩,⟨⟨done,schedules.trans split⟩,starts.1,starts.2,current'⟩,
          fun table given => ⟨(leaves' table given).1,(leaves' table given).2,new table given⟩,schedules,aborted,cleared,
          .inr ⟨sched,rest,rfl⟩⟩
      · have started : ((s.stopStale sched).startLoop sched).schedules = s.schedules := schedules
        have passed := ih ((s.stopStale sched).startLoop sched) (done ++ [sched]) (kept'.startLoop sched starts.2)
          (by rw [started]; exact distinct) (by rw [started,split,List.append_assoc]; rfl) (by
            intro name absent
            by_cases mine : name = sched.scheduleName
            · subst mine
              refine current_turn (by rw [started]; exact distinct) (by rw [started]; exact member) ?_
              simp [Scheduler.startLoop,starts.1,starts.2]
            · refine current_frame (current' name ?_) (get?_startLoop_other _ sched mine) rfl
              simp only [List.map_cons,List.mem_cons]
              exact not_or.mpr ⟨mine,absent⟩) (by
            intro table given
            refine ⟨(leaves' table given).1.startLoop sched starts.2 (new table given),?_⟩
            intro name later
            rw [get?_startLoop_other _ sched (other name later)]
            exact (leaves' table given).2 name later)
        exact { passed with
          schedules := passed.schedules.trans started
          aborted := passed.aborted.trans aborted
          cleared := passed.cleared.trans cleared }
    · rename_i stays
      have passed := ih (s.stopStale sched) (done ++ [sched]) kept' (by rw [schedules]; exact distinct)
        (by rw [schedules,split,List.append_assoc]; rfl) (by
          intro name absent
          by_cases mine : name = sched.scheduleName
          · subst mine
            refine current_turn (by rw [schedules]; exact distinct) (by rw [schedules]; exact member) ?_
            rcases stopStale_cases s sched with removes | ⟨same,fits⟩
            · have none_ : (s.stopStale sched).scheduleLoops.get? sched.scheduleName = none := by rw [removes,get?_remove,if_pos rfl]
              have paused : sched.status ≠ .ACTIVE := fun active => stays ⟨active,none_⟩
              rw [none_,if_neg paused]
              rfl
            · rw [same] at stays ⊢
              cases found : s.scheduleLoops.get? sched.scheduleName with
              | none =>
                have paused : sched.status ≠ .ACTIVE := fun active => stays ⟨active,found⟩
                rw [if_neg paused]
                rfl
              | some entry =>
                obtain ⟨active,signature⟩ := fits entry found
                rw [if_pos active,Option.map_some,signature]
          · refine current' name ?_
            simp only [List.map_cons,List.mem_cons]
            exact not_or.mpr ⟨mine,absent⟩) leaves'
      exact { passed with
        schedules := passed.schedules.trans schedules
        aborted := passed.aborted.trans aborted
        cleared := passed.cleared.trans cleared }

/-! ### Steps -/

/-- What holds as long as `destroy` has not returned; `before` are the entries at the time of `destroy`, once it is called. -/
structure Steady (before : Option (Table String ScheduleLoopEntry)) (s : Scheduler) : Prop where
  kept : Kept s
  distinct : (s.schedules.map Sched.scheduleName).Nodup
  follows : Follows s s.polling
  leaves : ∀ table ∈ before,Split table s ∧ Leaves table s s.polling
  destroyed : s.aborted = before.isSome

theorem Passed.steady {before : Option (Table String ScheduleLoopEntry)} {s s' : Scheduler} (passed : Passed before s s')
    (distinct : (s.schedules.map Sched.scheduleName).Nodup) (destroyed : s.aborted = before.isSome) : Steady before s' :=
  ⟨passed.kept,by rw [passed.schedules]; exact distinct,passed.follows,passed.leaves,passed.aborted.trans destroyed⟩

theorem removeDeleted_fields (s : Scheduler) (schedules : List Sched) : (s.removeDeleted schedules).schedules = s.schedules ∧
    (s.removeDeleted schedules).aborted = s.aborted ∧ (s.removeDeleted schedules).cleared = s.cleared := by
  unfold Scheduler.removeDeleted
  generalize s.scheduleLoops.entries.map Prod.fst = names
  induction names generalizing s with
  | nil => exact ⟨rfl,rfl,rfl⟩
  | cons name rest ih =>
    rw [List.foldl_cons]
    split
    · exact ih s
    · obtain ⟨first,second,third⟩ := ih (s.remove name)
      rw [first,second,third]
      unfold Scheduler.remove
      split <;> exact ⟨rfl,rfl,rfl⟩

theorem Split.removeDeleted {before : Table String ScheduleLoopEntry} (split : Split before s) (kept : Kept s) (schedules : List Sched) :
    Split before (s.removeDeleted schedules) := by
  unfold Scheduler.removeDeleted
  generalize s.scheduleLoops.entries.map Prod.fst = names
  induction names generalizing s with
  | nil => exact split
  | cons name rest ih =>
    rw [List.foldl_cons]
    split
    · exact ih split kept
    · exact ih (split.remove kept name) (kept.remove name)

theorem Steady.listed {before : Option (Table String ScheduleLoopEntry)} (steady : Steady before s) (listing : s.polling = .listing)
    {schedules : List Sched} (distinct : (schedules.map Sched.scheduleName).Nodup) (clock : String → Int) :
    Passed before { s with schedules := schedules } (({ s with schedules := schedules }.removeDeleted schedules).process clock schedules) := by
  have kept : Kept { s with schedules := schedules } := ⟨steady.kept.entries,steady.kept.alive⟩
  obtain ⟨same,aborted,cleared⟩ := removeDeleted_fields { s with schedules := schedules } schedules
  have passed := process_passed before clock schedules ({ s with schedules := schedules }.removeDeleted schedules) []
    (kept.removeDeleted schedules) (by rw [same]; exact distinct) (by rw [same]; rfl) (by
      intro name absent signature
      rw [get?_removeDeleted kept,if_neg absent,same]
      constructor
      · intro found
        cases found
      · rintro ⟨sched,member,rfl,_⟩
        exact absurd (List.mem_map.mpr ⟨sched,member,rfl⟩) absent) (by
      intro table given
      obtain ⟨split,leaves⟩ := steady.leaves table given
      rw [listing] at leaves
      refine ⟨Split.removeDeleted (s := { s with schedules := schedules }) split kept schedules,?_⟩
      intro name listed
      rw [get?_removeDeleted kept,if_pos listed]
      exact leaves name)
  exact { passed with
    schedules := passed.schedules.trans same
    aborted := passed.aborted.trans aborted
    cleared := passed.cleared.trans cleared }

theorem Steady.backfilled {before : Option (Table String ScheduleLoopEntry)} (steady : Steady before s) {sched : Sched} {rest : List Sched}
    (backfilling : s.polling = .backfilling sched rest) (clock : String → Int) :
    Passed before s ((s.startLoop sched).process clock rest) := by
  have follows := steady.follows
  rw [backfilling] at follows
  obtain ⟨⟨done,split⟩,active,free,current⟩ := follows
  have member : sched ∈ s.schedules := by rw [split]; simp
  have behind : sched.scheduleName ∉ rest.map Sched.scheduleName := by
    have distinct := steady.distinct
    rw [split,List.map_append,List.map_cons] at distinct
    exact (List.nodup_cons.mp (List.nodup_append.mp distinct).2.1).1
  have passed := process_passed before clock rest (s.startLoop sched) (done ++ [sched]) (steady.kept.startLoop sched free)
    steady.distinct (by rw [List.append_assoc]; exact split) (by
      intro name absent
      by_cases mine : name = sched.scheduleName
      · subst mine
        refine current_turn (s := s.startLoop sched) steady.distinct member ?_
        simp [Scheduler.startLoop,active,free]
      · refine current_frame (current name ?_) (get?_startLoop_other s sched mine) rfl
        simp only [List.map_cons,List.mem_cons]
        exact not_or.mpr ⟨mine,absent⟩) (by
      intro table given
      obtain ⟨splits,leaves⟩ := steady.leaves table given
      rw [backfilling] at leaves
      refine ⟨splits.startLoop sched free leaves.2,?_⟩
      intro name later
      rw [get?_startLoop_other s sched (by rintro rfl; exact behind later)]
      exact leaves.1 name later)
  exact { passed with schedules := passed.schedules,aborted := passed.aborted,cleared := passed.cleared }

/-- The polling loop goes on. -/
theorem Steady.polls {before : Option (Table String ScheduleLoopEntry)} {s' : Scheduler} {e : Event} (steady : Steady before s)
    (taken : step s e = some s') (runs : ¬ (∃ other, step s .destroy = some other ∧ e = .destroy)) (open_ : e ≠ .destroyed) :
    Steady before s' ∧ s'.cleared = s.cleared := by
  cases e with
  | listed schedules clock =>
    simp only [step] at taken
    split at taken
    · rename_i listing
      cases taken
      have follows := steady.follows
      rw [listing] at follows
      exact ⟨⟨⟨steady.kept.entries,steady.kept.alive⟩,steady.distinct,follows,
        fun table given => ⟨(steady.leaves table given).1,trivial⟩,steady.destroyed⟩,rfl⟩
    · rename_i schedules listing
      split at taken <;> cases taken
      rename_i distinct
      have passed := steady.listed listing distinct clock
      exact ⟨passed.steady distinct steady.destroyed,passed.cleared⟩
    · cases taken
  | backfilled clock =>
    simp only [step] at taken
    split at taken <;> cases taken
    rename_i sched rest backfilling
    have passed := steady.backfilled backfilling clock
    exact ⟨passed.steady steady.distinct steady.destroyed,passed.cleared⟩
  | wake =>
    simp only [step] at taken
    split at taken <;> cases taken
    rename_i sleeping
    have follows := steady.follows
    rw [sleeping] at follows
    refine ⟨⟨⟨steady.kept.entries,steady.kept.alive⟩,steady.distinct,?_,?_,steady.destroyed⟩,rfl⟩
    · cases s.aborted <;> exact follows
    · intro table given
      have aborted : s.aborted = true := by rw [steady.destroyed,Option.isSome_iff_exists.mpr ⟨table,given⟩]
      refine ⟨(steady.leaves table given).1,?_⟩
      simp only [aborted,if_true]
      trivial
  | destroy => exact absurd ⟨s',taken,rfl⟩ runs
  | destroyed => exact absurd rfl open_

theorem foldl_abort (loops : List Nat) (s : Scheduler) :
    (loops.foldl Scheduler.abort s).scheduleLoops = s.scheduleLoops ∧ (loops.foldl Scheduler.abort s).schedules = s.schedules ∧
      (loops.foldl Scheduler.abort s).polling = s.polling ∧ (loops.foldl Scheduler.abort s).cleared = s.cleared ∧
      ∀ i : Nat, (loops.foldl Scheduler.abort s).loops[i]? =
        (s.loops[i]?).map fun loop => if i ∈ loops then { loop with aborted := true } else loop := by
  induction loops generalizing s with
  | nil => exact ⟨rfl,rfl,rfl,rfl,fun i => by simp⟩
  | cons j rest ih =>
    obtain ⟨first,second,third,fourth,loops⟩ := ih (s.abort j)
    refine ⟨first,second,third,fourth,?_⟩
    intro i
    rw [List.foldl_cons,loops,getElem?_abort,Option.map_map]
    congr 1
    funext loop
    by_cases here : i = j
    · subst here
      simp
    · simp [here]

/-- `destroy` aborts the loops that it finds. -/
theorem Steady.destroy {s₁ : Scheduler} (steady : Steady none s) (destroys : step s .destroy = some s₁) :
    Steady (some s.scheduleLoops) s₁ ∧ s₁.cleared = s.cleared ∧ s₁.scheduleLoops = s.scheduleLoops ∧ s₁.polling = s.polling := by
  simp only [step] at destroys
  split at destroys <;> cases destroys
  obtain ⟨entries,schedules,polling,cleared,loops⟩ := foldl_abort (s.scheduleLoops.entries.map fun e => e.2.loop) s
  have listed : ∀ name entry, s.scheduleLoops.get? name = some entry → entry.loop ∈ s.scheduleLoops.entries.map fun e => e.2.loop :=
    fun name entry found => List.mem_map.mpr ⟨(name,entry),(Table.get?_eq_some _ _ _).mp found,rfl⟩
  have current : ∀ name, Current s name →
      Current { (s.scheduleLoops.entries.map fun e => e.2.loop).foldl Scheduler.abort s with aborted := true } name :=
    fun name now => current_frame now (by simp only [entries]) (by simp only [schedules])
  refine ⟨⟨⟨?_,?_⟩,?_,?_,?_,rfl⟩,cleared,entries,polling⟩
  · intro name entry found
    simp only [entries] at found
    obtain ⟨loop,there,named,same⟩ := steady.kept.entries name entry found
    refine ⟨{ loop with aborted := true },?_,named,same⟩
    simp only [loops,there,Option.map_some,if_pos (listed name entry found)]
  · intro i loop there lives
    simp only [loops] at there
    obtain ⟨old,before,rfl⟩ := Option.map_eq_some_iff.mp there
    split at lives
    · cases lives
    · rename_i absent
      exact absurd (listed _ _ (steady.kept.alive i old before lives)) absent
  · simp only [schedules]
    exact steady.distinct
  · have follows := steady.follows
    simp only [polling]
    cases position : s.polling with
    | backfilling sched rest =>
      rw [position] at follows
      obtain ⟨⟨done,split⟩,active,free,others⟩ := follows
      exact ⟨⟨done,by simp only [schedules,split]⟩,active,by simp only [entries,free],fun name absent => current name (others name absent)⟩
    | listing | sleeping | ended =>
      rw [position] at follows
      exact fun name => current name (follows name)
  · intro table given
    cases given
    refine ⟨?_,?_⟩
    · intro name entry found
      simp only [entries] at found
      obtain ⟨loop,there,_,_⟩ := steady.kept.entries name entry found
      refine ⟨{ loop with aborted := true },?_,.inl ⟨rfl,found⟩⟩
      simp only [loops,there,Option.map_some,if_pos (listed name entry found)]
    · have follows := steady.follows
      simp only [polling]
      cases position : s.polling with
      | backfilling sched rest =>
        rw [position] at follows
        refine ⟨fun name _ => by simp only [entries],?_⟩
        rw [follows.2.2.1]
        simp
      | listing => exact fun name => by simp only [entries]
      | sleeping | ended => trivial

/-! ### Runs -/

/-- The loops that run are those of the active schedules, with their definitions, that were not among the entries `before`. -/
def RunsNew (before : Table String ScheduleLoopEntry) (s : Scheduler) : Prop :=
  ∀ name signature, (∃ i : Nat,s.loops[i]? = some ⟨name,signature,false⟩) ↔
    (∃ sched ∈ s.schedules,sched.scheduleName = name ∧ sched.status = .ACTIVE ∧ sched.signature = signature) ∧
      (before.get? name).map ScheduleLoopEntry.signature ≠ some signature

theorem Steady.runsNew {before : Table String ScheduleLoopEntry} (steady : Steady (some before) s)
    (rests : s.polling = .sleeping ∨ s.polling = .ended) : RunsNew before s := by
  have current : ∀ name, Current s name := by
    have follows := steady.follows
    rcases rests with sleeping | ended
    · rw [sleeping] at follows
      exact follows
    · rw [ended] at follows
      exact follows
  have split := (steady.leaves before rfl).1
  intro name signature
  rw [← current name signature]
  constructor
  · rintro ⟨i,listed⟩
    have entry := steady.kept.alive i _ listed rfl
    refine ⟨by rw [entry]; rfl,?_⟩
    obtain ⟨loop,there,⟨gone,_⟩ | ⟨_,new⟩⟩ := split name _ entry
    · cases there.symm.trans listed
      cases gone
    · exact new
  · rintro ⟨mapped,new⟩
    obtain ⟨entry,found,rfl⟩ := Option.map_eq_some_iff.mp mapped
    obtain ⟨loop,there,⟨_,old⟩ | ⟨lives,_⟩⟩ := split name entry found
    · rw [old] at new
      exact absurd rfl new
    · exact ⟨entry.loop,steady.kept.running found there lives⟩

theorem steady_start : Steady none ({} : Scheduler) where
  kept := ⟨(fun _ _ found => nomatch found),fun _ _ found => nomatch found⟩
  distinct := List.nodup_nil
  follows := by
    intro name signature
    simp
  leaves := fun _ given => nomatch given
  destroyed := rfl

theorem step_aborted {s' : Scheduler} {e : Event} (taken : step s e = some s') (stays : s'.aborted = false) : e ≠ .destroy ∧ e ≠ .destroyed := by
  constructor
  · rintro rfl
    simp only [step] at taken
    split at taken <;> cases taken
    cases stays
  · rintro rfl
    simp only [step] at taken
    split at taken <;> cases taken
    rename_i destroyed
    rw [destroyed.1] at stays
    cases stays

/-- `destroy` is not undone. -/
theorem step_keeps_aborted {s' : Scheduler} {e : Event} (taken : step s e = some s') (aborted : s.aborted = true) : s'.aborted = true := by
  have process : ∀ (rest : List Sched) clock (s : Scheduler), (s.process clock rest).aborted = s.aborted := by
    intro rest clock
    induction rest with
    | nil => exact fun s => rfl
    | cons sched rest ih =>
      intro s
      have same := (stopStale_fields s sched).2.1
      simp only [Scheduler.process]
      split
      · split
        · exact same
        · exact (ih _).trans same
      · exact (ih _).trans same
  cases e with
  | listed schedules clock =>
    simp only [step] at taken
    split at taken
    · cases taken
      exact aborted
    · split at taken <;> cases taken
      exact (process _ _ _).trans ((removeDeleted_fields _ _).2.1.trans aborted)
    · cases taken
  | backfilled clock =>
    simp only [step] at taken
    split at taken <;> cases taken
    exact (process _ _ _).trans aborted
  | wake =>
    simp only [step] at taken
    split at taken <;> cases taken
    exact aborted
  | destroy =>
    simp only [step,aborted] at taken
    cases taken
  | destroyed =>
    simp only [step] at taken
    split at taken <;> cases taken
    exact aborted

/-! ### Before `destroy` -/

/-- As long as nothing was destroyed the loops of the entries are not aborted. -/
theorem process_alive (clock : String → Int) (rest : List Sched) :
    ∀ s : Scheduler, Kept s → Split Table.empty s → Split Table.empty (s.process clock rest) := by
  induction rest with
  | nil => exact fun s _ alive => alive
  | cons sched rest ih =>
    intro s kept alive
    have kept' := kept.stopStale sched
    have alive' := alive.stopStale kept sched
    simp only [Scheduler.process]
    split
    · rename_i starts
      split
      · exact alive'
      · exact ih _ (kept'.startLoop sched starts.2) (alive'.startLoop sched starts.2 nofun)
    · exact ih _ kept' alive'

theorem step_alive {s' : Scheduler} {e : Event} (steady : Steady none s) (alive : Split Table.empty s) (taken : step s e = some s')
    (stays : s'.aborted = false) : Split Table.empty s' := by
  cases e with
  | listed schedules clock =>
    simp only [step] at taken
    split at taken
    · cases taken
      exact alive
    · rename_i schedules _
      split at taken <;> cases taken
      have kept : Kept { s with schedules := schedules } := ⟨steady.kept.entries,steady.kept.alive⟩
      exact process_alive clock schedules _ (kept.removeDeleted schedules)
        (Split.removeDeleted (s := { s with schedules := schedules }) alive kept schedules)
    · cases taken
  | backfilled clock =>
    simp only [step] at taken
    split at taken <;> cases taken
    rename_i sched rest backfilling
    have follows := steady.follows
    rw [backfilling] at follows
    exact process_alive clock rest _ (steady.kept.startLoop sched follows.2.2.1) (alive.startLoop sched follows.2.2.1 nofun)
  | wake =>
    simp only [step] at taken
    split at taken <;> cases taken
    exact alive
  | destroy => exact absurd rfl (step_aborted taken stays).1
  | destroyed => exact absurd rfl (step_aborted taken stays).2

end

theorem steady_runs {events : List Event} {s : Scheduler} (run : Runs step {} events s) (stays : s.aborted = false) :
    Steady none s ∧ Split Table.empty s ∧ s.cleared = false := by
  have invariant := runs_invariant (I := fun s => s.aborted = false → Steady none s ∧ Split Table.empty s ∧ s.cleared = false)
    (fun s e s' held taken stays => by
      have before : s.aborted = false := by
        rw [← Bool.not_eq_true]
        intro aborted
        rw [step_keeps_aborted taken aborted] at stays
        cases stays
      obtain ⟨steady,alive,open_⟩ := held before
      obtain ⟨first,second⟩ := step_aborted taken stays
      obtain ⟨steady',cleared⟩ := steady.polls taken (fun both => first both.choose_spec.2) second
      exact ⟨steady',step_alive steady alive taken stays,cleared.trans open_⟩)
    (fun _ => ⟨steady_start,(fun _ _ found => nomatch found),rfl⟩) run
  exact invariant stays

/-- Until `destroy` is called, at most one loop runs for a name, and whenever the polling loop is not in the middle of a pass, the loops
    that run are those of the active schedules of its last listing, with their definitions. -/
theorem loops_follow_schedules {events : List Event} {s : Scheduler} (run : Runs step {} events s) (stays : s.aborted = false) :
    (∀ (i j : Nat) first second, s.loops[i]? = some first → s.loops[j]? = some second → first.aborted = false → second.aborted = false →
      first.scheduleName = second.scheduleName → i = j) ∧
    ((∀ sched rest, s.polling ≠ .backfilling sched rest) → ∀ name signature,
      (∃ i : Nat,s.loops[i]? = some ⟨name,signature,false⟩) ↔
        ∃ sched ∈ s.schedules,sched.scheduleName = name ∧ sched.status = .ACTIVE ∧ sched.signature = signature) := by
  obtain ⟨steady,alive,_⟩ := steady_runs run stays
  refine ⟨?_,?_⟩
  · intro i j first second found found' lives lives' same
    have entry := steady.kept.alive i first found lives
    rw [same,steady.kept.alive j second found' lives'] at entry
    exact congrArg ScheduleLoopEntry.loop (Option.some.inj entry).symm
  · intro rests name signature
    have current : Current s name := by
      have follows := steady.follows
      cases position : s.polling with
      | backfilling sched rest => exact absurd position (rests sched rest)
      | listing | sleeping | ended =>
        rw [position] at follows
        exact follows name
    rw [← current signature]
    constructor
    · rintro ⟨i,listed⟩
      rw [steady.kept.alive i _ listed rfl]
      rfl
    · intro mapped
      obtain ⟨entry,found,rfl⟩ := Option.map_eq_some_iff.mp mapped
      obtain ⟨loop,there,⟨_,gone⟩ | ⟨lives,_⟩⟩ := alive name entry found
      · cases gone
      · exact ⟨entry.loop,steady.kept.running found there lives⟩

/-- A schedule of the workflow `report`. -/
def report (name schedule : String) (status : ScheduleStatus) : Sched :=
  ⟨name,status,⟨"report","Reports",schedule,"null",none,none⟩,false,none⟩

/-- The definition of a schedule changes, and another one is paused. -/
def changes : List Event :=
  [.listed (some [report "daily" "0 0 * * *" .ACTIVE,report "hourly" "0 * * * *" .ACTIVE]) fun _ => 0,.wake,
    .listed (some [report "daily" "0 6 * * *" .ACTIVE,report "hourly" "0 * * * *" .PAUSED]) fun _ => 0]

theorem loops_follow_schedules_changed : ∃ s, Runs step {} changes s ∧ ∀ name signature,
    (∃ i : Nat,s.loops[i]? = some ⟨name,signature,false⟩) ↔
      ∃ sched ∈ s.schedules,sched.scheduleName = name ∧ sched.status = .ACTIVE ∧ sched.signature = signature :=
  ⟨_,rfl,(loops_follow_schedules (show Runs step {} changes _ from rfl) rfl).2 nofun⟩

/-! ### After `destroy` -/

section
variable {s s₁ : Scheduler}

theorem destroy_open (destroys : step s .destroy = some s₁) : s.aborted = false := by
  simp only [step] at destroys
  split at destroys <;> cases destroys
  rename_i open_
  exact Bool.not_eq_true _ ▸ open_

theorem destroy_aborts (steady : Steady none s) (destroys : step s .destroy = some s₁) : ∀ loop ∈ s₁.loops, loop.aborted = true := by
  obtain ⟨steady',_,entries,_⟩ := steady.destroy destroys
  intro loop member
  obtain ⟨i,there⟩ := List.mem_iff_getElem?.mp member
  cases lives : loop.aborted with
  | true => rfl
  | false =>
    have found := steady'.kept.alive i loop there lives
    obtain ⟨other,there',⟨gone,_⟩ | ⟨_,new⟩⟩ := (steady'.leaves _ rfl).1 _ _ found
    · cases there.symm.trans there'
      rw [gone] at lives
      cases lives
    · rw [← entries,found] at new
      exact absurd rfl new

/-- What holds from `destroy` on. -/
theorem steady_destroyed {before : Table String ScheduleLoopEntry} {events : List Event} {s' : Scheduler} (steady : Steady (some before) s₁)
    (open_ : s₁.cleared = false) (later : Runs step s₁ events s') :
    (s'.cleared = false ∧ Steady (some before) s') ∨ (s'.polling = .ended ∧ s'.aborted = true ∧ s'.cleared = true ∧ RunsNew before s') := by
  refine runs_invariant (I := fun s' => (s'.cleared = false ∧ Steady (some before) s') ∨
    (s'.polling = .ended ∧ s'.aborted = true ∧ s'.cleared = true ∧ RunsNew before s')) ?_ (.inl ⟨open_,steady⟩) later
  rintro s e s' (⟨open_,steady⟩ | ⟨ended,aborted,cleared,_⟩) taken
  · cases e with
    | destroyed =>
      simp only [step] at taken
      split at taken <;> cases taken
      rename_i returns
      exact .inr ⟨returns.2.1,returns.1,rfl,steady.runsNew (.inr returns.2.1)⟩
    | destroy =>
      have aborted : s.aborted = true := steady.destroyed
      simp only [step,aborted] at taken
      cases taken
    | listed _ _ | backfilled _ | wake =>
      obtain ⟨steady',cleared⟩ := steady.polls taken (fun both => nomatch both.choose_spec.2) nofun
      exact .inl ⟨cleared.trans open_,steady'⟩
  · -- Nothing can happen any more.
    cases e <;> simp only [step,ended,aborted,cleared] at taken <;> cases taken

/-- A polling loop that sleeps when `destroy` comes starts nothing more. -/
theorem asleep_destroyed {events : List Event} {s' : Scheduler} (aborted : s₁.aborted = true)
    (asleep : s₁.polling = .sleeping ∨ s₁.polling = .ended) (stopped : ∀ loop ∈ s₁.loops, loop.aborted = true)
    (later : Runs step s₁ events s') : ∀ loop ∈ s'.loops, loop.aborted = true := by
  refine (runs_invariant (I := fun s => s.aborted = true ∧ (s.polling = .sleeping ∨ s.polling = .ended) ∧
    ∀ loop ∈ s.loops, loop.aborted = true) ?_ ⟨aborted,asleep,stopped⟩ later).2.2
  rintro s e s' ⟨aborted,asleep,stopped⟩ taken
  cases e with
  | listed schedules clock => rcases asleep with at_ | at_ <;> simp only [step,at_] at taken <;> cases taken
  | backfilled clock => rcases asleep with at_ | at_ <;> simp only [step,at_] at taken <;> cases taken
  | wake =>
    simp only [step] at taken
    split at taken <;> cases taken
    simp only [aborted,if_true]
    exact ⟨trivial,.inr trivial,stopped⟩
  | destroy =>
    simp only [step,aborted] at taken
    cases taken
  | destroyed =>
    simp only [step] at taken
    split at taken <;> cases taken
    exact ⟨aborted,asleep,stopped⟩

/-- `destroy` stops the loops that it finds, but not the polling loop in the middle of a listing or a pass: when that has come to its
    sleep, and also when `destroy` has returned, the loops that run are those of the active schedules of its last listing for which
    `destroy` found no entry with their definition. Nothing runs on where `destroy` came during the sleep. -/
theorem loops_after_destroy {events later : List Event} {s s₁ s' : Scheduler} (run : Runs step {} events s)
    (destroys : step s .destroy = some s₁) (goes : Runs step s₁ later s') :
    (s'.polling = .sleeping ∨ s'.polling = .ended → RunsNew s.scheduleLoops s') ∧ (s'.cleared = true → s'.polling = .ended) ∧
      (s.polling = .sleeping → ∀ loop ∈ s'.loops, loop.aborted = true) := by
  obtain ⟨steady,_,open_⟩ := steady_runs run (destroy_open destroys)
  obtain ⟨steady₁,cleared,_,polling⟩ := steady.destroy destroys
  refine ⟨?_,?_,?_⟩
  · intro rests
    rcases steady_destroyed steady₁ (cleared.trans open_) goes with ⟨_,steady'⟩ | ⟨_,_,_,new⟩
    · exact steady'.runsNew rests
    · exact new
  · intro returned
    rcases steady_destroyed steady₁ (cleared.trans open_) goes with ⟨open',_⟩ | ⟨ended,_⟩
    · rw [returned] at open'
      cases open'
    · exact ended
  · intro asleep
    exact asleep_destroyed steady₁.destroyed (.inl (polling.trans asleep)) (destroy_aborts steady destroys) goes

end

/-- The listing answers after `destroy`. -/
def answersLate : List Event := [.listed (some [report "daily" "0 0 * * *" .ACTIVE]) fun _ => 0,.wake,.destroyed]

theorem loops_after_destroy_listing : ∃ s₁ s', step {} .destroy = some s₁ ∧ Runs step s₁ answersLate s' ∧ s'.cleared = true ∧
    s'.loops = [⟨"daily",⟨"report","Reports","0 0 * * *","null",none,none⟩,false⟩] ∧ RunsNew Table.empty s' :=
  ⟨_,_,rfl,rfl,rfl,rfl,(loops_after_destroy (show Runs step {} [] {} from rfl) rfl (show Runs step _ answersLate _ from rfl)).1 (.inr rfl)⟩

end Dbos.ScheduleLoops
