import Mathlib.Data.List.Range
import Mathlib.Logic.Function.Basic
import Dbos.Schema
import Dbos.Pg.Run

/-!
The stamps of `enqueueWorkflows`. `#assignBatchCreatedAt` reads the clock, looks for the keys that
the process has no cursor for, asks the database for their high-water marks, and then, without
another await, seeds the cursors and stamps the rows of its batch. Calls overlap at the one await;
the SELECT of a call runs somewhere in it, on whatever the table is then. Times are below 2^53, where
the numbers of JavaScript are exact.
-/
namespace Dbos.BatchStamps
open Dbos.Pg Dbos.Schema StatusString

/-! ### #assignBatchCreatedAt -/

def activeHits (key : String) (_ : String) (row : WorkflowStatus) : Bool :=
  row.queue_partition_key = some key ∧ (row.status = ENQUEUED ∨ row.status = PENDING)

/-- A map from partition keys to times. -/
abbrev Cursors := String → Option Int

def maxPartitionKeyCreatedAt (t : Statuses) (keys : List String) : Cursors :=
  fun key => if key ∈ keys then ((t.select (activeHits key)).map fun e => e.2.created_at).max? else none

def batchKeys (statuses : List WorkflowStatusInternal) : List String := (statuses.filterMap WorkflowStatusInternal.queuePartitionKey).eraseDups

/-- The loop over the seeds. -/
def seed (cursors seeds : Cursors) : Cursors := fun key =>
  match seeds key with
  | some seededMax => some (max ((cursors key).getD 0) (seededMax + 1))
  | none => cursors key

/-- The loop over the batch, with `nextForKey` so far. -/
def stamp (nowMS : Int) (cursors : Cursors) : Cursors → List WorkflowStatusInternal → List Int × Cursors
  | nextForKey,[] => ([],nextForKey)
  | nextForKey,status :: rest =>
    match status.queuePartitionKey with
    | none =>
      let (createdAts,nextForKey) := stamp nowMS cursors nextForKey rest
      (nowMS :: createdAts,nextForKey)
    | some key =>
      let value := (nextForKey key).getD (max nowMS ((cursors key).getD 0))
      let (createdAts,nextForKey) := stamp nowMS cursors (Function.update nextForKey key (some (value + 1))) rest
      (value :: createdAts,nextForKey)

/-- What follows the await: the stamps, and the cursors with the seeds and then `nextForKey` set. -/
def assign (cursors seeds : Cursors) (nowMS : Int) (statuses : List WorkflowStatusInternal) : List Int × Cursors :=
  let seeded := seed cursors seeds
  let (createdAts,nextForKey) := stamp nowMS seeded (fun _ => none) statuses
  (createdAts,fun key => (nextForKey key).or (seeded key))

/-! ### The process -/

/-- A call; `snapshot` is the table that its SELECT has read. -/
structure Batch where
  statuses : List WorkflowStatusInternal
  nowMS : Int
  unseen : List String
  snapshot : Option Statuses := none
  stamped : Option (List (WorkflowStatusInternal × Int)) := none

/-- The stamps of the rows with a key, in order. -/
def keyStamps (stamped : List (WorkflowStatusInternal × Int)) : List (String × Int) :=
  stamped.filterMap fun e => e.1.queuePartitionKey.map fun key => (key,e.2)

/-- `stamps`: those of all batches, in the order in which they have passed the await. -/
structure Process where
  table : Statuses
  batchCreatedAtCursors : Cursors := fun _ => none
  batches : List Batch := []
  stamps : List (String × Int) := []

/-- `table`: a transaction of anyone. -/
inductive Event
  | call (statuses : List WorkflowStatusInternal) (nowMS : Int)
  | selects (i : Nat)
  | passes (i : Nat)
  | table (t : Statuses)

def Process.pass (s : Process) (i : Nat) (b : Batch) (snapshot : Statuses) : Process :=
  let (createdAts,cursors) := assign s.batchCreatedAtCursors (maxPartitionKeyCreatedAt snapshot b.unseen) b.nowMS b.statuses
  { s with
    batchCreatedAtCursors := cursors
    batches := s.batches.set i { b with stamped := some (b.statuses.zip createdAts) }
    stamps := s.stamps ++ keyStamps (b.statuses.zip createdAts) }

def step (s : Process) : Event → Option Process
  | .call statuses nowMS =>
    let unseen := (batchKeys statuses).filter fun key => (s.batchCreatedAtCursors key).isNone
    some { s with batches := s.batches ++ [{ statuses := statuses,nowMS := nowMS,unseen := unseen }] }
  | .selects i =>
    match s.batches[i]? with
    | some b => if b.snapshot.isNone then some { s with batches := s.batches.set i { b with snapshot := some s.table } } else none
    | none => none
  | .passes i =>
    match s.batches[i]? with
    | some b =>
      match b.snapshot,b.stamped with
      | some snapshot,none => some (s.pass i b snapshot)
      | _,_ => none
    | none => none
  | .table t => some { s with table := t }

def stampsOf (s : Process) (key : String) : List Int := (s.stamps.filter fun e => e.1 = key).map Prod.snd

/-! ### The stamps of a batch -/

/-- The rows of a key get the numbers from the cursor, or from the clock, on. -/
theorem stamp_key (nowMS : Int) (cursors nextForKey : Cursors) (statuses : List WorkflowStatusInternal) (key : String) :
    let first := (nextForKey key).getD (max nowMS ((cursors key).getD 0))
    let n := statuses.countP fun status => status.queuePartitionKey = some key
    ((keyStamps (statuses.zip (stamp nowMS cursors nextForKey statuses).1)).filter fun e => e.1 = key).map Prod.snd =
        (List.range n).map (fun j : Nat => first + (j : Int)) ∧
      (stamp nowMS cursors nextForKey statuses).2 key = if n = 0 then nextForKey key else some (first + (n : Int)) := by
  induction statuses generalizing nextForKey with
  | nil => simp [stamp,keyStamps]
  | cons status rest ih =>
    cases keyed : status.queuePartitionKey with
    | none =>
      have onward := ih nextForKey
      simpa [stamp,keyStamps,keyed] using onward
    | some key' =>
      have onward := ih (Function.update nextForKey key' (some ((nextForKey key').getD (max nowMS ((cursors key').getD 0)) + 1)))
      by_cases same : key' = key
      · subst same
        obtain ⟨values,next⟩ := onward
        simp only [Function.update_self,Option.getD_some] at values next
        refine ⟨?_,?_⟩
        · simp only [stamp,keyed,keyStamps,List.zip_cons_cons,List.filterMap_cons,Option.map_some,List.filter_cons,decide_true,if_true,
            List.map_cons,List.countP_cons,List.range_succ_eq_map,List.map_map] at values ⊢
          rw [values]
          simp only [Int.natCast_zero,Int.add_zero,List.cons.injEq,true_and]
          refine List.map_congr_left fun j _ => ?_
          simp only [Function.comp_apply,Nat.succ_eq_add_one,Int.natCast_add,Int.natCast_one]
          omega
        · simp only [stamp,keyed,List.countP_cons,decide_true,if_true,Nat.add_eq_zero_iff,Nat.one_ne_zero,and_false,if_false] at next ⊢
          rw [next]
          split <;> rename_i count
          · simp [count]
          · simp only [Option.some.injEq,Int.natCast_add,Int.natCast_one]
            omega
      · have other : key ≠ key' := Ne.symm same
        simp only [Function.update_of_ne other] at onward
        simpa [stamp,keyStamps,keyed,same] using onward

/-- What passing the await does for a key: its rows are numbered from `first` on, which no seed, no
    cursor and no earlier reading of the clock is above. -/
structure Numbers (s s' : Process) (b : Batch) (seeds : Cursors) (key : String) (first : Int) (n : Nat) : Prop where
  clock : b.nowMS ≤ first
  seeded : ∀ m,seeds key = some m → m < first
  cursor : ∀ c,s.batchCreatedAtCursors key = some c → c ≤ first
  rows : n = 0 ↔ key ∉ b.statuses.filterMap WorkflowStatusInternal.queuePartitionKey
  stamps : stampsOf s' key = stampsOf s key ++ (List.range n).map fun j : Nat => first + (j : Int)
  next : n ≠ 0 → s'.batchCreatedAtCursors key = some (first + (n : Int))
  idle : n = 0 → seeds key = none → s'.batchCreatedAtCursors key = s.batchCreatedAtCursors key

theorem stampsOf_append (s : Process) (more : List (String × Int)) (key : String) :
    ((s.stamps ++ more).filter fun e => e.1 = key).map Prod.snd = stampsOf s key ++ (more.filter fun e => e.1 = key).map Prod.snd := by
  rw [List.filter_append,List.map_append]
  rfl

theorem pass_numbers (s : Process) (i : Nat) (b : Batch) (snapshot : Statuses) (key : String) :
    ∃ first n,Numbers s (s.pass i b snapshot) b (maxPartitionKeyCreatedAt snapshot b.unseen) key first n := by
  let seeds := maxPartitionKeyCreatedAt snapshot b.unseen
  obtain ⟨values,next⟩ := stamp_key b.nowMS (seed s.batchCreatedAtCursors seeds) (fun _ => none) b.statuses key
  simp only [Option.getD_none] at values next
  refine ⟨max b.nowMS ((seed s.batchCreatedAtCursors seeds key).getD 0),b.statuses.countP fun status => status.queuePartitionKey = some key,
    Int.le_max_left _ _,fun m known => ?_,fun c known => ?_,?_,?_,fun some' => ?_,fun none unseeded => ?_⟩
  · have raised : seed s.batchCreatedAtCursors seeds key = some (max ((s.batchCreatedAtCursors key).getD 0) (m + 1)) := by
      simp only [seed,show seeds key = some m from known]
    rw [raised,Option.getD_some]
    omega
  · cases raised : seeds key with
    | none =>
      simp only [seed,raised,known,Option.getD_some]
      omega
    | some m =>
      simp only [seed,raised,known,Option.getD_some]
      omega
  · simp [List.countP_eq_zero]
  · exact (stampsOf_append s _ key).trans (congrArg (stampsOf s key ++ ·) values)
  · simp only [Process.pass,assign]
    rw [next,if_neg some']
    rfl
  · simp only [Process.pass,assign]
    rw [next,if_pos none]
    simp [seed,unseeded]

/-! ### Order -/

theorem step_selects {s s' : Process} {i : Nat} (taken : step s (.selects i) = some s') :
    ∃ b,s.batches[i]? = some b ∧ b.snapshot = none ∧ s' = { s with batches := s.batches.set i { b with snapshot := some s.table } } := by
  simp only [step] at taken
  split at taken
  · rename_i b found
    split at taken
    · rename_i unread
      exact ⟨b,found,Option.isNone_iff_eq_none.mp unread,(Option.some.inj taken).symm⟩
    · cases taken
  · cases taken

theorem step_passes {s s' : Process} {i : Nat} (taken : step s (.passes i) = some s') :
    ∃ b snapshot,s.batches[i]? = some b ∧ b.snapshot = some snapshot ∧ b.stamped = none ∧ s' = s.pass i b snapshot := by
  simp only [step] at taken
  split at taken
  · rename_i b found
    split at taken
    · rename_i snapshot read unstamped
      exact ⟨b,snapshot,found,read,unstamped,(Option.some.inj taken).symm⟩
    · cases taken
  · cases taken

structure Tracked (s : Process) : Prop where
  below : ∀ key v,v ∈ stampsOf s key → ∃ c,s.batchCreatedAtCursors key = some c ∧ v < c
  sorted : ∀ key,(stampsOf s key).Pairwise (· < ·)
  /-- A key has a cursor once it is stamped, and not before. -/
  seen : ∀ key,(s.batchCreatedAtCursors key).isSome → stampsOf s key ≠ []
  listed : ∀ b ∈ s.batches,∀ key ∈ b.unseen,key ∈ batchKeys b.statuses
  known : ∀ b ∈ s.batches,∀ key ∈ batchKeys b.statuses,key ∈ b.unseen ∨ stampsOf s key ≠ []

theorem range_sorted (first : Int) (n : Nat) : ((List.range n).map fun j : Nat => first + (j : Int)).Pairwise (· < ·) := by
  rw [List.pairwise_map]
  exact List.pairwise_lt_range.imp fun less => by omega

/-- A key that is seeded has rows in the batch. -/
theorem unseeded {s s' : Process} (tracked : Tracked s) {b : Batch} (member : b ∈ s.batches) {snapshot : Statuses} {key : String} {first : Int}
    {n : Nat} (numbers : Numbers s s' b (maxPartitionKeyCreatedAt snapshot b.unseen) key first n) (absent : n = 0) :
    maxPartitionKeyCreatedAt snapshot b.unseen key = none :=
  if_neg fun unseen => numbers.rows.mp absent (List.mem_eraseDups.mp (tracked.listed b member key unseen))

theorem pass_tracked {s : Process} (tracked : Tracked s) {i : Nat} {b : Batch} {snapshot : Statuses} (found : s.batches[i]? = some b) :
    Tracked (s.pass i b snapshot) := by
  have member := List.mem_of_getElem? found
  have kept : ∀ key,stampsOf s key ≠ [] → stampsOf (s.pass i b snapshot) key ≠ [] := by
    intro key some'
    obtain ⟨first,n,numbers⟩ := pass_numbers s i b snapshot key
    rw [numbers.stamps]
    simp [some']
  constructor
  · intro key v stamped
    obtain ⟨first,n,numbers⟩ := pass_numbers s i b snapshot key
    rw [numbers.stamps,List.mem_append] at stamped
    by_cases absent : n = 0
    · rw [numbers.idle absent (unseeded tracked member numbers absent)]
      rcases stamped with old | new
      · exact tracked.below key v old
      · simp [absent] at new
    · refine ⟨_,numbers.next absent,?_⟩
      rcases stamped with old | new
      · obtain ⟨c,cursor,below⟩ := tracked.below key v old
        have := numbers.cursor c cursor
        omega
      · obtain ⟨j,low,rfl⟩ := List.mem_map.mp new
        have := List.mem_range.mp low
        omega
  · intro key
    obtain ⟨first,n,numbers⟩ := pass_numbers s i b snapshot key
    rw [numbers.stamps,List.pairwise_append]
    refine ⟨tracked.sorted key,range_sorted first n,fun v old w new => ?_⟩
    obtain ⟨c,cursor,below⟩ := tracked.below key v old
    obtain ⟨j,_,rfl⟩ := List.mem_map.mp new
    have := numbers.cursor c cursor
    omega
  · intro key cursor
    obtain ⟨first,n,numbers⟩ := pass_numbers s i b snapshot key
    by_cases absent : n = 0
    · rw [numbers.idle absent (unseeded tracked member numbers absent)] at cursor
      exact kept key (tracked.seen key cursor)
    · rw [numbers.stamps]
      simp [absent]
  · refine all_set tracked.listed ?_ i
    exact tracked.listed b member
  · refine all_set (fun b' member' key inBatch => (tracked.known b' member' key inBatch).imp_right (kept key)) ?_ i
    exact fun key inBatch => (tracked.known b member key inBatch).imp_right (kept key)

theorem step_tracked {s s' : Process} {event : Event} (tracked : Tracked s) (taken : step s event = some s') : Tracked s' := by
  cases event with
  | call statuses nowMS =>
    cases taken
    refine ⟨tracked.below,tracked.sorted,tracked.seen,fun b member => ?_,fun b member key inBatch => ?_⟩
    · rcases List.mem_append.mp member with old | new
      · exact tracked.listed b old
      · rw [List.mem_singleton.mp new]
        exact fun key unseen => List.mem_of_mem_filter unseen
    · rcases List.mem_append.mp member with old | new
      · exact tracked.known b old key inBatch
      · rw [List.mem_singleton.mp new] at inBatch ⊢
        cases cursor : s.batchCreatedAtCursors key with
        | none => exact .inl (List.mem_filter.mpr ⟨inBatch,by simp [cursor]⟩)
        | some c => exact .inr (tracked.seen key (by rw [cursor]; rfl))
  | selects i =>
    obtain ⟨b,found,_,rfl⟩ := step_selects taken
    have member := List.mem_of_getElem? found
    refine ⟨tracked.below,tracked.sorted,tracked.seen,all_set tracked.listed ?_ i,all_set tracked.known ?_ i⟩
    · exact tracked.listed b member
    · exact tracked.known b member
  | passes i =>
    obtain ⟨b,snapshot,found,_,_,rfl⟩ := step_passes taken
    exact pass_tracked tracked found
  | table t =>
    cases taken
    exact ⟨tracked.below,tracked.sorted,tracked.seen,tracked.listed,tracked.known⟩

theorem tracked_init (t : Statuses) : Tracked { table := t } :=
  ⟨by simp [stampsOf],by simp [stampsOf],by simp,by simp,by simp⟩

/-! ### High-water marks -/

/-- All stamps of the key, those that are still to come too, are above `m`. -/
def Above (key : String) (m : Int) (s : Process) : Prop :=
  (∀ v ∈ stampsOf s key,m < v) ∧ ∃ c,s.batchCreatedAtCursors key = some c ∧ m < c

theorem numbers_above {s s' : Process} {b : Batch} {seeds : Cursors} {key : String} {first : Int} {n : Nat} {m : Int}
    (numbers : Numbers s s' b seeds key first n) (old : ∀ v ∈ stampsOf s key,m < v) (low : m < first) (some' : n ≠ 0) : Above key m s' := by
  refine ⟨fun v stamped => ?_,first + n,numbers.next some',by omega⟩
  rw [numbers.stamps,List.mem_append] at stamped
  rcases stamped with before | new
  · exact old v before
  · obtain ⟨j,_,rfl⟩ := List.mem_map.mp new
    omega

theorem step_above {s s' : Process} {event : Event} {key : String} {m : Int} (tracked : Tracked s) (above : Above key m s)
    (taken : step s event = some s') : Above key m s' := by
  cases event with
  | call statuses nowMS => cases taken; exact above
  | selects i =>
    obtain ⟨b,_,_,rfl⟩ := step_selects taken
    exact above
  | table t => cases taken; exact above
  | passes i =>
    obtain ⟨b,snapshot,found,_,_,rfl⟩ := step_passes taken
    obtain ⟨first,n,numbers⟩ := pass_numbers s i b snapshot key
    obtain ⟨c,cursor,below⟩ := above.2
    by_cases absent : n = 0
    · have same := numbers.idle absent (unseeded tracked (List.mem_of_getElem? found) numbers absent)
      refine ⟨?_,c,same.trans cursor,below⟩
      rw [numbers.stamps]
      simpa [absent] using above.1
    · have := numbers.cursor c cursor
      exact numbers_above numbers above.1 (by omega) absent

/-- The mark of a key is no lower than any row that counts for it. -/
theorem max_le {t : Statuses} {keys : List String} {key k : String} {r : WorkflowStatus} (asked : key ∈ keys) (found : t.get? k = some r)
    (active : activeHits key k r = true) : ∃ m,maxPartitionKeyCreatedAt t keys key = some m ∧ r.created_at ≤ m := by
  have member : r.created_at ∈ (t.select (activeHits key)).map fun e => e.2.created_at :=
    List.mem_map.mpr ⟨(k,r),List.mem_filter.mpr ⟨(t.get?_eq_some k r).mp found,active⟩,rfl⟩
  obtain ⟨m,largest⟩ := Option.isSome_iff_exists.mp (List.isSome_max?_of_mem member)
  exact ⟨m,by rw [maxPartitionKeyCreatedAt,if_pos asked]; exact largest,(List.max?_eq_some_iff.mp largest).2 _ member⟩

/-- The first batch with a key to pass the await has asked for its mark. -/
theorem first_pass_above {s : Process} (tracked : Tracked s) {i : Nat} {b : Batch} {snapshot : Statuses} (found : s.batches[i]? = some b)
    {key k : String} {r : WorkflowStatus} (inBatch : key ∈ batchKeys b.statuses) (new : stampsOf s key = []) (there : snapshot.get? k = some r)
    (active : activeHits key k r = true) : Above key r.created_at (s.pass i b snapshot) := by
  have unseen : key ∈ b.unseen := (tracked.known b (List.mem_of_getElem? found) key inBatch).resolve_right (absurd new)
  obtain ⟨m,mark,le⟩ := max_le unseen there active
  obtain ⟨first,n,numbers⟩ := pass_numbers s i b snapshot key
  have some' : n ≠ 0 := fun absent => numbers.rows.mp absent (List.mem_eraseDups.mp inBatch)
  have low := numbers.seeded m mark
  exact numbers_above numbers (by simp [new]) (by omega) some'

/-! ### Rows without a key -/

def hasKey (status : WorkflowStatusInternal) : Bool := status.queuePartitionKey.isSome

/-- Without the rows that have no key. -/
def Batch.keyed (b : Batch) : Batch :=
  { b with statuses := b.statuses.filter hasKey,stamped := b.stamped.map fun stamped => stamped.filter fun e => hasKey e.1 }

def Process.keyed (s : Process) : Process := { s with batches := s.batches.map Batch.keyed }

def Event.keyed : Event → Event
  | .call statuses nowMS => .call (statuses.filter hasKey) nowMS
  | event => event

theorem stamp_keyed (nowMS : Int) (cursors nextForKey : Cursors) (statuses : List WorkflowStatusInternal) :
    (statuses.filter hasKey).zip (stamp nowMS cursors nextForKey (statuses.filter hasKey)).1 =
        (statuses.zip (stamp nowMS cursors nextForKey statuses).1).filter (fun e => hasKey e.1) ∧
      (stamp nowMS cursors nextForKey (statuses.filter hasKey)).2 = (stamp nowMS cursors nextForKey statuses).2 := by
  induction statuses generalizing nextForKey with
  | nil => exact ⟨rfl,rfl⟩
  | cons status rest ih =>
    cases keyed : status.queuePartitionKey with
    | none => simpa [stamp,keyed,hasKey] using ih nextForKey
    | some key =>
      simpa [stamp,keyed,hasKey] using ih (Function.update nextForKey key (some ((nextForKey key).getD (max nowMS ((cursors key).getD 0)) + 1)))

theorem stamp_clock (nowMS : Int) (cursors nextForKey : Cursors) (statuses : List WorkflowStatusInternal) :
    ∀ e ∈ statuses.zip (stamp nowMS cursors nextForKey statuses).1,e.1.queuePartitionKey = none → e.2 = nowMS := by
  induction statuses generalizing nextForKey with
  | nil => simp
  | cons status rest ih =>
    cases keyed : status.queuePartitionKey with
    | none =>
      rintro e member unkeyed
      simp only [stamp,keyed,List.zip_cons_cons,List.mem_cons] at member
      rcases member with rfl | later
      · rfl
      · exact ih nextForKey e later unkeyed
    | some key =>
      rintro e member unkeyed
      simp only [stamp,keyed,List.zip_cons_cons,List.mem_cons] at member
      rcases member with rfl | later
      · simp [keyed] at unkeyed
      · exact ih _ e later unkeyed

theorem batchKeys_keyed (statuses : List WorkflowStatusInternal) : batchKeys (statuses.filter hasKey) = batchKeys statuses := by
  unfold batchKeys
  congr 1
  induction statuses with
  | nil => rfl
  | cons status rest ih => cases keyed : status.queuePartitionKey <;> simp [hasKey,keyed,ih]

theorem keyStamps_keyed (stamped : List (WorkflowStatusInternal × Int)) :
    keyStamps (stamped.filter fun e => hasKey e.1) = keyStamps stamped := by
  unfold keyStamps
  induction stamped with
  | nil => rfl
  | cons e rest ih => cases keyed : e.1.queuePartitionKey <;> simpa [hasKey,keyed] using ih

theorem pass_keyed (s : Process) (i : Nat) (b : Batch) (snapshot : Statuses) :
    s.keyed.pass i b.keyed snapshot = (s.pass i b snapshot).keyed := by
  obtain ⟨rows,next⟩ := stamp_keyed b.nowMS (seed s.batchCreatedAtCursors (maxPartitionKeyCreatedAt snapshot b.unseen)) (fun _ => none) b.statuses
  simp only [Process.pass,assign,Process.keyed,Batch.keyed,rows,next,keyStamps_keyed,List.map_set]
  rfl

/-- The process does the same without the rows that have no key. -/
theorem step_keyed {s s' : Process} {event : Event} (taken : step s event = some s') : step s.keyed event.keyed = some s'.keyed := by
  have listed : ∀ (i : Nat) b,s.batches[i]? = some b → s.keyed.batches[i]? = some b.keyed := by
    intro i b found
    simp [Process.keyed,found]
  cases event with
  | call statuses nowMS =>
    cases taken
    simp [step,Event.keyed,Process.keyed,Batch.keyed,batchKeys_keyed]
  | selects i =>
    obtain ⟨b,found,unread,rfl⟩ := step_selects taken
    have unread' : b.keyed.snapshot.isNone := by simp [Batch.keyed,unread]
    simp only [step,Event.keyed,listed i b found]
    rw [if_pos unread']
    simp [Process.keyed,Batch.keyed,List.map_set]
  | passes i =>
    obtain ⟨b,snapshot,found,read,unstamped,rfl⟩ := step_passes taken
    have read' : b.keyed.snapshot = some snapshot := read
    have unstamped' : b.keyed.stamped = none := by simp [Batch.keyed,unstamped]
    simp only [step,Event.keyed,listed i b found,read',unstamped',pass_keyed]
  | table t =>
    cases taken
    rfl

theorem run_keyed {s s' : Process} {events : List Event} (run : Runs step s events s') : Runs step s.keyed (events.map Event.keyed) s'.keyed := by
  induction events generalizing s with
  | nil => exact runs_nil.mpr (congrArg Process.keyed (runs_nil.mp run))
  | cons event rest ih =>
    obtain ⟨u,taken,onward⟩ := runs_cons.mp run
    exact runs_cons.mpr ⟨u.keyed,step_keyed taken,ih onward⟩

/-- A row without a key has the time of its call. -/
def OnTheClock (b : Batch) : Prop := ∀ stamped ∈ b.stamped,∀ e ∈ stamped,e.1.queuePartitionKey = none → e.2 = b.nowMS

theorem step_clock {s s' : Process} {event : Event} (all : ∀ b ∈ s.batches,OnTheClock b) (taken : step s event = some s') :
    ∀ b ∈ s'.batches,OnTheClock b := by
  cases event with
  | call statuses nowMS =>
    cases taken
    intro b member
    rcases List.mem_append.mp member with old | new
    · exact all b old
    · rw [List.mem_singleton.mp new]
      exact fun stamped here => by cases here
  | selects i =>
    obtain ⟨b,found,_,rfl⟩ := step_selects taken
    refine all_set all ?_ i
    exact all b (List.mem_of_getElem? found)
  | passes i =>
    obtain ⟨b,snapshot,found,_,_,rfl⟩ := step_passes taken
    refine all_set all ?_ i
    intro stamped here e member unkeyed
    cases here
    exact stamp_clock _ _ _ _ e member unkeyed
  | table t =>
    cases taken
    exact all

/-! ### The order of the keys -/

/-- What the stamps of a process that starts with the table `t` are good for. -/
structure KeyOrder (t : Statuses) : Prop where
  increasing : ∀ events s,Runs step { table := t } events s → ∀ key,(stampsOf s key).Pairwise (· < ·)
  /-- The first batch with a key to pass the await has read the rows that all stamps of the key are above. -/
  seeded : ∀ events i s rest s' b snapshot key k r,Runs step { table := t } events s → s.batches[i]? = some b → b.snapshot = some snapshot →
    key ∈ batchKeys b.statuses → stampsOf s key = [] → snapshot.get? k = some r → activeHits key k r = true →
      Runs step s (.passes i :: rest) s' → ∀ v ∈ stampsOf s' key,r.created_at < v
  /-- Without the rows that have no key, everything else is as it is. -/
  unordered : ∀ events s,Runs step { table := t } events s → Runs step { table := t } (events.map Event.keyed) s.keyed
  clock : ∀ events s,Runs step { table := t } events s → ∀ b ∈ s.batches,OnTheClock b

theorem run_tracked {t : Statuses} {events : List Event} {s : Process} (run : Runs step { table := t } events s) : Tracked s :=
  runs_invariant (fun _ _ _ tracked taken => step_tracked tracked taken) (tracked_init t) run

theorem run_above {s s' : Process} {events : List Event} {key : String} {m : Int} (tracked : Tracked s) (above : Above key m s)
    (run : Runs step s events s') : Above key m s' :=
  (runs_invariant (I := fun s => Tracked s ∧ Above key m s)
    (fun _ _ _ held taken => ⟨step_tracked held.1 taken,step_above held.1 held.2 taken⟩) ⟨tracked,above⟩ run).2

theorem keys_ordered (t : Statuses) : KeyOrder t := by
  refine ⟨fun events s run => (run_tracked run).sorted,?_,fun events s run => run_keyed run,fun events s run => ?_⟩
  · intro events i s rest s' b snapshot key k r run found read inBatch new there active onward
    have tracked := run_tracked run
    obtain ⟨u,taken,onward⟩ := runs_cons.mp onward
    have tracked' := step_tracked tracked taken
    obtain ⟨b',snapshot',found',read',_,rfl⟩ := step_passes taken
    cases found.symm.trans found'
    cases read.symm.trans read'
    exact (run_above tracked' (first_pass_above tracked found inBatch new there active) onward).1
  · exact runs_invariant (I := fun s => ∀ b ∈ s.batches,OnTheClock b) (fun _ _ _ all taken => step_clock all taken) (by simp) run

/-! ### Rows that finish between two look-ups -/

def keyRow (status : StatusString) : WorkflowStatus :=
  { status := status,name := "f",queue_partition_key := some "k",created_at := 1000,updated_at := 1000 }

def ahead : Statuses := Table.empty.insert "r" (keyRow ENQUEUED)

def keyBatch (workflowUUID : String) : List WorkflowStatusInternal :=
  [{ workflowUUID := workflowUUID,status := ENQUEUED,workflowName := "f",queuePartitionKey := some "k",createdAt := 0 }]

/-- The first call has read the row of the key, which finishes before the second one looks; the second
    one is the first to pass the await, on a clock that is behind. -/
def finishedBetween : List Event :=
  [.table (Table.empty.insert "r" (keyRow SUCCESS)),.call (keyBatch "y") 6,.selects 1,.passes 1,.passes 0]

theorem finishedBetween_below :
    (((Event.call (keyBatch "x") 5 :: .selects 0 :: finishedBetween).foldlM step { table := ahead }).map fun s => stampsOf s "k") =
      some [6,1001] ∧
    ¬ ∀ (t : Statuses) (statuses : List WorkflowStatusInternal) (nowMS : Int) (rest : List Event) (s : Process) (key k : String)
      (r : WorkflowStatus),Runs step { table := t } (.call statuses nowMS :: .selects 0 :: rest) s → key ∈ batchKeys statuses →
        t.get? k = some r → activeHits key k r = true → ∀ v ∈ stampsOf s key,r.created_at < v := by
  have ran : (((Event.call (keyBatch "x") 5 :: .selects 0 :: finishedBetween).foldlM step { table := ahead }).map fun s => stampsOf s "k") =
      some [6,1001] := by decide +kernel
  refine ⟨ran,fun claim => ?_⟩
  obtain ⟨s,run,stamps⟩ := Option.map_eq_some_iff.mp ran
  have above := claim ahead (keyBatch "x") 5 finishedBetween s "k" "r" (keyRow ENQUEUED) run (by decide) (by decide) (by decide) 6
    (by rw [stamps]; simp)
  exact absurd above (by decide)

end Dbos.BatchStamps
