import Mathlib.Algebra.Order.Ring.Rat
import Mathlib.Data.List.Induction
import Dbos.Pg.Table

/-!
The state that event receivers keep in `event_dispatch_kv`. A value is stored with a version: a time, a sequence number or both. Each
`upsertEventDispatchState` is a single statement, so that calls can interleave only by coming one after the other, in any order.
-/
namespace Dbos.DispatchState
open Dbos.Pg

/-! ### NULL -/

section
variable {α : Type} [LinearOrder α]

/-- `GREATEST` ignores NULL. -/
def greatest : Option α → Option α → Option α
  | some a,some b => some (max a b)
  | some a,none => some a
  | none,b => b

/-- `a > b` as a condition: a comparison with NULL is not met. -/
def exceeds : Option α → Option α → Bool
  | some a,some b => b < a
  | _,_ => false

/-- What the first has, the second has too, and no less of it. -/
def AtMost (a b : Option α) : Prop := ∀ x,a = some x → ∃ y,b = some y ∧ x ≤ y

/-- The greatest entry of a column, if there is an entry at all. -/
structure Greatest (column : List (Option α)) (a : Option α) : Prop where
  given : ∀ x,a = some x → some x ∈ column
  bound : ∀ b ∈ column,AtMost b a

theorem exceeds_iff {a b : Option α} : exceeds a b = true ↔ ∃ x y,a = some x ∧ b = some y ∧ y < x := by
  cases a <;> cases b <;> simp [exceeds]

theorem not_exceeds {a b : Option α} (low : AtMost a b) : exceeds a b = false := by
  refine Bool.eq_false_iff.mpr fun higher => ?_
  obtain ⟨x,y,rfl,rfl,less⟩ := exceeds_iff.mp higher
  obtain ⟨_,same,more⟩ := low x rfl
  cases same
  exact absurd less (not_lt.mpr more)

theorem AtMost.refl (a : Option α) : AtMost a a := fun x here => ⟨x,here,le_refl x⟩

theorem AtMost.antisymm {a b : Option α} (low : AtMost a b) (high : AtMost b a) : a = b := by
  cases a with
  | none =>
    cases b with
    | none => rfl
    | some y => obtain ⟨_,none_,_⟩ := high y rfl; cases none_
  | some x =>
    obtain ⟨y,rfl,less⟩ := low x rfl
    obtain ⟨_,same,more⟩ := high y rfl
    cases same
    exact congrArg some (le_antisymm less more)

theorem greatest_append {column : List (Option α)} {a : Option α} (so_far : Greatest column a) (b : Option α) :
    Greatest (column ++ [b]) (greatest b a) := by
  obtain ⟨given,bound⟩ := so_far
  constructor
  · intro x here
    rw [List.mem_append,List.mem_singleton]
    cases a with
    | none =>
      cases b with
      | none => cases here
      | some z => exact .inr here.symm
    | some y =>
      cases b with
      | none => exact .inl (given x here)
      | some z =>
        rcases max_choice z y with upper | upper
        · exact .inr (by rw [← here,greatest,upper])
        · exact .inl (given x (by rw [← here,greatest,upper]))
  · intro c listed x here
    rcases List.mem_append.mp listed with old | new
    · obtain ⟨y,rfl,less⟩ := bound c old x here
      cases b with
      | none => exact ⟨y,rfl,less⟩
      | some z => exact ⟨max z y,rfl,le_max_of_le_right less⟩
    · rw [List.mem_singleton.mp new] at here
      subst here
      cases a with
      | none => exact ⟨x,rfl,le_refl x⟩
      | some y => exact ⟨max x y,rfl,le_max_left x y⟩

theorem Greatest.unique {column : List (Option α)} {a b : Option α} (first : Greatest column a) (second : Greatest column b) : a = b :=
  AtMost.antisymm (fun x here => second.bound _ (first.given x here) x rfl) fun x here => first.bound _ (second.given x here) x rfl

theorem Greatest.congr {column column' : List (Option α)} {a : Option α} (so_far : Greatest column a) (same : ∀ b,b ∈ column ↔ b ∈ column') :
    Greatest column' a :=
  ⟨fun x here => (same _).mp (so_far.given x here),fun b listed => so_far.bound b ((same b).mpr listed)⟩

end

/-! ### upsertEventDispatchState -/

/-- `updateTime` is the number that the column `decimal(38,15)` keeps. -/
structure DBOSExternalState where
  service : String
  workflowFnName : String
  key : String
  value : Option String := none
  updateTime : Option ℚ := none
  updateSeq : Option Int := none
  deriving DecidableEq

/-- The columns of `event_dispatch_kv` beside its key. -/
structure EventDispatchKv where
  value : Option String
  update_time : Option ℚ
  update_seq : Option Int
  deriving DecidableEq

abbrev EventDispatchKvs := Table (String × String × String) EventDispatchKv

def DBOSExternalState.rowKey (state : DBOSExternalState) : String × String × String := (state.service,state.workflowFnName,state.key)

def insertedRow (excluded : DBOSExternalState) : EventDispatchKv := ⟨excluded.value,excluded.updateTime,excluded.updateSeq⟩

/-- The condition of the CASE. -/
def replaces (excluded : DBOSExternalState) (row : EventDispatchKv) : Bool :=
  exceeds excluded.updateTime row.update_time || exceeds excluded.updateSeq row.update_seq ||
    (row.update_time.isNone && row.update_seq.isNone)

def conflictRow (excluded : DBOSExternalState) (row : EventDispatchKv) : EventDispatchKv where
  update_time := greatest excluded.updateTime row.update_time
  update_seq := greatest excluded.updateSeq row.update_seq
  value := if replaces excluded row then excluded.value else row.value

/-- The row that RETURNING gives, and the table. -/
def upsertEventDispatchState (t : EventDispatchKvs) (state : DBOSExternalState) : DBOSExternalState × EventDispatchKvs :=
  let row := (t.get? state.rowKey).elim (insertedRow state) (conflictRow state)
  ({ state with value := row.value,updateTime := row.update_time,updateSeq := row.update_seq },
    t.upsert state.rowKey (insertedRow state) (conflictRow state))

def getEventDispatchState (t : EventDispatchKvs) (service workflowName key : String) : Option DBOSExternalState :=
  (t.get? (service,workflowName,key)).map fun row => ⟨service,workflowName,key,row.value,row.update_time,row.update_seq⟩

/-- Calls in the order in which their statements take effect. -/
def afterCalls (t : EventDispatchKvs) (calls : List DBOSExternalState) : EventDispatchKvs :=
  calls.foldl (fun t state => (upsertEventDispatchState t state).2) t

/-! ### Versions -/

/-- The call carries a version. -/
def Versioned (call : DBOSExternalState) : Prop := call.updateTime.isSome ∨ call.updateSeq.isSome

def SameVersion (a b : DBOSExternalState) : Prop := a.updateTime = b.updateTime ∧ a.updateSeq = b.updateSeq

/-- Calls that carry both are not ordered one way by one and the other way by the other. -/
def Consistent (calls : List DBOSExternalState) : Prop :=
  ∀ a ∈ calls,∀ b ∈ calls,¬ (exceeds a.updateTime b.updateTime = true ∧ exceeds b.updateSeq a.updateSeq = true)

/-- The newer call carries what the older one does, no less of it, and more of one. -/
structure Older (a b : DBOSExternalState) : Prop where
  time : AtMost a.updateTime b.updateTime
  seq : AtMost a.updateSeq b.updateSeq
  less : exceeds b.updateTime a.updateTime = true ∨ exceeds b.updateSeq a.updateSeq = true

/-- A call with the greatest version. -/
def Newest (calls : List DBOSExternalState) (call : DBOSExternalState) : Prop :=
  call ∈ calls ∧ ∀ other ∈ calls,SameVersion other call ∨ Older other call

/-! ### One key -/

/-- The row of the key, when a call for it takes effect. -/
def merged (row : Option EventDispatchKv) (call : DBOSExternalState) : Option EventDispatchKv :=
  some (row.elim (insertedRow call) (conflictRow call))

/-- The calls for one key. -/
def callsFor (key : String × String × String) (calls : List DBOSExternalState) : List DBOSExternalState :=
  calls.filter fun call => call.rowKey = key

theorem get?_upsert (t : EventDispatchKvs) (call : DBOSExternalState) (key : String × String × String) :
    (upsertEventDispatchState t call).2.get? key = if call.rowKey = key then merged (t.get? key) call else t.get? key := by
  unfold upsertEventDispatchState merged
  rw [Table.get?_upsert]
  by_cases own : call.rowKey = key
  · rw [if_pos own,if_pos own.symm,own]
  · rw [if_neg own,if_neg (Ne.symm own)]

/-- Calls for other keys make no difference. -/
theorem get?_afterCalls (t : EventDispatchKvs) (calls : List DBOSExternalState) (key : String × String × String) :
    (afterCalls t calls).get? key = (callsFor key calls).foldl merged (t.get? key) := by
  induction calls generalizing t with
  | nil => rfl
  | cons call rest ih =>
    change (afterCalls (upsertEventDispatchState t call).2 rest).get? key = _
    rw [ih,get?_upsert,callsFor,callsFor]
    by_cases own : call.rowKey = key
    · rw [if_pos own,List.filter_cons_of_pos (by simpa using own),List.foldl_cons]
    · rw [if_neg own,List.filter_cons_of_neg (by simpa using own)]

/-- The version that is stored once the calls have taken effect. -/
structure Stored (calls : List DBOSExternalState) (row : EventDispatchKv) : Prop where
  update_time : Greatest (calls.map DBOSExternalState.updateTime) row.update_time
  update_seq : Greatest (calls.map DBOSExternalState.updateSeq) row.update_seq

theorem stored_single (call : DBOSExternalState) : Stored [call] (insertedRow call) := by
  constructor
  · exact ⟨fun x here => List.mem_singleton.mpr here.symm,fun b listed => List.mem_singleton.mp listed ▸ AtMost.refl _⟩
  · exact ⟨fun x here => List.mem_singleton.mpr here.symm,fun b listed => List.mem_singleton.mp listed ▸ AtMost.refl _⟩

theorem stored_append {calls : List DBOSExternalState} {row : EventDispatchKv} (stored : Stored calls row) (call : DBOSExternalState) :
    Stored (calls ++ [call]) (conflictRow call row) := by
  constructor
  · rw [List.map_append]
    exact greatest_append stored.update_time call.updateTime
  · rw [List.map_append]
    exact greatest_append stored.update_seq call.updateSeq

theorem Stored.atMost {calls : List DBOSExternalState} {row : EventDispatchKv} (stored : Stored calls row) {call : DBOSExternalState}
    (member : call ∈ calls) : AtMost call.updateTime row.update_time ∧ AtMost call.updateSeq row.update_seq :=
  ⟨stored.update_time.bound _ (List.mem_map_of_mem member),stored.update_seq.bound _ (List.mem_map_of_mem member)⟩

/-- Nobody is newer than a newest call. -/
theorem Newest.bound {calls : List DBOSExternalState} {newest other : DBOSExternalState} (greatest_ : Newest calls newest) (member : other ∈ calls) :
    AtMost other.updateTime newest.updateTime ∧ AtMost other.updateSeq newest.updateSeq := by
  rcases greatest_.2 other member with ⟨time,seq⟩ | ⟨time,seq,_⟩
  · exact ⟨time ▸ AtMost.refl _,seq ▸ AtMost.refl _⟩
  · exact ⟨time,seq⟩

/-- A call whose version is nowhere greater than what is stored does not replace the value. -/
theorem value_kept {call : DBOSExternalState} {row : EventDispatchKv} (versioned : row.update_time.isSome ∨ row.update_seq.isSome)
    (time : exceeds call.updateTime row.update_time = false) (seq : exceeds call.updateSeq row.update_seq = false) :
    (conflictRow call row).value = row.value := by
  have unversioned : (row.update_time.isNone && row.update_seq.isNone) = false := by
    rcases versioned with some_ | some_
    · simp [Option.isNone_eq_false_iff.mpr some_]
    · simp [Option.isNone_eq_false_iff.mpr some_]
  simp [conflictRow,replaces,time,seq,unversioned]

/-- The greatest entries of two columns, and a call that is newer than all calls: one of its entries is greater still. Were both entries
    reached already, it would be by calls that are ordered one way in one column and the other way in the other. -/
theorem exceeds_greatest {α β γ : Type} [LinearOrder α] [LinearOrder β] {calls : List γ} {f : γ → Option α} {g : γ → Option β}
    {a : Option α} {b : Option β} (first : Greatest (calls.map f) a) (second : Greatest (calls.map g) b)
    (consistent : ∀ c ∈ calls,∀ d ∈ calls,¬ (exceeds (f c) (f d) = true ∧ exceeds (g d) (g c) = true)) {newest : γ}
    (older : ∀ c ∈ calls,AtMost (f c) (f newest) ∧ AtMost (g c) (g newest) ∧ (exceeds (f newest) (f c) = true ∨ exceeds (g newest) (g c) = true))
    {call : γ} (member : call ∈ calls) (less : exceeds (f newest) (f call) = true) : exceeds (f newest) a = true ∨ exceeds (g newest) b = true := by
  obtain ⟨y,x₀,atNewest,atCall,_⟩ := exceeds_iff.mp less
  obtain ⟨x,rfl,_⟩ := first.bound _ (List.mem_map_of_mem member) x₀ atCall
  obtain ⟨c,listed,from_⟩ := List.mem_map.mp (first.given x rfl)
  obtain ⟨atMost,_,lessOne⟩ := older c listed
  obtain ⟨_,same,low⟩ := atMost x from_
  obtain rfl : y = _ := Option.some.inj (atNewest.symm.trans same)
  rcases lt_or_eq_of_le low with below | rfl
  · exact .inl (exceeds_iff.mpr ⟨y,x,atNewest,rfl,below⟩)
  -- the call that has brought the greatest entry of the first column is older by the second one
  have not_first : ¬ exceeds (f newest) (f c) = true := by
    rw [atNewest,from_]
    simp [exceeds]
  obtain ⟨v,u,atNewest',atC,fewer⟩ := exceeds_iff.mp (lessOne.resolve_left not_first)
  obtain ⟨w,rfl,_⟩ := second.bound _ (List.mem_map_of_mem listed) u atC
  obtain ⟨d,listed',from_'⟩ := List.mem_map.mp (second.given w rfl)
  obtain ⟨_,atMost',lessTwo⟩ := older d listed'
  obtain ⟨_,same',low'⟩ := atMost' w from_'
  obtain rfl : v = _ := Option.some.inj (atNewest'.symm.trans same')
  rcases lt_or_eq_of_le low' with below | rfl
  · exact .inr (exceeds_iff.mpr ⟨v,w,atNewest',rfl,below⟩)
  have not_second : ¬ exceeds (g newest) (g d) = true := by
    rw [atNewest',from_']
    simp [exceeds]
  obtain ⟨_,x₂,here,atD,lower⟩ := exceeds_iff.mp (lessTwo.resolve_right not_second)
  cases atNewest.symm.trans here
  exact absurd ⟨exceeds_iff.mpr ⟨_,x₂,from_,atD,lower⟩,exceeds_iff.mpr ⟨_,u,from_',atC,fewer⟩⟩ (consistent c listed d listed')

/-- A newest call replaces what older calls have stored. -/
theorem newest_replaces {calls : List DBOSExternalState} {row : EventDispatchKv} {newest : DBOSExternalState} (consistent : Consistent calls)
    (stored : Stored calls row) (some_ : calls ≠ []) (older : ∀ other ∈ calls,Older other newest) : replaces newest row = true := by
  have one : exceeds newest.updateTime row.update_time = true ∨ exceeds newest.updateSeq row.update_seq = true := by
    obtain ⟨call,member⟩ := List.exists_mem_of_ne_nil _ some_
    rcases (older call member).less with time | seq
    · exact exceeds_greatest stored.update_time stored.update_seq consistent
        (fun c listed => ⟨(older c listed).time,(older c listed).seq,(older c listed).less⟩) member time
    · refine (exceeds_greatest stored.update_seq stored.update_time (fun c first d second both => ?_)
        (fun c listed => ⟨(older c listed).seq,(older c listed).time,(older c listed).less.symm⟩) member seq).symm
      exact consistent d second c first both.symm
  rcases one with time | seq
  · simp [replaces,time]
  · simp [replaces,seq]

/-- A newest call that has taken effect is not undone, whatever comes after it. -/
def Kept (calls : List DBOSExternalState) (newest : DBOSExternalState) (row : EventDispatchKv) : Prop :=
  (∃ call ∈ calls,SameVersion call newest) → ∃ call ∈ calls,SameVersion call newest ∧ row.value = call.value

theorem kept_append {calls all : List DBOSExternalState} {row : EventDispatchKv} {newest call : DBOSExternalState}
    (greatest_ : Newest all newest) (consistent : Consistent all) (versioned : Versioned newest) (within : ∀ c ∈ calls ++ [call],c ∈ all)
    (some_ : calls ≠ []) (stored : Stored calls row) (kept : Kept calls newest row) : Kept (calls ++ [call]) newest (conflictRow call row) := by
  have part : ∀ c ∈ calls,c ∈ all := fun c member => within c (List.mem_append_left _ member)
  have here : call ∈ all := within call (List.mem_append_right _ List.mem_cons_self)
  by_cases before : ∃ c ∈ calls,SameVersion c newest
  · intro _
    obtain ⟨c,member,same,value⟩ := kept before
    -- what is stored is exactly what the newest call carries
    have time : row.update_time = newest.updateTime := by
      refine AtMost.antisymm (fun x here => ?_) (same.1 ▸ (stored.atMost member).1)
      obtain ⟨d,listed,from_⟩ := List.mem_map.mp (stored.update_time.given x here)
      exact (greatest_.bound (part d listed)).1 x from_
    have seq : row.update_seq = newest.updateSeq := by
      refine AtMost.antisymm (fun x here => ?_) (same.2 ▸ (stored.atMost member).2)
      obtain ⟨d,listed,from_⟩ := List.mem_map.mp (stored.update_seq.given x here)
      exact (greatest_.bound (part d listed)).2 x from_
    obtain ⟨lowTime,lowSeq⟩ := greatest_.bound here
    have same_value : (conflictRow call row).value = row.value :=
      value_kept (by rw [time,seq]; exact versioned) (by rw [time]; exact not_exceeds lowTime) (by rw [seq]; exact not_exceeds lowSeq)
    exact ⟨c,List.mem_append_left _ member,same,same_value.trans value⟩
  · rintro ⟨c,member,same⟩
    obtain rfl : c = call := by
      rcases List.mem_append.mp member with old | new
      · exact absurd ⟨c,old,same⟩ before
      · exact List.mem_singleton.mp new
    have older : ∀ other ∈ calls,Older other c := by
      intro other old
      have less := (greatest_.2 other (part other old)).resolve_left fun equal => before ⟨other,old,equal⟩
      exact ⟨same.1 ▸ less.time,same.2 ▸ less.seq,by rw [same.1,same.2]; exact less.less⟩
    have replaced := newest_replaces (fun a first b second => consistent a (part a first) b (part b second)) stored some_ older
    exact ⟨c,member,same,by simp [conflictRow,replaced]⟩

/-- Any calls for one key, in any order. -/
theorem calls_stored (all : List DBOSExternalState) {calls : List DBOSExternalState} (within : ∀ c ∈ calls,c ∈ all) (some_ : calls ≠ []) :
    ∃ row,calls.foldl merged none = some row ∧ Stored calls row ∧
      (Consistent all → ∀ newest,Newest all newest → Versioned newest → Kept calls newest row) := by
  induction calls using List.reverseRecOn with
  | nil => exact absurd rfl some_
  | append_singleton calls call ih =>
    rw [List.foldl_append]
    by_cases first : calls = []
    · subst first
      refine ⟨insertedRow call,rfl,stored_single call,fun _ newest _ _ => ?_⟩
      rintro ⟨c,member,same⟩
      obtain rfl : c = call := List.mem_singleton.mp member
      exact ⟨c,member,same,rfl⟩
    · obtain ⟨row,before,stored,kept⟩ := ih (fun c member => within c (List.mem_append_left _ member)) first
      refine ⟨conflictRow call row,by rw [before]; rfl,stored_append stored call,fun consistent newest greatest_ versioned => ?_⟩
      exact kept_append greatest_ consistent versioned within first stored (kept consistent newest greatest_ versioned)

/-! ### Versions of one kind -/

def SameColumns (a b : DBOSExternalState) : Prop :=
  a.updateTime.isSome = b.updateTime.isSome ∧ a.updateSeq.isSome = b.updateSeq.isSome

section
variable {α : Type} [LinearOrder α]

/-- Entries of one column are less, equal or greater. -/
theorem column_cases {a b : Option α} (same : a.isSome = b.isSome) :
    a = b ∨ (AtMost a b ∧ exceeds b a = true) ∨ (AtMost b a ∧ exceeds a b = true) := by
  cases a with
  | none =>
    cases b with
    | none => exact .inl rfl
    | some y => cases same
  | some x =>
    cases b with
    | none => cases same
    | some y =>
      rcases lt_trichotomy x y with less | rfl | more
      · exact .inr (.inl ⟨fun _ here => ⟨y,rfl,Option.some.inj here ▸ less.le⟩,exceeds_iff.mpr ⟨y,x,rfl,rfl,less⟩⟩)
      · exact .inl rfl
      · exact .inr (.inr ⟨fun _ here => ⟨x,rfl,Option.some.inj here ▸ more.le⟩,exceeds_iff.mpr ⟨x,y,rfl,rfl,more⟩⟩)

theorem AtMost.trans {a b c : Option α} (first : AtMost a b) (second : AtMost b c) : AtMost a c := by
  intro x here
  obtain ⟨y,there,low⟩ := first x here
  obtain ⟨z,top,low'⟩ := second y there
  exact ⟨z,top,low.trans low'⟩

theorem exceeds_of_atMost {a b c : Option α} (atMost : AtMost b c) (more : exceeds b a = true) : exceeds c a = true := by
  obtain ⟨y,x,rfl,rfl,less⟩ := exceeds_iff.mp more
  obtain ⟨z,rfl,low⟩ := atMost y rfl
  exact exceeds_iff.mpr ⟨z,x,rfl,rfl,less.trans_le low⟩

end

theorem Older.trans {a b c : DBOSExternalState} (first : Older a b) (second : Older b c) : Older a c where
  time := first.time.trans second.time
  seq := first.seq.trans second.seq
  less := first.less.imp (exceeds_of_atMost second.time) (exceeds_of_atMost second.seq)

/-- Versions of one kind can be compared. -/
theorem version_cases {calls : List DBOSExternalState} (consistent : Consistent calls) {a b : DBOSExternalState} (first : a ∈ calls)
    (second : b ∈ calls) (columns : SameColumns a b) : SameVersion a b ∨ Older a b ∨ Older b a := by
  rcases column_cases columns.1 with time | ⟨low,less⟩ | ⟨high,more⟩
  · rcases column_cases columns.2 with seq | ⟨low',less'⟩ | ⟨high',more'⟩
    · exact .inl ⟨time,seq⟩
    · exact .inr (.inl ⟨time ▸ AtMost.refl _,low',.inr less'⟩)
    · exact .inr (.inr ⟨time ▸ AtMost.refl _,high',.inr more'⟩)
  · rcases column_cases columns.2 with seq | ⟨low',_⟩ | ⟨_,more'⟩
    · exact .inr (.inl ⟨low,seq ▸ AtMost.refl _,.inl less⟩)
    · exact .inr (.inl ⟨low,low',.inl less⟩)
    · exact absurd ⟨less,more'⟩ (consistent b second a first)
  · rcases column_cases columns.2 with seq | ⟨_,less'⟩ | ⟨high',_⟩
    · exact .inr (.inr ⟨high,seq ▸ AtMost.refl _,.inl more⟩)
    · exact absurd ⟨more,less'⟩ (consistent a first b second)
    · exact .inr (.inr ⟨high,high',.inl more⟩)

/-- Among calls whose versions are of one kind there is a newest one. -/
theorem exists_newest {all calls : List DBOSExternalState} (consistent : Consistent all) (within : ∀ c ∈ calls,c ∈ all)
    (columns : ∀ a ∈ calls,∀ b ∈ calls,SameColumns a b) (some_ : calls ≠ []) : ∃ newest,Newest calls newest := by
  induction calls with
  | nil => exact absurd rfl some_
  | cons call rest ih =>
    by_cases alone : rest = []
    · subst alone
      exact ⟨call,List.mem_cons_self,fun other member => .inl (List.mem_singleton.mp member ▸ ⟨rfl,rfl⟩)⟩
    obtain ⟨newest,member,others⟩ := ih (fun c member => within c (List.mem_cons_of_mem _ member))
      (fun a first b second => columns a (List.mem_cons_of_mem _ first) b (List.mem_cons_of_mem _ second)) alone
    have listed : newest ∈ call :: rest := List.mem_cons_of_mem _ member
    rcases version_cases consistent (within call List.mem_cons_self) (within newest listed) (columns call List.mem_cons_self newest listed)
      with same | older | newer
    · refine ⟨newest,listed,fun other there => ?_⟩
      rcases List.mem_cons.mp there with rfl | later
      · exact .inl same
      · exact others other later
    · refine ⟨newest,listed,fun other there => ?_⟩
      rcases List.mem_cons.mp there with rfl | later
      · exact .inr older
      · exact others other later
    · refine ⟨call,List.mem_cons_self,fun other there => ?_⟩
      rcases List.mem_cons.mp there with rfl | later
      · exact .inl ⟨rfl,rfl⟩
      · rcases others other later with ⟨time,seq⟩ | older
        · exact .inr ⟨time ▸ newer.time,seq ▸ newer.seq,by rw [time,seq]; exact newer.less⟩
        · exact .inr (older.trans newer)

/-! ### Convergence -/

/-- What is stored for a key by calls with versions. -/
structure Converges (t : EventDispatchKvs) (key : String × String × String) (calls : List DBOSExternalState) : Prop where
  versions : ∀ row,(afterCalls t calls).get? key = some row → Stored (callsFor key calls) row
  value : ∀ row,(afterCalls t calls).get? key = some row → (∃ newest,Newest (callsFor key calls) newest) →
    ∃ call,Newest (callsFor key calls) call ∧ row.value = call.value
  there : callsFor key calls ≠ [] → ((afterCalls t calls).get? key).isSome
  -- `late` comes after all of them
  discarded : ∀ row late,(afterCalls t calls).get? key = some row → late.rowKey = key → exceeds late.updateTime row.update_time = false →
    exceeds late.updateSeq row.update_seq = false → ∃ row',(afterCalls t (calls ++ [late])).get? key = some row' ∧ row'.value = row.value
  order : (∃ newest,Newest (callsFor key calls) newest) →
    (∀ a ∈ callsFor key calls,∀ b ∈ callsFor key calls,SameVersion a b → a.value = b.value) →
    ∀ calls',(callsFor key calls').Perm (callsFor key calls) → (afterCalls t calls').get? key = (afterCalls t calls).get? key

theorem calls_newest {calls : List DBOSExternalState} {row : EventDispatchKv} (stored : calls.foldl merged none = some row)
    (versioned : ∀ c ∈ calls,Versioned c) (consistent : Consistent calls) {newest : DBOSExternalState} (greatest_ : Newest calls newest) :
    ∃ call,Newest calls call ∧ SameVersion call newest ∧ row.value = call.value := by
  have some_ : calls ≠ [] := fun none_ => by rw [none_] at greatest_; cases greatest_.1
  obtain ⟨_,found,_,kept⟩ := calls_stored calls (fun c member => member) some_
  cases stored.symm.trans found
  obtain ⟨call,member,same,value⟩ := kept consistent newest greatest_ (versioned newest greatest_.1) ⟨newest,greatest_.1,rfl,rfl⟩
  refine ⟨call,⟨member,fun other listed => ?_⟩,same,value⟩
  rcases greatest_.2 other listed with ⟨time,seq⟩ | older
  · exact .inl ⟨time.trans same.1.symm,seq.trans same.2.symm⟩
  · exact .inr ⟨same.1 ▸ older.time,same.2 ▸ older.seq,by rw [same.1,same.2]; exact older.less⟩

/-- Calls on one key, in any order and among calls on other keys. The versions stored are the greatest ones. Where one of the calls is newest, as
    among calls whose versions are of one kind, its value is stored. -/
theorem versions_converge {t : EventDispatchKvs} {key : String × String × String} (free : t.get? key = none) {calls : List DBOSExternalState}
    (versioned : ∀ c ∈ callsFor key calls,Versioned c) (consistent : Consistent (callsFor key calls)) :
    Converges t key calls ∧
      ((∀ a ∈ callsFor key calls,∀ b ∈ callsFor key calls,SameColumns a b) → callsFor key calls ≠ [] → ∃ newest,Newest (callsFor key calls) newest) := by
  have after : ∀ calls',(afterCalls t calls').get? key = (callsFor key calls').foldl merged none := by
    intro calls'
    rw [get?_afterCalls,free]
  have shape : ∀ row,(afterCalls t calls).get? key = some row → Stored (callsFor key calls) row ∧ callsFor key calls ≠ [] := by
    intro row found
    rw [after] at found
    have some_ : callsFor key calls ≠ [] := fun none_ => by rw [none_] at found; cases found
    obtain ⟨row',found',stored,_⟩ := calls_stored (callsFor key calls) (fun c member => member) some_
    cases found.symm.trans found'
    exact ⟨stored,some_⟩
  refine ⟨⟨fun row found => (shape row found).1,?_,?_,?_,?_⟩,fun columns => exists_newest consistent (fun c member => member) columns⟩
  · rintro row found ⟨newest,greatest_⟩
    rw [after] at found
    obtain ⟨call,isNewest,_,value⟩ := calls_newest found versioned consistent greatest_
    exact ⟨call,isNewest,value⟩
  · intro some_
    obtain ⟨row,found,_⟩ := calls_stored (callsFor key calls) (fun c member => member) some_
    rw [after,found]
    rfl
  · intro row late found own time seq
    obtain ⟨stored,some_⟩ := shape row found
    obtain ⟨call,member⟩ := List.exists_mem_of_ne_nil _ some_
    refine ⟨conflictRow late row,?_,value_kept ?_ time seq⟩
    · have split : callsFor key (calls ++ [late]) = callsFor key calls ++ [late] := by simp [callsFor,own]
      rw [after] at found ⊢
      rw [split,List.foldl_append,found]
      rfl
    · refine (versioned call member).imp (fun has => ?_) fun has => ?_
      · obtain ⟨x,here⟩ := Option.isSome_iff_exists.mp has
        obtain ⟨y,there,_⟩ := (stored.atMost member).1 x here
        rw [there]
        rfl
      · obtain ⟨x,here⟩ := Option.isSome_iff_exists.mp has
        obtain ⟨y,there,_⟩ := (stored.atMost member).2 x here
        rw [there]
        rfl
  · rintro ⟨newest,greatest_⟩ distinct calls' perm
    have some_ : callsFor key calls ≠ [] := fun none_ => by rw [none_] at greatest_; cases greatest_.1
    have some_' : callsFor key calls' ≠ [] := fun none_ => some_ (by rw [none_] at perm; exact perm.nil_eq.symm)
    obtain ⟨row,found,stored,kept⟩ := calls_stored (callsFor key calls) (fun c member => member) some_
    obtain ⟨row',found',stored',kept'⟩ := calls_stored (callsFor key calls) (fun c member => perm.mem_iff.mp member) some_'
    have versioned_ := versioned newest greatest_.1
    obtain ⟨call,member,same,value⟩ := kept consistent newest greatest_ versioned_ ⟨newest,greatest_.1,rfl,rfl⟩
    obtain ⟨call',member',same',value'⟩ := kept' consistent newest greatest_ versioned_ ⟨newest,perm.mem_iff.mpr greatest_.1,rfl,rfl⟩
    have time := (stored'.update_time.congr fun b => (perm.map _).mem_iff).unique stored.update_time
    have seq := (stored'.update_seq.congr fun b => (perm.map _).mem_iff).unique stored.update_seq
    have values : row'.value = row.value := by
      rw [value,value']
      exact distinct call' (perm.mem_iff.mp member') call member ⟨same'.1.trans same.1.symm,same'.2.trans same.2.symm⟩
    rw [after,after,found,found']
    cases row
    cases row'
    simp only at time seq values
    rw [time,seq,values]

/-! ### Two receivers -/

def lastState : String × String × String := ("scheduler","Report.weekly","lastState")

def call (value : String) (updateTime : Option ℚ) (updateSeq : Option Int) : DBOSExternalState where
  service := "scheduler"
  workflowFnName := "Report.weekly"
  key := "lastState"
  value := some value
  updateTime := updateTime
  updateSeq := updateSeq

/-- Two receivers that note their times: the later one stays, whoever writes first. -/
theorem versions_converge_times :
    (afterCalls .empty [call "9" (some 9) none,call "5" (some 5) none]).get? lastState =
      (afterCalls .empty [call "5" (some 5) none,call "9" (some 9) none]).get? lastState := by
  have own : callsFor lastState [call "5" (some 5) none,call "9" (some 9) none] = [call "5" (some 5) none,call "9" (some 9) none] := by decide
  have both : ∀ c ∈ callsFor lastState [call "5" (some 5) none,call "9" (some 9) none],c = call "5" (some 5) none ∨ c = call "9" (some 9) none := by
    rw [own]
    simp
  have versioned : ∀ c ∈ callsFor lastState [call "5" (some 5) none,call "9" (some 9) none],Versioned c := fun c member => by
    rcases both c member with rfl | rfl <;> exact .inl rfl
  have consistent : Consistent (callsFor lastState [call "5" (some 5) none,call "9" (some 9) none]) := fun a _ b second => by
    rcases both b second with rfl | rfl <;> simp [call,exceeds]
  have free : Table.get? (.empty : EventDispatchKvs) lastState = none := Table.get?_empty _
  obtain ⟨converges,newest⟩ := versions_converge free versioned consistent
  have columns := newest (fun a first b second => by rcases both a first with rfl | rfl <;> rcases both b second with rfl | rfl <;> exact ⟨rfl,rfl⟩)
    (by rw [own]; simp)
  refine converges.order columns (fun a first b second same => ?_) _ ?_
  · rcases both a first with rfl | rfl <;> rcases both b second with rfl | rfl <;> first | rfl | simp [call,SameVersion] at same
  · exact (List.Perm.swap _ _ []).filter _

/-- A call that carries only a time and one that carries only a sequence number: neither replaces the value of the other, so that the first one
    stays under the version of both. The same goes for a time among calls that carry both. -/
theorem mixed_versions_diverge :
    ((afterCalls .empty [call "time" (some 5) none,call "seq" none (some 7)]).get? lastState = some ⟨some "time",some 5,some 7⟩ ∧
      (afterCalls .empty [call "seq" none (some 7),call "time" (some 5) none]).get? lastState = some ⟨some "seq",some 5,some 7⟩) ∧
    ((afterCalls .empty [call "a" (some 50) (some 7),call "b" (some 60) none,call "c" (some 55) (some 8)]).get? lastState ≠
      (afterCalls .empty [call "a" (some 50) (some 7),call "c" (some 55) (some 8),call "b" (some 60) none]).get? lastState) ∧
    ¬ ∀ (t : EventDispatchKvs) (key : String × String × String) (calls calls' : List DBOSExternalState),t.get? key = none →
      (∀ c ∈ callsFor key calls,Versioned c) → Consistent (callsFor key calls) →
      (∀ a ∈ callsFor key calls,∀ b ∈ callsFor key calls,SameVersion a b → a = b) → (callsFor key calls').Perm (callsFor key calls) →
      (afterCalls t calls').get? key = (afterCalls t calls).get? key := by
  have timeFirst : (afterCalls .empty [call "time" (some 5) none,call "seq" none (some 7)]).get? lastState = some ⟨some "time",some 5,some 7⟩ := by
    decide +kernel
  have seqFirst : (afterCalls .empty [call "seq" none (some 7),call "time" (some 5) none]).get? lastState = some ⟨some "seq",some 5,some 7⟩ := by
    decide +kernel
  refine ⟨⟨timeFirst,seqFirst⟩,by decide +kernel,fun always => ?_⟩
  have own : callsFor lastState [call "time" (some 5) none,call "seq" none (some 7)] = [call "time" (some 5) none,call "seq" none (some 7)] := by decide
  have both : ∀ c ∈ callsFor lastState [call "time" (some 5) none,call "seq" none (some 7)],c = call "time" (some 5) none ∨ c = call "seq" none (some 7) := by
    rw [own]
    simp
  have same := always .empty lastState [call "time" (some 5) none,call "seq" none (some 7)] [call "seq" none (some 7),call "time" (some 5) none]
    (Table.get?_empty _)
    (fun c member => by rcases both c member with rfl | rfl <;> simp [Versioned,call])
    (fun a first b second => by rcases both a first with rfl | rfl <;> rcases both b second with rfl | rfl <;> simp [call,exceeds])
    (fun a first b second equal => by
      rcases both a first with rfl | rfl <;> rcases both b second with rfl | rfl <;> first | rfl | simp [call,SameVersion] at equal)
    ((List.Perm.swap _ _ []).filter _)
  rw [timeFirst,seqFirst] at same
  simp at same

end Dbos.DispatchState
