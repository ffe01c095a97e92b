import Dbos.Writers

/-!
The offsets of streams. A writer takes the offset after the largest one it sees, and the
primary key keeps two of them from taking the same one, so the offsets of a stream are
0, 1, 2, .... A fork copies entries by the function IDs that wrote them, and steps that run side
by side write in another order: then the copy has gaps, and a reader stops at the first.
-/
namespace Dbos.StreamDensity
open Dbos.Pg Dbos.Schema Dbos.Communication Dbos.Fork Dbos.Writers

/-- The offsets of each stream are 0, 1, ..., n - 1. -/
def Dense (streams : Streams) : Prop := ∀ w key, ∃ n, ∀ o, (streams.get? (w,key,o)).isSome ↔ o < n

/-- The value at the offset together with the status of the workflow. -/
def readStreamValue (db : Database) (workflowID key : String) (offset : Nat) : Option StatusString × Option Result :=
  match db.statuses.get? workflowID with
  | none => (none,none)
  | some row =>
    (some row.status,(db.streams.get? (workflowID,key,offset)).map fun entry => ⟨some entry.value,entry.serialization⟩)

/-! ### Offsets -/

theorem nextOffset_spec (streams : Streams) (w key : String) :
    (∀ o, (streams.get? (w,key,o)).isSome → o < nextOffset streams w key) ∧
      ∀ n, (∀ o, (streams.get? (w,key,o)).isSome → o < n) → nextOffset streams w key ≤ n := by
  have listed : ∀ o, (streams.get? (w,key,o)).isSome ↔
      (w,key,o) ∈ streams.keys fun k _ => k.1 = w ∧ k.2.1 = key := by
    intro o
    rw [Table.mem_keys,Option.isSome_iff_exists]
    simp
  have owner : ∀ k ∈ streams.keys fun k _ => k.1 = w ∧ k.2.1 = key,k = (w,key,k.2.2) := by
    rintro ⟨w',key',o⟩ member
    obtain ⟨r,_,hit⟩ := (Table.mem_keys _ _ _).mp member
    simp only [decide_eq_true_eq] at hit
    rw [hit.1,hit.2]
  simp only [listed,nextOffset]
  generalize (streams.keys fun k _ => k.1 = w ∧ k.2.1 = key) = keys at owner
  clear listed
  induction keys with
  | nil => simp
  | cons k rest ih =>
    obtain ⟨bounds,least⟩ := ih fun k' member => owner k' (List.mem_cons_of_mem _ member)
    have here := owner k List.mem_cons_self
    rw [List.foldr_cons]
    refine ⟨?_,?_⟩
    · intro o member
      rcases List.mem_cons.mp member with same | later
      · have offset : k.2.2 = o := by rw [← same]
        omega
      · have := bounds o later
        omega
    · intro n all
      have first := all k.2.2 (by rw [← here]; exact List.mem_cons_self)
      have others := least n fun o member => all o (List.mem_cons_of_mem _ member)
      omega

theorem nextOffset_eq {streams : Streams} {w key : String} {n : Nat} (count : ∀ o, (streams.get? (w,key,o)).isSome ↔ o < n) :
    nextOffset streams w key = n := by
  obtain ⟨bounds,least⟩ := nextOffset_spec streams w key
  have upper := least n fun o present => (count o).mp present
  rcases Nat.lt_or_ge (nextOffset streams w key) n with below_ | above
  · have := bounds _ ((count _).mpr below_)
    omega
  · omega

/-- In a dense table the offsets are those below the next one. -/
theorem dense_iff {streams : Streams} (dense : Dense streams) (w key : String) (o : Nat) :
    (streams.get? (w,key,o)).isSome ↔ o < nextOffset streams w key := by
  obtain ⟨n,count⟩ := dense w key
  rw [nextOffset_eq count]
  exact count o

theorem nextOffset_congr {streams streams' : Streams} {w key : String}
    (same : ∀ o, (streams'.get? (w,key,o)).isSome ↔ (streams.get? (w,key,o)).isSome) :
    nextOffset streams' w key = nextOffset streams w key := by
  obtain ⟨bounds,least⟩ := nextOffset_spec streams w key
  obtain ⟨bounds',least'⟩ := nextOffset_spec streams' w key
  have upper := least' _ fun o present => bounds o ((same o).mp present)
  have lower := least _ fun o present => bounds' o ((same o).mpr present)
  omega

theorem nextOffset_mono {streams streams' : Streams} {w key : String}
    (more : ∀ o, (streams.get? (w,key,o)).isSome → (streams'.get? (w,key,o)).isSome) :
    nextOffset streams w key ≤ nextOffset streams' w key :=
  (nextOffset_spec streams w key).2 _ fun o present => (nextOffset_spec streams' w key).1 o (more o present)

/-! ### Rows that are inserted at once -/

/-- The offsets of each stream in the rows are 0, 1, ..., n - 1. -/
def DenseRows (rows : List ((String × String × Nat) × StreamEntry)) : Prop :=
  ∀ w key, ∃ n, ∀ o, (∃ r, ((w,key,o),r) ∈ rows) ↔ o < n

theorem denseRows_nil : DenseRows [] := fun _ _ => ⟨0,by simp⟩

/-- A set of numbers that is closed below and bounded is an initial segment. -/
theorem initial_segment {P : Nat → Prop} (closed : ∀ a b, a < b → P b → P a) {N : Nat} (bounded : ∀ a, P a → a < N) :
    ∃ n, ∀ a, P a ↔ a < n := by
  induction N with
  | zero => exact ⟨0,fun a => ⟨bounded a,fun impossible => absurd impossible (Nat.not_lt_zero a)⟩⟩
  | succ N ih =>
    by_cases last : P N
    · refine ⟨N + 1,fun a => ⟨bounded a,?_⟩⟩
      intro small
      rcases Nat.lt_succ_iff_lt_or_eq.mp small with lower | rfl
      · exact closed a N lower last
      · exact last
    · refine ih ?_
      intro a holds
      have small := bounded a holds
      rcases Nat.lt_succ_iff_lt_or_eq.mp small with lower | rfl
      · exact lower
      · exact absurd holds last

/-- Entries that come before one that is copied are copied. -/
def InOrder (streams : Streams) (m : ForkMapping) : Prop :=
  ∀ e ∈ streams.entries,∀ e' ∈ streams.entries,e.1.1 = m.source → e'.1.1 = m.source → e.1.2.1 = e'.1.2.1 →
    e.1.2.2 < e'.1.2.2 → below m.bound e'.2.function_id = true → below m.bound e.2.function_id = true

instance (streams : Streams) (m : ForkMapping) : Decidable (InOrder streams m) :=
  inferInstanceAs (Decidable (∀ e ∈ _,∀ e' ∈ _,_))

/-- What a fork copies is dense when the entries are in order. -/
theorem copied_dense {streams : Streams} (dense : Dense streams) {ms : List ForkMapping}
    (distinct : (ms.map Mapping.target).Nodup) (ordered : ∀ m ∈ ms,InOrder streams m) :
    DenseRows (copied streams streamHits id ms) := by
  intro w key
  by_cases target : ∃ m ∈ ms,m.target = w
  · obtain ⟨m,member,rfl⟩ := target
    have rows : ∀ o, (∃ r, ((m.target,key,o),r) ∈ copied streams streamHits id ms) ↔
        ∃ r, streams.get? (m.source,key,o) = some r ∧ below m.bound r.function_id = true := by
      intro o
      constructor
      · rintro ⟨r,listed⟩
        obtain ⟨m',member',same,r',found,hit,_⟩ := mem_copied.mp listed
        cases mapping_unique distinct member' member same.symm
        exact ⟨r',found,hit⟩
      · rintro ⟨r,found,hit⟩
        exact ⟨r,mem_copied.mpr ⟨m,member,rfl,r,found,hit,rfl⟩⟩
    simp only [rows]
    refine initial_segment (N := nextOffset streams m.source key) ?_ ?_
    · rintro a b lower ⟨r,found,hit⟩
      -- The stream is dense, so there is an entry at `a`.
      have later := (dense_iff dense m.source key b).mp (by rw [found]; rfl)
      obtain ⟨r',found'⟩ := Option.isSome_iff_exists.mp ((dense_iff dense m.source key a).mpr (by omega))
      refine ⟨r',found',?_⟩
      exact ordered m member _ ((Table.get?_eq_some _ _ _).mp found') _ ((Table.get?_eq_some _ _ _).mp found) rfl rfl rfl lower hit
    · rintro a ⟨r,found,_⟩
      exact (dense_iff dense m.source key a).mp (by rw [found]; rfl)
  · refine ⟨0,fun o => ⟨?_,fun impossible => absurd impossible (Nat.not_lt_zero o)⟩⟩
    rintro ⟨r,listed⟩
    obtain ⟨m,member,same,_⟩ := mem_copied.mp listed
    exact absurd ⟨m,member,same.symm⟩ target

/-- Dense rows of workflows that have none. -/
theorem dense_inserts {streams streams' : Streams} (owns : String → Prop) {rows : List ((String × String × Nat) × StreamEntry)}
    (dense : Dense streams) (within : ∀ e ∈ rows,owns e.1.1) (denseRows : DenseRows rows)
    (fresh : ∀ w, owns w → ∀ k, streams.get? (w,k) = none) (inserts : streams.insertRows rows = some streams') :
    Dense streams' ∧ (∀ w key, ¬ owns w → nextOffset streams' w key = nextOffset streams w key) ∧
      ∀ w key, nextOffset streams w key ≤ nextOffset streams' w key := by
  have present := insertRows_isSome inserts
  have others : ∀ w key o, ¬ owns w → ((streams'.get? (w,key,o)).isSome ↔ (streams.get? (w,key,o)).isSome) := by
    intro w key o unowned
    rw [present]
    exact or_iff_left fun ⟨r,listed⟩ => unowned (within _ listed)
  refine ⟨?_,fun w key unowned => nextOffset_congr (others w key · unowned),
    fun w key => nextOffset_mono fun o old => (present _).mpr (.inl old)⟩
  intro w key
  by_cases owned : owns w
  · obtain ⟨n,count⟩ := denseRows w key
    refine ⟨n,?_⟩
    intro o
    rw [present,fresh w owned,← count]
    simp
  · obtain ⟨n,count⟩ := dense w key
    exact ⟨n,fun o => (others w key o owned).trans (count o)⟩

/-! ### Calls -/

def streamRow : Statement → Option ((String × String × Nat) × StreamEntry)
  | .insertStream workflowID key offset entry => some ((workflowID,key,offset),entry)
  | _ => none

/-- The stream rows that a call is about to insert. -/
def chosen : Call → List ((String × String × Nat) × StreamEntry)
  | .invocation _ (.acting _ todo _ _) => todo.filterMap streamRow
  | .streamWrite w (.chosen offset) => [((w.workflowID,w.key,offset),⟨w.serializedValue,w.functionID,w.serialization⟩)]
  | _ => []

/-- The stream rows that a call has inserted and not committed. -/
def inserted (call : Call) : List ((String × String × Nat) × StreamEntry) := call.writes.filterMap streamRow

/-- The condition on the steps: a fork copies no entry after one that it leaves out, and no
    workflow is deleted while a write to its streams has chosen an offset and not inserted. -/
def Orderly (s : System) : Event → Prop
  | .forkNext i _ => ∀ f ∈ s.forks[i]?,f.stage = .outputs → ∀ m ∈ f.call.copies,InOrder s.db.streams m
  | .deleteWorkflows allIds => ∀ call ∈ s.calls,∀ e ∈ chosen call,e.1.1 ∉ allIds
  | _ => True

instance decidableOrderly (s : System) (event : Event) : Decidable (Orderly s event) :=
  match event with
  | .forkNext i _ =>
    inferInstanceAs (Decidable (∀ f ∈ s.forks[i]?,f.stage = .outputs → ∀ m ∈ f.call.copies,InOrder s.db.streams m))
  | .deleteWorkflows allIds => inferInstanceAs (Decidable (∀ call ∈ s.calls,∀ e ∈ chosen call,e.1.1 ∉ allIds))
  | .begin .. => isTrue trivial
  | .next .. => isTrue trivial
  | .commit .. => isTrue trivial
  | .drop .. => isTrue trivial
  | .fork .. => isTrue trivial
  | .forkCommit .. => isTrue trivial
  | .forkDrop .. => isTrue trivial
  | .exportWorkflow .. => isTrue trivial
  | .exportNext .. => isTrue trivial
  | .importWorkflow .. => isTrue trivial
  | .statuses .. => isTrue trivial

theorem apply_streams (db : Database) (statement : Statement) :
    (statement.apply db).streams = (streamRow statement).elim db.streams fun e => db.streams.insert e.1 e.2 := by
  cases statement <;> rfl

theorem applyAll_streams (db : Database) (statements : List Statement) :
    (applyAll db statements).streams =
      (statements.filterMap streamRow).foldl (fun streams e => streams.insert e.1 e.2) db.streams := by
  induction statements generalizing db with
  | nil => rfl
  | cons statement rest ih =>
    have onward := ih (statement.apply db)
    rw [apply_streams] at onward
    cases row : streamRow statement with
    | none =>
      rw [row] at onward
      rw [List.filterMap_cons_none row]
      exact onward
    | some e =>
      rw [row] at onward
      rw [List.filterMap_cons_some row]
      exact onward

/-- What a statement of a call does to its stream rows. -/
inductive StreamStep (db : Database) (call call' : Call) : Prop
  | same (chooses : chosen call' = chosen call) (inserts : inserted call' = inserted call)
  | ends (chooses : chosen call' = []) (inserts : inserted call' = [])
  | chooses (w key : String) (entry : StreamEntry) (chooses : chosen call' = [((w,key,nextOffset db.streams w key),entry)])
      (inserts : inserted call' = [])
  | inserts (e : (String × String × Nat) × StreamEntry) (before : chosen call = [e]) (chooses : chosen call' = [])
      (inserts : inserted call' = [e]) (free : db.streams.get? e.1 = none)

theorem firstStatement_streams (db : Database) (inv : Invocation) (input : Input) (startTime : Int) (call : Call) :
    StreamStep db call (.invocation inv (firstStatement db inv input startTime)) := by
  unfold firstStatement
  split
  · split
    · rename_i writes
      obtain ⟨text,_,⟨rfl,_⟩ | ⟨rfl,_⟩⟩ := insertMessage_ok writes
      · exact .ends rfl rfl
      · exact .ends rfl rfl
    · exact .ends rfl rfl
  · split
    · exact .ends rfl rfl
    · exact .ends rfl rfl
  · exact .chooses inv.workflowID _ _ rfl rfl
  · exact .chooses inv.workflowID _ _ rfl rfl
  · split
    · exact .ends rfl rfl
    · exact .ends rfl rfl

theorem invocation_streams {db : Database} {inv : Invocation} {input : Input} {phase phase' : Phase} {auto : List Statement}
    (single : (chosen (.invocation inv phase) ++ inserted (.invocation inv phase)).length ≤ 1)
    (taken : Communication.advance db inv input phase = some (phase',auto)) :
    StreamStep db (.invocation inv phase) (.invocation inv phase') ∧ auto.filterMap streamRow = [] := by
  cases advance_cases taken with
  | throws phase e => exact ⟨.ends rfl rfl,rfl⟩
  | starts startTime => exact ⟨firstStatement_streams db inv input startTime _,rfl⟩
  | sleeps startTime endTimeMs phase after =>
    rcases after with rfl | rfl
    · exact ⟨.ends rfl rfl,rfl⟩
    · exact ⟨.ends rfl rfl,rfl⟩
  | executes startTime statement rest done value =>
    refine ⟨?_,rfl⟩
    cases row : streamRow statement with
    | none =>
      refine .same ?_ ?_
      · simp [chosen,row]
      · simp [inserted,Call.writes,Phase.writes,row]
    | some e =>
      -- The call has one stream row, so there is nothing else to insert.
      simp only [chosen,inserted,Call.writes,Phase.writes,List.filterMap_cons_some row,List.cons_append,List.length_cons,
        List.length_append] at single
      have others : rest.filterMap streamRow = [] := List.length_eq_zero_iff.mp (by omega)
      have earlier : done.filterMap streamRow = [] := List.length_eq_zero_iff.mp (by omega)
      refine .inserts e (by simp [chosen,row,others]) others (by simp [inserted,Call.writes,Phase.writes,row,earlier]) ?_
      cases statement with
      | insertStream workflowID key offset entry =>
        cases row
        simp only [advance] at taken
        split at taken
        · cases taken
        · rename_i free
          simpa using free
      | _ => cases row
  | records startTime done value mine => exact ⟨.same rfl (by simp [inserted,Call.writes,Phase.writes,streamRow]),rfl⟩
  | claims done value => exact ⟨.same rfl (by simp [inserted,Call.writes,Phase.writes,streamRow]),rfl⟩
  | sleepClaims => exact ⟨.ends rfl rfl,rfl⟩
  | _ => exact ⟨.ends rfl rfl,rfl⟩

theorem advance_streams {db : Database} {input : Input} {call call' : Call} {auto : List Statement}
    (single : (chosen call ++ inserted call).length ≤ 1) (taken : call.advance db input = some (call',auto)) :
    StreamStep db call call' ∧ auto.filterMap streamRow = [] := by
  cases call with
  | invocation inv phase =>
    obtain ⟨⟨phase',auto'⟩,advances,same⟩ := Option.map_eq_some_iff.mp taken
    cases same
    exact invocation_streams single advances
  | streamWrite w phase =>
    cases phase with
    | called =>
      cases taken
      exact ⟨.chooses w.workflowID w.key _ rfl rfl,rfl⟩
    | chosen offset =>
      simp only [Call.advance] at taken
      split at taken
      · cases taken
        exact ⟨.ends rfl rfl,rfl⟩
      · rename_i free
        cases taken
        exact ⟨.inserts _ rfl rfl rfl (by simpa using free),rfl⟩
    | _ => cases taken

theorem restart_streams (call : Call) : chosen call.restart = [] ∧ inserted call.restart = [] := by
  cases call <;> exact ⟨rfl,rfl⟩

theorem fail_streams (call : Call) (e : DbosError) : chosen (call.fail e) = [] ∧ inserted (call.fail e) = [] := by
  cases call <;> exact ⟨rfl,rfl⟩

theorem commit_streams {call call' : Call} {acknowledged : Bool} {done : List Statement}
    (commits : call.commit acknowledged = some (call',done)) :
    chosen call' = [] ∧ inserted call' = [] ∧ done.filterMap streamRow = inserted call := by
  unfold Call.commit at commits
  split at commits
  · cases commits
    cases acknowledged <;> exact ⟨rfl,rfl,rfl⟩
  · cases commits
    cases acknowledged <;> exact ⟨rfl,rfl,rfl⟩
  · cases commits
    cases acknowledged <;> exact ⟨rfl,rfl,rfl⟩
  · cases commits

/-! ### The invariant -/

/-- A call has one stream row at most: one that it has chosen is not beyond the next offset, and
    one that it has inserted is at the next offset. -/
structure Placed (streams : Streams) (call : Call) : Prop where
  single : (chosen call ++ inserted call).length ≤ 1
  chosen : ∀ e ∈ chosen call,e.1.2.2 ≤ nextOffset streams e.1.1 e.1.2.1
  inserted : ∀ e ∈ inserted call,e.1.2.2 = nextOffset streams e.1.1 e.1.2.1

structure Streamed (s : System) : Prop where
  linked : Linked s
  dense : Dense s.db.streams
  placed : ∀ (i : Nat) call, s.calls[i]? = some call → Placed s.db.streams call
  forks : ∀ f ∈ s.forks,DenseRows f.streams
  exports : ∀ x ∈ s.exports,DenseRows x.streams

theorem placed_idle {streams : Streams} {call : Call} (idle : chosen call = [] ∧ inserted call = []) : Placed streams call := by
  refine ⟨?_,?_,?_⟩
  · rw [idle.1,idle.2]
    decide
  · rw [idle.1]
    simp
  · rw [idle.2]
    simp

/-- The streams of the rows that a call has chosen may have grown, and the streams of those that
    it has inserted are as they were. -/
theorem placed_frame {streams streams' : Streams} {call : Call} (placed : Placed streams call)
    (grown : ∀ e ∈ chosen call,nextOffset streams e.1.1 e.1.2.1 ≤ nextOffset streams' e.1.1 e.1.2.1)
    (same : ∀ e ∈ inserted call,nextOffset streams' e.1.1 e.1.2.1 = nextOffset streams e.1.1 e.1.2.1) :
    Placed streams' call := by
  refine ⟨placed.single,?_,?_⟩
  · intro e member
    exact Nat.le_trans (placed.chosen e member) (grown e member)
  · intro e member
    rw [same e member]
    exact placed.inserted e member

theorem placed_advance {db : Database} {input : Input} {call call' : Call} {auto : List Statement} (dense : Dense db.streams)
    (placed : Placed db.streams call) (taken : call.advance db input = some (call',auto)) : Placed db.streams call' := by
  cases (advance_streams placed.single taken).1 with
  | same chooses inserts =>
    refine ⟨?_,?_,?_⟩
    · rw [chooses,inserts]
      exact placed.single
    · rw [chooses]
      exact placed.chosen
    · rw [inserts]
      exact placed.inserted
  | ends chooses inserts => exact placed_idle ⟨chooses,inserts⟩
  | chooses w key entry chooses inserts =>
    refine ⟨?_,?_,?_⟩
    · rw [chooses,inserts]
      exact Nat.le_refl 1
    · rw [chooses]
      intro e member
      cases List.mem_singleton.mp member
      exact Nat.le_refl _
    · intro e member
      rw [inserts] at member
      cases member
  | inserts e before chooses inserts free =>
    refine ⟨?_,?_,?_⟩
    · rw [chooses,inserts]
      exact Nat.le_refl 1
    · rw [chooses]
      simp
    · rw [inserts]
      intro e' member
      rw [List.mem_singleton.mp member]
      -- Not beyond the next offset, and not taken.
      have upper := placed.chosen e (by rw [before]; exact List.mem_singleton_self e)
      have untaken : ¬ e.1.2.2 < nextOffset db.streams e.1.1 e.1.2.1 := by
        rw [← dense_iff dense]
        simp [free]
      omega

/-- A call commits the entry at the next offset. -/
theorem dense_insert {streams : Streams} (dense : Dense streams) {k : String × String × Nat} (entry : StreamEntry)
    (place : k.2.2 = nextOffset streams k.1 k.2.1) : Dense (streams.insert k entry) := by
  intro w key
  by_cases here : (w,key) = (k.1,k.2.1)
  · refine ⟨nextOffset streams w key + 1,?_⟩
    intro o
    have old := dense_iff dense w key o
    obtain ⟨rfl,rfl⟩ := Prod.mk.inj here
    rw [Table.get?_insert]
    by_cases last : o = k.2.2
    · subst last
      rw [if_pos rfl]
      refine iff_of_true ?_ (by omega)
      cases streams.get? k <;> rfl
    · have other : (k.1,k.2.1,o) ≠ k := fun same => last (by rw [← same])
      rw [if_neg other,old]
      omega
  · obtain ⟨n,count⟩ := dense w key
    refine ⟨n,?_⟩
    intro o
    have other : (w,key,o) ≠ k := fun same => here (by rw [← same])
    rw [Table.get?_insert,if_neg other]
    exact count o

theorem nextOffset_insert {streams : Streams} {k : String × String × Nat} {entry : StreamEntry} {w key : String}
    (other : (w,key) ≠ (k.1,k.2.1)) : nextOffset (streams.insert k entry) w key = nextOffset streams w key := by
  refine nextOffset_congr ?_
  intro o
  have elsewhere : (w,key,o) ≠ k := fun same => other (by rw [← same])
  rw [Table.get?_insert,if_neg elsewhere]

theorem inserted_row {call : Call} {e : (String × String × Nat) × StreamEntry} (member : e ∈ inserted call) :
    .stream e.1.1 e.1.2.1 e.1.2.2 ∈ rowsOf call.writes ∧ ∃ st ∈ call.writes,ownerOf st = some e.1.1 := by
  obtain ⟨st,written,row⟩ := List.mem_filterMap.mp member
  cases st with
  | insertStream workflowID key offset entry =>
    cases row
    exact ⟨List.mem_filterMap.mpr ⟨_,written,rfl⟩,_,written,rfl⟩
  | _ => cases row

/-- The workflows that calls have written to exist. -/
theorem inserted_owner {s : System} (linked : Linked s) {i : Nat} {call : Call} (found : s.calls[i]? = some call)
    {e : (String × String × Nat) × StreamEntry} (member : e ∈ inserted call) : (s.db.statuses.get? e.1.1).isSome := by
  obtain ⟨_,st,written,owner⟩ := inserted_row member
  exact linked.writers i call found st written e.1.1 owner

/-- The streams of the workflows that exist are as they were. -/
theorem placed_grown {s : System} {db : Database} (streamed : Streamed s)
    (same : ∀ w key, (s.db.statuses.get? w).isSome → nextOffset db.streams w key = nextOffset s.db.streams w key)
    (grown : ∀ w key, nextOffset s.db.streams w key ≤ nextOffset db.streams w key) (j : Nat) (call : Call)
    (called : s.calls[j]? = some call) : Placed db.streams call := by
  refine placed_frame (streamed.placed j call called) (fun e _ => grown e.1.1 e.1.2.1) ?_
  -- What a call has written belongs to a workflow that exists.
  intro e member
  exact same e.1.1 e.1.2.1 (inserted_owner streamed.linked called member)

/-- A deletion takes whole streams. -/
theorem delete_dense {db : Database} (dense : Dense db.streams) (allIds : List String) :
    Dense (deleteCascade db allIds).streams ∧
      ∀ w key, w ∉ allIds → nextOffset (deleteCascade db allIds).streams w key = nextOffset db.streams w key := by
  have kept : ∀ w key o, w ∉ allIds → (deleteCascade db allIds).streams.get? (w,key,o) = db.streams.get? (w,key,o) := by
    intro w key o other
    cases found : db.streams.get? (w,key,o) <;> simp [deleteCascade,found,other]
  refine ⟨?_,?_⟩
  · intro w key
    by_cases deleted : w ∈ allIds
    · refine ⟨0,fun o => ?_⟩
      simp [deleteCascade,deleted]
    · obtain ⟨n,count⟩ := dense w key
      exact ⟨n,fun o => by rw [kept w key o deleted]; exact count o⟩
  · intro w key other
    exact nextOffset_congr fun o => by rw [kept w key o other]

/-- A commit adds the entry of the call, if it has one. -/
theorem streamed_commit {s : System} (streamed : Streamed s) {i : Nat} {call call' : Call} {acknowledged : Bool}
    {done : List Statement} (found : s.calls[i]? = some call) (commits : call.commit acknowledged = some (call',done)) :
    Dense (applyAll s.db done).streams ∧
      ∀ (j : Nat) other, (s.calls.set i call')[j]? = some other → Placed (applyAll s.db done).streams other := by
  obtain ⟨idle,nothing,rows⟩ := commit_streams commits
  have placed := streamed.placed i call found
  have single := placed.single
  rw [applyAll_streams,rows]
  cases written : inserted call with
  | nil =>
    exact ⟨streamed.dense,parties_set found (placed_idle ⟨idle,nothing⟩) fun j other _ => streamed.placed j other⟩
  | cons e rest =>
    rw [written,List.length_append,List.length_cons] at single
    cases List.length_eq_zero_iff.mp (show rest.length = 0 by omega)
    have place := placed.inserted e (by rw [written]; exact List.mem_singleton_self e)
    have grows : ∀ w key, nextOffset s.db.streams w key ≤ nextOffset (s.db.streams.insert e.1 e.2) w key := by
      intro w key
      refine nextOffset_mono ?_
      intro o present
      rcases s.db.streams.insert_cases e.1 e.2 (w,key,o) with same | ⟨_,absent,_⟩
      · rw [same]
        exact present
      · rw [absent] at present
        cases present
    refine ⟨dense_insert streamed.dense e.2 place,?_⟩
    refine parties_set found (placed_idle ⟨idle,nothing⟩) ?_
    intro j other differ old
    refine placed_frame (streamed.placed j other old) (fun e' _ => grows e'.1.1 e'.1.2.1) ?_
    intro e' member
    refine nextOffset_insert ?_
    -- Two calls would have inserted the same row.
    intro same
    have place' := (streamed.placed j other old).inserted e' member
    obtain ⟨sameW,sameKey⟩ := Prod.mk.inj same
    rw [sameW,sameKey,← place] at place'
    have row := (inserted_row member).1
    have listed : e ∈ inserted call := by
      rw [written]
      exact List.mem_singleton_self e
    have mine := (inserted_row listed).1
    rw [sameW,sameKey,place'] at row
    exact streamed.linked.exclusive j i other call differ old found _ row mine

/-- What exists has no rows yet to be inserted by a fork or an import. -/
theorem fresh_streams {db : Database} (owners : ∀ w, HasRows db w → (db.statuses.get? w).isSome) {w : String}
    (absent : db.statuses.get? w = none) (k : String × Nat) : db.streams.get? (w,k) = none := by
  by_contra present
  have exists_ := owners w (.inr (.inl ⟨k,Option.isSome_iff_ne_none.mpr present⟩))
  rw [absent] at exists_
  cases exists_

/-- An import keeps the streams of the workflows that are there and adds dense ones. -/
theorem imports_dense {db db' : Database} {payloads : List Export} (inserts : payloads.foldlM importOne db = some db')
    (owned : ∀ x ∈ payloads,x.Owned) (dense : Dense db.streams) (rows : ∀ x ∈ payloads,DenseRows x.streams)
    (owners : ∀ w, HasRows db w → (db.statuses.get? w).isSome) :
    Dense db'.streams ∧
      (∀ w key, (db.statuses.get? w).isSome → nextOffset db'.streams w key = nextOffset db.streams w key) ∧
      ∀ w key, nextOffset db.streams w key ≤ nextOffset db'.streams w key := by
  induction payloads generalizing db with
  | nil =>
    cases inserts
    exact ⟨dense,fun _ _ _ => rfl,fun _ _ => Nat.le_refl _⟩
  | cons x rest ih =>
    rw [List.foldlM_cons] at inserts
    obtain ⟨between,first,onward⟩ := Option.bind_eq_some_iff.mp inserts
    have here := insertOwned_inserts first
    obtain ⟨absent,owners',status⟩ := importOne_linked first (owned x List.mem_cons_self) owners
    obtain ⟨dense',same,grown⟩ := dense_inserts (· = x.workflowID) dense (owned x List.mem_cons_self).streams
      (rows x List.mem_cons_self) (fun w own k => fresh_streams owners (own ▸ absent) k) here.streams
    obtain ⟨dense'',same',grown'⟩ := ih onward (fun y member => owned y (List.mem_cons_of_mem _ member)) dense'
      (fun y member => rows y (List.mem_cons_of_mem _ member)) owners'
    refine ⟨dense'',?_,fun w key => Nat.le_trans (grown w key) (grown' w key)⟩
    intro w key present
    have other : w ≠ x.workflowID := by
      rintro rfl
      rw [absent] at present
      cases present
    rw [same' w key ((status w).mpr (.inl present)),same w key other]

theorem forkNext_dense {db : Database} {f f' : Forking} {ranked : List RankedEvent} (dense : Dense db.streams)
    (distinct : f.call.targets.Nodup) (ordered : f.stage = .outputs → ∀ m ∈ f.call.copies,InOrder db.streams m)
    (rows : DenseRows f.streams) (advances : f.next db ranked = some f') : DenseRows f'.streams := by
  unfold Forking.next at advances
  split at advances
  · cases advances
    exact rows
  · rename_i stage
    cases advances
    exact copied_dense dense (distinct.sublist (List.filter_sublist.map _)) (ordered stage)
  · cases advances
    exact rows
  · split at advances
    · cases advances
      exact rows
    · cases advances
  · cases advances

theorem exportNext_dense {db : Database} {x x' : Export} (dense : Dense db.streams) (rows : DenseRows x.streams)
    (advances : x.next db = some x') : DenseRows x'.streams := by
  unfold Export.next at advances
  split at advances
  · cases advances
    exact rows
  · cases advances
    exact rows
  · cases advances
    exact rows
  · cases advances
    intro w key
    have listed : ∀ o, (∃ r, ((w,key,o),r) ∈ db.streams.select fun k _ => k.1 = x.workflowID) ↔
        (db.streams.get? (w,key,o)).isSome ∧ w = x.workflowID := by
      intro o
      simp only [Table.select,List.mem_filter,decide_eq_true_eq,Option.isSome_iff_exists,Table.get?_eq_some]
      exact exists_and_right
    simp only [listed]
    by_cases own : w = x.workflowID
    · obtain ⟨n,count⟩ := dense w key
      exact ⟨n,fun o => by rw [count]; exact and_iff_left own⟩
    · exact ⟨0,fun o => by simp [own]⟩
  · cases advances

theorem step_streamed {s s' : System} {event : Event} (streamed : Streamed s) (orderly : Orderly s event)
    (taken : step s event = some s') : Streamed s' := by
  have linked := step_linked streamed.linked taken
  have dense := streamed.dense
  cases step_moves taken with
  | begin call =>
    refine ⟨linked,dense,?_,streamed.forks,streamed.exports⟩
    intro j other listed
    rcases party_append listed with old | ⟨_,rfl⟩
    · exact streamed.placed j other old
    · exact placed_idle (restart_streams call)
  | fails i input call found =>
    refine ⟨linked,dense,?_,streamed.forks,streamed.exports⟩
    exact parties_set found (placed_idle (fail_streams call _)) fun j other _ => streamed.placed j other
  | next i input call call' auto found advances owned free =>
    have placed := streamed.placed i call found
    have still : (applyAll s.db auto).streams = s.db.streams := by
      rw [applyAll_streams,(advance_streams placed.single advances).2]
      rfl
    refine ⟨linked,by rw [still]; exact dense,?_,streamed.forks,streamed.exports⟩
    rw [still]
    exact parties_set found (placed_advance dense placed advances) fun j other _ => streamed.placed j other
  | commit i acknowledged call call' done found commits =>
    obtain ⟨dense',placed⟩ := streamed_commit streamed found commits
    exact ⟨linked,dense',placed,streamed.forks,streamed.exports⟩
  | drop i call found =>
    refine ⟨linked,dense,?_,streamed.forks,streamed.exports⟩
    exact parties_set found (placed_idle (restart_streams call)) fun j other _ => streamed.placed j other
  | stays => exact streamed
  | fork call now ids statuses inserted unreserved =>
    refine ⟨linked,dense,streamed.placed,?_,streamed.exports⟩
    intro f member
    rcases List.mem_append.mp member with old | new
    · exact streamed.forks f old
    · cases List.mem_singleton.mp new
      exact denseRows_nil
  | forkNext i ranked f f' found advances =>
    have listed := List.mem_of_getElem? found
    have distinct := (List.nodup_flatMap.mp streamed.linked.distinct).1 f listed
    have rows := forkNext_dense dense distinct (orderly f found) (streamed.forks f listed) advances
    exact ⟨linked,dense,streamed.placed,all_set streamed.forks rows i,streamed.exports⟩
  | forkCommit i f db found complete inserts =>
    have listed := List.mem_of_getElem? found
    obtain ⟨_,within⟩ := streamed.linked.forks f listed
    have absent : ∀ w ∈ f.call.targets,s.db.statuses.get? w = none := by
      intro w target
      exact streamed.linked.absent w (List.mem_flatMap.mpr ⟨f,listed,target⟩)
    obtain ⟨dense',same,grown⟩ := dense_inserts (· ∈ f.call.targets) dense within.streams (streamed.forks f listed)
      (fun w target k => fresh_streams streamed.linked.owners (absent w target) k) inserts.streams
    have kept : ∀ w key, (s.db.statuses.get? w).isSome → nextOffset db.streams w key = nextOffset s.db.streams w key := by
      intro w key present
      refine same w key ?_
      intro target
      rw [absent w target] at present
      cases present
    have placed := placed_grown streamed kept grown
    exact ⟨linked,dense',placed,fun g member => streamed.forks g (List.mem_of_mem_eraseIdx member),streamed.exports⟩
  | forkDrop i =>
    exact ⟨linked,dense,streamed.placed,fun g member => streamed.forks g (List.mem_of_mem_eraseIdx member),streamed.exports⟩
  | exportWorkflow workflowID row found =>
    refine ⟨linked,dense,streamed.placed,streamed.forks,?_⟩
    intro x member
    rcases List.mem_append.mp member with old | new
    · exact streamed.exports x old
    · cases List.mem_singleton.mp new
      exact denseRows_nil
  | exportNext i x x' found advances =>
    have rows := exportNext_dense dense (streamed.exports x (List.mem_of_getElem? found)) advances
    exact ⟨linked,dense,streamed.placed,streamed.forks,all_set streamed.exports rows i⟩
  | importWorkflow exports payloads db known complete inserts =>
    obtain ⟨dense',same,grown⟩ := imports_dense inserts (fun x member => streamed.linked.exports x (known x member)) dense
      (fun x member => streamed.exports x (known x member)) streamed.linked.owners
    have placed := placed_grown streamed same grown
    exact ⟨linked,dense',placed,streamed.forks,streamed.exports⟩
  | deleteWorkflows allIds idle =>
    obtain ⟨dense',same⟩ := delete_dense dense allIds
    refine ⟨linked,dense',?_,streamed.forks,streamed.exports⟩
    intro j call called
    have listed := List.mem_of_getElem? called
    refine placed_frame (streamed.placed j call called) ?_ ?_
    · intro e member
      exact Nat.le_of_eq (same e.1.1 e.1.2.1 (orderly call listed e member)).symm
    · intro e member
      obtain ⟨_,st,written,owner⟩ := inserted_row member
      exact same e.1.1 e.1.2.1 fun deleted => (idle _ deleted).1 call listed st written owner
  | statuses t kept unreserved => exact ⟨linked,dense,streamed.placed,streamed.forks,streamed.exports⟩

theorem streamed_start (t : Statuses) : Streamed (start t) := by
  refine ⟨linked_start t,?_,by simp [start],by simp [start],by simp [start]⟩
  intro w key
  exact ⟨0,fun o => by simp [start]⟩

/-- In every run whose steps are orderly the offsets of each stream are 0, 1, ..., n - 1, and a
    reader that advances by one offset finds every stored value. -/
theorem stream_density {t : Statuses} {events : List Event} (orderly : Along step Orderly (start t) events) {s : System}
    (run : Runs step (start t) events s) :
    Dense s.db.streams ∧ ∀ w key o entry, s.db.streams.get? (w,key,o) = some entry →
      (readStreamValue s.db w key o).2 = some ⟨some entry.value,entry.serialization⟩ ∧
      ∀ o' ≤ o,(readStreamValue s.db w key o').2.isSome := by
  have streamed := along_invariant (I := Streamed) (fun _ _ _ => step_streamed) (streamed_start t) orderly run
  refine ⟨streamed.dense,?_⟩
  intro w key o entry stored
  have owner := streamed.linked.owners w (.inr (.inl ⟨(key,o),by rw [stored]; rfl⟩))
  obtain ⟨row,found⟩ := Option.isSome_iff_exists.mp owner
  refine ⟨by simp [readStreamValue,found,stored],?_⟩
  intro o' lower
  have last := (dense_iff streamed.dense w key o).mp (by rw [stored]; rfl)
  have present := (dense_iff streamed.dense w key o').mpr (by omega)
  simpa [readStreamValue,found] using present

/-- The `i`-th call is a step that writes to the stream `k` of `w`. -/
def writesFrom (functionID i : Nat) : List Event :=
  [.begin (.streamWrite ⟨"w",functionID,"k","v",none⟩ .called),.next i {},.next i {},.commit i true]

/-- A fork of `w` at step 2, with no events to copy. -/
def forks : List Event :=
  [.fork { mapping := [⟨"w","f",2⟩] } 5,.forkNext 0 [],.forkNext 0 [],.forkNext 0 [],.forkNext 0 [],.forkCommit 0]

/-- Steps that write in the order of their IDs: the fork has the first two entries. -/
theorem stream_density_forked : ∃ s, Runs step (start running) (writesFrom 0 0 ++ writesFrom 1 1 ++ writesFrom 2 2 ++ forks) s ∧
    (s.db.streams.get? ("f","k",1)).isSome ∧ s.db.streams.get? ("f","k",2) = none ∧ Dense s.db.streams := by
  obtain ⟨s,run,second,third⟩ : ∃ s,
      Runs step (start running) (writesFrom 0 0 ++ writesFrom 1 1 ++ writesFrom 2 2 ++ forks) s ∧
      (s.db.streams.get? ("f","k",1)).isSome ∧ s.db.streams.get? ("f","k",2) = none := ⟨_,rfl,rfl,rfl⟩
  exact ⟨s,run,second,third,(stream_density (by decide) run).1⟩

/-- A write that has chosen offset 1 when its workflow is deleted and created again. -/
def overtaken : List Event :=
  writesFrom 0 0 ++ [Event.begin (.streamWrite ⟨"w",1,"k","v",none⟩ .called),.next 1 {},.deleteWorkflows ["w"],.statuses running,
    .next 1 {},.commit 1 true]

/-- Two steps that run side by side and write against the order of their IDs: the fork has the
    second entry and not the first. A stream has a gap too when its workflow was deleted under a
    write. -/
theorem stream_gap :
    (∃ s, Runs step (start running) (writesFrom 2 0 ++ writesFrom 1 1 ++ forks) s ∧
      s.db.streams.get? ("f","k",0) = none ∧ (s.db.streams.get? ("f","k",1)).isSome ∧
      (readStreamValue s.db "f" "k" 0).2 = none) ∧
    (∃ s, Runs step (start running) overtaken s ∧ s.db.streams.get? ("w","k",0) = none ∧
      (s.db.streams.get? ("w","k",1)).isSome) ∧
    ¬ ∀ t events s, Runs step (start t) events s → Dense s.db.streams := by
  have gap : ∃ s, Runs step (start running) (writesFrom 2 0 ++ writesFrom 1 1 ++ forks) s ∧
      s.db.streams.get? ("f","k",0) = none ∧ (s.db.streams.get? ("f","k",1)).isSome ∧
      (readStreamValue s.db "f" "k" 0).2 = none := ⟨_,rfl,rfl,rfl,rfl⟩
  refine ⟨gap,⟨_,rfl,rfl,rfl⟩,?_⟩
  intro always
  obtain ⟨s,run,missing,present,_⟩ := gap
  obtain ⟨n,count⟩ := always _ _ s run "f" "k"
  have last := (count 1).mp present
  have first := (count 0).mpr (by omega)
  rw [missing] at first
  cases first

end Dbos.StreamDensity
