import Dbos.Ops

/-!
The transaction of `enqueueWorkflows` in `src/system_database.ts`, statement by statement: the rows of a batch are inserted 500 at a
time, ON CONFLICT DO NOTHING, and are committed together. Where no other transaction comes between its statements, it does
what `Status.enqueueWorkflows` does.
-/
namespace Dbos.BatchInsert
open Dbos.Pg Dbos.Schema Dbos.Status

/-- A call under way: the statuses it has left, with their `created_at`; the rows it has inserted and not committed; the IDs
    that it has found taken. -/
structure Transaction where
  statuses : List (WorkflowStatusInternal × Int)
  rows : List (String × WorkflowStatus) := []
  skipped : List String := []

/-- The IDs that the call returns. -/
def Transaction.inserted (tx : Transaction) : List String := tx.rows.map Prod.fst

/-- One row of an INSERT ... ON CONFLICT DO NOTHING RETURNING `workflow_uuid`; the transaction sees its own rows. -/
def insertRow (t : Statuses) (tx : Transaction) (s : WorkflowStatusInternal × Int) : Transaction :=
  if (t.get? s.1.workflowUUID).isSome ∨ s.1.workflowUUID ∈ tx.inserted then { tx with skipped := tx.skipped ++ [s.1.workflowUUID] }
  else { tx with rows := tx.rows ++ [(s.1.workflowUUID,enqueuedRow s.1 s.2)] }

def chunkSize : Nat := 500

/-- The IDs that the next statement inserts. -/
def Transaction.next (tx : Transaction) : List String := (tx.statuses.take chunkSize).map fun s => s.1.workflowUUID

def statement (t : Statuses) (tx : Transaction) : Transaction :=
  (tx.statuses.take chunkSize).foldl (insertRow t) { tx with statuses := tx.statuses.drop chunkSize }

def commit (t : Statuses) (tx : Transaction) : Statuses := tx.rows.foldl (fun t row => t.insert row.1 row.2) t

/-! ### Statements -/

variable {t : Statuses}

/-- What a list of rows does to a transaction: each is inserted or skipped, and only what is not there is inserted. -/
structure Inserts (t : Statuses) (chunk : List (WorkflowStatusInternal × Int)) (tx tx' : Transaction) : Prop where
  statuses : tx'.statuses = tx.statuses
  kept : ∀ k ∈ tx.inserted,k ∈ tx'.inserted
  passed : ∀ k ∈ tx.skipped,k ∈ tx'.skipped
  rows : ∀ row ∈ tx'.rows,row ∈ tx.rows ∨ (t.get? row.1 = none ∧ ∃ s ∈ chunk,row = (s.1.workflowUUID,enqueuedRow s.1 s.2))
  distinct : tx.inserted.Nodup → tx'.inserted.Nodup
  handled : ∀ s ∈ chunk,s.1.workflowUUID ∈ tx'.inserted ∨ s.1.workflowUUID ∈ tx'.skipped
  skipped : ∀ k ∈ tx'.skipped,k ∈ tx.skipped ∨ (t.get? k).isSome ∨ k ∈ tx'.inserted

theorem insertRow_inserts (tx : Transaction) (s : WorkflowStatusInternal × Int) : Inserts t [s] tx (insertRow t tx s) := by
  unfold insertRow
  by_cases taken : (t.get? s.1.workflowUUID).isSome ∨ s.1.workflowUUID ∈ tx.inserted
  · rw [if_pos taken]
    refine ⟨rfl,fun k there => there,fun k there => List.mem_append_left _ there,fun row there => .inl there,id,?_,?_⟩
    · intro s' listed
      cases List.mem_singleton.mp listed
      exact .inr (List.mem_append_right _ List.mem_cons_self)
    · intro k there
      rcases List.mem_append.mp there with old | new
      · exact .inl old
      · cases List.mem_singleton.mp new
        exact .inr taken
  · rw [if_neg taken]
    obtain ⟨absent,fresh⟩ := not_or.mp taken
    have grown : ({ tx with rows := tx.rows ++ [(s.1.workflowUUID,enqueuedRow s.1 s.2)] } : Transaction).inserted =
        tx.inserted ++ [s.1.workflowUUID] := by simp [Transaction.inserted]
    constructor
    · rfl
    · intro k there
      rw [grown]
      exact List.mem_append_left _ there
    · exact fun k there => there
    · intro row there
      rcases List.mem_append.mp there with old | new
      · exact .inl old
      · cases List.mem_singleton.mp new
        exact .inr ⟨by simpa using absent,s,List.mem_cons_self,rfl⟩
    · intro distinct
      rw [grown]
      rw [← List.concat_eq_append,List.nodup_concat]
      exact ⟨fresh,distinct⟩
    · intro s' listed
      cases List.mem_singleton.mp listed
      rw [grown]
      exact .inl (List.mem_append_right _ List.mem_cons_self)
    · exact fun k there => .inl there

theorem insertRows_inserts (chunk : List (WorkflowStatusInternal × Int)) (tx : Transaction) :
    Inserts t chunk tx (chunk.foldl (insertRow t) tx) := by
  induction chunk generalizing tx with
  | nil =>
    refine ⟨rfl,fun k there => there,fun k there => there,fun row there => .inl there,id,?_,fun k there => .inl there⟩
    intro s listed
    cases listed
  | cons s rest ih =>
    rw [List.foldl_cons]
    have first : Inserts t [s] tx _ := insertRow_inserts tx s
    generalize insertRow t tx s = mid at first
    have later : Inserts t rest mid _ := ih mid
    generalize rest.foldl (insertRow t) mid = last at later
    constructor
    · exact later.statuses.trans first.statuses
    · exact fun k there => later.kept k (first.kept k there)
    · exact fun k there => later.passed k (first.passed k there)
    · intro row there
      rcases later.rows row there with old | ⟨absent,s',listed,same⟩
      · rcases first.rows row old with older | ⟨absent,s',listed,same⟩
        · exact .inl older
        · cases List.mem_singleton.mp listed
          exact .inr ⟨absent,s,List.mem_cons_self,same⟩
      · exact .inr ⟨absent,s',List.mem_cons_of_mem _ listed,same⟩
    · exact fun distinct => later.distinct (first.distinct distinct)
    · intro s' listed
      rcases List.mem_cons.mp listed with rfl | further
      · exact (first.handled s' List.mem_cons_self).imp (later.kept _) (later.passed _)
      · exact later.handled s' further
    · intro k there
      rcases later.skipped k there with old | new
      · exact (first.skipped k old).imp_right fun found => found.imp_right (later.kept k)
      · exact .inr new

theorem statement_inserts (tx : Transaction) :
    Inserts t (tx.statuses.take chunkSize) { tx with statuses := tx.statuses.drop chunkSize } (statement t tx) :=
  insertRows_inserts _ _

/-! ### The commit -/

theorem commit_other {tx : Transaction} {k : String} (other : k ∉ tx.inserted) : (commit t tx).get? k = t.get? k := by
  unfold commit
  unfold Transaction.inserted at other
  generalize tx.rows = rows at other
  induction rows generalizing t with
  | nil => rfl
  | cons row rest ih =>
    simp only [List.map_cons,List.mem_cons,not_or] at other
    rw [List.foldl_cons,ih other.2,Table.get?_insert,if_neg other.1]

/-- The rows of a transaction are committed as they are when nobody else has inserted them. -/
theorem commit_row {tx : Transaction} (distinct : tx.inserted.Nodup) {k : String} {r : WorkflowStatus} (row : (k,r) ∈ tx.rows)
    (absent : t.get? k = none) : (commit t tx).get? k = some r := by
  unfold commit
  unfold Transaction.inserted at distinct
  generalize tx.rows = rows at distinct row
  induction rows generalizing t with
  | nil => cases row
  | cons first rest ih =>
    rw [List.map_cons,List.nodup_cons] at distinct
    rw [List.foldl_cons]
    rcases List.mem_cons.mp row with rfl | later
    · have others : (commit (t.insert k r) { statuses := [],rows := rest }).get? k = (t.insert k r).get? k :=
        commit_other distinct.1
      refine others.trans ?_
      rw [Table.get?_insert,if_pos rfl,absent]
      rfl
    · have differ : k ≠ first.1 := by
        rintro rfl
        exact distinct.1 (List.mem_map.mpr ⟨_,later,rfl⟩)
      refine ih ?_ distinct.2 later
      rw [Table.get?_insert,if_neg differ,absent]

/-! ### A call by itself -/

/-- The statements that are left, one after the other. -/
def finish (t : Statuses) (tx : Transaction) : Transaction := tx.statuses.foldl (insertRow t) { tx with statuses := [] }

theorem insertRow_statuses (tx : Transaction) (s : WorkflowStatusInternal × Int) (left : List (WorkflowStatusInternal × Int)) :
    insertRow t { tx with statuses := left } s = { insertRow t tx s with statuses := left } := by
  unfold insertRow Transaction.inserted
  dsimp only
  split <;> rfl

theorem insertRows_statuses (chunk : List (WorkflowStatusInternal × Int)) (tx : Transaction)
    (left : List (WorkflowStatusInternal × Int)) :
    chunk.foldl (insertRow t) { tx with statuses := left } = { chunk.foldl (insertRow t) tx with statuses := left } := by
  induction chunk generalizing tx with
  | nil => rfl
  | cons s rest ih => rw [List.foldl_cons,List.foldl_cons,insertRow_statuses,ih]

/-- A statement does its part of the call. -/
theorem finish_statement (tx : Transaction) : finish t (statement t tx) = finish t tx := by
  have left : (statement t tx).statuses = tx.statuses.drop chunkSize := (statement_inserts tx).statuses
  unfold finish
  rw [left]
  conv_rhs => rw [← List.take_append_drop chunkSize tx.statuses]
  rw [List.foldl_append]
  congr 1
  unfold statement
  rw [← insertRows_statuses]

theorem commit_isSome (tx : Transaction) (k : String) : ((commit t tx).get? k).isSome ↔ (t.get? k).isSome ∨ k ∈ tx.inserted := by
  unfold commit Transaction.inserted
  generalize tx.rows = rows
  induction rows generalizing t with
  | nil => simp
  | cons row rest ih =>
    rw [List.foldl_cons,ih,List.map_cons,List.mem_cons,Table.get?_insert]
    by_cases here : k = row.1
    · subst here
      cases t.get? row.1 <;> simp
    · simp [here]

/-- A call without others between its statements is `enqueueWorkflows`. -/
theorem enqueueWorkflows_alone (statuses : List WorkflowStatusInternal) (createdAts : List Int) (accepted : refusedStatus statuses = none) :
    enqueueWorkflows t statuses createdAts =
      (.ok (finish t { statuses := statuses.zip createdAts }).inserted,commit t (finish t { statuses := statuses.zip createdAts })) := by
  have together : ∀ (batch : List (WorkflowStatusInternal × Int)) (tx : Transaction),
      batch.foldl enqueueRow (tx.inserted,commit t tx) =
        ((batch.foldl (insertRow t) tx).inserted,commit t (batch.foldl (insertRow t) tx)) := by
    intro batch
    induction batch with
    | nil => exact fun tx => rfl
    | cons s rest ih =>
      intro tx
      rw [List.foldl_cons,List.foldl_cons,← ih]
      congr 1
      unfold insertRow enqueueRow
      by_cases taken : (t.get? s.1.workflowUUID).isSome ∨ s.1.workflowUUID ∈ tx.inserted
      · have there := (commit_isSome tx s.1.workflowUUID).mpr taken
        rw [if_pos taken]
        dsimp only
        rw [if_pos there]
        refine Prod.ext rfl ?_
        have occupied : (commit t tx).get? s.1.workflowUUID ≠ none := by
          intro none_
          rw [none_] at there
          cases there
        unfold Table.insert
        rw [dif_neg occupied]
        rfl
      · have absent : ¬ ((commit t tx).get? s.1.workflowUUID).isSome := fun there => taken ((commit_isSome tx _).mp there)
        rw [if_neg taken]
        dsimp only
        rw [if_neg absent]
        refine Prod.ext ?_ ?_
        · simp [Transaction.inserted]
        · simp [commit]
  unfold enqueueWorkflows
  rw [accepted]
  dsimp only
  have run := together (statuses.zip createdAts) { statuses := [] }
  have begins : (([],t) : List String × Statuses) = (Transaction.inserted { statuses := [] },commit t { statuses := [] }) := rfl
  rw [begins,run]
  rfl

end Dbos.BatchInsert
