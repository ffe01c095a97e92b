import Mathlib.Data.List.Dedup
import Mathlib.Logic.Function.Basic
import Dbos.Pg.Table

/-!
A table with the log of its committed writes. Every row that a commit changes gets one
entry, with the writer and the row before and after. A snapshot is the table together
with the length of the log; a row is fresh for a snapshot when no later entry is about
it, and a transaction with REPEATABLE READ can lock only rows that are fresh. A commit
that writes a row back as it was does not change that row.
-/
namespace Dbos.Pg
variable {ω κ ρ : Type}

/-- One row changed by one commit. -/
structure Write (ω κ ρ : Type) where
  writer : ω
  key : κ
  before : Option ρ
  after : Option ρ

structure Heap (ω κ ρ : Type) where
  table : Table κ ρ
  log : List (Write ω κ ρ)

structure Snapshot (κ ρ : Type) where
  table : Table κ ρ
  time : Nat

section
variable [DecidableEq κ] [DecidableEq ρ]

/-- The rows in which two tables differ. -/
def diff (w : ω) (t t' : Table κ ρ) : List (Write ω κ ρ) :=
  (((t.entries ++ t'.entries).map Prod.fst).dedup.filter fun k => t.get? k ≠ t'.get? k).map fun k =>
    ⟨w,k,t.get? k,t'.get? k⟩

theorem mem_diff {w : ω} {t t' : Table κ ρ} {e : Write ω κ ρ} :
    e ∈ diff w t t' ↔ e.writer = w ∧ e.before = t.get? e.key ∧ e.after = t'.get? e.key ∧ e.before ≠ e.after := by
  obtain ⟨writer,key,before,after⟩ := e
  simp only [diff,List.mem_map,List.mem_filter,List.mem_dedup,decide_eq_true_eq]
  constructor
  · rintro ⟨k,⟨_,differ⟩,same⟩
    cases same
    exact ⟨rfl,rfl,rfl,differ⟩
  · rintro ⟨rfl,rfl,rfl,differ⟩
    refine ⟨key,⟨?_,differ⟩,rfl⟩
    -- A key at which the tables differ has a row in one of them.
    cases found : t.get? key with
    | some r =>
      have member := (t.get?_eq_some key r).mp found
      exact ⟨(key,r),List.mem_append_left _ member,rfl⟩
    | none =>
      cases found' : t'.get? key with
      | none => exact absurd (found.trans found'.symm) differ
      | some r =>
        have member := (t'.get?_eq_some key r).mp found'
        exact ⟨(key,r),List.mem_append_right _ member,rfl⟩

theorem diff_keys_nodup (w : ω) (t t' : Table κ ρ) : ((diff w t t').map Write.key).Nodup := by
  simp only [diff,List.map_map,Function.comp_def,List.map_id']
  exact (List.nodup_dedup _).filter _

end

namespace Heap

def init (t : Table κ ρ) : Heap ω κ ρ := ⟨t,[]⟩

def snapshot (h : Heap ω κ ρ) : Snapshot κ ρ := ⟨h.table,h.log.length⟩

/-- The writes that were committed after the snapshot. -/
def since (h : Heap ω κ ρ) (s : Snapshot κ ρ) : List (Write ω κ ρ) := h.log.drop s.time

/-- The row was not changed after the snapshot. -/
def Fresh (h : Heap ω κ ρ) (s : Snapshot κ ρ) (k : κ) : Prop := ∀ e ∈ h.since s,e.key ≠ k

instance [DecidableEq κ] (h : Heap ω κ ρ) (s : Snapshot κ ρ) (k : κ) : Decidable (h.Fresh s k) :=
  inferInstanceAs (Decidable (∀ e ∈ _,_))

theorem since_snapshot (h : Heap ω κ ρ) : h.since h.snapshot = [] := by simp [since,snapshot]

variable [DecidableEq κ]

/-- `s` was taken in this heap or in an earlier state of it. -/
structure Saw (h : Heap ω κ ρ) (s : Snapshot κ ρ) : Prop where
  past : s.time ≤ h.log.length
  same : ∀ k, h.Fresh s k → h.table.get? k = s.table.get? k

theorem saw_snapshot (h : Heap ω κ ρ) : h.Saw h.snapshot := ⟨Nat.le_refl _,fun _ _ => rfl⟩

variable [DecidableEq ρ]

/-- A transaction commits: the table becomes `t'` and the changed rows are logged. -/
def commit (h : Heap ω κ ρ) (w : ω) (t' : Table κ ρ) : Heap ω κ ρ := ⟨t',h.log ++ diff w h.table t'⟩

theorem since_commit {h : Heap ω κ ρ} {s : Snapshot κ ρ} (past : s.time ≤ h.log.length) (w : ω) (t' : Table κ ρ) :
    (h.commit w t').since s = h.since s ++ diff w h.table t' := by
  simp [since,commit,List.drop_append_of_le_length past]

/-- A row is fresh after a commit when it was fresh and the commit left it alone. -/
theorem fresh_commit {h : Heap ω κ ρ} {s : Snapshot κ ρ} (past : s.time ≤ h.log.length) (w : ω) (t' : Table κ ρ) (k : κ) :
    (h.commit w t').Fresh s k ↔ h.Fresh s k ∧ t'.get? k = h.table.get? k := by
  unfold Fresh
  rw [since_commit past]
  constructor
  · intro fresh
    refine ⟨fun e member => fresh e (List.mem_append_left _ member),?_⟩
    by_contra differ
    have logged : (⟨w,k,h.table.get? k,t'.get? k⟩ : Write ω κ ρ) ∈ diff w h.table t' :=
      mem_diff.mpr ⟨rfl,rfl,rfl,fun same => differ same.symm⟩
    exact fresh _ (List.mem_append_right _ logged) rfl
  · rintro ⟨fresh,kept⟩ e member
    rcases List.mem_append.mp member with old | new
    · exact fresh e old
    · rintro rfl
      obtain ⟨_,before,after,differ⟩ := mem_diff.mp new
      exact differ (by rw [before,after,kept])

theorem saw_commit {h : Heap ω κ ρ} {s : Snapshot κ ρ} (saw : h.Saw s) (w : ω) (t' : Table κ ρ) :
    (h.commit w t').Saw s := by
  refine ⟨?_,?_⟩
  · simp only [commit,List.length_append]
    exact Nat.le_add_right_of_le saw.past
  · intro k fresh
    obtain ⟨before,kept⟩ := (fresh_commit saw.past w t' k).mp fresh
    exact kept.trans (saw.same k before)

end Heap

/-! ### The log as a history -/

section
variable [DecidableEq κ]

/-- The rows after the writes of `log`, from the rows `v`. -/
def rowsAfter (v : κ → Option ρ) (log : List (Write ω κ ρ)) : κ → Option ρ :=
  log.foldl (fun v e => Function.update v e.key e.after) v

/-- Each write starts from the row that the writes before it left. -/
def Linked (v : κ → Option ρ) : List (Write ω κ ρ) → Prop
  | [] => True
  | e :: rest => e.before = v e.key ∧ Linked (Function.update v e.key e.after) rest

theorem linked_append {v : κ → Option ρ} {first rest : List (Write ω κ ρ)} :
    Linked v (first ++ rest) ↔ Linked v first ∧ Linked (rowsAfter v first) rest := by
  induction first generalizing v with
  | nil => simp [Linked,rowsAfter]
  | cons e first ih => simp [Linked,ih,rowsAfter,and_assoc]

theorem rowsAfter_append (v : κ → Option ρ) (first rest : List (Write ω κ ρ)) :
    rowsAfter v (first ++ rest) = rowsAfter (rowsAfter v first) rest := by simp [rowsAfter]

theorem rowsAfter_other {v : κ → Option ρ} {log : List (Write ω κ ρ)} {k : κ} (other : ∀ e ∈ log,e.key ≠ k) :
    rowsAfter v log k = v k := by
  induction log generalizing v with
  | nil => rfl
  | cons e rest ih =>
    have here := other e List.mem_cons_self
    rw [rowsAfter,List.foldl_cons]
    refine (ih fun e' member => other e' (List.mem_cons_of_mem _ member)).trans ?_
    exact Function.update_of_ne (Ne.symm here) _ _

/-- Writes to distinct keys are linked when each starts from the rows `v`. -/
theorem linked_of_nodup {v : κ → Option ρ} {log : List (Write ω κ ρ)} (start : ∀ e ∈ log,e.before = v e.key)
    (distinct : (log.map Write.key).Nodup) : Linked v log := by
  induction log generalizing v with
  | nil => trivial
  | cons e rest ih =>
    rw [List.map_cons,List.nodup_cons] at distinct
    refine ⟨start e List.mem_cons_self,ih ?_ distinct.2⟩
    intro e' member
    have other : e'.key ≠ e.key := fun same => distinct.1 (same ▸ List.mem_map_of_mem member)
    rw [Function.update_of_ne other]
    exact start e' (List.mem_cons_of_mem _ member)

theorem rowsAfter_mem {v : κ → Option ρ} {log : List (Write ω κ ρ)} (distinct : (log.map Write.key).Nodup)
    {e : Write ω κ ρ} (member : e ∈ log) : rowsAfter v log e.key = e.after := by
  induction log generalizing v with
  | nil => cases member
  | cons e' rest ih =>
    rw [List.map_cons,List.nodup_cons] at distinct
    rcases List.mem_cons.mp member with rfl | later
    · rw [rowsAfter,List.foldl_cons]
      refine (rowsAfter_other ?_).trans (Function.update_self _ _ _)
      intro e' listed same
      exact distinct.1 (same ▸ List.mem_map_of_mem listed)
    · exact ih distinct.2 later

/-- A row that got the property `P` got it by some write. -/
theorem linked_gains {P : Option ρ → Prop} {v : κ → Option ρ} {log : List (Write ω κ ρ)} {k : κ} (linked : Linked v log)
    (without : ¬ P (v k)) (gained : P (rowsAfter v log k)) : ∃ e ∈ log,e.key = k ∧ ¬ P e.before ∧ P e.after := by
  induction log generalizing v with
  | nil => exact absurd gained without
  | cons e rest ih =>
    obtain ⟨start,onward⟩ := linked
    by_cases here : e.key = k
    · by_cases now : P e.after
      · exact ⟨e,List.mem_cons_self,here,by rw [start,here]; exact without,now⟩
      · have still : ¬ P (Function.update v e.key e.after k) := by rw [← here,Function.update_self]; exact now
        obtain ⟨e',member,found⟩ := ih onward still gained
        exact ⟨e',List.mem_cons_of_mem _ member,found⟩
    · have still : ¬ P (Function.update v e.key e.after k) := by
        rw [Function.update_of_ne (Ne.symm here)]
        exact without
      obtain ⟨e',member,found⟩ := ih onward still gained
      exact ⟨e',List.mem_cons_of_mem _ member,found⟩

/-- Between two writes of one row, of which the first left it without `P` and the second
    found it with `P`, some write gave it `P`. -/
theorem linked_between {P : Option ρ → Prop} {v : κ → Option ρ} {first mid last : List (Write ω κ ρ)}
    {e e' : Write ω κ ρ} (linked : Linked v (first ++ e :: (mid ++ e' :: last))) (same : e'.key = e.key)
    (without : ¬ P e.after) (having : P e'.before) : ∃ x ∈ mid,x.key = e.key ∧ ¬ P x.before ∧ P x.after := by
  obtain ⟨_,_,rest⟩ := linked_append.mp linked
  obtain ⟨through,start,_⟩ := linked_append.mp rest
  refine linked_gains through ?_ ?_
  · rw [Function.update_self]
    exact without
  · rw [same] at start
    rw [← start]
    exact having

namespace Heap

/-- The log leads from the table `t` to the table of the heap. -/
structure Traced (t : Table κ ρ) (h : Heap ω κ ρ) : Prop where
  linked : Linked t.get? h.log
  table : rowsAfter t.get? h.log = h.table.get?

theorem traced_init (t : Table κ ρ) : Traced t (init t : Heap ω κ ρ) := ⟨trivial,rfl⟩

theorem traced_commit [DecidableEq ρ] {t : Table κ ρ} {h : Heap ω κ ρ} (traced : Traced t h) (w : ω) (t' : Table κ ρ) :
    Traced t (h.commit w t') := by
  have distinct := diff_keys_nodup w h.table t'
  refine ⟨linked_append.mpr ⟨traced.linked,?_⟩,?_⟩
  · refine linked_of_nodup ?_ distinct
    intro e member
    rw [traced.table]
    exact (mem_diff.mp member).2.1
  · rw [commit,rowsAfter_append,traced.table]
    funext k
    by_cases changed : ∃ e ∈ diff w h.table t',e.key = k
    · obtain ⟨e,member,rfl⟩ := changed
      rw [rowsAfter_mem distinct member]
      exact (mem_diff.mp member).2.2.1
    · rw [rowsAfter_other fun e member same => changed ⟨e,member,same⟩]
      by_contra differ
      exact changed ⟨⟨w,k,h.table.get? k,t'.get? k⟩,mem_diff.mpr ⟨rfl,rfl,rfl,differ⟩,rfl⟩

end Heap
end
end Dbos.Pg
