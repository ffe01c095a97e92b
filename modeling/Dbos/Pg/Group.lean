import Mathlib.Algebra.BigOperators.Group.List.Lemmas
import Mathlib.Data.List.Dedup
import Mathlib.Algebra.Ring.Nat

/-!
GROUP BY. Rows with the same key are one group, and the groups come in any order.
-/
namespace Dbos.Pg
variable {α κ : Type} [DecidableEq κ]

/-- The rows of the group. -/
def members (key : α → κ) (rows : List α) (k : κ) : List α := rows.filter fun r => key r = k

/-- The keys of the groups. -/
def GroupKeys (key : α → κ) (rows : List α) (keys : List κ) : Prop := keys.Perm (rows.map key).dedup

section
variable {key : α → κ} {rows : List α} {keys : List κ}

theorem groupKeys_dedup (key : α → κ) (rows : List α) : GroupKeys key rows (rows.map key).dedup := List.Perm.refl _

theorem groupKeys_nodup (grouped : GroupKeys key rows keys) : keys.Nodup := grouped.nodup_iff.mpr (List.nodup_dedup _)

theorem mem_groupKeys (grouped : GroupKeys key rows keys) (k : κ) : k ∈ keys ↔ ∃ r ∈ rows,key r = k := by
  rw [grouped.mem_iff,List.mem_dedup,List.mem_map]

theorem length_members (key : α → κ) (rows : List α) (k : κ) : (members key rows k).length = (rows.map key).count k := by
  induction rows with
  | nil => rfl
  | cons r rows ih =>
    rw [members] at ih ⊢
    by_cases same : key r = k
    · simp [same,ih]
    · simp [same,ih]

/-- Each row is counted once. -/
theorem sum_members (grouped : GroupKeys key rows keys) : (keys.map fun k => (members key rows k).length).sum = rows.length := by
  have sums : (keys.map fun k => (rows.map key).count k).Perm ((rows.map key).dedup.map fun k => (rows.map key).count k) := grouped.map _
  simp only [length_members]
  rw [sums.sum_eq,List.sum_map_count_dedup_eq_length,List.length_map]

end

end Dbos.Pg
