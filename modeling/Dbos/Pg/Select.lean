import Mathlib.Data.List.Nodup
import Mathlib.Data.List.Perm.Subperm

/-!
SELECT ... ORDER BY ... LIMIT. The order is a strict comparison of rows, and rows that
compare neither way may come in either order, so the statement has several answers.
-/
namespace Dbos.Pg
variable {α : Type} [DecidableEq α]

/-- `picked` is an answer over the rows `rows`: distinct rows of them, in order, at
    most `limit` many, and a row is left out only when the limit is used up by rows
    that need not come after it. -/
def Answer (ahead : α → α → Bool) (rows : List α) (limit : Option Nat) (picked : List α) : Prop :=
  picked.Nodup ∧ (∀ r ∈ picked, r ∈ rows) ∧ picked.Pairwise (fun a b => ahead b a = false) ∧
    (∀ m ∈ limit, picked.length ≤ m) ∧
    ∀ r ∈ rows, r ∉ picked → limit = some picked.length ∧ ∀ p ∈ picked, ahead r p = false

instance (ahead : α → α → Bool) (rows : List α) (limit : Option Nat) (picked : List α) :
    Decidable (Answer ahead rows limit picked) := inferInstanceAs (Decidable (_ ∧ _ ∧ _ ∧ _ ∧ _))

omit [DecidableEq α] in
/-- Without a limit an answer has all rows. -/
theorem answer_all {ahead : α → α → Bool} {rows picked : List α} (answer : Answer ahead rows none picked) (r : α) :
    r ∈ picked ↔ r ∈ rows := by
  obtain ⟨_,listed,_,_,rest⟩ := answer
  exact ⟨listed r,fun member => by_contra fun missing => nomatch (rest r member missing).1⟩

/-- The row ahead of all others is in every answer that has room for a row. -/
theorem answer_first {ahead : α → α → Bool} {rows picked : List α} {limit : Option Nat} {first : α}
    (answer : Answer ahead rows limit picked) (room : limit ≠ some 0) (member : first ∈ rows)
    (least : ∀ r ∈ rows, r ≠ first → ahead first r = true) : first ∈ picked := by
  obtain ⟨_,listed,_,_,rest⟩ := answer
  by_contra missing
  obtain ⟨used,after⟩ := rest first member missing
  cases picked with
  | nil => exact room used
  | cons p more =>
    have here : p ∈ p :: more := List.mem_cons_self
    have other : p ≠ first := fun same => missing (same ▸ here)
    have behind := least p (listed p here) other
    rw [after p here] at behind
    cases behind

/-- The first `k` rows: an answer under the limit `k` that uses it up. -/
def First (ahead : α → α → Bool) (rows : List α) (k : Nat) (picked : List α) : Prop :=
  picked.length = k ∧ Answer ahead rows (some k) picked

/-- The limit, if there is one. -/
def atMost (limit : Option Nat) (k : Nat) : Nat := limit.elim k (min k)

theorem answer_length {ahead : α → α → Bool} {rows picked : List α} {limit : Option Nat} (distinct : rows.Nodup)
    (answer : Answer ahead rows limit picked) : picked.length = atMost limit rows.length := by
  obtain ⟨nodup,listed,_,within,rest⟩ := answer
  have fewer : picked.length ≤ rows.length := (List.subperm_of_subset nodup listed).length_le
  by_cases all : ∀ r ∈ rows,r ∈ picked
  · have same : rows.length ≤ picked.length := (List.subperm_of_subset distinct all).length_le
    cases limit with
    | none => exact Nat.le_antisymm fewer same
    | some m =>
      have := within m rfl
      simp only [atMost,Option.elim]
      omega
  · obtain ⟨r,member,missing⟩ : ∃ r ∈ rows,r ∉ picked := by
      by_contra none
      exact all fun r member => by_contra fun missing => none ⟨r,member,missing⟩
    rw [(rest r member missing).1]
    simp only [atMost,Option.elim]
    omega

/-- A start of an answer is an answer under a lower limit. -/
theorem answer_take {ahead : α → α → Bool} {rows picked : List α} {limit : Option Nat} (answer : Answer ahead rows limit picked)
    {k : Nat} (le : k ≤ picked.length) : First ahead rows k (picked.take k) := by
  obtain ⟨nodup,listed,sorted,_,rest⟩ := answer
  have length : (picked.take k).length = k := List.length_take_of_le le
  refine ⟨length,nodup.sublist (List.take_sublist _ _),fun r member => listed r (List.mem_of_mem_take member),
    sorted.sublist (List.take_sublist _ _),fun m limit => ?_,fun r member missing => ⟨by rw [length],fun p early => ?_⟩⟩
  · cases limit; exact Nat.le_of_eq length
  · by_cases picks : r ∈ picked
    · rw [← List.take_append_drop k picked] at picks sorted
      have later := (List.mem_append.mp picks).resolve_left missing
      exact (List.pairwise_append.mp sorted).2.2 p early r later
    · exact (rest r member picks).2 p (List.mem_of_mem_take early)

/-- A statement has an answer when its order is a total preorder. -/
theorem exists_answer {ahead : α → α → Bool} (total : ∀ a b,ahead a b = false ∨ ahead b a = false)
    (trans' : ∀ a b c,ahead b a = false → ahead c b = false → ahead c a = false) {rows : List α} (distinct : rows.Nodup)
    (limit : Option Nat) : ∃ picked,Answer ahead rows limit picked := by
  have order : (rows.mergeSort fun a b => !ahead b a).Pairwise fun a b => (!ahead b a) = true := by
    apply List.pairwise_mergeSort
    · intro a b c first second
      rw [Bool.not_eq_true'] at *
      exact trans' a b c first second
    · intro a b
      rcases total a b with h | h <;> simp [h]
  have same := List.mergeSort_perm rows fun a b => !ahead b a
  have whole : Answer ahead rows none (rows.mergeSort fun a b => !ahead b a) :=
    ⟨same.nodup_iff.mpr distinct,fun r member => same.mem_iff.mp member,by simpa using order,by simp,
      fun r member missing => absurd (same.mem_iff.mpr member) missing⟩
  cases limit with
  | none => exact ⟨_,whole⟩
  | some m =>
    by_cases fits : m ≤ (rows.mergeSort fun a b => !ahead b a).length
    · exact ⟨_,(answer_take whole fits).2⟩
    · obtain ⟨nodup,listed,sorted,_,rest⟩ := whole
      refine ⟨_,nodup,listed,sorted,fun m' limit => ?_,fun r member missing => absurd (rest r member missing).1 (by simp)⟩
      cases limit
      omega

end Dbos.Pg
