import Mathlib.Data.List.Basic

/-!
Lists that are taken in order: what comes before an element, and when an initial part grows by
one element to a longer initial part.
-/
namespace Dbos.Pg

variable {α : Type}

/-- `a` comes before `b`. -/
def Before (l : List α) (a b : α) : Prop := ∃ front back, l = front ++ b :: back ∧ a ∈ front

theorem before_mem {l : List α} {a b : α} (before : Before l a b) : a ∈ l ∧ b ∈ l := by
  obtain ⟨front,back,rfl,member⟩ := before
  exact ⟨List.mem_append_left _ member,by simp⟩

theorem before_append {l : List α} {x a b : α} (before : Before (l ++ [x]) a b) : Before l a b ∨ b = x ∧ a ∈ l := by
  obtain ⟨front,back,same,member⟩ := before
  rcases List.eq_nil_or_concat back with rfl | ⟨back,last,rfl⟩
  · obtain ⟨rfl,last⟩ := List.append_inj' same rfl
    exact .inr ⟨(List.singleton_inj.mp last).symm,member⟩
  · have whole : l ++ [x] = (front ++ b :: back) ++ [last] := by simpa using same
    obtain ⟨rfl,_⟩ := List.append_inj' whole rfl
    exact .inl ⟨front,back,rfl,member⟩

/-- What is taken in order and everything before `b` give, with `b`, a longer initial part. -/
theorem taken_next {l taken : List α} (distinct : l.Nodup) (initial : taken <+: l) {b : α} (member : b ∈ l) (fresh : b ∉ taken)
    (earlier : ∀ a, Before l a b → a ∈ taken) : taken ++ [b] <+: l := by
  obtain ⟨rest,rfl⟩ := initial
  rcases List.mem_append.mp member with here | later
  · exact absurd here fresh
  · cases rest with
    | nil => cases later
    | cons c rest =>
      rcases List.mem_cons.mp later with rfl | behind
      · exact ⟨rest,by simp⟩
      · obtain ⟨front,back,rfl⟩ := List.append_of_mem behind
        have skipped := earlier c ⟨taken ++ c :: front,back,by simp,by simp⟩
        have twice := (List.nodup_append.mp distinct).2.2 c skipped c List.mem_cons_self
        exact absurd rfl twice

end Dbos.Pg
