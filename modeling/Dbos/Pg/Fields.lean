import Mathlib.Data.List.Basic

/-!
Texts with a separator between their fields. What is equal as a text need not be equal field by field: `split_cases` says where
the separators of one can lie in the other. A field without the separator is found again from its end of the text.
-/
namespace Dbos.Pg.Fields
variable {α : Type} {sep : α} {a b x y : List α}

/-- Two splits of a text at the separator are the same, or the parts between them are a field of their own. -/
theorem split_cases : a ++ sep :: x = b ++ sep :: y ↔
    (a = b ∧ x = y) ∨ (∃ m, b = a ++ sep :: m ∧ x = m ++ sep :: y) ∨ (∃ m, a = b ++ sep :: m ∧ y = m ++ sep :: x) := by
  constructor
  · intro same
    rcases List.append_eq_append_iff.mp same with ⟨gap,left,right⟩ | ⟨gap,left,right⟩
    · cases gap with
      | nil =>
        simp only [List.nil_append,List.cons.injEq,true_and] at right
        exact .inl ⟨by simpa using left.symm,right⟩
      | cons c m =>
        simp only [List.cons_append,List.cons.injEq] at right
        obtain ⟨rfl,right⟩ := right
        exact .inr (.inl ⟨m,left,right⟩)
    · cases gap with
      | nil =>
        simp only [List.nil_append,List.cons.injEq,true_and] at right
        exact .inl ⟨by simpa using left,right.symm⟩
      | cons c m =>
        simp only [List.cons_append,List.cons.injEq] at right
        obtain ⟨rfl,right⟩ := right
        exact .inr (.inr ⟨m,left,right⟩)
  · rintro (⟨rfl,rfl⟩ | ⟨m,rfl,rfl⟩ | ⟨m,rfl,rfl⟩)
    · rfl
    · simp
    · simp

/-- The first field ends at the first separator. -/
theorem split_first (whole : sep ∉ a) (whole' : sep ∉ b) : a ++ sep :: x = b ++ sep :: y ↔ a = b ∧ x = y := by
  refine split_cases.trans ⟨?_,.inl⟩
  rintro (same | ⟨m,rfl,_⟩ | ⟨m,rfl,_⟩)
  · exact same
  · exact absurd (List.mem_append_right _ List.mem_cons_self) whole'
  · exact absurd (List.mem_append_right _ List.mem_cons_self) whole

/-- The last field starts at the last separator. -/
theorem split_last (whole : sep ∉ x) (whole' : sep ∉ y) : a ++ sep :: x = b ++ sep :: y ↔ a = b ∧ x = y := by
  refine split_cases.trans ⟨?_,.inl⟩
  rintro (same | ⟨m,_,rfl⟩ | ⟨m,_,rfl⟩)
  · exact same
  · exact absurd (List.mem_append_right _ List.mem_cons_self) whole
  · exact absurd (List.mem_append_right _ List.mem_cons_self) whole'

/-! ### Numbers -/

theorem digits_injective {m n : Nat} (same : Nat.toDigits 10 m = Nat.toDigits 10 n) : m = n := by
  have back := congrArg (fun text => Nat.ofDigitChars 10 text 0) same
  simpa only [Nat.ofDigitChars_ten_toDigits] using back

theorem not_mem_digits {c : Char} (other : c.isDigit = false) (n : Nat) : c ∉ Nat.toDigits 10 n := by
  intro listed
  have digit := Nat.isDigit_of_mem_toDigits (by decide) (by decide) listed
  rw [other] at digit
  cases digit

end Dbos.Pg.Fields
