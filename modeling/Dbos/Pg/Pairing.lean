import Mathlib.Logic.Function.Basic
import Mathlib.Tactic.Choose

/-!
One-to-one pairings of two predicates, kept as a relation so that they can grow by a pair.
-/
namespace Dbos.Pg
variable {α β : Type} {A A' : α → Prop} {B B' : β → Prop} {R : α → β → Prop}

/-- `R` pairs what satisfies `A` with what satisfies `B`, one to one. -/
structure Pairing (A : α → Prop) (B : β → Prop) (R : α → β → Prop) : Prop where
  within : ∀ a b, R a b → A a ∧ B b
  covers : ∀ a, A a → ∃ b, R a b
  reaches : ∀ b, B b → ∃ a, R a b
  right : ∀ a b b', R a b → R a b' → b = b'
  left : ∀ a a' b, R a b → R a' b → a = a'

theorem pairing_congr (pairing : Pairing A B R) (left : ∀ a, A' a ↔ A a) (right : ∀ b, B' b ↔ B b) : Pairing A' B' R := by
  obtain rfl : A' = A := funext fun a => propext (left a)
  obtain rfl : B' = B := funext fun b => propext (right b)
  exact pairing

/-- A new pair whose members are both new. -/
theorem pairing_add (pairing : Pairing A B R) {a : α} {b : β} (new : ¬ A a) (new' : ¬ B b)
    (left : ∀ x, A' x ↔ A x ∨ x = a) (right : ∀ y, B' y ↔ B y ∨ y = b) :
    Pairing A' B' fun x y => R x y ∨ (x = a ∧ y = b) := by
  refine ⟨?_,?_,?_,?_,?_⟩
  · rintro x y (old | ⟨rfl,rfl⟩)
    · obtain ⟨first,second⟩ := pairing.within x y old
      exact ⟨(left x).mpr (.inl first),(right y).mpr (.inl second)⟩
    · exact ⟨(left x).mpr (.inr rfl),(right y).mpr (.inr rfl)⟩
  · intro x holds
    rcases (left x).mp holds with old | rfl
    · obtain ⟨y,paired⟩ := pairing.covers x old
      exact ⟨y,.inl paired⟩
    · exact ⟨b,.inr ⟨rfl,rfl⟩⟩
  · intro y holds
    rcases (right y).mp holds with old | rfl
    · obtain ⟨x,paired⟩ := pairing.reaches y old
      exact ⟨x,.inl paired⟩
    · exact ⟨a,.inr ⟨rfl,rfl⟩⟩
  · rintro x y y' (old | ⟨rfl,rfl⟩) (old' | ⟨same,rfl⟩)
    · exact pairing.right x y y' old old'
    · exact absurd (same ▸ (pairing.within x y old).1) new
    · exact absurd (pairing.within x y' old').1 new
    · rfl
  · rintro x x' y (old | ⟨rfl,rfl⟩) (old' | ⟨rfl,same⟩)
    · exact pairing.left x x' y old old'
    · exact absurd (same ▸ (pairing.within x y old).2) new'
    · exact absurd (pairing.within x' y old').2 new'
    · rfl

/-- A pairing is a bijection. -/
theorem pairing_bijection (pairing : Pairing A B R) :
    ∃ f : {a // A a} → {b // B b}, Function.Bijective f ∧ ∀ a, R a.1 (f a).1 := by
  choose g paired using pairing.covers
  refine ⟨fun a => ⟨g a.1 a.2,(pairing.within _ _ (paired a.1 a.2)).2⟩,⟨?_,?_⟩,fun a => paired a.1 a.2⟩
  · rintro ⟨a,holds⟩ ⟨a',holds'⟩ same
    have equal : g a holds = g a' holds' := congrArg Subtype.val same
    have paired' := paired a' holds'
    rw [← equal] at paired'
    exact Subtype.ext (pairing.left a a' _ (paired a holds) paired')
  · rintro ⟨b,holds⟩
    obtain ⟨a,related⟩ := pairing.reaches b holds
    have first := (pairing.within a b related).1
    exact ⟨⟨a,first⟩,Subtype.ext (pairing.right a _ _ (paired a first) related)⟩

end Dbos.Pg
