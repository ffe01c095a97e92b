import Mathlib.Tactic.Common

/-!
Programs on a state that may throw: what was changed before the throw stays changed. A program is taken apart into its steps by what it
returns, and a loop that returns keeps what each of its turns keeps.
-/
namespace Dbos.Pg
variable {σ ε α β : Type}

/-- Programs that return `α` or throw `ε`, and change `σ`. -/
abbrev Throwing (ε σ α : Type) := ExceptT ε (StateM σ) α

/-- What the program comes to, and the state that it leaves. -/
def outcome (x : Throwing ε σ α) (s : σ) : Except ε α × σ := x.run.run s

/-- The program returns. -/
def Returns (x : Throwing ε σ α) (s : σ) (a : α) (s' : σ) : Prop := outcome x s = (.ok a,s')

theorem outcome_bind (x : Throwing ε σ α) (f : α → Throwing ε σ β) (s : σ) :
    outcome (x >>= f) s = match outcome x s with
      | (.ok a,u) => outcome (f a) u
      | (.error e,u) => (.error e,u) := by
  have whole : outcome (x >>= f) s =
      (fun r : Except ε α × σ => (ExceptT.bindCont f r.1 : StateM σ (Except ε β)).run r.2) (outcome x s) := rfl
  rw [whole]
  rcases outcome x s with ⟨_ | _,_⟩ <;> rfl

theorem returns_bind {x : Throwing ε σ α} {f : α → Throwing ε σ β} {s s' : σ} {b : β} :
    Returns (x >>= f) s b s' ↔ ∃ a u, Returns x s a u ∧ Returns (f a) u b s' := by
  unfold Returns
  rw [outcome_bind]
  rcases outcome x s with ⟨e | a,u⟩
  · simp
  · simp

theorem returns_pure {a b : α} {s s' : σ} : Returns (pure a : Throwing ε σ α) s b s' ↔ a = b ∧ s = s' := by
  change ((Except.ok a,s) : Except ε α × σ) = (Except.ok b,s') ↔ _
  simp

theorem returns_throw {e : ε} {b : α} {s s' : σ} : ¬ Returns (throw e : Throwing ε σ α) s b s' := by
  change ¬ ((Except.error e,s) : Except ε α × σ) = (Except.ok b,s')
  simp

theorem returns_get {s s' t : σ} : Returns (get : Throwing ε σ σ) s t s' ↔ s = t ∧ s = s' := by
  change ((Except.ok s,s) : Except ε σ × σ) = (Except.ok t,s') ↔ _
  simp

theorem returns_modify {f : σ → σ} {s s' : σ} {u : PUnit} : Returns (modify f : Throwing ε σ PUnit) s u s' ↔ f s = s' := by
  change ((Except.ok ⟨⟩,f s) : Except ε PUnit × σ) = (Except.ok u,s') ↔ _
  simp

/-- A check that throws has not been met, where the program returns. -/
theorem returns_check {P : Prop} [Decidable P] {e : ε} {f : β → Throwing ε σ α} {x : Throwing ε σ α} {s s' : σ} {a : α} :
    Returns (if P then throw e >>= f else x) s a s' ↔ ¬ P ∧ Returns x s a s' := by
  split
  · rename_i met
    constructor
    · intro returns
      obtain ⟨_,_,thrown,_⟩ := returns_bind.mp returns
      exact absurd thrown returns_throw
    · rintro ⟨fails,_⟩
      exact absurd met fails
  · rename_i fails
    exact ⟨fun returns => ⟨fails,returns⟩,And.right⟩

/-- A loop that returns: what holds before its first turn, and is kept by each turn, with what has been done growing. -/
theorem returns_forM {f : α → Throwing ε σ PUnit} {I : List α → σ → Prop} {l : List α} {s s' : σ} {u : PUnit}
    (returns : Returns (l.forM f) s u s') (start : I [] s)
    (turn : ∀ done a rest t t', l = done ++ a :: rest → I done t → Returns (f a) t ⟨⟩ t' → I (done ++ [a]) t') : I l s' := by
  have onward : ∀ rest done t, l = done ++ rest → I done t → Returns (rest.forM f) t u s' → I l s' := by
    intro rest
    induction rest with
    | nil =>
      intro done t split held ends
      obtain ⟨_,rfl⟩ := returns_pure.mp ends
      rw [split,List.append_nil]
      exact held
    | cons a rest ih =>
      intro done t split held ends
      obtain ⟨⟨⟩,t',first,later⟩ := returns_bind.mp ends
      refine ih (done ++ [a]) t' ?_ (turn done a rest t t' split held first) later
      rw [split,List.append_assoc]
      rfl
  exact onward l [] s rfl start returns

end Dbos.Pg
