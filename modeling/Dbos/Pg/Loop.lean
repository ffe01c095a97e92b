import Mathlib.Data.List.Forall2
import Mathlib.Order.Basic

/-!
`while` loops that need not end, run on a budget: with a larger budget a loop that has ended ends with the
same result.
-/
namespace Dbos.Pg
variable {σ α β : Type}

/-- A turn ends the loop with a result, or goes on from a new state. A loop inside the turn gets what is
    left of the budget. -/
def loop (turn : Nat → σ → Option (α ⊕ σ)) : Nat → σ → Option α
  | 0,_ => none
  | fuel + 1,s =>
    match turn fuel s with
    | some (.inl a) => some a
    | some (.inr s') => loop turn fuel s'
    | none => none

/-- Some budget suffices. -/
def Ends (f : Nat → σ → Option α) (s : σ) (a : α) : Prop := ∃ fuel,f fuel s = some a

def Grows (f : Nat → σ → Option α) : Prop := ∀ fuel s a,f fuel s = some a → f (fuel + 1) s = some a

variable {f : Nat → σ → Option α} {turn : Nat → σ → Option (α ⊕ σ)} {s s' : σ} {a : α}

theorem Grows.le (grows : Grows f) {fuel more : Nat} (larger : fuel ≤ more) (ended : f fuel s = some a) : f more s = some a := by
  induction larger with
  | refl => exact ended
  | step _ ih => exact grows _ _ _ ih

theorem Ends.unique (grows : Grows f) {b : α} (first : Ends f s a) (second : Ends f s b) : a = b := by
  obtain ⟨n,first⟩ := first
  obtain ⟨m,second⟩ := second
  have left := grows.le (Nat.le_max_left n m) first
  have right := grows.le (Nat.le_max_right n m) second
  exact Option.some.inj (left.symm.trans right)

theorem loop_grows (grows : Grows turn) : Grows (loop turn) := by
  intro fuel
  induction fuel with
  | zero =>
    intro s a ended
    cases ended
  | succ fuel ih =>
    intro s a ended
    unfold loop at ended ⊢
    cases taken : turn fuel s with
    | none =>
      rw [taken] at ended
      cases ended
    | some result =>
      rw [taken] at ended
      rw [grows fuel s result taken]
      cases result with
      | inl b => exact ended
      | inr s' => exact ih s' a ended

/-- A turn without a loop of its own. -/
theorem grows_const (turn : σ → α) : Grows fun _ s => some (turn s) := fun _ _ _ ended => ended

theorem ends_done (last : Ends turn s (.inl a)) : Ends (loop turn) s a := by
  obtain ⟨fuel,last⟩ := last
  refine ⟨fuel + 1,?_⟩
  rw [loop,last]

theorem ends_next (grows : Grows turn) (next : Ends turn s (.inr s')) (rest : Ends (loop turn) s' a) : Ends (loop turn) s a := by
  obtain ⟨n,next⟩ := next
  obtain ⟨m,rest⟩ := rest
  refine ⟨max n m + 1,?_⟩
  rw [loop,grows.le (Nat.le_max_left n m) next]
  exact (loop_grows grows).le (Nat.le_max_right n m) rest

/-- Total correctness: each turn ends the loop as wanted, or keeps the invariant and goes down in a well-founded order. -/
theorem loop_ends_below (grows : Grows turn) {I : σ → Prop} {Q : α → Prop} {below : σ → σ → Prop} (founded : WellFounded below)
    (turns : ∀ s,I s → (∃ a,Ends turn s (.inl a) ∧ Q a) ∨ ∃ s',Ends turn s (.inr s') ∧ I s' ∧ below s' s)
    (start : I s) : ∃ a,Ends (loop turn) s a ∧ Q a := by
  induction s using founded.induction with
  | _ s ih =>
    rcases turns s start with ⟨a,last,wanted⟩ | ⟨s',next,kept,less⟩
    · exact ⟨a,ends_done last,wanted⟩
    · obtain ⟨a,rest,wanted⟩ := ih s' less kept
      exact ⟨a,ends_next grows next rest,wanted⟩

/-- Total correctness, with a measure that each turn decreases. -/
theorem loop_ends (grows : Grows turn) {I : σ → Prop} {Q : α → Prop} (measure : σ → Nat)
    (turns : ∀ s,I s → (∃ a,Ends turn s (.inl a) ∧ Q a) ∨ ∃ s',Ends turn s (.inr s') ∧ I s' ∧ measure s' < measure s)
    (start : I s) : ∃ a,Ends (loop turn) s a ∧ Q a :=
  loop_ends_below grows (InvImage.wf measure Nat.lt_wfRel.wf) turns start

/-- A result may be read in another way. -/
theorem loop_map {γ : Type} (g : α → γ) (turn : Nat → σ → Option (α ⊕ σ)) (fuel : Nat) (s : σ) :
    loop (fun fuel s => (turn fuel s).map (Sum.map g id)) fuel s = (loop turn fuel s).map g := by
  induction fuel generalizing s with
  | zero => rfl
  | succ fuel ih =>
    unfold loop
    rcases turn fuel s with _ | (a | s')
    · rfl
    · rfl
    · exact ih s'

/-- One call after another grows with its calls. -/
theorem grows_mapM (grows : Grows f) : Grows fun fuel (l : List σ) => l.mapM (f fuel) := by
  intro fuel l
  induction l with
  | nil => exact fun _ ended => ended
  | cons s l ih =>
    intro as ended
    simp only [List.mapM_cons,Option.pure_def,Option.bind_eq_bind,Option.bind_eq_some_iff,Option.some.injEq] at ended ⊢
    obtain ⟨b,here,bs,there,same⟩ := ended
    exact ⟨b,grows _ _ _ here,bs,ih bs there,same⟩

/-- One call after another, on one budget that suffices for all of them. -/
theorem mapM_ends (grows : Grows f) {Q : σ → α → Prop} (l : List σ) (each : ∀ s ∈ l,∃ a,Ends f s a ∧ Q s a) :
    ∃ fuel results,l.mapM (f fuel) = some results ∧ List.Forall₂ Q l results := by
  induction l with
  | nil => exact ⟨0,[],rfl,.nil⟩
  | cons s rest ih =>
    obtain ⟨a,⟨n,first⟩,wanted⟩ := each s List.mem_cons_self
    obtain ⟨m,results,others,all⟩ := ih fun s' member => each s' (List.mem_cons_of_mem _ member)
    have later : rest.mapM (f (max n m)) = some results := (grows_mapM grows).le (Nat.le_max_right n m) others
    refine ⟨max n m,a :: results,?_,.cons wanted all⟩
    rw [List.mapM_cons,grows.le (Nat.le_max_left n m) first,later]
    rfl

end Dbos.Pg
