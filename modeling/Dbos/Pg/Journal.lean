import Dbos.Pg.Run

/-!
Programs whose steps are journaled: the outcome of a step is recorded after the step has had its effect on a world, and after a crash the
program starts again with the outcomes that are recorded. So a step may have its effect any number of times, and is recorded once. The
programs run one after the other, and the world may also change by itself.
-/
namespace Dbos.Pg

/-- Programs `κ` with steps `α` that have outcomes `ο`, and results `ρ`, over worlds `ω`. -/
structure Journaling (κ α ο ρ ω : Type) where
  begin : κ → ω → Option ω
  next : κ → List ο → α ⊕ ρ
  effect : α → ω → ο → ω → Bool
  outside : ω → ω → Bool

namespace Journaling
variable {κ α ο ρ ω : Type}

/-- A program under way: `replayed` of its recorded outcomes were read since the last start, and a step has had the effect that is
    `performed` and not recorded yet. -/
structure Running (κ ο : Type) where
  program : κ
  journal : List ο := []
  replayed : Nat := 0
  performed : Option ο := none

structure State (κ ο ω : Type) where
  world : ω
  running : Option (Running κ ο) := none

inductive Event (κ ο ω : Type)
  | begin (k : κ)
  | replay
  | perform (o : ο) (w : ω)
  | record
  | finish
  | crash
  | outside (w : ω)

def step (j : Journaling κ α ο ρ ω) (s : State κ ο ω) : Event κ ο ω → Option (State κ ο ω)
  | .begin k =>
    match s.running with
    | none => (j.begin k s.world).map fun w => ⟨w,some { program := k }⟩
    | some _ => none
  | .replay =>
    match s.running with
    | some r =>
      if r.replayed < r.journal.length then some { s with running := some { r with replayed := r.replayed + 1 } } else none
    | none => none
  | .perform o w =>
    match s.running with
    | some r =>
      match j.next r.program r.journal with
      | .inl a =>
        if r.replayed = r.journal.length ∧ r.performed.isNone ∧ j.effect a s.world o w then
          some ⟨w,some { r with performed := some o }⟩
        else none
      | .inr _ => none
    | none => none
  | .record =>
    match s.running with
    | some r =>
      match r.performed with
      | some o => some { s with running := some { r with journal := r.journal ++ [o],replayed := r.replayed + 1,performed := none } }
      | none => none
    | none => none
  | .finish =>
    match s.running with
    | some r =>
      match j.next r.program r.journal with
      | .inr _ => if r.replayed = r.journal.length then some { s with running := none } else none
      | .inl _ => none
    | none => none
  | .crash => some { s with running := s.running.map fun r => { r with replayed := 0,performed := none } }
  | .outside w => if j.outside s.world w then some { s with world := w } else none

/-- An invariant by parts: `idle` of the world when nothing runs, `ready` when a step comes next, and `pending` when a step has had its
    effect. The events meet the condition `C`. -/
structure Keeps (j : Journaling κ α ο ρ ω) (C : State κ ο ω → Event κ ο ω → Prop) (idle : ω → Prop)
    (ready : κ → List ο → ω → Prop) (pending : κ → List ο → ο → ω → Prop) : Prop where
  begins : ∀ k w w', idle w → j.begin k w = some w' → ready k [] w'
  performs : ∀ s r o w' a, C s (.perform o w') → s.running = some r → ready r.program r.journal s.world →
    j.next r.program r.journal = .inl a → j.effect a s.world o w' = true → pending r.program r.journal o w'
  forgets : ∀ k os o w, pending k os o w → ready k os w
  records : ∀ k os o w, pending k os o w → ready k (os ++ [o]) w
  finishes : ∀ k os w r, ready k os w → j.next k os = .inr r → idle w
  elsewhere : ∀ s w', C s (.outside w') → j.outside s.world w' = true →
    (s.running = none → idle s.world → idle w') ∧
    ∀ r, s.running = some r → (r.performed = none → ready r.program r.journal s.world → ready r.program r.journal w') ∧
      ∀ o, r.performed = some o → pending r.program r.journal o s.world → pending r.program r.journal o w'

/-- What the parts of an invariant say of a state. -/
def Holds (idle : ω → Prop) (ready : κ → List ο → ω → Prop) (pending : κ → List ο → ο → ω → Prop) (s : State κ ο ω) : Prop :=
  match s.running with
  | none => idle s.world
  | some r =>
    match r.performed with
    | none => ready r.program r.journal s.world
    | some o => pending r.program r.journal o s.world

variable {j : Journaling κ α ο ρ ω} {C : State κ ο ω → Event κ ο ω → Prop} {idle : ω → Prop} {ready : κ → List ο → ω → Prop}
  {pending : κ → List ο → ο → ω → Prop}

theorem Keeps.step (keeps : j.Keeps C idle ready pending) {s s' : State κ ο ω} {e : Event κ ο ω} (holds : Holds idle ready pending s)
    (meets : C s e) (taken : j.step s e = some s') : Holds idle ready pending s' := by
  obtain ⟨w,running⟩ := s
  cases e with
  | begin k =>
    cases running with
    | some r => cases taken
    | none =>
      obtain ⟨w',begins,rfl⟩ := Option.map_eq_some_iff.mp taken
      exact keeps.begins k w w' holds begins
  | replay =>
    cases running with
    | none => cases taken
    | some r =>
      simp only [Journaling.step] at taken
      split at taken <;> cases taken
      exact holds
  | perform o w' =>
    cases running with
    | none => cases taken
    | some r =>
      simp only [Journaling.step] at taken
      split at taken
      · rename_i a next
        split at taken <;> cases taken
        rename_i allowed
        have unperformed := Option.isNone_iff_eq_none.mp allowed.2.1
        simp only [Holds,unperformed] at holds
        exact keeps.performs ⟨w,some r⟩ r o w' a meets rfl holds next allowed.2.2
      · cases taken
  | record =>
    cases running with
    | none => cases taken
    | some r =>
      simp only [Journaling.step] at taken
      split at taken <;> cases taken
      rename_i o performed
      simp only [Holds,performed] at holds
      exact keeps.records _ _ o w holds
  | finish =>
    cases running with
    | none => cases taken
    | some r =>
      simp only [Journaling.step] at taken
      split at taken
      · rename_i result next
        split at taken <;> cases taken
        cases performed : r.performed with
        | none =>
          simp only [Holds,performed] at holds
          exact keeps.finishes _ _ w result holds next
        | some o =>
          simp only [Holds,performed] at holds
          exact keeps.finishes _ _ w result (keeps.forgets _ _ o w holds) next
      · cases taken
  | crash =>
    cases taken
    cases running with
    | none => exact holds
    | some r =>
      cases performed : r.performed with
      | none =>
        simp only [Holds,performed] at holds
        exact holds
      | some o =>
        simp only [Holds,performed] at holds
        exact keeps.forgets _ _ o w holds
  | outside w' =>
    simp only [Journaling.step] at taken
    split at taken <;> cases taken
    rename_i changes
    obtain ⟨resting,working⟩ := keeps.elsewhere ⟨w,running⟩ w' meets changes
    cases running with
    | none => exact resting rfl holds
    | some r =>
      obtain ⟨waits,done⟩ := working r rfl
      cases performed : r.performed with
      | none =>
        simp only [Holds,performed] at holds ⊢
        exact waits performed holds
      | some o =>
        simp only [Holds,performed] at holds ⊢
        exact done o performed holds

/-- The invariant holds of every state of a run whose events meet the condition. -/
theorem Keeps.runs (keeps : j.Keeps C idle ready pending) {w : ω} (start : idle w) {events : List (Event κ ο ω)} {s : State κ ο ω}
    (along : Along j.step C ⟨w,none⟩ events) (run : Runs j.step ⟨w,none⟩ events s) : Holds idle ready pending s :=
  along_invariant (I := Holds idle ready pending) (fun _ _ _ holds meets taken => keeps.step holds meets taken)
    (show Holds idle ready pending ⟨w,none⟩ from start) along run

end Journaling
end Dbos.Pg
