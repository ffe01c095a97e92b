import Mathlib.Data.List.Basic

/-!
Runs of a system given by a partial step function: `step s a` is the state after the
event `a`, or `none` when `a` cannot happen in `s`.
-/
namespace Dbos.Pg
variable {σ α : Type} {step : σ → α → Option σ}

/-- The run `events` leads from `s` to `t`. -/
def Runs (step : σ → α → Option σ) (s : σ) (events : List α) (t : σ) : Prop := events.foldlM step s = some t

instance [DecidableEq σ] (s : σ) (events : List α) (t : σ) : Decidable (Runs step s events t) :=
  inferInstanceAs (Decidable (_ = _))

theorem runs_nil {s t : σ} : Runs step s [] t ↔ s = t := by simp [Runs]

theorem runs_cons {s t : σ} {a : α} {rest : List α} :
    Runs step s (a :: rest) t ↔ ∃ s', step s a = some s' ∧ Runs step s' rest t := by
  simp [Runs,Option.bind_eq_some_iff]

theorem runs_append {s t : σ} {first rest : List α} :
    Runs step s (first ++ rest) t ↔ ∃ s', Runs step s first s' ∧ Runs step s' rest t := by
  simp [Runs,List.foldlM_append,Option.bind_eq_some_iff]

/-- What holds at the start and is kept by every step holds at the end. -/
theorem runs_invariant {I : σ → Prop} (keeps : ∀ s a s', I s → step s a = some s' → I s') {s t : σ}
    {events : List α} (start : I s) (run : Runs step s events t) : I t := by
  induction events generalizing s with
  | nil => exact runs_nil.mp run ▸ start
  | cons a rest ih =>
    obtain ⟨s',taken,onward⟩ := runs_cons.mp run
    exact ih (keeps s a s' start taken) onward

/-- Every step of the run meets the condition `C` in the state it starts from. -/
def Along (step : σ → α → Option σ) (C : σ → α → Prop) : σ → List α → Prop
  | _,[] => True
  | s,a :: rest => C s a ∧ ∀ s' ∈ step s a, Along step C s' rest

instance decidableAlong (C : σ → α → Prop) [∀ s a, Decidable (C s a)] :
    ∀ (events : List α) (s : σ), Decidable (Along step C s events)
  | [],_ => isTrue trivial
  | a :: rest,s =>
    match taken : step s a with
    | none => decidable_of_iff (C s a) (by simp [Along,taken])
    | some s' =>
      have := decidableAlong C rest s'
      decidable_of_iff (C s a ∧ Along step C s' rest) (by simp [Along,taken])

/-- The condition holds along a run when it holds at every event of it. -/
theorem along_iff {C : σ → α → Prop} {s : σ} {events : List α} :
    Along step C s events ↔ ∀ first a rest t, events = first ++ a :: rest → Runs step s first t → C t a := by
  induction events generalizing s with
  | nil => simp [Along]
  | cons b more ih =>
    constructor
    · rintro ⟨here,onward⟩ first a rest t split run
      cases first with
      | nil =>
        cases split
        exact runs_nil.mp run ▸ here
      | cons c first =>
        cases split
        obtain ⟨s',taken,run⟩ := runs_cons.mp run
        exact ih.mp (onward s' taken) first a rest t rfl run
    · intro all
      refine ⟨all [] b more s rfl (runs_nil.mpr rfl),?_⟩
      intro s' taken
      refine ih.mpr ?_
      intro first a rest t split run
      exact all (b :: first) a rest t (by rw [split]; rfl) (runs_cons.mpr ⟨s',taken,run⟩)

theorem along_append {C : σ → α → Prop} {s : σ} {first rest : List α} (along : Along step C s (first ++ rest)) :
    Along step C s first ∧ ∀ t, Runs step s first t → Along step C t rest := by
  rw [along_iff] at along
  refine ⟨along_iff.mpr ?_,?_⟩
  · intro early a more t split run
    exact along early a (more ++ rest) t (by simp [split]) run
  · intro t reached
    refine along_iff.mpr ?_
    intro later a more t' split run
    exact along (first ++ later) a more t' (by simp [split]) (runs_append.mpr ⟨t,reached,run⟩)

theorem along_imp {C D : σ → α → Prop} (imp : ∀ s a, C s a → D s a) {s : σ} {events : List α} (along : Along step C s events) :
    Along step D s events := by
  rw [along_iff] at along ⊢
  intro first a rest t split run
  exact imp t a (along first a rest t split run)

/-- As `runs_invariant`, for runs whose steps all meet a condition. -/
theorem along_invariant {I : σ → Prop} {C : σ → α → Prop}
    (keeps : ∀ s a s', I s → C s a → step s a = some s' → I s') {s t : σ} {events : List α}
    (start : I s) (along : Along step C s events) (run : Runs step s events t) : I t := by
  induction events generalizing s with
  | nil => exact runs_nil.mp run ▸ start
  | cons a rest ih =>
    obtain ⟨s',taken,onward⟩ := runs_cons.mp run
    exact ih (keeps s a s' start along.1 taken) (along.2 s' taken) onward

/-! ### What a run has passed -/

/-- As `runs_invariant`, for what may speak of the events so far. -/
theorem runs_history {I : List α → σ → Prop} {s : σ} (start : I [] s)
    (keeps : ∀ events t a t', Runs step s events t → I events t → step t a = some t' → I (events ++ [a]) t')
    {events : List α} {t : σ} (run : Runs step s events t) : I events t := by
  have onward : ∀ rest first u, Runs step s first u → I first u → Runs step u rest t → I (first ++ rest) t := by
    intro rest
    induction rest with
    | nil =>
      intro first u _ held ends
      rw [List.append_nil]
      exact runs_nil.mp ends ▸ held
    | cons a rest ih =>
      intro first u reached held further
      obtain ⟨v,taken,last⟩ := runs_cons.mp further
      have next : Runs step s (first ++ [a]) v := runs_append.mpr ⟨u,reached,runs_cons.mpr ⟨v,taken,runs_nil.mpr rfl⟩⟩
      have held' := ih (first ++ [a]) v next (keeps first u a v reached held taken) last
      rwa [List.append_assoc] at held'
  exact onward events [] s (runs_nil.mpr rfl) start run

/-- Some state of the run has the property. -/
def Passed (step : σ → α → Option σ) (s : σ) (P : σ → Prop) (events : List α) : Prop :=
  ∃ first rest t, events = first ++ rest ∧ Runs step s first t ∧ P t

theorem passed_here {s t : σ} {P : σ → Prop} {events : List α} (run : Runs step s events t) (here : P t) : Passed step s P events :=
  ⟨events,[],t,(List.append_nil events).symm,run,here⟩

theorem passed_append {s : σ} {P : σ → Prop} {events : List α} (passed : Passed step s P events) (more : List α) :
    Passed step s P (events ++ more) := by
  obtain ⟨first,rest,t,split,run,held⟩ := passed
  exact ⟨first,rest ++ more,t,by rw [split,List.append_assoc],run,held⟩

/-! ### Simulation -/

/-- A forward simulation: each step of a system is a run of another one with the same labels,
    so each of its runs is. -/
theorem runs_simulated {τ β ℓ : Type} {step' : τ → β → Option τ} {label : α → Option ℓ} {label' : β → Option ℓ}
    {R : σ → τ → Prop}
    (simulates : ∀ s a s' t, R s t → step s a = some s' →
      ∃ events' t', Runs step' t events' t' ∧ events'.filterMap label' = (label a).toList ∧ R s' t')
    {s s' : σ} {t : τ} {events : List α} (related : R s t) (run : Runs step s events s') :
    ∃ events' t', Runs step' t events' t' ∧ events'.filterMap label' = events.filterMap label ∧ R s' t' := by
  induction events generalizing s t with
  | nil =>
    cases runs_nil.mp run
    exact ⟨[],t,runs_nil.mpr rfl,rfl,related⟩
  | cons a rest ih =>
    obtain ⟨u,taken,onward⟩ := runs_cons.mp run
    obtain ⟨first,v,reached,same,related'⟩ := simulates s a u t related taken
    obtain ⟨last,t',reached',same',related''⟩ := ih related' onward
    refine ⟨first ++ last,t',runs_append.mpr ⟨v,reached,reached'⟩,?_,related''⟩
    rw [List.filterMap_append,same,same',List.filterMap_cons]
    cases label a <;> rfl

/-! ### Numbered parties -/

theorem party_set {parties : List σ} {i : Nat} {old : σ} (found : parties[i]? = some old) (new : σ) (j : Nat) :
    (parties.set i new)[j]? = if j = i then some new else parties[j]? := by
  have bound : i < parties.length := (List.getElem?_eq_some_iff.mp found).1
  rw [List.getElem?_set]
  by_cases here : j = i
  · subst here
    rw [if_pos rfl,if_pos bound,if_pos rfl]
  · rw [if_neg (Ne.symm here),if_neg here]

theorem party_set_cases {parties : List σ} {i j : Nat} {old new party : σ} (found : parties[i]? = some old)
    (listed : (parties.set i new)[j]? = some party) : (j = i ∧ party = new) ∨ (j ≠ i ∧ parties[j]? = some party) := by
  rw [party_set found] at listed
  by_cases here : j = i
  · rw [if_pos here] at listed
    exact .inl ⟨here,(Option.some.inj listed).symm⟩
  · rw [if_neg here] at listed
    exact .inr ⟨here,listed⟩

theorem party_concat (parties : List σ) (new : σ) (j : Nat) :
    (parties ++ [new])[j]? = if j = parties.length then some new else parties[j]? := by
  by_cases last : j = parties.length
  · simp [last]
  · rw [if_neg last,List.getElem?_append]
    by_cases lower : j < parties.length
    · rw [if_pos lower]
    · rw [if_neg lower,List.getElem?_eq_none (by simp; omega),List.getElem?_eq_none (by omega)]

theorem party_concat_other {parties : List σ} {new kind : σ} (becomes : new ≠ kind) (j : Nat) :
    (parties ++ [new])[j]? = some kind ↔ parties[j]? = some kind := by
  rw [party_concat]
  by_cases last : j = parties.length
  · simp [last,becomes]
  · rw [if_neg last]

theorem party_append {parties : List σ} {new party : σ} {j : Nat} (found : (parties ++ [new])[j]? = some party) :
    parties[j]? = some party ∨ (j = parties.length ∧ party = new) := by
  rcases Nat.lt_trichotomy j parties.length with lower | equal | higher
  · rw [List.getElem?_append_left lower] at found
    exact .inl found
  · subst equal
    simp only [List.getElem?_concat_length,Option.some.injEq] at found
    exact .inr ⟨rfl,found.symm⟩
  · rw [List.getElem?_eq_none (by simp; omega)] at found
    cases found

/-- A party is replaced that neither was nor is of a kind: the parties of that kind are the same. -/
theorem party_set_other {parties : List σ} {i : Nat} {old new kind : σ} (found : parties[i]? = some old) (was : old ≠ kind)
    (becomes : new ≠ kind) (j : Nat) : (parties.set i new)[j]? = some kind ↔ parties[j]? = some kind := by
  rw [party_set found]
  by_cases here : j = i
  · subst here
    simp [found,was,becomes]
  · rw [if_neg here]

theorem party_count {parties : List σ} {i : Nat} {old : σ} (found : parties[i]? = some old) (new : σ) (p : σ → Bool) :
    (parties.set i new).countP p + (if p old then 1 else 0) = parties.countP p + if p new then 1 else 0 := by
  obtain ⟨bound,rfl⟩ := List.getElem?_eq_some_iff.mp found
  have least : (if p parties[i] then 1 else 0) ≤ parties.countP p := by
    by_cases counted : p parties[i]
    · rw [if_pos counted]
      exact List.countP_pos_iff.mpr ⟨_,List.getElem_mem bound,counted⟩
    · rw [if_neg counted]
      exact Nat.zero_le _
  rw [List.countP_set bound]
  omega

/-- One party is replaced: the new one and the others have the property. -/
theorem parties_set {P : σ → Prop} {parties : List σ} {i : Nat} {old new : σ} (found : parties[i]? = some old) (here : P new)
    (there : ∀ (j : Nat) party, j ≠ i → parties[j]? = some party → P party) (j : Nat) (party : σ)
    (listed : (parties.set i new)[j]? = some party) : P party := by
  rcases party_set_cases found listed with ⟨_,rfl⟩ | ⟨differ,listed⟩
  · exact here
  · exact there j party differ listed

theorem all_set {P : σ → Prop} {parties : List σ} {new : σ} (all : ∀ party ∈ parties,P party) (here : P new) (i : Nat) :
    ∀ party ∈ parties.set i new,P party := by
  intro party member
  rcases List.mem_or_eq_of_mem_set member with old | rfl
  · exact all party old
  · exact here

/-- Any two parties are related, as they were, when the new one is related to all others. -/
theorem parties_apart {R : σ → σ → Prop} (symm : ∀ a b, R a b → R b a) {parties : List σ} {i : Nat} {old new : σ}
    (found : parties[i]? = some old)
    (apart : ∀ (j k : Nat) first second, j ≠ k → parties[j]? = some first → parties[k]? = some second → R first second)
    (free : ∀ (j : Nat) party, j ≠ i → parties[j]? = some party → R new party) (j k : Nat) (first second : σ) (differ : j ≠ k)
    (listed : (parties.set i new)[j]? = some first) (listed' : (parties.set i new)[k]? = some second) : R first second := by
  rcases party_set_cases found listed with ⟨rfl,rfl⟩ | ⟨other,there⟩
  · rcases party_set_cases found listed' with ⟨rfl,_⟩ | ⟨other,there'⟩
    · exact absurd rfl differ
    · exact free k second other there'
  · rcases party_set_cases found listed' with ⟨_,rfl⟩ | ⟨_,there'⟩
    · exact symm _ _ (free j first other there)
    · exact apart j k first second differ there there'

end Dbos.Pg
