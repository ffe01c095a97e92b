import Dbos.Migrations

/-!
The recorded version is truthful. Whatever a run skips it has read to be applied, whatever it
does not skip it applies itself, and it records a version only then; so the versions in the
table and in the runs stand for statements in the log, in any interleaving.
-/
namespace Dbos.Migrations
open Dbos.Pg

section Log
variable (L : List DBMigration)

/-- Some run has executed the statement, or found it applied. -/
def Applied (log : List Executed) (i k : Nat) : Prop := ∃ e ∈ log,e.migration = i ∧ e.statement = k ∧ e.accepted = true

/-- The run itself has. -/
def AppliedBy (number : Nat) (log : List Executed) (i k : Nat) : Prop :=
  ∃ e ∈ log,e.run = number ∧ e.migration = i ∧ e.statement = k ∧ e.accepted = true

/-- All statements of the migrations up to version `v`. -/
def AppliedUpTo (log : List Executed) (v : Nat) : Prop :=
  ∀ i < v,∀ m,L[i]? = some m → ∀ k < m.pg.length,Applied log i k

/-- All statements of the migrations from version `current` up to `i`, by the run. -/
def AppliedFrom (number : Nat) (log : List Executed) (current i : Nat) : Prop :=
  ∀ j,current ≤ j → j < i → ∀ m,L[j]? = some m → ∀ k < m.pg.length,AppliedBy number log j k

variable {L} {log log' : List Executed}

theorem appliedBy_applied {number i k : Nat} (own : AppliedBy number log i k) : Applied log i k := by
  obtain ⟨e,listed,_,rest⟩ := own
  exact ⟨e,listed,rest⟩

theorem appliedUpTo_mono (grows : log ⊆ log') {v w : Nat} (le : w ≤ v) (applied : AppliedUpTo L log v) : AppliedUpTo L log' w := by
  intro i below m found k bound
  obtain ⟨e,listed,rest⟩ := applied i (by omega) m found k bound
  exact ⟨e,grows listed,rest⟩

theorem appliedFrom_mono (grows : log ⊆ log') {number current i : Nat} (own : AppliedFrom L number log current i) :
    AppliedFrom L number log' current i := by
  intro j from' below m found k bound
  obtain ⟨e,listed,rest⟩ := own j from' below m found k bound
  exact ⟨e,grows listed,rest⟩

/-- What a run does not skip is applied because the run has applied it. -/
theorem appliedUpTo_of_from {number current i : Nat} (known : AppliedUpTo L log current) (own : AppliedFrom L number log current i) :
    AppliedUpTo L log i := by
  intro j below m found k bound
  by_cases skipped : j < current
  · exact known j skipped m found k bound
  · exact appliedBy_applied (own j (by omega) below m found k bound)

theorem appliedUpTo_zero : AppliedUpTo L log 0 := fun i below => absurd below (Nat.not_lt_zero i)

theorem appliedFrom_next {number current i : Nat} (own : AppliedFrom L number log current i)
    (here : current ≤ i → ∀ m,L[i]? = some m → ∀ k < m.pg.length,AppliedBy number log i k) : AppliedFrom L number log current (i + 1) := by
  intro j from' below m found k bound
  by_cases last : j = i
  · subst last; exact here from' m found k bound
  · exact own j from' (by omega) m found k bound

end Log

/-! ### The version -/

/-- The version read is that of some row, or 0. -/
theorem version_mem (table : Option (List Nat)) : version table = 0 ∨ version table ∈ table.getD [] := by
  unfold version
  cases table.getD [] with
  | nil => exact .inl rfl
  | cons first rest =>
    have top : (first :: rest).max? = some ((first :: rest).foldl max 0) := by
      rw [List.max?_cons',List.foldl_cons,Nat.zero_max]
    exact .inr (List.max?_mem top)

/-! ### The invariant -/

/-- The versions of the rows stand for applied migrations. -/
def Truthful (L : List DBMigration) (s : State) : Prop := ∀ rows,s.table = some rows → ∀ v ∈ rows,AppliedUpTo L s.log v

/-- What a run has applied when it is at a statement. -/
def AtPhase (L : List DBMigration) (log : List Executed) (number : Nat) (r : Run) : Phase → Prop
  | .reading => True
  | .selecting => True
  | .threw => True
  | .cleaning i => AppliedFrom L number log r.current i
  | .running i k => AppliedFrom L number log r.current i ∧ ∀ k' < k,AppliedBy number log i k'
  | .bumping i => AppliedFrom L number log r.current (i + 1)
  | .updating i => AppliedFrom L number log r.current (i + 1)
  | .inserting i => AppliedFrom L number log r.current (i + 1)
  | .returned => AppliedFrom L number log r.current r.build

/-- Before its look-up, a run has read nothing. -/
def Phase.early : Phase → Bool
  | .reading => true
  | .selecting => true
  | _ => false

structure Honest (L : List DBMigration) (log : List Executed) (number : Nat) (r : Run) : Prop where
  known : r.phase.early = false → r.phase ≠ .threw → AppliedUpTo L log r.current
  own : AtPhase L log number r r.phase

theorem honest_mono {L : List DBMigration} {log log' : List Executed} (grows : log ⊆ log') {number : Nat} {r : Run}
    (honest : Honest L log number r) : Honest L log' number r := by
  refine ⟨fun late alive => appliedUpTo_mono grows (Nat.le_refl _) (honest.known late alive),?_⟩
  have own := honest.own
  revert own
  generalize r.phase = phase
  cases phase with
  | running i k =>
    rintro ⟨before,here⟩
    refine ⟨appliedFrom_mono grows before,fun k' below => ?_⟩
    obtain ⟨e,listed,rest⟩ := here k' below
    exact ⟨e,grows listed,rest⟩
  | reading => exact id
  | selecting => exact id
  | threw => exact id
  | cleaning i => exact appliedFrom_mono grows
  | bumping i => exact appliedFrom_mono grows
  | updating i => exact appliedFrom_mono grows
  | inserting i => exact appliedFrom_mono grows
  | returned => exact appliedFrom_mono grows

theorem honest_throw (L : List DBMigration) (log : List Executed) (number : Nat) (r : Run) : Honest L log number r.throw :=
  ⟨fun _ alive => absurd rfl alive,trivial⟩

section Loop
variable {L : List DBMigration} {log : List Executed} {number : Nat}

/-- The loop from index `i` on stops where everything before is applied. -/
theorem enter_atPhase (r : Run) (rest : List DBMigration) (i : Nat) (remaining : rest = (r.migrations L).drop i)
    (own : AppliedFrom L number log r.current i) :
    AtPhase L log number r (enter r.isCockroach r.current i rest) ∧ (enter r.isCockroach r.current i rest).early = false := by
  induction rest generalizing i with
  | nil =>
    refine ⟨fun j from' below m found k bound => ?_,rfl⟩
    have short : (r.migrations L).length ≤ i := List.drop_eq_nil_iff.mp remaining.symm
    have inside : j < L.length := (List.getElem?_eq_some_iff.mp found).1
    rw [Run.migrations,List.length_take] at short
    exact own j from' (by omega) m found k bound
  | cons m rest ih =>
    have bound : i < (r.migrations L).length := by
      by_contra over'
      rw [List.drop_eq_nil_of_le (by omega)] at remaining
      cases remaining
    rw [List.drop_eq_getElem_cons bound] at remaining
    obtain ⟨here,later⟩ := List.cons.inj remaining
    have listed : L[i]? = some m := by
      rw [Run.migrations,List.length_take] at bound
      rw [here]
      simp only [Run.migrations,List.getElem_take]
      exact List.getElem?_eq_getElem (by omega)
    unfold enter
    by_cases skip : i + 1 ≤ r.current
    · rw [if_pos skip]
      exact ih (i + 1) later (appliedFrom_next own fun from' => absurd from' (by omega))
    · rw [if_neg skip]
      by_cases empty : m.pg.isEmpty
      · rw [if_pos empty]
        refine ⟨appliedFrom_next own fun _ m' found k below => ?_,rfl⟩
        rw [listed] at found
        cases found
        rw [List.isEmpty_iff.mp empty] at below
        exact absurd below (Nat.not_lt_zero k)
      · rw [if_neg empty]
        split
        · exact ⟨own,rfl⟩
        · exact ⟨⟨own,fun k' below => absurd below (Nat.not_lt_zero k')⟩,rfl⟩

theorem loop_honest (r : Run) (i : Nat) (known : AppliedUpTo L log r.current) (own : AppliedFrom L number log r.current i) :
    Honest L log number { r with phase := r.loop L i } :=
  ⟨fun _ _ => known,(enter_atPhase r _ i rfl own).1⟩

theorem start_honest (r : Run) {current : Nat} (known : AppliedUpTo L log current) : Honest L log number (r.start L current) := by
  unfold Run.start
  dsimp only
  split
  · rename_i ahead
    refine ⟨fun _ _ => known,fun j from' below m found k bound => ?_⟩
    have inside : j < L.length := (List.getElem?_eq_some_iff.mp found).1
    have below : j < r.build := below
    have from' : current ≤ j := from'
    simp only [Run.migrations,List.length_take] at ahead
    omega
  · exact loop_honest { r with current := current } 0 known fun j _ below => absurd below (Nat.not_lt_zero j)

end Loop
/-! ### One statement -/

section Step
variable {L : List DBMigration} {createsTable : String → Bool} {log : List Executed} {number : Nat} {r : Run}

theorem migrations_get {i : Nat} {m : DBMigration} (found : (r.migrations L)[i]? = some m) : L[i]? = some m := by
  rw [Run.migrations,List.getElem?_take] at found
  split at found
  · exact found
  · cases found

/-- The statement was accepted: the run goes on to the next one, or to the version. -/
theorem after_honest {i k : Nat} {m : DBMigration} (phase : r.phase = .running i k) (found : (r.migrations L)[i]? = some m)
    (honest : Honest L log number r) {outcome : Outcome}
    (accepted : (Executed.mk number i k r.ignoreErrorCodes outcome).accepted = true) :
    Honest L (log ++ r.executed number outcome) number (r.after m i k) := by
  have entry : r.executed number outcome = [⟨number,i,k,r.ignoreErrorCodes,outcome⟩] := by simp [Run.executed,phase]
  have grown := honest_mono (List.subset_append_left log (r.executed number outcome)) honest
  obtain ⟨known,own⟩ := grown
  rw [phase] at known own
  obtain ⟨before,here⟩ := own
  have now : AppliedBy number (log ++ r.executed number outcome) i k :=
    ⟨_,by rw [entry]; exact List.mem_append_right _ List.mem_cons_self,rfl,rfl,rfl,accepted⟩
  have upTo : ∀ k' < k + 1,AppliedBy number (log ++ r.executed number outcome) i k' := by
    intro k' below
    by_cases last : k' = k
    · subst last; exact now
    · exact here k' (by omega)
  refine ⟨fun _ _ => known rfl (by simp),?_⟩
  unfold Run.after
  dsimp only
  split
  · exact ⟨before,upTo⟩
  · refine appliedFrom_next before fun _ m' found' k' below => upTo k' ?_
    rw [migrations_get found] at found'
    cases found'
    omega

theorem created_getD (statement : String) (table : Option (List Nat)) : (created createsTable statement table).getD [] = table.getD [] := by
  unfold created
  split <;> rfl

/-- What a statement of a run can do, with the table and the run after it. -/
inductive Advances (L : List DBMigration) (table : Option (List Nat)) (r : Run) (outcome : Outcome) : Option (List Nat) → Run → Prop
  -- a statement of a migration
  | accepted {i k : Nat} {m : DBMigration} {table' : Option (List Nat)} : r.phase = .running i k → (r.migrations L)[i]? = some m →
      (∀ number,(Executed.mk number i k r.ignoreErrorCodes outcome).accepted = true) → table'.getD [] = table.getD [] →
      Advances L table r outcome table' (r.after m i k)
  | failed : Advances L table r outcome table r.throw
  | looked : r.phase = .reading → Advances L table r outcome table { r with phase := .selecting }
  | started : r.phase.early = true → Advances L table r outcome table (r.start L (version table))
  | cleaned {i : Nat} : r.phase = .cleaning i → Advances L table r outcome table { r with phase := .running i 0 }
  | bumped {i : Nat} : r.phase = .bumping i → Advances L table r outcome table { r with phase := .updating i }
  | unrecorded {i : Nat} : r.phase = .bumping i → Advances L table r outcome table { r with phase := r.loop L (i + 1) }
  | missing {i : Nat} : r.phase = .updating i → Advances L table r outcome table { r with phase := .inserting i }
  | updated {i v : Nat} : outcome = .ok → r.phase = .updating i → table = some [v] →
      Advances L table r outcome (some [i + 1]) { r with phase := r.loop L (i + 1) }
  | inserted {i : Nat} {rows : List Nat} : outcome = .ok → r.phase = .inserting i → table = some rows → i + 1 ∉ rows →
      Advances L table r outcome (some (rows ++ [i + 1])) { r with phase := r.loop L (i + 1) }

/-- The statement of a migration. -/
theorem running_cases {table table' : Option (List Nat)} {r' : Run} {outcome : Outcome} {i k : Nat} (phase : r.phase = .running i k)
    (taken : r.advance L createsTable table outcome = some (table',r')) : Advances L table r outcome table' r' := by
  simp only [Run.advance,phase] at taken
  split at taken
  · cases taken
  · rename_i m found
    split at taken
    · cases taken
    · cases taken
      exact .accepted phase found (fun _ => rfl) (created_getD _ _)
    · split at taken
      · cases taken
        exact .failed
      · split at taken
        · rename_i _ ignored
          cases taken
          exact .accepted phase found (fun _ => ignored) rfl
        · cases taken
          exact .failed

/-- A statement of the runner fails. -/
theorem advance_error {table table' : Option (List Nat)} {r' : Run} {e : Thrown} (other : ∀ i k,r.phase ≠ .running i k)
    (taken : r.advance L createsTable table (.error e) = some (table',r')) : table' = table ∧ r' = r.throw := by
  cases phase : r.phase with
  | running i k => exact absurd phase (other i k)
  | returned => simp [Run.advance,phase] at taken
  | threw => simp [Run.advance,phase] at taken
  | _ =>
    simp only [Run.advance,phase,Option.some.injEq,Prod.mk.injEq] at taken
    exact ⟨taken.1.symm,taken.2.symm⟩

/-- A statement of the runner succeeds. -/
theorem advance_ok {table table' : Option (List Nat)} {r' : Run} (other : ∀ i k,r.phase ≠ .running i k)
    (taken : r.advance L createsTable table .ok = some (table',r')) : Advances L table r .ok table' r' := by
  cases phase : r.phase with
  | running i k => exact absurd phase (other i k)
  | returned => simp [Run.advance,phase] at taken
  | threw => simp [Run.advance,phase] at taken
  | reading =>
    simp only [Run.advance,phase,Option.some.injEq,Prod.mk.injEq] at taken
    obtain ⟨rfl,rfl⟩ := taken
    cases table with
    | none => exact .started (by rw [phase]; rfl)
    | some rows => exact .looked phase
  | selecting =>
    simp only [Run.advance,phase,Option.some.injEq,Prod.mk.injEq] at taken
    obtain ⟨rfl,rfl⟩ := taken
    exact .started (by rw [phase]; rfl)
  | cleaning i =>
    simp only [Run.advance,phase,Option.some.injEq,Prod.mk.injEq] at taken
    obtain ⟨rfl,rfl⟩ := taken
    exact .cleaned phase
  | bumping i =>
    simp only [Run.advance,phase,Option.some.injEq,Prod.mk.injEq] at taken
    obtain ⟨rfl,rfl⟩ := taken
    split
    · exact .bumped phase
    · exact .unrecorded phase
  | updating i =>
    simp only [Run.advance,phase] at taken
    split at taken
    · cases taken
      exact .missing phase
    · cases taken
      exact .updated rfl phase rfl
    · cases taken
      exact .failed
  | inserting i =>
    simp only [Run.advance,phase] at taken
    split at taken
    · split at taken
      · cases taken
        exact .failed
      · rename_i new
        cases taken
        exact .inserted rfl phase rfl new
    · cases taken
      exact .failed

theorem advance_cases {table table' : Option (List Nat)} {r' : Run} {outcome : Outcome}
    (taken : r.advance L createsTable table outcome = some (table',r')) : Advances L table r outcome table' r' := by
  by_cases running : ∃ i k,r.phase = .running i k
  · obtain ⟨i,k,phase⟩ := running
    exact running_cases phase taken
  · have other : ∀ i k,r.phase ≠ .running i k := fun i k phase => running ⟨i,k,phase⟩
    cases outcome with
    | ok => exact advance_ok other taken
    | error e =>
      obtain ⟨rfl,rfl⟩ := advance_error other taken
      exact .failed

/-- A version is only recorded when it is applied, and the run goes on, or ends, where it may. -/
theorem advance_honest {table table' : Option (List Nat)} {r' : Run} {outcome : Outcome}
    (truthful : ∀ v ∈ table.getD [],AppliedUpTo L log v) (honest : Honest L log number r)
    (taken : r.advance L createsTable table outcome = some (table',r')) :
    (∀ v ∈ table'.getD [],AppliedUpTo L (log ++ r.executed number outcome) v) ∧ Honest L (log ++ r.executed number outcome) number r' := by
  have grows := List.subset_append_left log (r.executed number outcome)
  have truthful' : ∀ v ∈ table.getD [],AppliedUpTo L (log ++ r.executed number outcome) v := fun v member =>
    appliedUpTo_mono grows (Nat.le_refl v) (truthful v member)
  obtain ⟨known,own⟩ := honest_mono grows honest
  cases advance_cases taken with
  | accepted phase found accepted same => exact ⟨by rw [same]; exact truthful',after_honest phase found honest (accepted number)⟩
  | failed => exact ⟨truthful',honest_throw ..⟩
  | looked phase => exact ⟨truthful',fun late => absurd late (by simp [Phase.early]),trivial⟩
  | started early =>
    refine ⟨truthful',start_honest r ?_⟩
    rcases version_mem table with zero | member
    · rw [zero]; exact appliedUpTo_zero
    · exact truthful' _ member
  | cleaned phase =>
    rw [phase] at known own
    exact ⟨truthful',fun _ _ => known rfl (by simp),own,fun k' below => absurd below (Nat.not_lt_zero k')⟩
  | bumped phase =>
    rw [phase] at known own
    exact ⟨truthful',fun _ _ => known rfl (by simp),own⟩
  | unrecorded phase =>
    rw [phase] at known own
    exact ⟨truthful',loop_honest r _ (known rfl (by simp)) own⟩
  | missing phase =>
    rw [phase] at known own
    exact ⟨truthful',fun _ _ => known rfl (by simp),own⟩
  | updated _ phase _ =>
    rw [phase] at known own
    refine ⟨fun v member => ?_,loop_honest r _ (known rfl (by simp)) own⟩
    rw [List.mem_singleton.mp member]
    exact appliedUpTo_of_from (known rfl (by simp)) own
  | inserted _ phase before _ =>
    rw [phase] at known own
    refine ⟨fun v member => ?_,loop_honest r _ (known rfl (by simp)) own⟩
    rcases List.mem_append.mp member with old | new
    · exact truthful' v (by rw [before]; exact old)
    · rw [List.mem_singleton.mp new]
      exact appliedUpTo_of_from (known rfl (by simp)) own

end Step

/-! ### Runs -/

variable {L : List DBMigration} {createsTable : String → Bool}

/-- The table and all runs are honest. -/
structure AllHonest (L : List DBMigration) (s : State) : Prop where
  truthful : Truthful L s
  honest : ∀ (number : Nat) r,s.runs[number]? = some r → Honest L s.log number r

theorem step_statement {s s' : State} {number : Nat} {outcome : Outcome} (taken : step L createsTable s (.statement number outcome) = some s') :
    ∃ r table r',s.runs[number]? = some r ∧ r.advance L createsTable s.table outcome = some (table,r') ∧
      s' = ⟨table,s.runs.set number r',s.log ++ r.executed number outcome⟩ := by
  simp only [step] at taken
  split at taken
  · cases taken
  · rename_i r found
    split at taken
    · cases taken
    · rename_i table r' advanced
      exact ⟨r,table,r',found,advanced,(Option.some.inj taken).symm⟩

theorem step_crash {s s' : State} {number : Nat} (taken : step L createsTable s (.crash number) = some s') :
    ∃ r,s.runs[number]? = some r ∧ s' = { s with runs := s.runs.set number r.throw } := by
  simp only [step] at taken
  split at taken
  · cases taken
  · rename_i r found
    exact ⟨r,found,(Option.some.inj taken).symm⟩

theorem truthful_getD {s : State} : Truthful L s ↔ ∀ v ∈ s.table.getD [],AppliedUpTo L s.log v := by
  unfold Truthful
  cases s.table <;> simp

theorem step_honest (s : State) (event : Event) (s' : State) (all : AllHonest L s) (taken : step L createsTable s event = some s') :
    AllHonest L s' := by
  obtain ⟨truthful,honest⟩ := all
  cases event with
  | start build isCockroach codes =>
    cases taken
    refine ⟨truthful,fun number r listed => ?_⟩
    rcases party_append listed with old | ⟨_,rfl⟩
    · exact honest number r old
    · exact ⟨fun late => absurd late (by simp [Phase.early]),trivial⟩
  | statement number outcome =>
    obtain ⟨r,table,r',found,advanced,rfl⟩ := step_statement taken
    obtain ⟨truthful',honest'⟩ := advance_honest (truthful_getD.mp truthful) (honest number r found) advanced
    refine ⟨truthful_getD.mpr truthful',fun other party listed => ?_⟩
    rcases party_set_cases found listed with ⟨rfl,rfl⟩ | ⟨_,old⟩
    · exact honest'
    · exact honest_mono (List.subset_append_left _ _) (honest other party old)
  | crash number =>
    obtain ⟨r,found,rfl⟩ := step_crash taken
    refine ⟨truthful,fun other party listed => ?_⟩
    rcases party_set_cases found listed with ⟨rfl,rfl⟩ | ⟨_,old⟩
    · exact honest_throw ..
    · exact honest other party old

theorem honest_init : AllHonest L init :=
  ⟨fun rows there => (by cases there),fun number r listed => (by cases listed)⟩

/-- The run is looking for the version, and this is what is recorded. -/
def Reads (number current : Nat) (s : State) : Prop :=
  version s.table = current ∧ ∃ r,s.runs[number]? = some r ∧ r.phase.early = true

/-- A run gets its `current` once, from the table. -/
theorem advance_current {table table' : Option (List Nat)} {r r' : Run} {outcome : Outcome}
    (taken : r.advance L createsTable table outcome = some (table',r')) (late : r'.phase.early = false) (alive : r'.phase ≠ .threw) :
    (r.phase.early = true ∧ r'.current = version table) ∨ (r.phase.early = false ∧ r.phase ≠ .threw ∧ r'.current = r.current) := by
  cases advance_cases taken with
  | failed => exact absurd rfl alive
  | looked phase => simp [Phase.early] at late
  | started early => exact .inl ⟨early,rfl⟩
  | accepted phase _ _ _ => exact .inr ⟨by rw [phase]; rfl,by simp [phase],rfl⟩
  | cleaned phase => exact .inr ⟨by rw [phase]; rfl,by simp [phase],rfl⟩
  | bumped phase => exact .inr ⟨by rw [phase]; rfl,by simp [phase],rfl⟩
  | unrecorded phase => exact .inr ⟨by rw [phase]; rfl,by simp [phase],rfl⟩
  | missing phase => exact .inr ⟨by rw [phase]; rfl,by simp [phase],rfl⟩
  | updated _ phase _ => exact .inr ⟨by rw [phase]; rfl,by simp [phase],rfl⟩
  | inserted _ phase _ _ => exact .inr ⟨by rw [phase]; rfl,by simp [phase],rfl⟩

theorem reads_history {events : List Event} {s : State} (run : Runs (step L createsTable) init events s) :
    ∀ (number : Nat) r,s.runs[number]? = some r → r.phase.early = false → r.phase ≠ .threw →
      Passed (step L createsTable) init (Reads number r.current) events := by
  refine runs_history (I := fun events s => ∀ (number : Nat) r,s.runs[number]? = some r → r.phase.early = false → r.phase ≠ .threw →
    Passed (step L createsTable) init (Reads number r.current) events) (fun number r listed => (by cases listed)) ?_ run
  intro events s event s' run read taken number party listed late alive
  cases event with
  | start build isCockroach codes =>
    cases taken
    rcases party_append listed with old | ⟨_,rfl⟩
    · exact passed_append (read number party old late alive) _
    · exact absurd late (by simp [Phase.early])
  | statement i outcome =>
    obtain ⟨r,table,r',found,advanced,rfl⟩ := step_statement taken
    rcases party_set_cases found listed with ⟨rfl,rfl⟩ | ⟨_,old⟩
    · rcases advance_current advanced late alive with ⟨early,same⟩ | ⟨late',alive',same⟩
      · rw [same]
        exact passed_append (passed_here run ⟨rfl,r,found,early⟩) _
      · rw [same]
        exact passed_append (read number r found late' alive') _
    · exact passed_append (read number party old late alive) _
  | crash i =>
    obtain ⟨r,found,rfl⟩ := step_crash taken
    rcases party_set_cases found listed with ⟨rfl,rfl⟩ | ⟨_,old⟩
    · exact absurd rfl alive
    · exact passed_append (read number party old late alive) _

/-- Whatever version is recorded, all statements of the migrations up to it were executed, or failed as
    applied before; and a run that has returned has executed, or found applied, every statement of every
    migration of its build above the version that was recorded when it read it. -/
theorem version_truthful (L : List DBMigration) (createsTable : String → Bool) {events : List Event} {s : State}
    (run : Runs (step L createsTable) init events s) :
    (∀ rows,s.table = some rows → ∀ v ∈ rows,AppliedUpTo L s.log v) ∧
      ∀ (number : Nat) r,s.runs[number]? = some r → r.phase = .returned →
        Passed (step L createsTable) init (Reads number r.current) events ∧ AppliedFrom L number s.log r.current r.build := by
  obtain ⟨truthful,honest⟩ := runs_invariant step_honest honest_init run
  refine ⟨truthful,fun number r listed returned => ⟨?_,?_⟩⟩
  · exact reads_history run number r listed (by rw [returned]; rfl) (by rw [returned]; simp)
  · have own := (honest number r listed).own
    rw [returned] at own
    exact own

/-- A schema, the table of the versions, and a table that is there already. -/
def threeMigrations : List DBMigration :=
  [{ pg := ["create schema"] },{ pg := ["create table dbos_migrations"] },{ pg := ["create table workflow_status"] }]

def createsVersions (statement : String) : Bool := statement = "create table dbos_migrations"

def freshRun : List Event :=
  [.start 3 false DEFAULT_IGNORABLE_CODES,.statement 0 .ok,.statement 0 .ok,.statement 0 .ok,.statement 0 .ok,.statement 0 .ok,
    .statement 0 .ok,.statement 0 .ok,.statement 0 (.error (.pgErrorLike (some "42P07") none)),.statement 0 .ok,.statement 0 .ok]

theorem version_truthful_freshRun :
    ∃ s : State,s.table = some [3] ∧ (∀ rows,s.table = some rows → ∀ v ∈ rows,AppliedUpTo threeMigrations s.log v) ∧
      ∀ (number : Nat) (r : Run),s.runs[number]? = some r → r.phase = .returned →
        Passed (step threeMigrations createsVersions) init (Reads number r.current) freshRun ∧
          AppliedFrom threeMigrations number s.log r.current r.build := by
  have ran : (freshRun.foldlM (step threeMigrations createsVersions) init).map State.table = some (some [3]) := by decide +kernel
  obtain ⟨s,run,ends⟩ := Option.map_eq_some_iff.mp ran
  exact ⟨s,ends,version_truthful threeMigrations createsVersions run⟩

end Dbos.Migrations
