import Dbos.MigrationTruth

/-!
When the recorded version goes backwards. `bumpMigrationVersion` writes whatever it is called
with: the UPDATE of a run that was overtaken puts the version back, and the INSERT of a run that
was overtaken after its UPDATE had found no row adds a second row.
-/
namespace Dbos.Migrations
open Dbos.Pg

def State.rows (s : State) : List Nat := s.table.getD []

/-- The version never decreases, and there is never a second row. -/
def NeverBack (L : List DBMigration) (createsTable : String → Bool) (s₀ : State) (events : List Event) : Prop :=
  ∀ first second rest s t,events = first ++ (second ++ rest) → Runs (step L createsTable) s₀ first s →
    Runs (step L createsTable) s second t → version s.table ≤ version t.table ∧ t.rows.length ≤ 1

/-- The run is not overtaken: its UPDATE finds no higher version, and its INSERT still finds no other row. -/
def InTurn (s : State) (event : Event) : Prop :=
  match event with
  | .statement number .ok => ∀ r ∈ s.runs[number]?,
    match r.phase with
    | .updating i => ∀ v ∈ s.rows,v ≤ i + 1
    | .inserting i => ∀ v ∈ s.rows,v = i + 1
    | _ => True
  | _ => True

section Step
variable {L : List DBMigration} {createsTable : String → Bool}

/-- Only a bump changes the rows. -/
theorem advance_rows {table table' : Option (List Nat)} {r r' : Run} {outcome : Outcome}
    (taken : r.advance L createsTable table outcome = some (table',r')) :
    table'.getD [] = table.getD [] ∨ outcome = .ok ∧
      ((∃ i v,r.phase = .updating i ∧ table = some [v] ∧ table' = some [i + 1]) ∨
        ∃ i rows,r.phase = .inserting i ∧ table = some rows ∧ i + 1 ∉ rows ∧ table' = some (rows ++ [i + 1])) := by
  cases advance_cases taken with
  | accepted _ _ _ same => exact .inl same
  | updated ok phase before => exact .inr ⟨ok,.inl ⟨_,_,phase,before,rfl⟩⟩
  | inserted ok phase before new => exact .inr ⟨ok,.inr ⟨_,_,phase,before,new,rfl⟩⟩
  | _ => exact .inl rfl

/-- The step does not put the version back, and leaves one row at most. -/
def Kept (L : List DBMigration) (createsTable : String → Bool) (s : State) (event : Event) : Prop :=
  ∀ s',step L createsTable s event = some s' → version s.table ≤ version s'.table ∧ s'.rows.length ≤ 1

theorem only_row {s : State} {v : Nat} (few : s.rows.length ≤ 1) (member : v ∈ s.rows) : s.table = some [v] := by
  cases there : s.table with
  | none => simp [State.rows,there] at member
  | some rows =>
    simp only [State.rows,there,Option.getD_some] at member few
    match rows,few,member with
    | [w],_,member => rw [List.mem_singleton.mp member]

/-- The UPDATE and the INSERT of a bump are all that matters. -/
theorem kept_of_inTurn {s : State} {event : Event} (few : s.rows.length ≤ 1) (turn : InTurn s event) : Kept L createsTable s event := by
  intro s' taken
  cases event with
  | start build isCockroach codes => cases taken; exact ⟨Nat.le_refl _,few⟩
  | crash number =>
    obtain ⟨r,_,rfl⟩ := step_crash taken
    exact ⟨Nat.le_refl _,few⟩
  | statement number outcome =>
    obtain ⟨r,table,r',found,advanced,rfl⟩ := step_statement taken
    rcases advance_rows advanced with same | ⟨rfl,⟨i,v,phase,before,rfl⟩ | ⟨i,rows,phase,before,new,rfl⟩⟩
    · simp only [version,State.rows,same]
      exact ⟨Nat.le_refl _,few⟩
    · have below := turn r found
      simp only [phase,State.rows,before] at below
      have : v ≤ i + 1 := below v List.mem_cons_self
      simp only [version,before,State.rows]
      exact ⟨by simpa using this,by simp⟩
    · have below := turn r found
      simp only [phase,State.rows,before] at below
      have none : rows = [] := by
        cases rows with
        | nil => rfl
        | cons v rest => exact absurd (below v List.mem_cons_self ▸ List.mem_cons_self) new
      subst none
      simp only [version,before,State.rows]
      exact ⟨by simp,by simp⟩

theorem inTurn_of_kept {s : State} {event : Event} (few : s.rows.length ≤ 1) (kept : Kept L createsTable s event) : InTurn s event := by
  cases event with
  | start build isCockroach codes => trivial
  | crash number => trivial
  | statement number outcome =>
    cases outcome with
    | error e => trivial
    | ok =>
      intro r found
      have found : s.runs[number]? = some r := found
      split
      · rename_i i phase
        intro v member
        have row := only_row few member
        have after := kept ⟨some [i + 1],s.runs.set number { r with phase := r.loop L (i + 1) },s.log ++ r.executed number .ok⟩
          (by simp [step,found,Run.advance,phase,row])
        simpa [version,row] using after.1
      · rename_i i phase
        intro v member
        have row := only_row few member
        by_contra other
        have after := kept ⟨some [v,i + 1],s.runs.set number { r with phase := r.loop L (i + 1) },s.log ++ r.executed number .ok⟩
          (by simp [step,found,Run.advance,phase,row,Ne.symm other])
        simp [State.rows] at after
      · trivial

end Step

/-- From any version and any list of migrations: the version never goes back, and no second row
    appears, exactly in the runs in which every bump comes in turn. -/
theorem neverBack_iff (L : List DBMigration) (createsTable : String → Bool) (s₀ : State) (few : s₀.rows.length ≤ 1) (events : List Event) :
    NeverBack L createsTable s₀ events ↔ Along (step L createsTable) InTurn s₀ events := by
  constructor
  · intro never
    refine along_iff.mpr fun first event rest t split run => ?_
    have here := never first [] (event :: rest) t t split run (runs_nil.mpr rfl)
    have kept : Kept L createsTable t event := fun t' taken =>
      never first [event] rest t t' split run (runs_cons.mpr ⟨t',taken,runs_nil.mpr rfl⟩)
    exact inTurn_of_kept here.2 kept
  · intro along first second rest s t split run onward
    rw [split] at along
    obtain ⟨early,later⟩ := along_append along
    have few' : s.rows.length ≤ 1 :=
      along_invariant (I := fun s => s.rows.length ≤ 1) (fun s event s' held turn taken => (kept_of_inTurn held turn s' taken).2) few early run
    refine along_invariant (I := fun t => version s.table ≤ version t.table ∧ t.rows.length ≤ 1) ?_ ⟨Nat.le_refl _,few'⟩
      (along_append (later s run)).1 onward
    rintro u event u' ⟨le,held⟩ turn taken
    obtain ⟨up,held'⟩ := kept_of_inTurn held turn u' taken
    exact ⟨Nat.le_trans le up,held'⟩

/-- One run after the other. -/
def secondRun : List Event := freshRun ++ [Event.start 2 false DEFAULT_IGNORABLE_CODES,.statement 1 .ok,.statement 1 .ok]

theorem neverBack_secondRun : NeverBack threeMigrations createsVersions init secondRun ↔
    Along (step threeMigrations createsVersions) InTurn init secondRun :=
  neverBack_iff threeMigrations createsVersions init (by decide) secondRun

/-- Two runs read version 1. One records versions 2 and 3; then the other one gets to its second migration. -/
def overtakenUpdate : List Event × List Event :=
  ([.start 3 false DEFAULT_IGNORABLE_CODES,.start 3 false DEFAULT_IGNORABLE_CODES,.statement 0 .ok,.statement 1 .ok,.statement 0 .ok,
      .statement 1 .ok,.statement 0 .ok,.statement 0 .ok,.statement 0 .ok,.statement 0 .ok,.statement 0 .ok,.statement 0 .ok],
    [.statement 1 (.error (.pgErrorLike (some "42P07") none)),.statement 1 .ok,.statement 1 .ok])

/-- Two runs create the table; the first has found no row to update when the second records
    versions 2 and 3, and then inserts its row. -/
def overtakenInsert : List Event :=
  [.start 3 false DEFAULT_IGNORABLE_CODES,.start 3 false DEFAULT_IGNORABLE_CODES,.statement 0 .ok,.statement 1 .ok,.statement 0 .ok,
    .statement 1 .ok,.statement 0 .ok,.statement 1 .ok,.statement 0 .ok,.statement 1 (.error (.pgErrorLike (some "42P07") none)),
    .statement 0 .ok,.statement 0 .ok,.statement 1 .ok,.statement 1 .ok,.statement 1 .ok,.statement 1 .ok,.statement 1 .ok,
    .statement 1 .ok,.statement 0 .ok]

theorem overtaken_goes_back :
    ¬ (∀ (L : List DBMigration) (createsTable : String → Bool) (s₀ : State) (events : List Event),s₀.rows.length ≤ 1 →
      NeverBack L createsTable s₀ events) ∧
    ∃ s,Runs (step threeMigrations createsVersions) init overtakenInsert s ∧ s.rows = [3,2] := by
  constructor
  · intro claim
    have first : (overtakenUpdate.1.foldlM (step threeMigrations createsVersions) { table := some [1] }).map (fun s => version s.table) =
        some 3 := by decide +kernel
    have whole : ((overtakenUpdate.1 ++ overtakenUpdate.2).foldlM (step threeMigrations createsVersions) { table := some [1] }).map
        (fun s => version s.table) = some 2 := by decide +kernel
    obtain ⟨s,reached,three⟩ := Option.map_eq_some_iff.mp first
    obtain ⟨t,run,two⟩ := Option.map_eq_some_iff.mp whole
    obtain ⟨s',reached',onward⟩ := runs_append.mp run
    obtain rfl : s = s' := Option.some.inj (reached.symm.trans reached')
    have le := (claim threeMigrations createsVersions _ (overtakenUpdate.1 ++ overtakenUpdate.2) (by decide) overtakenUpdate.1
      overtakenUpdate.2 [] s t (by simp) reached onward).1
    omega
  · have ran : (overtakenInsert.foldlM (step threeMigrations createsVersions) init).map State.rows = some [3,2] := by decide +kernel
    exact Option.map_eq_some_iff.mp ran

end Dbos.Migrations
