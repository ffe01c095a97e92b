import Dbos.BulkFork

/-!
Forks from where workflows have failed: `forkFromFailure` of `src/system_database.ts`. One statement looks for the step that each fork is
to start from, and `bulkForkWorkflows` makes the forks in a later transaction; what the workflows record in between is there by then.
-/
namespace Dbos.ForkFromFailure
open Dbos.Pg Dbos.Schema Dbos.Status Dbos.Communication Dbos.Fork Dbos.BulkFork

/-! ### The call -/

/-- `fork` are the options that `bulkForkWorkflows` reads; `fromStep` is an `int` of the database. -/
structure ForkFromFailureOptions where
  fork : ForkOptions
  fromLastFailure : Bool := false
  fromLastStep : Bool := false
  fromStep : Option Int := none
  fromStepName : Option String := none

def ForkFromFailureOptions.modes (options : ForkFromFailureOptions) : Nat :=
  ([options.fromLastFailure,options.fromLastStep,options.fromStep.isSome,options.fromStepName.isSome].filter id).length

/-- `MAX(function_id)` of the checkpoints of the workflow that the condition admits. -/
def lastStep (outputs : OperationOutputs) (workflowID : String) (hit : OperationOutput → Bool) : Option Nat :=
  ((outputs.keys fun k row => k.1 = workflowID ∧ hit row).map Prod.snd).max?

def failed (row : OperationOutput) : Bool := row.error.isSome

/-- `start_step` of the workflow in the answer of the query. -/
def startStep (outputs : OperationOutputs) (options : ForkFromFailureOptions) (workflowID : String) : Option Nat :=
  if options.fromLastFailure then (lastStep outputs workflowID failed).or (lastStep outputs workflowID fun _ => true)
  else if options.fromLastStep then lastStep outputs workflowID fun _ => true
  else lastStep outputs workflowID fun row => some row.function_name = options.fromStepName

def noStep (options : ForkFromFailureOptions) (workflowID : String) : DbosError :=
  match options.fromStepName with
  | some name => .Error ("Workflow " ++ workflowID ++ " has no step named '" ++ name ++ "'")
  | none => .Error ("Workflow " ++ workflowID ++ " has no steps")

def startSteps (outputs : OperationOutputs) (options : ForkFromFailureOptions) (workflowIDs : List String) : Except DbosError (List Int) :=
  match options.fromStep with
  | some step => .ok (List.replicate workflowIDs.length step)
  | none => workflowIDs.mapM fun wid =>
    match startStep outputs options wid with
    | some step => .ok step
    | none => .error (noStep options wid)

/-- The query reads the first database and the forks are made in the second one; `forkedIDs` are random. -/
def forkFromFailure (looked db : Database) (workflowIDs forkedIDs : List String) (options : ForkFromFailureOptions) (now : Int)
    (ranked : List RankedEvent) : Option (Except DbosError (List String) × Database) :=
  if options.modes ≠ 1 then
    some (.error (.Error "Exactly one of fromLastFailure, fromLastStep, fromStep, or fromStepName must be specified"),db)
  else
    match startSteps looked.outputs options workflowIDs with
    | .error e => some (.error e,db)
    | .ok steps => bulkForkWorkflows db workflowIDs forkedIDs steps options.fork [] now ranked

/-! ### Start steps -/

section
variable {outputs : OperationOutputs} {options : ForkFromFailureOptions} {w : String} {hit : OperationOutput → Bool}

/-- The last step of the workflow that the condition admits. -/
def Last (outputs : OperationOutputs) (w : String) (hit : OperationOutput → Bool) (n : Nat) : Prop :=
  (∃ row, outputs.get? (w,n) = some row ∧ hit row = true) ∧ ∀ m row, outputs.get? (w,m) = some row → hit row = true → m ≤ n

/-- Where a fork of the workflow is to start. -/
def StartsAt (outputs : OperationOutputs) (options : ForkFromFailureOptions) (w : String) (n : Int) : Prop :=
  match options.fromStep with
  | some step => n = step
  | none => ∃ k : Nat, n = k ∧
    if options.fromLastFailure then
      Last outputs w failed k ∨ (∀ m row, outputs.get? (w,m) = some row → failed row = false) ∧ Last outputs w (fun _ => true) k
    else if options.fromLastStep then Last outputs w (fun _ => true) k
    else Last outputs w (fun row => some row.function_name = options.fromStepName) k

theorem mem_steps {n : Nat} : n ∈ (outputs.keys fun k row => k.1 = w ∧ hit row).map Prod.snd ↔
    ∃ row, outputs.get? (w,n) = some row ∧ hit row = true := by
  simp only [List.mem_map,Table.mem_keys]
  constructor
  · rintro ⟨⟨w',n'⟩,⟨row,found,holds⟩,rfl⟩
    obtain ⟨rfl,admits⟩ := of_decide_eq_true holds
    exact ⟨row,found,admits⟩
  · rintro ⟨row,found,admits⟩
    exact ⟨(w,n),⟨row,found,decide_eq_true ⟨rfl,admits⟩⟩,rfl⟩

theorem lastStep_some {n : Nat} : lastStep outputs w hit = some n ↔ Last outputs w hit n := by
  rw [lastStep,List.max?_eq_some_iff]
  constructor
  · rintro ⟨member,greatest⟩
    exact ⟨mem_steps.mp member,fun m row found admits => greatest m (mem_steps.mpr ⟨row,found,admits⟩)⟩
  · rintro ⟨here,greatest⟩
    refine ⟨mem_steps.mpr here,?_⟩
    intro m member
    obtain ⟨row,found,admits⟩ := mem_steps.mp member
    exact greatest m row found admits

theorem lastStep_none : lastStep outputs w hit = none ↔ ∀ m row, outputs.get? (w,m) = some row → hit row = false := by
  rw [lastStep,List.max?_eq_none_iff,List.eq_nil_iff_forall_not_mem]
  constructor
  · intro absent m row found
    by_contra admits
    exact absent m (mem_steps.mpr ⟨row,found,Bool.not_eq_false _ ▸ admits⟩)
  · intro never m member
    obtain ⟨row,found,admits⟩ := mem_steps.mp member
    rw [never m row found] at admits
    cases admits

theorem startStep_some {k : Nat} (unset : options.fromStep = none) :
    startStep outputs options w = some k ↔ StartsAt outputs options w k := by
  unfold startStep StartsAt
  rw [unset]
  simp only [Int.ofNat_inj,exists_eq_left']
  split
  · rw [Option.or_eq_some_iff,lastStep_some,lastStep_none,lastStep_some]
  · split
    · exact lastStep_some
    · exact lastStep_some

theorem startSteps_cases (outputs : OperationOutputs) (options : ForkFromFailureOptions) (ws : List String) :
    (∃ steps, startSteps outputs options ws = .ok steps ∧ List.Forall₂ (StartsAt outputs options) ws steps) ∨
      ∃ e, startSteps outputs options ws = .error e ∧ ∃ w ∈ ws,∀ n, ¬ StartsAt outputs options w n := by
  cases set : options.fromStep with
  | some step =>
    refine .inl ⟨List.replicate ws.length step,by rw [startSteps,set],?_⟩
    induction ws with
    | nil => exact .nil
    | cons w ws ih => exact .cons (by rw [StartsAt,set]) ih
  | none =>
    simp only [startSteps,set]
    induction ws with
    | nil => exact .inl ⟨[],rfl,.nil⟩
    | cons w ws ih =>
      rw [List.mapM_cons]
      cases here : startStep outputs options w with
      | some step =>
        have starts := (startStep_some set).mp here
        rcases ih with ⟨steps,rest,all⟩ | ⟨e,rest,w',member,never⟩
        · rw [rest]
          exact .inl ⟨step :: steps,rfl,.cons starts all⟩
        · rw [rest]
          exact .inr ⟨e,rfl,w',List.mem_cons_of_mem _ member,never⟩
      | none =>
        refine .inr ⟨noStep options w,rfl,w,List.mem_cons_self,?_⟩
        intro n starts
        obtain ⟨k,rfl⟩ : ∃ k : Nat, n = k := by
          rw [StartsAt,set] at starts
          exact ⟨starts.choose,starts.choose_spec.1⟩
        cases here.symm.trans ((startStep_some set).mpr starts)

end

/-! ### The forks -/

section
variable {looked db : Database} {pairs : List (String × String)} {options : ForkFromFailureOptions} {now : Int}

/-- The fork `f` of the workflow `w` from the step `n`. -/
structure Forked (looked db db' : Database) (options : ForkFromFailureOptions) (w f : String) (n : Int) : Prop where
  starts : StartsAt looked.outputs options w n
  row : ∃ ws now, db.statuses.get? w = some ws ∧ db'.statuses.get? f = some (forkedRow w ws options.fork now)
  outputs : ∀ k, db'.outputs.get? (f,k) = (db.outputs.get? (w,k)).filter fun _ => below n k
  streams : ∀ k, db'.streams.get? (f,k) = (db.streams.get? (w,k)).filter fun row => below n row.function_id
  history : ∀ k, db'.workflow_events_history.get? (f,k) = (db.workflow_events_history.get? (w,k)).filter fun _ => below n k.1

/-- Each workflow has a start step and is there when it is forked. -/
def Possible (looked db : Database) (options : ForkFromFailureOptions) (pairs : List (String × String)) : Prop :=
  options.modes = 1 ∧ ∀ p ∈ pairs,(∃ n, StartsAt looked.outputs options p.1 n) ∧ (db.statuses.get? p.1).isSome = true

theorem mappings_of {steps : List Int} (starts : List.Forall₂ (StartsAt looked.outputs options) (pairs.map Prod.fst) steps) :
    ∃ ms : List ForkMapping, ms.map (fun m => (m.source,m.target)) = pairs ∧ ms.map Mapping.bound = steps ∧
      ∀ m ∈ ms,StartsAt looked.outputs options m.source m.bound := by
  induction pairs generalizing steps with
  | nil =>
    cases starts
    exact ⟨[],rfl,rfl,nofun⟩
  | cons p pairs ih =>
    cases starts with
    | cons here rest =>
      rename_i step steps
      obtain ⟨ms,same,bounds,all⟩ := ih rest
      refine ⟨⟨p.1,p.2,step⟩ :: ms,?_,?_,?_⟩
      · rw [List.map_cons,same]
      · rw [List.map_cons,bounds]
      · intro m member
        rcases List.mem_cons.mp member with rfl | later
        · exact here
        · exact all m later

theorem replaceChild_none (row : OperationOutput) : replaceChild [] row = row := by
  obtain ⟨_,_,_,child,_,_,_⟩ := row
  cases child <;> rfl

/-- What a copy leaves under the key of a fork. -/
theorem copyAt_fork {κ ρ : Type} {t : Table (String × κ) ρ} [DecidableEq κ] {hit : Int → κ → ρ → Bool} {set : ρ → ρ}
    {ms : List ForkMapping} (distinct : (ms.map Mapping.target).Nodup) {m : ForkMapping} (member : m ∈ ms) (same : ∀ r, set r = r) (k : κ) :
    copyAt t hit set ms (m.target,k) = (t.get? (m.source,k)).filter (hit m.bound k) := by
  have identity : set = id := funext same
  rw [copyAt,find?_target distinct member,identity]
  exact Option.map_id_apply

theorem forked_of_copies {db' : Database} {ms : List ForkMapping} (copies : Copies db ms options.fork [] db')
    (distinct : (ms.map Mapping.target).Nodup) {m : ForkMapping} (member : m ∈ ms)
    (starts : StartsAt looked.outputs options m.source m.bound) : Forked looked db db' options m.source m.target m.bound where
  starts := starts
  row := copies.forks m member
  outputs k := (copies.outputs _).trans (copyAt_fork distinct member replaceChild_none k)
  streams k := (copies.streams _).trans (copyAt_fork distinct member (fun _ => rfl) k)
  history k := (copies.history _).trans (copyAt_fork distinct member (fun _ => rfl) k)

/-- The forks of a call that returns, or nothing. -/
def Outcome (looked db : Database) (pairs : List (String × String)) (options : ForkFromFailureOptions)
    (out : Except DbosError (List String) × Database) : Prop :=
  (Possible looked db options pairs → ∃ db', out = (.ok (pairs.map Prod.snd),db') ∧
    (∀ p ∈ pairs,∃ n, Forked looked db db' options p.1 p.2 n) ∧
    ∀ w k, w ∉ pairs.map Prod.snd → db'.outputs.get? (w,k) = db.outputs.get? (w,k)) ∧
  (¬ Possible looked db options pairs → ∃ e, out = (.error e,db))

theorem outcome_refused {e : DbosError} (not : ¬ Possible looked db options pairs) : Outcome looked db pairs options (.error e,db) :=
  ⟨fun possible => absurd possible not,fun _ => ⟨e,rfl⟩⟩

/-- A call for new forks has an answer, and with each answer it does what it is to do. -/
theorem forkFromFailure_spec (distinct : (pairs.map Prod.snd).Nodup) (unowned : ∀ p ∈ pairs,¬ Owns db p.2) :
    (∃ ranked out, forkFromFailure looked db (pairs.map Prod.fst) (pairs.map Prod.snd) options now ranked = some out) ∧
    ∀ ranked out, forkFromFailure looked db (pairs.map Prod.fst) (pairs.map Prod.snd) options now ranked = some out →
      Outcome looked db pairs options out := by
  unfold forkFromFailure
  by_cases mode : options.modes = 1
  swap
  · simp only [ne_eq,mode,not_false_eq_true,if_true]
    refine ⟨⟨[],_,rfl⟩,?_⟩
    rintro ranked out ⟨⟩
    exact outcome_refused fun possible => mode possible.1
  simp only [ne_eq,mode,not_true_eq_false,if_false]
  rcases startSteps_cases looked.outputs options (pairs.map Prod.fst) with ⟨steps,found,starts⟩ | ⟨e,none_,w,member,never⟩
  swap
  · rw [none_]
    refine ⟨⟨[],_,rfl⟩,?_⟩
    rintro ranked out ⟨⟩
    refine outcome_refused fun possible => ?_
    obtain ⟨p,listed,rfl⟩ := List.mem_map.mp member
    obtain ⟨n,starts⟩ := (possible.2 p listed).1
    exact never n starts
  rw [found]
  obtain ⟨ms,rfl,rfl,all⟩ := mappings_of starts
  simp only [List.map_map] at distinct unowned ⊢
  change (ms.map Mapping.target).Nodup at distinct
  change (∃ ranked out, bulkForkWorkflows db (ms.map Mapping.source) (ms.map Mapping.target) (ms.map Mapping.bound) options.fork [] now
    ranked = some out) ∧ ∀ ranked out, bulkForkWorkflows db (ms.map Mapping.source) (ms.map Mapping.target) (ms.map Mapping.bound)
    options.fork [] now ranked = some out → _
  have fresh : Fresh ms (Owns db) := ⟨distinct,fun m member => unowned _ (List.mem_map_of_mem member)⟩
  by_cases exist : ∀ m ∈ ms,(db.statuses.get? m.source).isSome = true
  · obtain ⟨answered,spec⟩ := bulkFork_spec options.fork [] now fresh exist
    refine ⟨answered,?_⟩
    intro ranked out called
    obtain ⟨db',rfl,copies,_⟩ := spec ranked out called
    refine ⟨fun _ => ⟨db',by rw [List.map_map]; rfl,?_,?_⟩,?_⟩
    · intro p listed
      obtain ⟨m,member,rfl⟩ := List.mem_map.mp listed
      exact ⟨m.bound,forked_of_copies copies distinct member (all m member)⟩
    · intro w k other
      rw [List.map_map] at other
      exact (copies.outputs _).trans (copyAt_other other)
    · refine fun not => absurd ⟨mode,?_⟩ not
      intro p listed
      obtain ⟨m,member,rfl⟩ := List.mem_map.mp listed
      exact ⟨⟨m.bound,all m member⟩,exist m member⟩
  · obtain ⟨m,member,missing⟩ : ∃ m ∈ ms,db.statuses.get? m.source = none := by
      simpa [Option.not_isSome_iff_eq_none] using exist
    have fails : ∀ ranked, ∃ e, bulkForkWorkflows db (ms.map Mapping.source) (ms.map Mapping.target) (ms.map Mapping.bound) options.fork []
        now ranked = some (.error e,db) := fun ranked => bulkFork_missing (List.mem_map_of_mem member) missing
    refine ⟨⟨[],_,(fails []).choose_spec⟩,?_⟩
    intro ranked out called
    obtain ⟨e,failed⟩ := fails ranked
    cases failed.symm.trans called
    refine outcome_refused fun possible => ?_
    have there := (possible.2 (m.source,m.target) (List.mem_map_of_mem member)).2
    rw [missing] at there
    cases there

/-- A workflow that was seen to fail: its fork has everything that was recorded before the last failure, and not the failure. -/
def Resumes (looked db' : Database) (w f : String) : Prop :=
  ∀ k row, looked.outputs.get? (w,k) = some row → failed row = true →
    ∃ last row', k ≤ last ∧ looked.outputs.get? (w,last) = some row' ∧ failed row' = true ∧
      (∀ j, last ≤ j → db'.outputs.get? (f,j) = none) ∧ ∀ j r, j < last → looked.outputs.get? (w,j) = some r → db'.outputs.get? (f,j) = some r

theorem Forked.resumes {db' : Database} {w f : String} {n : Int} (forked : Forked looked db db' options w f n)
    (mode : options.fromStep = none) (fromLastFailure : options.fromLastFailure = true)
    (grown : ∀ key row, looked.outputs.get? key = some row → db.outputs.get? key = some row) : Resumes looked db' w f := by
  intro k row found fails
  have starts := forked.starts
  simp only [StartsAt,mode,fromLastFailure,if_true] at starts
  obtain ⟨last,rfl,⟨⟨row',here,fails'⟩,greatest⟩ | ⟨never,_⟩⟩ := starts
  · refine ⟨last,row',greatest k row found fails,here,fails',?_,?_⟩
    · intro j later
      rw [forked.outputs,Option.filter_eq_none_iff]
      intro _ _
      simpa [below] using later
    · intro j r earlier before
      rw [forked.outputs,grown _ _ before]
      exact if_pos (by simpa [below] using earlier)
  · rw [never k row found] at fails
    cases fails

/-- Forks from failures are made all or none, each from the step that its mode asks for as the workflows were seen, whatever has been
    recorded since; from the last failure they run again what has failed, and nothing before it, if what was recorded then still is. -/
theorem forks_from_failure (distinct : (pairs.map Prod.snd).Nodup) (unowned : ∀ p ∈ pairs,¬ Owns db p.2) :
    (∃ ranked out, forkFromFailure looked db (pairs.map Prod.fst) (pairs.map Prod.snd) options now ranked = some out) ∧
    ∀ ranked out, forkFromFailure looked db (pairs.map Prod.fst) (pairs.map Prod.snd) options now ranked = some out →
      Outcome looked db pairs options out ∧
      ∀ ids, out.1 = .ok ids → options.fromLastFailure = true →
        (∀ key row, looked.outputs.get? key = some row → db.outputs.get? key = some row) →
        ∀ p ∈ pairs,Resumes looked out.2 p.1 p.2 := by
  obtain ⟨answered,spec⟩ := @forkFromFailure_spec looked db pairs options now distinct unowned
  refine ⟨answered,?_⟩
  intro ranked out called
  have outcome := spec ranked out called
  refine ⟨outcome,?_⟩
  intro ids ok fromLastFailure grown p listed
  by_cases possible : Possible looked db options pairs
  · obtain ⟨db',rfl,forks,_⟩ := outcome.1 possible
    obtain ⟨n,forked⟩ := forks p listed
    refine forked.resumes ?_ fromLastFailure grown
    have mode := possible.1
    cases set : options.fromStep with
    | none => rfl
    | some step =>
      rw [ForkFromFailureOptions.modes,fromLastFailure,set] at mode
      cases lastStep : options.fromLastStep <;> cases named : options.fromStepName <;> rw [lastStep,named] at mode <;> cases mode
  · obtain ⟨e,rfl⟩ := outcome.2 possible
    cases ok

end

/-- The second step of the workflow `o` has failed, and the workflow has gone on. -/
def seen : Database where
  statuses := Table.empty.insert "o" { status := .PENDING,name := "f",created_at := 1,updated_at := 1 }
  outputs := ((Table.empty.insert ("o",0) { output := some "1" }).insert ("o",1) { error := some "e" }).insert ("o",2) { output := some "2" }

/-- It has failed once more before it is forked. -/
def forkedLater : Database := { seen with outputs := seen.outputs.insert ("o",3) { error := some "late" } }

theorem forkedLater_owns {w : String} (owned : Owns forkedLater w) : w = "o" := by
  rcases owned with status | ⟨k,output⟩ | ⟨k,entry⟩ | ⟨k,event⟩ | ⟨k,event⟩
  · by_contra other
    simp [forkedLater,seen,other] at status
  · by_contra other
    simp [forkedLater,seen,other] at output
  · simp [forkedLater,seen] at entry
  · simp [forkedLater,seen] at event
  · simp [forkedLater,seen] at event

theorem forks_from_failure_later : ∃ db', forkFromFailure seen forkedLater ["o"] ["a"] { fork := {},fromLastFailure := true } 2 [] =
    some (.ok ["a"],db') ∧ db'.outputs.get? ("a",0) = some { output := some "1" } ∧ db'.outputs.get? ("a",1) = none := by
  obtain ⟨db',called,first,second⟩ : ∃ db', forkFromFailure seen forkedLater ["o"] ["a"] { fork := {},fromLastFailure := true } 2 [] =
      some (.ok ["a"],db') ∧ seen.outputs.get? ("o",0) = some { output := some "1" } ∧
      seen.outputs.get? ("o",1) = some { error := some "e" } := ⟨_,rfl,rfl,rfl⟩
  have whole := @forks_from_failure seen forkedLater [("o","a")] { fork := {},fromLastFailure := true } 2 (by decide) ?_
  · obtain ⟨_,resumes⟩ := whole.2 [] _ called
    have grown : ∀ key row, seen.outputs.get? key = some row → forkedLater.outputs.get? key = some row := by
      intro key row found
      simp only [forkedLater,Table.get?_insert]
      split
      · rename_i same
        subst same
        cases found
      · exact found
    obtain ⟨last,row,_,there,fails,cut,kept⟩ := resumes ["a"] rfl rfl grown ("o","a") List.mem_cons_self 1 _ second rfl
    obtain rfl : last = 1 := by
      by_contra other
      simp only [seen,Table.get?_insert,Prod.mk.injEq,other,and_false,if_false] at there
      split at there
      · cases there
        cases fails
      · split at there
        · cases there
          cases fails
        · cases there
    exact ⟨db',called,kept 0 _ Nat.zero_lt_one first,cut 1 (Nat.le_refl _)⟩
  · intro p listed owned
    rw [List.mem_singleton.mp listed] at owned
    exact absurd (forkedLater_owns owned) (by decide)

end Dbos.ForkFromFailure
