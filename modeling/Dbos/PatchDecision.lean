import Dbos.PatchSoundness

/-!
The decision that `DBOS.patch` takes is right for exactly those programs whose first checkpoint from the
point of the patch is under the next function ID. For another program there is a run in which the old
code gets to its point, makes a checkpoint further on and crashes; the new code then finds
nothing under its function ID and takes the new branch.
-/
namespace Dbos.PatchDecision
open Dbos.Pg Dbos.Schema Dbos.Patching Dbos.PatchSoundness
open Dbos.Communication (DBOS_FUNCNAME_SLEEP sleepCheckpoint)
open Dbos.Checkpoints (CheckpointCall checkpointRow insertCheckpoint get?_insertCheckpoint)

/-! ### Operations on what they find -/

section
variable {w : String} {outputs : OperationOutputs} {e : Executor} {op : Operation}

theorem runOperation_thrown {input : Input} (thrown : input.thrown = true) :
    runOperation w outputs e op input = (outputs,complete e op input.result) := by
  simp [runOperation,thrown]

theorem runOperation_silent (silent : op.records = false) {input : Input} (unthrown : input.thrown = false) :
    runOperation w outputs e op input = (outputs,complete e op {}) := by
  simp [runOperation,silent,unthrown]

theorem runOperation_replays (records : op.records = true) (idle : e.waiting = false) {row : OperationOutput}
    (found : outputs.get? (w,e.curWFFunctionId) = some row) (name : row.function_name = op.functionName) {input : Input}
    (unthrown : input.thrown = false) : runOperation w outputs e op input = (outputs,complete e op (op.returned row)) := by
  simp [runOperation,records,idle,stored,found,name,unthrown]

theorem runOperation_records (records : op.records = true) (bare : op.hasDeadline = false ∨ e.waiting = true)
    (missing : outputs.get? (w,e.curWFFunctionId) = none) {input : Input} (unthrown : input.thrown = false) :
    runOperation w outputs e op input = (insertCheckpoint outputs (w,e.curWFFunctionId) (checkpoint op input),
      complete e op (op.returned (checkpointRow (checkpoint op input)))) := by
  rcases bare with bare | waits
  · simp [runOperation,records,stored,missing,bare,unthrown]
  · simp [runOperation,records,waits,unthrown]

theorem runOperation_deadline (deadline : op.hasDeadline = true) (idle : e.waiting = false)
    (missing : outputs.get? (w,e.curWFFunctionId) = none) (fresh : outputs.get? (w,e.curWFFunctionId + 1) = none)
    {input : Input} (unthrown : input.thrown = false) : runOperation w outputs e op input =
      (insertCheckpoint outputs (w,e.curWFFunctionId + 1) (sleepCheckpoint input.startTime input.endTimeMs),
        { e with waiting := true }) := by
  simp [runOperation,(deadline_spec deadline).2,idle,stored,missing,fresh,deadline,unthrown]

/-- An operation can have any outcome. -/
def outcome (row : OperationOutput) : Input := { result := ⟨row.output,row.error,row.child_workflow_id,row.serialization⟩ }

theorem returned_outcome (op : Operation) (row : OperationOutput) :
    op.returned (checkpointRow (checkpoint op (outcome row))) = op.returned row := by
  cases op <;> rfl

end
/-! ### Runs of the old program -/

section
variable {throws : Operation → Result → Bool} {p : Patch} {w : String} {outputs : OperationOutputs} {op : Operation} {h : List Result}
  {n : Nat}

/-- An executor between two operations. -/
def between (h : List Result) (n : Nat) : Executor := { results := h,curWFFunctionId := n }

/-- Nothing is recorded from here on. -/
def Clear (w : String) (outputs : OperationOutputs) (n : Nat) : Prop := ∀ j ≥ n,outputs.get? (w,j) = none

theorem clear_insert {m : Nat} (clear : Clear w outputs n) (le : n ≤ m) (i : Nat) (below : i < m) (call : CheckpointCall) :
    Clear w (insertCheckpoint outputs (w,i) call) m := by
  intro j above
  have other : (w,j) ≠ (w,i) := by
    intro same
    cases same
    omega
  rw [get?_insertCheckpoint,if_neg other]
  exact clear j (by omega)

theorem step_old {e : Executor} (fine : e.error = none) (made : p.old e.results = some op) {input : Input}
    (may : input.thrown = true → throws op input.result = true) :
    step throws p w { outputs := outputs,executor := e } (.next input) =
      some { outputs := (runOperation w outputs e op input).1,executor := (runOperation w outputs e op input).2 } := by
  have allowed : ¬ (input.thrown = true ∧ throws op input.result = false) := by
    rintro ⟨thrown,refused⟩
    cases (may thrown).symm.trans refused
  simp [step,fine,advance,made,allowed]

/-- The next operation of the old program, with any outcome that is recorded, and again when it is. -/
theorem operation_run (made : p.old h = some op) (clear : Clear w outputs n) (row : OperationOutput) :
    ∃ events outputs', Runs (step throws p w) { outputs := outputs,executor := between h n } events
      { outputs := outputs',executor := between (h ++ [op.returned row]) (n + op.ids) } ∧ Clear w outputs' (n + op.ids) ∧
      Extends w outputs outputs' ∧ ∀ later, Extends w outputs' later →
        runOperation w later (between h n) op {} = (later,between (h ++ [op.returned row]) (n + op.ids)) := by
  have positive := ids_pos op
  have nextID : n < n + op.ids := Nat.lt_add_of_pos_right positive
  cases records : op.records with
  | false =>
    have again : ∀ later, runOperation w later (between h n) op {} = (later,between (h ++ [op.returned row]) (n + op.ids)) := by
      intro later
      rw [runOperation_silent records rfl,silent_returns records row]
      rfl
    refine ⟨[.next {}],outputs,?_,fun j le => clear j (by omega),fun _ _ found => found,fun later _ => again later⟩
    rw [runs_cons]
    refine ⟨_,step_old rfl made (by simp),runs_nil.mpr ?_⟩
    rw [again]
  | true =>
    -- what is recorded is found again
    have again : ∀ before : OperationOutputs, before.get? (w,n) = none → ∀ later,
        Extends w (insertCheckpoint before (w,n) (checkpoint op (outcome row))) later →
        runOperation w later (between h n) op {} = (later,between (h ++ [op.returned row]) (n + op.ids)) := by
      intro before missing later more
      have found : (insertCheckpoint before (w,n) (checkpoint op (outcome row))).get? (w,n) = some (checkpointRow (checkpoint op (outcome row))) := by
        rw [get?_insertCheckpoint,if_pos rfl,missing]
        rfl
      rw [runOperation_replays (e := between h n) records rfl (more _ _ found) (checkpoint_name op (outcome row)) rfl,returned_outcome]
      rfl
    cases deadline : op.hasDeadline with
    | false =>
      refine ⟨[.next (outcome row)],_,?_,clear_insert clear (Nat.le_add_right n op.ids) n nextID (checkpoint op (outcome row)),
        extends_insert _ _,again _ (clear n (Nat.le_refl n))⟩
      rw [runs_cons]
      refine ⟨_,step_old rfl made (by simp [outcome]),runs_nil.mpr ?_⟩
      rw [runOperation_records records (.inl deadline) (clear n (Nat.le_refl n)) rfl,returned_outcome op row]
      rfl
    | true =>
      -- The deadline comes first.
      have two := (deadline_spec deadline).1
      have early : Clear w (insertCheckpoint outputs (w,n + 1) (sleepCheckpoint 0 0)) (n + op.ids) :=
        clear_insert clear (Nat.le_add_right n op.ids) (n + 1) (by omega) (sleepCheckpoint 0 0)
      have missing : (insertCheckpoint outputs (w,n + 1) (sleepCheckpoint 0 0)).get? (w,n) = none := by
        rw [get?_insertCheckpoint,if_neg (by simp)]
        exact clear n (Nat.le_refl n)
      have more : Extends w outputs (insertCheckpoint outputs (w,n + 1) (sleepCheckpoint 0 0)) := extends_insert _ _
      refine ⟨[.next {},.next (outcome row)],_,?_,clear_insert early (Nat.le_refl _) n nextID (checkpoint op (outcome row)),
        fun i found listed => extends_insert _ _ i found (more i found listed),again _ missing⟩
      rw [runs_cons]
      refine ⟨_,step_old rfl made (by simp),?_⟩
      rw [runOperation_deadline deadline rfl (clear n (Nat.le_refl n)) (clear (n + 1) (by omega)) rfl,runs_cons]
      refine ⟨_,step_old rfl made (by simp [outcome]),runs_nil.mpr ?_⟩
      rw [runOperation_records records (.inr rfl) missing rfl,returned_outcome op row]
      rfl

/-- Wherever more is recorded, the new code gets back to where the old one was. -/
def Returns (throws : Operation → Result → Bool) (p : Patch) (w : String) (outputs : OperationOutputs) (h : List Result) (n : Nat) : Prop :=
  ∀ later crashed, Extends w outputs later → ∃ events,
    Runs (step throws p w) { outputs := later,crashed := some crashed } events
      { outputs := later,crashed := some crashed,executor := between h n }

/-- The old program gets to every history that is ahead of the point, and so does the new code after it. -/
theorem reaches_run (throws : Operation → Result → Bool) (w : String) (reaches : Reaches p h) : ∃ events outputs n,
    Runs (step throws p w) (start Table.empty) events { outputs := outputs,executor := between h n } ∧ Clear w outputs n ∧
      Returns throws p w outputs h n := by
  induction reaches with
  | start => exact ⟨[],Table.empty,0,runs_nil.mpr rfl,fun _ _ => rfl,fun _ _ _ => ⟨[],runs_nil.mpr rfl⟩⟩
  | next h op row before elsewhere made ih =>
    obtain ⟨first,outputs,n,reached,clear,returns⟩ := ih
    obtain ⟨rest,outputs',onward,clear',more,again⟩ := operation_run made clear row
    refine ⟨first ++ rest,outputs',n + op.ids,runs_append.mpr ⟨_,reached,onward⟩,clear',?_⟩
    intro later crashed kept
    obtain ⟨events,back⟩ := returns later crashed fun i found listed => kept i found (more i found listed)
    refine ⟨events ++ [.next {}],runs_append.mpr ⟨_,back,runs_cons.mpr ⟨_,?_,runs_nil.mpr rfl⟩⟩⟩
    have elsewhere : p.point (between h n).results = false := elsewhere
    have made : p.old (between h n).results = some op := made
    simp [step,show (between h n).error = none from rfl,show (between h n).isPatched = none from rfl,elsewhere,advance,made,again later kept]

/-- The old program makes the first checkpoint of its next operation. -/
theorem checkpoint_run (throws : Operation → Result → Bool) (made : p.old h = some op) (records : op.records = true) (clear : Clear w outputs n) :
    ∃ call e', Runs (step throws p w) { outputs := outputs,executor := between h n } [.next {}]
      { outputs := insertCheckpoint outputs (w,if op.hasDeadline then n + 1 else n) call,executor := e' } ∧
        (op.hasDeadline = false → call.functionName = op.functionName) := by
  cases deadline : op.hasDeadline with
  | false =>
    refine ⟨checkpoint op {},complete (between h n) op (op.returned (checkpointRow (checkpoint op {}))),
      runs_cons.mpr ⟨_,step_old rfl made (by simp),runs_nil.mpr ?_⟩,fun _ => checkpoint_name op {}⟩
    rw [runOperation_records records (.inl deadline) (clear n (Nat.le_refl n)) rfl]
    rfl
  | true =>
    refine ⟨sleepCheckpoint 0 0,{ between h n with waiting := true },
      runs_cons.mpr ⟨_,step_old rfl made (by simp),runs_nil.mpr ?_⟩,by simp⟩
    rw [runOperation_deadline deadline rfl (clear n (Nat.le_refl n)) (clear (n + 1) (by omega)) rfl]
    rfl

/-- After a sleep of no length the program is as silent as before. -/
theorem silent_next (made : p.old h = some op) (bare : op.records = false) (silent : Silent p.old (h ++ [nothing])) : Silent p.old h := by
  intro k earlier op' made'
  cases k with
  | zero =>
    rw [List.replicate_zero,List.append_nil] at made'
    cases made'.symm.trans made
    exact bare
  | succ k =>
    have shift : ∀ j, h ++ List.replicate (j + 1) nothing = h ++ [nothing] ++ List.replicate j nothing := by
      intro j
      rw [List.replicate_succ,List.append_assoc,List.singleton_append]
    rw [shift] at made'
    exact silent k (fun j lower => by rw [← shift]; exact earlier (j + 1) (by omega)) op' made'

/-- A program that is not silent makes a checkpoint, after sleeps of no length. -/
theorem loud_run (throws : Operation → Result → Bool) (loud : ¬ Silent p.old h) (clear : Clear w outputs n) : ∃ events i call e',
    Runs (step throws p w) { outputs := outputs,executor := between h n } events
      { outputs := insertCheckpoint outputs (w,i) call,executor := e' } ∧ n ≤ i := by
  unfold Silent at loud
  push Not at loud
  obtain ⟨k,earlier,op,made,records⟩ := loud
  induction k generalizing h n with
  | zero =>
    rw [List.replicate_zero,List.append_nil] at made
    obtain ⟨call,e',run,_⟩ := checkpoint_run throws made (by simpa using records) clear
    exact ⟨_,_,call,e',run,by split <;> omega⟩
  | succ k ih =>
    have shift : ∀ j, h ++ List.replicate (j + 1) nothing = h ++ [nothing] ++ List.replicate j nothing := by
      intro j
      rw [List.replicate_succ,List.append_assoc,List.singleton_append]
    obtain ⟨first,made₁⟩ := Option.isSome_iff_exists.mp (earlier 0 (Nat.succ_pos k))
    rw [List.replicate_zero,List.append_nil] at made₁
    cases bare : first.records with
    | true =>
      obtain ⟨call,e',run,_⟩ := checkpoint_run throws made₁ bare clear
      exact ⟨_,_,call,e',run,by split <;> omega⟩
    | false =>
      have later : Clear w outputs (n + first.ids) := fun j le => clear j (by omega)
      obtain ⟨events,i,call,e',run,above⟩ := ih later (fun j lower => by rw [← shift]; exact earlier (j + 1) (by omega))
        (by rw [← shift]; exact made)
      refine ⟨.next {} :: events,i,call,e',runs_cons.mpr ⟨_,step_old rfl made₁ (by simp),?_⟩,by omega⟩
      rw [runOperation_silent bare rfl]
      exact run

/-- From a point that is not firm the old program can crash with a checkpoint beyond it and none at it, or
    with one that looks like the patch. -/
theorem unfirm_run (loose : ¬ Firm throws p h) (clear : Clear w outputs n) :
    ∃ events outputs' e', Runs (step throws p w) { outputs := outputs,executor := between h n } events
      { outputs := outputs',executor := e' } ∧ Extends w outputs outputs' ∧ (∃ j ≥ n,(outputs'.get? (w,j)).isSome) ∧
        ∀ row, outputs'.get? (w,n) = some row → row.function_name = markerName p.patchName := by
  unfold Firm at loose
  push Not at loose
  obtain ⟨op,made,hidden,audible⟩ := loose
  have positive := ids_pos op
  have present : ∀ i call, ((insertCheckpoint outputs (w,i) call).get? (w,i)).isSome := by
    intro i call
    rw [get?_insertCheckpoint,if_pos rfl]
    rfl
  have absent : ∀ i > n,∀ call row, (insertCheckpoint outputs (w,i) call).get? (w,n) ≠ some row := by
    intro i above call row found
    have other : (w,n) ≠ (w,i) := by
      intro same
      cases same
      omega
    rw [get?_insertCheckpoint,if_neg other,clear n (Nat.le_refl n)] at found
    cases found
  -- A checkpoint of a later operation is all that there is.
  have beyond : ∀ result input, (∀ later, runOperation w later (between h n) op input = (later,complete (between h n) op result)) →
      (input.thrown = true → throws op input.result = true) → ¬ Silent p.old (h ++ [result]) →
      ∃ events outputs' e', Runs (step throws p w) { outputs := outputs,executor := between h n } events
        { outputs := outputs',executor := e' } ∧ Extends w outputs outputs' ∧ (∃ j ≥ n,(outputs'.get? (w,j)).isSome) ∧
          ∀ row, outputs'.get? (w,n) = some row → row.function_name = markerName p.patchName := by
    intro result input ran may loud
    have later : Clear w outputs (n + op.ids) := fun j le => clear j (by omega)
    obtain ⟨events,i,call,e',run,above⟩ := loud_run throws loud later
    refine ⟨.next input :: events,_,e',runs_cons.mpr ⟨_,step_old rfl made may,?_⟩,extends_insert _ _,⟨i,by omega,present i call⟩,?_⟩
    · rw [ran]
      exact run
    · exact fun row found => absurd found (absent i (by omega) call row)
  cases records : op.records with
  | true =>
    obtain ⟨call,e',run,name⟩ := checkpoint_run throws made records clear
    cases deadline : op.hasDeadline with
    | true =>
      rw [deadline] at run
      refine ⟨_,_,e',run,extends_insert _ _,⟨n + 1,by omega,present (n + 1) call⟩,?_⟩
      exact fun row found => absurd found (absent (n + 1) (by omega) call row)
    | false =>
      by_cases marker : op.functionName = markerName p.patchName
      · rw [deadline] at run
        refine ⟨_,_,e',run,extends_insert _ _,⟨n,Nat.le_refl n,present n call⟩,?_⟩
        intro row found
        change (insertCheckpoint outputs (w,n) call).get? (w,n) = some row at found
        rw [get?_insertCheckpoint,if_pos rfl,clear n (Nat.le_refl n)] at found
        cases found
        exact (name deadline).trans marker
      · -- The operation throws, and the program goes on.
        obtain ⟨t,may,loud⟩ := hidden records deadline marker
        exact beyond t { result := t,thrown := true } (fun _ => runOperation_thrown rfl) (fun _ => may) loud
  | false =>
    exact beyond nothing {} (fun _ => runOperation_silent records rfl) (by simp) fun silent => audible (silent_next made records silent)

end
/-! ### The decision -/

section
variable {throws : Operation → Result → Bool} {p : Patch} {w : String} {s : System} {n : Nat} {h : List Result}

/-- The answer to a call where there is nothing, or what looks like the patch. -/
theorem callPatch_new (new : ∀ row, s.outputs.get? (w,s.executor.curWFFunctionId) = some row →
      row.function_name = markerName p.patchName) (input : Input) :
    (callPatch p w s input).crashed = s.crashed ∧
      ⟨s.executor.curWFFunctionId,true,s.executor.curWFFunctionId + 1⟩ ∈ (callPatch p w s input).answers := by
  cases found : s.outputs.get? (w,s.executor.curWFFunctionId) with
  | none =>
    obtain ⟨row,_,called⟩ := callPatch_missing p input found
    rw [called]
    simp
  | some row =>
    rw [callPatch_found found,if_pos (new row found)]
    simp

theorem ignores_exists (throws : Operation → Result → Bool) (p : Patch) : ∃ ignored, Ignores p throws ignored := by
  classical
  exact ⟨fun h => decide (Indifferent p h ∧ ∃ op t, p.old h = some op ∧ throws op t = true),fun h => decide_eq_true_iff⟩

/-- `DBOS.patch` is sound for a program, through every crash and recovery, if and only if wherever it is
    called the first checkpoint of the old program is under the next function ID itself, and none comes
    after an operation that throws there without one. -/
theorem patch_sound (throws : Operation → Result → Bool) (p : Patch) (w : String) (steady : Steady p throws) :
    (∀ outputs events s, (∀ n, outputs.get? (w,n) = none) → Runs (step throws p w) (start outputs) events s → Sound w s) ↔
      ∀ h, Reaches p h → p.point h = true → Firm throws p h := by
  constructor
  · intro sound h reaches here
    by_contra loose
    obtain ⟨first,outputs,n,reached,clear,returns⟩ := reaches_run throws w reaches
    obtain ⟨second,outputs',e',crashes,more,beyond,new⟩ := unfirm_run loose clear
    -- The new code takes over, replays up to the point and calls `DBOS.patch`.
    let s : System := { outputs := outputs',crashed := some outputs' }
    have deploys : step throws p w { outputs := outputs',executor := e' } .deploy = some s := rfl
    obtain ⟨third,replays⟩ := returns outputs' outputs' more
    obtain ⟨same,answer⟩ := callPatch_new (s := { s with executor := between h n }) new {}
    have asks : step throws p w { s with executor := between h n } (.next {}) = some (callPatch p w { s with executor := between h n } {}) := by
      simp [step,s,between,here]
    have run := runs_append.mpr ⟨_,runs_append.mpr ⟨_,reached,crashes⟩,runs_cons.mpr ⟨_,deploys,
      runs_append.mpr ⟨_,replays,runs_cons.mpr ⟨_,asks,runs_nil.mpr rfl⟩⟩⟩⟩
    have wrong := ((sound Table.empty _ _ (fun _ => rfl) run).decides outputs' same _ answer).mpr beyond
    cases wrong.1
  · intro firm outputs events s fresh run
    obtain ⟨ignored,ignores⟩ := ignores_exists throws p
    have kept : Plain ignored p w s ∨ Marked ignored p w s := by
      refine runs_invariant (I := fun s => Plain ignored p w s ∨ Marked ignored p w s) ?_ (.inl (plain_start fresh)) run
      rintro s event s' (plain | marked) taken
      · exact step_plain steady ignores firm plain taken
      · exact .inr (step_marked steady ignores marked taken)
    rcases kept with plain | marked
    · exact sound_plain plain
    · exact sound_marked marked

end
/-! ### Patches of small workflows -/

/-- A workflow sends a notice, and goes on with a charge whatever comes of it. -/
def notice (position : Nat) : Patch where
  old h := [Operation.send "audit",.step "charge"][h.length]?
  new h := [Operation.send "audit",.step "prepare",.step "charge"][h.length]?
  point h := h.length = position
  patchName := "prepare"

def refused : Operation → Result → Bool
  | .send _,t => t.error.isSome
  | _,_ => false

/-- The destination of the notice does not exist. -/
def noDestination : Input := { result := { error := some "DBOSNonExistentWorkflowError" },thrown := true }

theorem notice_steady (position : Nat) : Steady (notice position) refused := by
  intro h op t _ _ _
  refine .inl ?_
  intro r r' rest
  simp [notice]

/-- The patch after the notice finds the charge, whether the notice has been sent or not. -/
theorem patch_sound_notice : ∃ s, Runs (step refused (notice 1) "w") (start Table.empty)
    [.next noDestination,.next {},.deploy,.next noDestination,.next {}] s ∧ s.answers = [⟨1,false,1⟩] ∧ Sound "w" s := by
  have run : ∃ s, Runs (step refused (notice 1) "w") (start Table.empty)
      [.next noDestination,.next {},.deploy,.next noDestination,.next {}] s ∧ s.answers = [⟨1,false,1⟩] := ⟨_,rfl,rfl⟩
  obtain ⟨s,run,answers⟩ := run
  refine ⟨s,run,answers,(patch_sound refused (notice 1) "w" (notice_steady 1)).mpr ?_ _ _ s (fun _ => rfl) run⟩
  intro h _ here op made
  have one : h.length = 1 := by simpa [notice] using here
  obtain rfl : op = .step "charge" := by simpa [notice,one,eq_comm] using made
  exact .inl ⟨rfl,rfl,by decide,by intro t thrown; cases thrown⟩

/-- A workflow that waits for a message and has got a step ahead of that. -/
def beforeRecv : Patch where
  old h := if h = [] then some (.recv 1000) else none
  new h := if h = [] then some (.step "prepare") else none
  point h := h = []
  patchName := "prepare"

/-- The crashed execution has recorded the deadline of its `recv`, and yet the patch is taken. So it is where a notice is
    not sent and what comes after it is recorded. -/
theorem deadline_overlooked :
    (∃ s crashed, Runs (step (fun _ _ => false) beforeRecv "w") (start Table.empty) [.next {},.deploy,.next {}] s ∧
      s.answers = [⟨0,true,1⟩] ∧ s.crashed = some crashed ∧ (crashed.get? ("w",1)).isSome) ∧
    (∃ s crashed, Runs (step refused (notice 0) "w") (start Table.empty) [.next noDestination,.next {},.deploy,.next {}] s ∧
      s.answers = [⟨0,true,1⟩] ∧ s.crashed = some crashed ∧ (crashed.get? ("w",1)).isSome) ∧
    ¬ ∀ throws p w outputs events s, (∀ n, outputs.get? (w,n) = none) → Runs (step throws p w) (start outputs) events s → Sound w s := by
  have overlooked : ∃ s crashed, Runs (step (fun _ _ => false) beforeRecv "w") (start Table.empty) [.next {},.deploy,.next {}] s ∧
      s.answers = [⟨0,true,1⟩] ∧ s.crashed = some crashed ∧ (crashed.get? ("w",1)).isSome := ⟨_,_,rfl,rfl,rfl,rfl⟩
  refine ⟨overlooked,⟨_,_,rfl,rfl,rfl,rfl⟩,?_⟩
  intro always
  obtain ⟨s,crashed,run,answers,deployed,recorded⟩ := overlooked
  have sound := always (fun _ _ => false) beforeRecv "w" _ _ s (fun _ => rfl) run
  have wrong := (sound.decides crashed deployed ⟨0,true,1⟩ (by simp [answers])).mpr ⟨1,Nat.zero_le 1,recorded⟩
  cases wrong.1

end Dbos.PatchDecision
