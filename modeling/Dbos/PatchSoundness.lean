import Dbos.Patching
import Dbos.Pg.Run

/-!
When a patch is sound. The old program replays its checkpoints step by step; whatever crashes it
has been through, its checkpoints are those of one such replay. An operation that may throw without
a record ends the workflow, or the program goes on as if nothing had happened; then the replay does not
look at its result. `DBOS.patch` looks under the next function ID only, so it tells an execution that
has passed its point from one that has not if and only if the first checkpoint that the old program
makes from there is under that ID, and is not named like a patch.
-/
namespace Dbos.PatchSoundness
open Dbos.Pg Dbos.Schema Dbos.Patching
open Dbos.Communication (DBOS_FUNCNAME_SLEEP sleepCheckpoint)
open Dbos.Checkpoints (CheckpointCall checkpointRow insertCheckpoint get?_insertCheckpoint)

/-! ### Replays -/

section
variable (ignored : List Result → Bool) (old : Program) (w : String) (outputs : OperationOutputs)

/-- The program goes on only when the operation is recorded. -/
def needs (h : List Result) (op : Operation) : Bool := op.records && !ignored h

/-- The row with which the operation returns. -/
def rowFor (h : List Result) (op : Operation) (n : Nat) : Option OperationOutput :=
  if needs ignored h op = true then outputs.get? (w,n) else some {}

/-- The history and the next function ID after so many operations, as the checkpoints have them. -/
def replay : Nat → Option (List Result × Nat)
  | 0 => some ([],0)
  | k + 1 => (replay k).bind fun x => (old x.1).bind fun op =>
    (rowFor ignored w outputs x.1 op x.2).map fun row => (x.1 ++ [op.returned row],x.2 + op.ids)

end
section
variable {ignored : List Result → Bool} {old : Program} {w : String} {outputs outputs' : OperationOutputs} {k k' n n' : Nat}
  {h h' : List Result} {op : Operation}

theorem replay_succ : replay ignored old w outputs (k + 1) = some (h',n') ↔ ∃ h n op row, replay ignored old w outputs k = some (h,n) ∧
    old h = some op ∧ rowFor ignored w outputs h op n = some row ∧ h' = h ++ [op.returned row] ∧ n' = n + op.ids := by
  simp only [replay,Option.bind_eq_some_iff,Option.map_eq_some_iff,Prod.mk.injEq,Prod.exists]
  constructor
  · rintro ⟨h,n,before,op,next,row,found,rfl,rfl⟩
    exact ⟨h,n,op,row,before,next,found,rfl,rfl⟩
  · rintro ⟨h,n,op,row,before,next,found,rfl,rfl⟩
    exact ⟨h,n,before,op,next,row,found,rfl,rfl⟩

/-- Checkpoints are never changed, so they are kept by whatever is recorded later. -/
def Extends (w : String) (outputs outputs' : OperationOutputs) : Prop :=
  ∀ n row, outputs.get? (w,n) = some row → outputs'.get? (w,n) = some row

theorem extends_insert (key : String × Nat) (call : CheckpointCall) : Extends w outputs (insertCheckpoint outputs key call) := by
  intro n row found
  rw [get?_insertCheckpoint]
  by_cases here : (w,n) = key
  · rw [if_pos here,← here,found]
    rfl
  · rw [if_neg here]
    exact found

theorem rowFor_kept (more : Extends w outputs outputs') {row : OperationOutput} (found : rowFor ignored w outputs h op n = some row) :
    rowFor ignored w outputs' h op n = some row := by
  unfold rowFor at found ⊢
  by_cases needed : needs ignored h op = true
  · rw [if_pos needed] at found ⊢
    exact more n row found
  · rw [if_neg needed] at found ⊢
    exact found

theorem replay_kept (more : Extends w outputs outputs') (at_ : replay ignored old w outputs k = some (h,n)) :
    replay ignored old w outputs' k = some (h,n) := by
  induction k generalizing h n with
  | zero => exact at_
  | succ k ih =>
    obtain ⟨h,n,op,row,before,next,found,rfl,rfl⟩ := replay_succ.mp at_
    exact replay_succ.mpr ⟨h,n,op,row,ih before,next,rowFor_kept more found,rfl,rfl⟩

/-- Up to where a replay gets it stays the same. -/
theorem replay_same (more : Extends w outputs outputs') (at_ : replay ignored old w outputs k = some (h,n)) (le : k' ≤ k) :
    replay ignored old w outputs' k' = replay ignored old w outputs k' := by
  induction k generalizing h n with
  | zero =>
    cases Nat.le_zero.mp le
    rfl
  | succ k ih =>
    obtain ⟨h,n,_,_,before,_⟩ := replay_succ.mp at_
    rcases Nat.lt_or_eq_of_le le with lower | rfl
    · exact ih before (by omega)
    · rw [at_]
      exact replay_kept more at_

/-- An operation that comes before another has its row and smaller IDs. -/
theorem replay_below (at_ : replay ignored old w outputs k = some (h,n)) (later : replay ignored old w outputs k' = some (h',n')) (lt : k < k') :
    ∃ op row, old h = some op ∧ rowFor ignored w outputs h op n = some row ∧ n + op.ids ≤ n' ∧ h ++ [op.returned row] <+: h' := by
  induction k' generalizing h' n' with
  | zero => omega
  | succ k' ih =>
    obtain ⟨h₁,n₁,op₁,row₁,before,next,found,rfl,rfl⟩ := replay_succ.mp later
    rcases Nat.lt_or_eq_of_le (Nat.le_of_lt_succ lt) with lower | rfl
    · obtain ⟨op,row,next',found',le,initial⟩ := ih before lower
      exact ⟨op,row,next',found',by omega,initial.trans (List.prefix_append _ _)⟩
    · cases before.symm.trans at_
      exact ⟨op₁,row₁,next,found,Nat.le_refl _,List.prefix_refl _⟩

theorem ids_pos (op : Operation) : 0 < op.ids := by cases op <;> simp [Operation.ids]

theorem deadline_spec (deadline : op.hasDeadline = true) : op.ids = 2 ∧ op.records = true := by
  cases op <;> first | exact ⟨rfl,rfl⟩ | cases deadline

/-- The IDs under which an operation records are its own. -/
theorem ids_cover {j n : Nat} {op : Operation} (which : j = n ∨ j = n + 1 ∧ op.hasDeadline = true) : j < n + op.ids := by
  rcases which with rfl | ⟨rfl,deadline⟩
  · have := ids_pos op
    omega
  · have := (deadline_spec deadline).1
    omega

end
/-! ### Histories -/

/-- The histories are the same up to results that the program does not look at. -/
inductive Same (ignored : List Result → Bool) : List Result → List Result → Prop
  | nil : Same ignored [] []
  | snoc {h h' : List Result} (same : Same ignored h h') (r r' : Result) (equal : r = r' ∨ ignored h' = true) :
      Same ignored (h ++ [r]) (h' ++ [r'])

section
variable (p : Patch)

/-- The program does not look at what the operation returns or throws. -/
def Indifferent (h : List Result) : Prop :=
  ∀ r r' rest, p.old (h ++ r :: rest) = p.old (h ++ r' :: rest) ∧ p.point (h ++ r :: rest) = p.point (h ++ r' :: rest)

/-- The workflow is at its end, where nothing has been inserted. -/
def Ends (h : List Result) : Prop := p.old h = none ∧ p.point h = false

/-- The histories of the program when each operation returns with a row. -/
inductive Made (old : Program) : List Result → Prop
  | start : Made old []
  | next (h : List Result) (op : Operation) (row : OperationOutput) (before : Made old h) (made : old h = some op) :
      Made old (h ++ [op.returned row])

/-- The program is deterministic over what is recorded: where an operation may throw without a record, the workflow ends then, or it
    does not look at the outcome. -/
def Steady (throws : Operation → Result → Bool) : Prop :=
  ∀ h op t, Made p.old h → p.old h = some op → throws op t = true → Indifferent p h ∨ Ends p (h ++ [t])

/-- The results of operations that may throw without a record are ignored where the program does not look at them. -/
def Ignores (throws : Operation → Result → Bool) (ignored : List Result → Bool) : Prop :=
  ∀ h, ignored h = true ↔ Indifferent p h ∧ ∃ op t, p.old h = some op ∧ throws op t = true

end
section
variable {p : Patch} {throws : Operation → Result → Bool} {ignored : List Result → Bool} {h h' : List Result}

/-- Everything that the program does is the same. -/
theorem Same.goes_on (ignores : Ignores p throws ignored) (same : Same ignored h h') (rest : List Result) :
    p.old (h ++ rest) = p.old (h' ++ rest) ∧ p.point (h ++ rest) = p.point (h' ++ rest) := by
  induction same generalizing rest with
  | nil => exact ⟨rfl,rfl⟩
  | @snoc h h' _ r r' equal ih =>
    simp only [List.append_assoc,List.singleton_append]
    rcases equal with rfl | ignored
    · exact ih (r :: rest)
    · obtain ⟨old,point⟩ := ih (r :: rest)
      obtain ⟨old',point'⟩ := ((ignores h').mp ignored).1 r r' rest
      exact ⟨old.trans old',point.trans point'⟩

theorem Same.old (ignores : Ignores p throws ignored) (same : Same ignored h h') : p.old h = p.old h' := by
  simpa using (same.goes_on ignores []).1

theorem Same.point (ignores : Ignores p throws ignored) (same : Same ignored h h') : p.point h = p.point h' := by
  simpa using (same.goes_on ignores []).2

theorem made_replay {old : Program} {w : String} {outputs : OperationOutputs} {k n : Nat}
    (reached : replay ignored old w outputs k = some (h,n)) : Made old h := by
  induction k generalizing h n with
  | zero =>
    cases reached
    exact .start
  | succ k ih =>
    obtain ⟨h,n,op,row,before,made,_,rfl,_⟩ := replay_succ.mp reached
    exact .next h op row (ih before) made

end
/-! ### Checkpoints of one program -/

section
variable (ignored : List Result → Bool) (old : Program) (w : String)

/-- The checkpoints that the replay comes to are under the names that the program expects, up to some operation. -/
structure Named (outputs : OperationOutputs) (below : Nat → Prop) : Prop where
  names : ∀ k h n op row, below k → replay ignored old w outputs k = some (h,n) → old h = some op → op.records = true →
    outputs.get? (w,n) = some row → row.function_name = op.functionName
  deadlines : ∀ k h n op row, below k → replay ignored old w outputs k = some (h,n) → old h = some op → op.hasDeadline = true →
    outputs.get? (w,n + 1) = some row → row.function_name = DBOS_FUNCNAME_SLEEP

/-- Every checkpoint is one that the program makes on its replay. -/
structure Fit (outputs : OperationOutputs) : Prop where
  named : Named ignored old w outputs fun _ => True
  owned : ∀ j row, outputs.get? (w,j) = some row → ∃ k h n op, replay ignored old w outputs k = some (h,n) ∧ old h = some op ∧
    (j = n ∧ op.records = true ∨ j = n + 1 ∧ op.hasDeadline = true)

/-- The executor is somewhere on the replay. -/
structure OnPath (outputs : OperationOutputs) (e : Executor) (h : List Result) : Prop where
  same : Same ignored e.results h
  reached : replay ignored old w outputs e.results.length = some (h,e.curWFFunctionId)
  waits : e.waiting = true → ∃ op, old h = some op ∧ op.hasDeadline = true ∧ outputs.get? (w,e.curWFFunctionId) = none
  error : e.error = none

/-- A checkpoint that an operation with this function ID makes. -/
def Records (outputs : OperationOutputs) (n : Nat) (op : Operation) (outputs' : OperationOutputs) : Prop :=
  ∃ j call, outputs' = insertCheckpoint outputs (w,j) call ∧ outputs.get? (w,n) = none ∧ outputs.get? (w,j) = none ∧
    (j = n ∧ op.records = true ∧ call.functionName = op.functionName ∨
      j = n + 1 ∧ op.hasDeadline = true ∧ call.functionName = DBOS_FUNCNAME_SLEEP)

end
section
variable {ignored : List Result → Bool} {old : Program} {w : String} {outputs outputs' : OperationOutputs} {k n : Nat} {h : List Result}
  {op : Operation}

/-- Where the program has still to make a checkpoint, there is nothing beyond its IDs. -/
theorem fit_bound (fit : Fit ignored old w outputs) (at_ : replay ignored old w outputs k = some (h,n)) (next : old h = some op)
    (needed : needs ignored h op = true) (missing : outputs.get? (w,n) = none) {j : Nat} {row : OperationOutput}
    (found : outputs.get? (w,j) = some row) : j < n + op.ids := by
  obtain ⟨k',h',n',op',at',next',which⟩ := fit.owned j row found
  have inside : j < n' + op'.ids := ids_cover (which.imp_left And.left)
  rcases Nat.lt_trichotomy k' k with lower | rfl | upper
  · obtain ⟨op'',_,next'',_,above,_⟩ := replay_below at' at_ lower
    cases next''.symm.trans next'
    omega
  · cases at'.symm.trans at_
    cases next'.symm.trans next
    exact inside
  · -- The replay does not get past a missing row.
    obtain ⟨op'',row'',next'',found'',_⟩ := replay_below at_ at' upper
    cases next''.symm.trans next
    rw [rowFor,if_pos needed,missing] at found''
    cases found''

theorem insert_row {j : Nat} (call : CheckpointCall) (fresh : outputs.get? (w,j) = none) (i : Nat) (row : OperationOutput)
    (found : (insertCheckpoint outputs (w,j) call).get? (w,i) = some row) :
    outputs.get? (w,i) = some row ∨ i = j ∧ row.function_name = call.functionName := by
  rw [get?_insertCheckpoint] at found
  by_cases here : (w,i) = (w,j)
  · cases here
    rw [if_pos rfl,fresh] at found
    cases found
    exact .inr ⟨rfl,rfl⟩
  · rw [if_neg here] at found
    exact .inl found

/-- Where a row is one of the operation, it is of no other on the replay. -/
theorem position_unique (at_ : replay ignored old w outputs k = some (h,n)) (next : old h = some op) {k' n' : Nat} {h' : List Result}
    {op' : Operation} (at' : replay ignored old w outputs k' = some (h',n')) (next' : old h' = some op') {j : Nat} (above : n ≤ j)
    (inside : j < n + op.ids) (above' : n' ≤ j) (inside' : j < n' + op'.ids) : k' = k := by
  rcases Nat.lt_trichotomy k' k with lower | same | upper
  · obtain ⟨op'',_,next'',_,le,_⟩ := replay_below at' at_ lower
    cases next''.symm.trans next'
    omega
  · exact same
  · obtain ⟨op'',_,next'',_,le,_⟩ := replay_below at_ at' upper
    cases next''.symm.trans next
    omega

/-- A new row takes the replay further only where it was missing. -/
theorem replay_insert (at_ : replay ignored old w outputs k = some (h,n)) (next : old h = some op) {j : Nat} (call : CheckpointCall)
    (above : n ≤ j) (inside : j < n + op.ids) {k' n' : Nat} {h' : List Result}
    (at' : replay ignored old w (insertCheckpoint outputs (w,j) call) k' = some (h',n')) :
    replay ignored old w outputs k' = some (h',n') ∨ needs ignored h op = true ∧ k < k' := by
  induction k' generalizing h' n' with
  | zero => exact .inl at'
  | succ k' ih =>
    obtain ⟨h₁,n₁,op₁,row,before,made,found,rfl,rfl⟩ := replay_succ.mp at'
    rcases ih before with before | ⟨needed,lt⟩
    · by_cases further : needs ignored h op = true ∧ k < k' + 1
      · exact .inr further
      refine .inl (replay_succ.mpr ⟨h₁,n₁,op₁,row,before,made,?_,rfl,rfl⟩)
      unfold rowFor at found ⊢
      by_cases needed : needs ignored h₁ op₁ = true
      · rw [if_pos needed] at found ⊢
        have other : (w,n₁) ≠ (w,j) := by
          intro same
          cases same
          have here := position_unique at_ next before made above inside (Nat.le_refl _) (Nat.lt_add_of_pos_right (ids_pos op₁))
          subst here
          cases before.symm.trans at_
          cases made.symm.trans next
          exact further ⟨needed,Nat.lt_succ_self _⟩
        rwa [get?_insertCheckpoint,if_neg other] at found
      · rwa [if_neg needed] at found ⊢
    · exact .inr ⟨needed,Nat.lt_succ_of_lt lt⟩

/-- The names stay right when the operation at some place of the replay makes a checkpoint. -/
theorem named_insert {below : Nat → Prop} (named : Named ignored old w outputs below) (at_ : replay ignored old w outputs k = some (h,n))
    (next : old h = some op) (records : Records w outputs n op outputs')
    (last : needs ignored h op = true → ∀ i row, outputs.get? (w,i) = some row → i < n + op.ids) : Named ignored old w outputs' below := by
  obtain ⟨j,call,rfl,_,fresh,which⟩ := records
  have more : Extends w outputs (insertCheckpoint outputs (w,j) call) := extends_insert _ _
  have rows := insert_row call fresh
  have above : n ≤ j := by rcases which with ⟨rfl,_⟩ | ⟨rfl,_⟩ <;> omega
  have inside : j < n + op.ids := ids_cover (which.imp And.left fun deadline => ⟨deadline.1,deadline.2.1⟩)
  -- A replay that gets beyond the new row finds nothing there.
  have early : ∀ k' h' n' i row, replay ignored old w (insertCheckpoint outputs (w,j) call) k' = some (h',n') → n' ≤ i →
      (insertCheckpoint outputs (w,j) call).get? (w,i) = some row → replay ignored old w outputs k' = some (h',n') := by
    intro k' h' n' i row at' le found
    rcases replay_insert at_ next call above inside at' with before | ⟨needed,lt⟩
    · exact before
    · obtain ⟨op',_,next',_,beyond,_⟩ := replay_below (replay_kept more at_) at' lt
      cases next'.symm.trans next
      rcases rows i row found with old_ | ⟨rfl,_⟩
      · have := last needed i row old_
        omega
      · omega
  constructor
  · intro k' h' n' op' row bound at' next' records' found
    have before := early k' h' n' n' row at' (Nat.le_refl _) found
    rcases rows n' row found with old_ | ⟨rfl,name⟩
    · exact named.names k' h' n' op' row bound before next' records' old_
    · -- The operation of the new row is the one that makes it.
      have here := position_unique at_ next before next' above inside (Nat.le_refl _) (Nat.lt_add_of_pos_right (ids_pos op'))
      subst here
      cases before.symm.trans at_
      cases next'.symm.trans next
      rcases which with ⟨_,_,expected⟩ | ⟨off,_⟩
      · exact name.trans expected
      · omega
  · intro k' h' n' op' row bound at' next' deadline' found
    have before := early k' h' n' (n' + 1) row at' (Nat.le_succ _) found
    have two := (deadline_spec deadline').1
    rcases rows (n' + 1) row found with old_ | ⟨same,name⟩
    · exact named.deadlines k' h' n' op' row bound before next' deadline' old_
    · have here := position_unique at_ next before next' (j := j) above inside (by omega) (by omega)
      subst here
      cases before.symm.trans at_
      rcases which with ⟨off,_⟩ | ⟨_,_,expected⟩
      · omega
      · exact name.trans expected

theorem fit_insert (fit : Fit ignored old w outputs) (at_ : replay ignored old w outputs k = some (h,n)) (next : old h = some op)
    (records : Records w outputs n op outputs') : Fit ignored old w outputs' := by
  refine ⟨named_insert fit.named at_ next records fun needed i row found => ?_,?_⟩
  · obtain ⟨_,_,_,missing,_⟩ := records
    exact fit_bound fit at_ next needed missing found
  · obtain ⟨j,call,rfl,missing,fresh,which⟩ := records
    have more : Extends w outputs (insertCheckpoint outputs (w,j) call) := extends_insert _ _
    intro i row found
    rcases insert_row call fresh i row found with old_ | ⟨rfl,_⟩
    · obtain ⟨k',h',n',op',at',rest⟩ := fit.owned i row old_
      exact ⟨k',h',n',op',replay_kept more at',rest⟩
    · exact ⟨k,h,n,op,replay_kept more at_,next,which.imp (fun new => ⟨new.1,new.2.1⟩) fun new => ⟨new.1,new.2.1⟩⟩

theorem checkpoint_name (op : Operation) (input : Input) : (checkpoint op input).functionName = op.functionName := by
  cases op <;> rfl

theorem stored_none {functionID : Nat} {functionName : String} {checksName : Bool}
    (found : stored w outputs functionID functionName checksName = .ok none) : outputs.get? (w,functionID) = none := by
  unfold stored at found
  split at found
  · assumption
  · split at found <;> cases found

theorem stored_some {functionID : Nat} {functionName : String} {checksName : Bool} {row : OperationOutput}
    (found : stored w outputs functionID functionName checksName = .ok (some row)) :
    outputs.get? (w,functionID) = some row := by
  unfold stored at found
  split at found
  · cases found
  · split at found
    · cases found
    · cases found
      assumption

theorem stored_error {functionID : Nat} {functionName : String} {checksName : Bool} {err : DbosError}
    (found : stored w outputs functionID functionName checksName = .error err) :
    ∃ row, outputs.get? (w,functionID) = some row ∧ row.function_name ≠ functionName := by
  unfold stored at found
  split at found
  · cases found
  · rename_i row present
    split at found
    · rename_i differs
      exact ⟨row,present,differs.2⟩
    · cases found

/-- What an operation does, whatever it finds. -/
inductive Ran (throws : Operation → Result → Bool) (w : String) (outputs : OperationOutputs) (e : Executor) (op : Operation) :
    OperationOutputs → Executor → Prop
  | silent (silent : op.records = false) : Ran throws w outputs e op outputs (complete e op {})
  | threw (t : Result) (may : throws op t = true) : Ran throws w outputs e op outputs (complete e op t)
  | replays (row : OperationOutput) (records : op.records = true) (idle : e.waiting = false)
      (found : outputs.get? (w,e.curWFFunctionId) = some row) : Ran throws w outputs e op outputs (complete e op (op.returned row))
  | fails (err : DbosError) (records : op.records = true)
      (reason : (∃ row, outputs.get? (w,e.curWFFunctionId) = some row ∧ row.function_name ≠ op.functionName) ∨
        op.hasDeadline = true ∧ outputs.get? (w,e.curWFFunctionId) = none ∧
          ∃ row, outputs.get? (w,e.curWFFunctionId + 1) = some row ∧ row.function_name ≠ DBOS_FUNCNAME_SLEEP) :
      Ran throws w outputs e op outputs { e with error := some err }
  | waits (deadline : op.hasDeadline = true) (idle : e.waiting = false)
      (missing : outputs.get? (w,e.curWFFunctionId) = none) : Ran throws w outputs e op outputs { e with waiting := true }
  | records (call : CheckpointCall) (records : op.records = true) (name : call.functionName = op.functionName)
      (missing : e.waiting = true ∨ outputs.get? (w,e.curWFFunctionId) = none) :
      Ran throws w outputs e op (insertCheckpoint outputs (w,e.curWFFunctionId) call) (complete e op (op.returned (checkpointRow call)))
  | recordsDeadline (call : CheckpointCall) (deadline : op.hasDeadline = true) (idle : e.waiting = false)
      (name : call.functionName = DBOS_FUNCNAME_SLEEP) (missing : outputs.get? (w,e.curWFFunctionId) = none)
      (fresh : outputs.get? (w,e.curWFFunctionId + 1) = none) :
      Ran throws w outputs e op (insertCheckpoint outputs (w,e.curWFFunctionId + 1) call) { e with waiting := true }

theorem runOperation_ran {throws : Operation → Result → Bool} (outputs : OperationOutputs) (e : Executor) (op : Operation) {input : Input}
    (may : input.thrown = true → throws op input.result = true) :
    Ran throws w outputs e op (runOperation w outputs e op input).1 (runOperation w outputs e op input).2 := by
  unfold runOperation
  dsimp only
  split
  · exact .threw input.result (may (by assumption))
  split
  · exact .silent (by assumption)
  · rename_i records
    have records : op.records = true := by simpa using records
    split
    · exact .records _ records (checkpoint_name op input) (.inl (by assumption))
    · rename_i idle
      have idle : e.waiting = false := by simpa using idle
      split
      · rename_i err failed
        exact .fails err records (.inl (stored_error failed))
      · rename_i row found
        exact .replays row records idle (stored_some found)
      · rename_i missing
        split
        · rename_i deadline
          split
          · rename_i err failed
            exact .fails err records (.inr ⟨deadline,stored_none missing,stored_error failed⟩)
          · exact .waits deadline idle (stored_none missing)
          · rename_i fresh
            exact .recordsDeadline _ deadline idle rfl (stored_none missing) (stored_none fresh)
        · exact .records _ records (checkpoint_name op input) (.inr (stored_none missing))

theorem advance_ran {throws : Operation → Result → Bool} {s s' : System} {program : Program} {input : Input}
    (taken : advance throws w s program input = some s') : ∃ op outputs' e', program s.executor.results = some op ∧
      Ran throws w s.outputs s.executor op outputs' e' ∧ s' = { s with outputs := outputs',executor := e' } := by
  unfold advance at taken
  split at taken
  · cases taken
  · rename_i op made
    split at taken
    · cases taken
    · rename_i may
      cases taken
      exact ⟨op,_,_,made,runOperation_ran s.outputs s.executor op fun thrown => by simpa [thrown] using may,rfl⟩

/-- An operation leaves what is recorded under smaller IDs alone. -/
theorem ran_frame {throws : Operation → Result → Bool} {e e' : Executor} (ran : Ran throws w outputs e op outputs' e') :
    Extends w outputs outputs' ∧ (∀ j < e.curWFFunctionId,outputs'.get? (w,j) = outputs.get? (w,j)) ∧
      e.curWFFunctionId ≤ e'.curWFFunctionId ∧ e'.isPatched = e.isPatched := by
  have inserts : ∀ i call, e.curWFFunctionId ≤ i → ∀ j < e.curWFFunctionId,
      (insertCheckpoint outputs (w,i) call).get? (w,j) = outputs.get? (w,j) := by
    intro i call le j lower
    have other : (w,j) ≠ (w,i) := by
      intro same
      cases same
      omega
    rw [get?_insertCheckpoint,if_neg other]
  cases ran with
  | silent => exact ⟨fun _ _ found => found,fun _ _ => rfl,Nat.le_add_right _ _,rfl⟩
  | threw => exact ⟨fun _ _ found => found,fun _ _ => rfl,Nat.le_add_right _ _,rfl⟩
  | replays => exact ⟨fun _ _ found => found,fun _ _ => rfl,Nat.le_add_right _ _,rfl⟩
  | fails => exact ⟨fun _ _ found => found,fun _ _ => rfl,Nat.le_refl _,rfl⟩
  | waits => exact ⟨fun _ _ found => found,fun _ _ => rfl,Nat.le_refl _,rfl⟩
  | records call => exact ⟨extends_insert _ _,inserts _ call (Nat.le_refl _),Nat.le_add_right _ _,rfl⟩
  | recordsDeadline call => exact ⟨extends_insert _ _,inserts _ call (by omega),Nat.le_refl _,rfl⟩

/-- The executor moves on along the replay, with a result that the program may ignore. -/
theorem onPath_complete {e : Executor} (row : OperationOutput) {result : Result} (path : OnPath ignored old w outputs e h)
    (more : Extends w outputs outputs') (next : old h = some op) (found : rowFor ignored w outputs' h op e.curWFFunctionId = some row)
    (result_ : result = op.returned row ∨ ignored h = true) :
    OnPath ignored old w outputs' (complete e op result) (h ++ [op.returned row]) := by
  refine ⟨path.same.snoc _ _ result_,?_,by simp [complete],path.error⟩
  simp only [complete,List.length_append,List.length_cons,List.length_nil]
  exact replay_succ.mpr ⟨_,_,op,row,replay_kept more path.reached,next,found,rfl,rfl⟩

/-- An operation that is ignored, recorded or not. -/
theorem onPath_ignored {e : Executor} (path : OnPath ignored old w outputs e h) (more : Extends w outputs outputs')
    (next : old h = some op) (unneeded : needs ignored h op = false) (result : Result)
    (result_ : result = {} ∨ ignored h = true) : OnPath ignored old w outputs' (complete e op result) (h ++ [op.returned {}]) := by
  have blank : op.returned {} = {} := by cases op <;> rfl
  exact onPath_complete _ path more next (by simp [rowFor,unneeded]) (by rwa [blank])

/-- The workflow has ended with what an operation threw without a record. -/
structure Ended (p : Patch) (e : Executor) : Prop where
  ends : Ends p e.results
  error : e.error = none

/-- What an operation of the program does to an executor on the replay: no error, and a checkpoint
    only where one is missing. -/
theorem ran_path {p : Patch} {throws : Operation → Result → Bool} {e e' : Executor} {below : Nat → Prop} (steady : Steady p throws)
    (ignores : Ignores p throws ignored) (named : Named ignored p.old w outputs below) (bound : below e.results.length)
    (path : OnPath ignored p.old w outputs e h) (next : p.old h = some op) (ran : Ran throws w outputs e op outputs' e') :
    ((∃ h', OnPath ignored p.old w outputs' e' h') ∨ Ended p e') ∧
      (outputs' = outputs ∨ Records w outputs e.curWFFunctionId op outputs') ∧
      (e'.results = e.results ∨ ∃ r, e'.results = e.results ++ [r]) := by
  have refl : Extends w outputs outputs := fun _ _ found => found
  cases ran with
  | silent silent =>
    exact ⟨.inl ⟨_,onPath_ignored path refl next (by simp [needs,silent]) {} (.inl rfl)⟩,.inl rfl,.inr ⟨_,rfl⟩⟩
  | threw t may =>
    refine ⟨?_,.inl rfl,.inr ⟨_,rfl⟩⟩
    rcases steady h op t (made_replay path.reached) next may with indifferent | ends
    · have ignored_ : ignored h = true := (ignores h).mpr ⟨indifferent,op,t,next,may⟩
      exact .inl ⟨_,onPath_ignored path refl next (by simp [needs,ignored_]) t (.inr ignored_)⟩
    · obtain ⟨old,point⟩ := path.same.goes_on ignores [t]
      exact .inr ⟨⟨old.trans ends.1,point.trans ends.2⟩,path.error⟩
  | replays row records idle found =>
    refine ⟨.inl ?_,.inl rfl,.inr ⟨_,rfl⟩⟩
    by_cases needed : needs ignored h op = true
    · exact ⟨_,onPath_complete _ path refl next (by rw [rowFor,if_pos needed,found]) (.inl rfl)⟩
    · have ignored_ : ignored h = true := by simpa [needs,records] using needed
      exact ⟨_,onPath_ignored path refl next (by simpa using needed) _ (.inr ignored_)⟩
  | fails err records reason =>
    rcases reason with ⟨row,found,differs⟩ | ⟨deadline,_,row,found,differs⟩
    · exact absurd (named.names _ _ _ _ row bound path.reached next records found) differs
    · exact absurd (named.deadlines _ _ _ _ row bound path.reached next deadline found) differs
  | waits deadline idle missing =>
    exact ⟨.inl ⟨h,path.same,path.reached,fun _ => ⟨op,next,deadline,missing⟩,path.error⟩,.inl rfl,.inl rfl⟩
  | records call records name missing =>
    have missing : outputs.get? (w,e.curWFFunctionId) = none := by
      rcases missing with waiting | missing
      · obtain ⟨_,_,_,missing⟩ := path.waits waiting
        exact missing
      · exact missing
    refine ⟨.inl ?_,.inr ⟨_,call,rfl,missing,missing,.inl ⟨rfl,records,name⟩⟩,.inr ⟨_,rfl⟩⟩
    by_cases needed : needs ignored h op = true
    · refine ⟨_,onPath_complete (checkpointRow call) path (extends_insert _ _) next ?_ (.inl rfl)⟩
      rw [rowFor,if_pos needed,get?_insertCheckpoint,if_pos rfl,missing]
      rfl
    · have ignored_ : ignored h = true := by simpa [needs,records] using needed
      exact ⟨_,onPath_ignored path (extends_insert _ _) next (by simpa using needed) _ (.inr ignored_)⟩
  | recordsDeadline call deadline idle name missing fresh =>
    refine ⟨.inl ⟨h,path.same,replay_kept (extends_insert _ _) path.reached,?_,path.error⟩,
      .inr ⟨_,call,rfl,missing,fresh,.inr ⟨rfl,deadline,name⟩⟩,.inl rfl⟩
    intro _
    refine ⟨op,next,deadline,?_⟩
    have other : (w,e.curWFFunctionId) ≠ (w,e.curWFFunctionId + 1) := by simp
    rw [get?_insertCheckpoint,if_neg other]
    exact missing

end
/-! ### The condition -/

section
variable (throws : Operation → Result → Bool) (p : Patch)

/-- The histories that an execution of the new code can have before it calls `DBOS.patch`. -/
inductive Reaches : List Result → Prop
  | start : Reaches []
  | next (h : List Result) (op : Operation) (row : OperationOutput) (before : Reaches h) (elsewhere : p.point h = false)
      (made : p.old h = some op) : Reaches (h ++ [op.returned row])

/-- What a sleep returns. -/
def nothing : Result := {}

/-- The program makes no checkpoint any more. -/
def Silent (old : Program) (h : List Result) : Prop :=
  ∀ k, (∀ j < k,(old (h ++ List.replicate j nothing)).isSome) → ∀ op, old (h ++ List.replicate k nothing) = some op → op.records = false

/-- The first checkpoint that the program makes from here, if it makes any, is under the next
    function ID, and it is not named like the patch. -/
def Firm (h : List Result) : Prop :=
  ∀ op, p.old h = some op →
    (op.records = true ∧ op.hasDeadline = false ∧ op.functionName ≠ markerName p.patchName ∧
      ∀ t, throws op t = true → Silent p.old (h ++ [t])) ∨ Silent p.old h

/-- What the patch is to do: it returns `false` and takes no function ID if and only if the crashed
    execution had made a checkpoint at its point or beyond, it always gives the same answer, and the
    old branch finds the names that it expects. -/
structure Sound (w : String) (s : System) : Prop where
  decides : ∀ crashed, s.crashed = some crashed → ∀ a ∈ s.answers,
    (a.isPatched = false ∧ a.next = a.functionID ↔ ∃ j ≥ a.functionID,(crashed.get? (w,j)).isSome)
  stable : ∀ a ∈ s.answers,∀ b ∈ s.answers,a = b
  replays : s.executor.error.isSome → s.executor.isPatched = some true

end
section
variable {throws : Operation → Result → Bool} {p : Patch} {ignored : List Result → Bool} {w : String} {outputs outputs' : OperationOutputs}
  {k n : Nat} {h : List Result}

/-- The replay comes to the point of the patch for the first time. -/
structure AtPoint (ignored : List Result → Bool) (p : Patch) (w : String) (outputs : OperationOutputs) (k : Nat) (h : List Result) (n : Nat) :
    Prop where
  reached : replay ignored p.old w outputs k = some (h,n)
  here : p.point h = true
  first : ∀ j < k,∀ h' n', replay ignored p.old w outputs j = some (h',n') → p.point h' = false

theorem atPoint_unique {k' n' : Nat} {h' : List Result} (one : AtPoint ignored p w outputs k h n)
    (other : AtPoint ignored p w outputs k' h' n') : k = k' ∧ h = h' ∧ n = n' := by
  have same : k = k' := by
    rcases Nat.lt_trichotomy k k' with lower | same | upper
    · have missed := other.first k lower h n one.reached
      rw [one.here] at missed
      cases missed
    · exact same
    · have missed := one.first k' upper h' n' other.reached
      rw [other.here] at missed
      cases missed
  subst same
  cases one.reached.symm.trans other.reached
  exact ⟨rfl,rfl,rfl⟩

theorem atPoint_kept (more : Extends w outputs outputs') (at_ : AtPoint ignored p w outputs k h n) : AtPoint ignored p w outputs' k h n := by
  refine ⟨replay_kept more at_.reached,at_.here,?_⟩
  intro j lower h' n' reached
  rw [replay_same more at_.reached (Nat.le_of_lt lower)] at reached
  exact at_.first j lower h' n' reached

theorem silent_returns {op : Operation} (silent : op.records = false) (row : OperationOutput) : op.returned row = nothing := by
  cases op with
  | sleep durationMS => rfl
  | _ => cases silent

/-- Histories of a replay before the point. -/
theorem reaches_replay (reached : replay ignored p.old w outputs k = some (h,n))
    (before : ∀ j < k,∀ h' n', replay ignored p.old w outputs j = some (h',n') → p.point h' = false) : Reaches p h := by
  induction k generalizing h n with
  | zero =>
    cases reached
    exact .start
  | succ k ih =>
    obtain ⟨h,n,op,row,at_,made,_,rfl,_⟩ := replay_succ.mp reached
    exact .next h op row (ih at_ fun j lower => before j (by omega)) (before k (by omega) h n at_) made

/-- A program that is silent from somewhere on is silent wherever the replay gets from there. -/
theorem silent_replay {h' : List Result} {k' n' : Nat} (silent : Silent p.old h) (at_ : replay ignored p.old w outputs k = some (h,n))
    (later : replay ignored p.old w outputs k' = some (h',n')) (le : k ≤ k') :
    h' = h ++ List.replicate (k' - k) nothing ∧ ∀ j < k' - k,(p.old (h ++ List.replicate j nothing)).isSome := by
  induction k' generalizing h' n' with
  | zero =>
    cases Nat.le_zero.mp le
    cases at_.symm.trans later
    simp
  | succ k' ih =>
    rcases Nat.lt_or_eq_of_le le with lt | rfl
    · obtain ⟨h₁,n₁,op,row,before,made,_,rfl,_⟩ := replay_succ.mp later
      obtain ⟨rfl,made'⟩ := ih before (by omega)
      have bare := silent (k' - k) made' op made
      have count : k' + 1 - k = k' - k + 1 := by omega
      rw [silent_returns bare,count,List.replicate_succ']
      refine ⟨by simp,?_⟩
      intro j small
      rcases Nat.lt_succ_iff_lt_or_eq.mp small with lower | rfl
      · exact made' j lower
      · rw [made]
        rfl
    · cases at_.symm.trans later
      simp

/-- A silent program has nothing to record from there on. -/
theorem silent_owned {h' : List Result} {k' n' j : Nat} {op : Operation} (silent : Silent p.old h)
    (at_ : replay ignored p.old w outputs k = some (h,n)) (later : replay ignored p.old w outputs k' = some (h',n')) (le : k ≤ k')
    (made : p.old h' = some op) (which : j = n' ∧ op.records = true ∨ j = n' + 1 ∧ op.hasDeadline = true) : False := by
  obtain ⟨rfl,made'⟩ := silent_replay silent at_ later le
  have bare := silent _ made' op made
  rcases which with ⟨_,records⟩ | ⟨_,deadline⟩
  · rw [records] at bare
    cases bare
  · rw [(deadline_spec deadline).2] at bare
    cases bare

/-- Where the outcome of an operation is ignored, the replay goes on without it. -/
theorem replay_ignored {op : Operation} (reached : replay ignored p.old w outputs k = some (h,n)) (made : p.old h = some op)
    (ignored_ : ignored h = true) : replay ignored p.old w outputs (k + 1) = some (h ++ [nothing],n + op.ids) := by
  have blank : op.returned {} = nothing := by cases op <;> rfl
  exact replay_succ.mpr ⟨h,n,op,{},reached,made,by simp [rowFor,needs,ignored_],by rw [blank],rfl⟩

/-- Where the point is firm, a checkpoint at it or beyond means one under its own function ID, made
    by the operation there. -/
theorem firm_row (ignores : Ignores p throws ignored) (fit : Fit ignored p.old w outputs)
    (reached : replay ignored p.old w outputs k = some (h,n)) (firm : Firm throws p h) {j : Nat}
    {row : OperationOutput} (le : n ≤ j) (found : outputs.get? (w,j) = some row) :
    ∃ row, outputs.get? (w,n) = some row ∧ row.function_name ≠ markerName p.patchName := by
  obtain ⟨k',h',n',op',at',made',which⟩ := fit.owned j row found
  have inside : j < n' + op'.ids := ids_cover (which.imp_left And.left)
  have later : k ≤ k' := by
    by_contra earlier
    obtain ⟨op'',_,made'',_,above,_⟩ := replay_below at' reached (by omega)
    cases made''.symm.trans made'
    omega
  -- The operation at the point is recorded, since the program is not silent from there.
  obtain ⟨op,made⟩ : ∃ op, p.old h = some op := by
    rcases Nat.lt_or_eq_of_le later with lt | rfl
    · obtain ⟨op,_,made,_⟩ := replay_below reached at' lt
      exact ⟨op,made⟩
    · cases at'.symm.trans reached
      exact ⟨op',made'⟩
  rcases firm op made with ⟨records,deadline,name,unthrown⟩ | silent
  · have present : ∃ row, outputs.get? (w,n) = some row := by
      rcases Nat.lt_or_eq_of_le later with lt | rfl
      · cases unlooked : ignored h with
        | false =>
          obtain ⟨op'',row'',made'',found'',_⟩ := replay_below reached at' lt
          cases made''.symm.trans made
          rw [rowFor,if_pos (by simp [needs,records,unlooked])] at found''
          exact ⟨row'',found''⟩
        | true =>
          -- After a throw there are no checkpoints, so after a record there are none either.
          obtain ⟨indifferent,op'',t,made'',may⟩ := (ignores h).mp unlooked
          cases made''.symm.trans made
          have silent : Silent p.old (h ++ [nothing]) := by
            have thrown := unthrown t may
            have same : ∀ rest, p.old (h ++ [t] ++ rest) = p.old (h ++ [nothing] ++ rest) := by
              intro rest
              simpa using (indifferent t nothing rest).1
            unfold Silent at thrown ⊢
            simpa only [same] using thrown
          exact (silent_owned silent (replay_ignored reached made unlooked) at' (by omega) made' which).elim
      · cases at'.symm.trans reached
        cases made'.symm.trans made
        rcases which with ⟨rfl,_⟩ | ⟨_,deadline'⟩
        · exact ⟨row,found⟩
        · rw [deadline] at deadline'
          cases deadline'
    obtain ⟨row,present⟩ := present
    exact ⟨row,present,fun same => name ((fit.named.names k h n op row trivial reached made records present).symm.trans same)⟩
  · exact (silent_owned silent reached at' later made' which).elim

/-! ### The invariant -/

/-- The new code has not called `DBOS.patch` yet, or has always found the point passed. -/
inductive Unpatched (ignored : List Result → Bool) (p : Patch) (w : String) (crashed : OperationOutputs) (s : System) : Prop
  | waiting (unasked : s.answers = []) (undecided : s.executor.isPatched = none)
      (same : ∀ k h n, AtPoint ignored p w s.outputs k h n → ∀ j ≥ n,∀ row, s.outputs.get? (w,j) = some row →
        (crashed.get? (w,j)).isSome)
  | passed (k : Nat) (h : List Result) (n : Nat) (point : AtPoint ignored p w s.outputs k h n) (row : OperationOutput)
      (found : s.outputs.get? (w,n) = some row) (other : row.function_name ≠ markerName p.patchName)
      (made : ∃ j ≥ n,(crashed.get? (w,j)).isSome) (same : ∀ a ∈ s.answers,a = ⟨n,false,n⟩)

/-- The executor is on the replay, or the workflow has ended. -/
def Placed (ignored : List Result → Bool) (p : Patch) (w : String) (outputs : OperationOutputs) (e : Executor) : Prop :=
  (∃ h, OnPath ignored p.old w outputs e h) ∨ Ended p e

/-- The checkpoints are those of the old program. -/
structure Plain (ignored : List Result → Bool) (p : Patch) (w : String) (s : System) : Prop where
  fit : Fit ignored p.old w s.outputs
  path : Placed ignored p w s.outputs s.executor
  notNew : s.executor.isPatched ≠ some true
  before : s.crashed = none → s.answers = []
  after : ∀ crashed, s.crashed = some crashed → Extends w crashed s.outputs ∧ Unpatched ignored p w crashed s ∧
    (s.executor.isPatched = none → ∀ j < s.executor.results.length,∀ h n, replay ignored p.old w s.outputs j = some (h,n) →
      p.point h = false)

/-- The patch is recorded at its point, which the old program had not passed. -/
structure Marked (ignored : List Result → Bool) (p : Patch) (w : String) (s : System) : Prop where
  point : ∃ k h n row, AtPoint ignored p w s.outputs k h n ∧ s.outputs.get? (w,n) = some row ∧
    row.function_name = markerName p.patchName ∧ Named ignored p.old w s.outputs (· < k) ∧
    (∃ crashed, s.crashed = some crashed ∧ ∀ j ≥ n,crashed.get? (w,j) = none) ∧ (∀ a ∈ s.answers,a = ⟨n,true,n + 1⟩) ∧
    (s.executor.isPatched = none →
      (∃ h, OnPath ignored p.old w s.outputs s.executor h) ∧ s.executor.results.length ≤ k ∨ Ended p s.executor) ∧
    (s.executor.isPatched = some true → n < s.executor.curWFFunctionId)
  notOld : s.executor.isPatched ≠ some false

variable {s s' : System}

theorem placed_error {e : Executor} (placed : Placed ignored p w outputs e) : e.error = none := by
  rcases placed with ⟨_,path⟩ | ended
  · exact path.error
  · exact ended.error

/-- Whoever is at the point has come there on the replay. -/
theorem placed_point {e : Executor} (placed : Placed ignored p w outputs e) (here : p.point e.results = true) :
    ∃ h, OnPath ignored p.old w outputs e h := by
  rcases placed with path | ended
  · exact path
  · rw [ended.ends.2] at here
    cases here

/-- The old program makes its next checkpoint. -/
theorem plain_advance {input : Input} (steady : Steady p throws) (ignores : Ignores p throws ignored) (plain : Plain ignored p w s)
    (elsewhere : s.crashed.isSome → s.executor.isPatched = none → p.point s.executor.results = false)
    (taken : advance throws w s p.old input = some s') : Plain ignored p w s' := by
  obtain ⟨op,outputs',e',made,ran,rfl⟩ := advance_ran taken
  obtain ⟨h,path⟩ : ∃ h, OnPath ignored p.old w s.outputs s.executor h := by
    rcases plain.path with path | ended
    · exact path
    · cases ended.ends.1.symm.trans made
  have made : p.old h = some op := (path.same.old ignores).symm.trans made
  obtain ⟨more,_,_,patched⟩ := ran_frame ran
  obtain ⟨path',change,moved⟩ := ran_path steady ignores plain.fit.named trivial path made ran
  have fit : Fit ignored p.old w outputs' := by
    rcases change with rfl | records
    · exact plain.fit
    · exact fit_insert plain.fit path.reached made records
  refine ⟨fit,path',by rw [patched]; exact plain.notNew,plain.before,?_⟩
  intro crashed deployed
  obtain ⟨kept,unpatched,before⟩ := plain.after crashed deployed
  have here : s.executor.isPatched = none → p.point s.executor.results = false :=
    elsewhere (by rw [show s.crashed = some crashed from deployed]; rfl)
  have prior : s.executor.isPatched = none → ∀ j ≤ s.executor.results.length,∀ h n,
      replay ignored p.old w outputs' j = some (h,n) → p.point h = false := by
    intro undecided j le h n reached
    rw [replay_same more path.reached le] at reached
    rcases Nat.lt_or_eq_of_le le with lower | rfl
    · exact before undecided j lower h n reached
    · cases reached.symm.trans path.reached
      exact (path.same.point ignores).symm.trans (here undecided)
  refine ⟨fun n row found => more n row (kept n row found),?_,?_⟩
  · cases unpatched with
    | waiting unasked undecided same =>
      refine .waiting unasked (patched.trans undecided) ?_
      intro k h' n point j le row found
      rcases change with rfl | ⟨i,call,rfl,missing,fresh,which⟩
      · exact same k h' n point j le row found
      · -- The point is still ahead, and nothing is recorded there.
        have ahead : s.executor.results.length < k := by
          by_contra reached
          have missed := prior undecided k (by omega) h' n point.reached
          rw [point.here] at missed
          cases missed
        obtain ⟨op',_,made',_,above,_⟩ := replay_below (replay_kept more path.reached) point.reached ahead
        cases made'.symm.trans made
        have inside : i < s.executor.curWFFunctionId + op.ids := ids_cover (which.imp And.left fun deadline => ⟨deadline.1,deadline.2.1⟩)
        have first : s.executor.curWFFunctionId ≤ i := by rcases which with ⟨rfl,_⟩ | ⟨rfl,_⟩ <;> omega
        rcases insert_row call fresh j row found with old | ⟨rfl,_⟩
        · rcases replay_insert path.reached made call first inside point.reached with reached | ⟨needed,_⟩
          · refine same k h' n ⟨reached,point.here,?_⟩ j le row old
            intro j' lower h'' n'' at_
            exact point.first j' lower h'' n'' (replay_kept more at_)
          · have := fit_bound plain.fit path.reached made needed missing old
            omega
        · omega
    | passed k h n point row found other made same =>
      exact .passed k h n (atPoint_kept more point) row (more n row found) other made same
  · intro undecided j lower h n reached
    refine prior (patched.symm.trans undecided) j ?_ h n reached
    rcases moved with same | ⟨r,same⟩
    · rw [show e'.results = _ from same] at lower
      omega
    · rw [show e'.results = _ from same,List.length_append] at lower
      simp only [List.length_cons,List.length_nil] at lower
      omega

/-- Names of operations before the point do not depend on what is recorded from there on. -/
theorem named_below {below : Nat → Prop} (named : Named ignored p.old w outputs below) (all : ∀ j < k,below j)
    (reached : replay ignored p.old w outputs k = some (h,n)) (more : Extends w outputs outputs')
    (same : ∀ j < n,outputs'.get? (w,j) = outputs.get? (w,j)) : Named ignored p.old w outputs' (· < k) := by
  constructor
  · intro j h' n' op row lower at_ made records found
    rw [replay_same more reached (Nat.le_of_lt lower)] at at_
    obtain ⟨op',_,_,_,above,_⟩ := replay_below at_ reached lower
    have positive := ids_pos op'
    rw [same n' (by omega)] at found
    exact named.names j h' n' op row (all j lower) at_ made records found
  · intro j h' n' op row lower at_ made deadline found
    rw [replay_same more reached (Nat.le_of_lt lower)] at at_
    obtain ⟨op',_,made',_,above,_⟩ := replay_below at_ reached lower
    cases made'.symm.trans made
    have two := (deadline_spec deadline).1
    rw [same (n' + 1) (by omega)] at found
    exact named.deadlines j h' n' op row (all j lower) at_ made deadline found

/-- What `DBOS.patch` does with a row under the next function ID. -/
theorem callPatch_found {input : Input} {row : OperationOutput}
    (found : s.outputs.get? (w,s.executor.curWFFunctionId) = some row) :
    callPatch p w s input = if row.function_name = markerName p.patchName then
      { s with
        executor := { s.executor with isPatched := some true,curWFFunctionId := s.executor.curWFFunctionId + 1 }
        answers := s.answers ++ [⟨s.executor.curWFFunctionId,true,s.executor.curWFFunctionId + 1⟩] }
    else
      { s with
        executor := { s.executor with isPatched := some false }
        answers := s.answers ++ [⟨s.executor.curWFFunctionId,false,s.executor.curWFFunctionId⟩] } := by
  unfold callPatch patch checkPatch
  rw [found]
  by_cases marker : row.function_name = markerName p.patchName
  · simp [marker]
  · simp [marker]

theorem callPatch_missing (p : Patch) (input : Input) (missing : s.outputs.get? (w,s.executor.curWFFunctionId) = none) :
    ∃ row : OperationOutput, row.function_name = markerName p.patchName ∧ callPatch p w s input =
      { s with
        outputs := s.outputs.insert (w,s.executor.curWFFunctionId) row
        executor := { s.executor with isPatched := some true,curWFFunctionId := s.executor.curWFFunctionId + 1 }
        answers := s.answers ++ [⟨s.executor.curWFFunctionId,true,s.executor.curWFFunctionId + 1⟩] } := by
  unfold callPatch patch checkPatch
  rw [missing]
  refine ⟨_,rfl,rfl⟩

/-- The new code calls `DBOS.patch` on checkpoints of the old program. -/
theorem plain_callPatch {input : Input} (ignores : Ignores p throws ignored) (plain : Plain ignored p w s) {crashed : OperationOutputs}
    (deployed : s.crashed = some crashed) (undecided : s.executor.isPatched = none) (here : p.point s.executor.results = true)
    (firm : ∀ h, Reaches p h → p.point h = true → Firm throws p h) :
    Plain ignored p w (callPatch p w s input) ∨ Marked ignored p w (callPatch p w s input) := by
  obtain ⟨kept,unpatched,before⟩ := plain.after crashed deployed
  obtain ⟨h,path⟩ := placed_point plain.path here
  have here : p.point h = true := (path.same.point ignores).symm.trans here
  have firm : Firm throws p h := firm h (reaches_replay path.reached (before undecided)) here
  have point : AtPoint ignored p w s.outputs s.executor.results.length h s.executor.curWFFunctionId :=
    ⟨path.reached,here,before undecided⟩
  cases found : s.outputs.get? (w,s.executor.curWFFunctionId) with
  | some row =>
    obtain ⟨row',found',name⟩ := firm_row ignores plain.fit path.reached firm (Nat.le_refl _) found
    cases found.symm.trans found'
    have path' : OnPath ignored p.old w s.outputs { s.executor with isPatched := some false } h :=
      ⟨path.same,path.reached,path.waits,path.error⟩
    rw [callPatch_found found,if_neg name]
    refine .inl ⟨plain.fit,.inl ⟨h,path'⟩,by simp,by simp [deployed],?_⟩
    intro crashed' deployed'
    cases deployed.symm.trans deployed'
    refine ⟨kept,?_,by simp⟩
    cases unpatched with
    | waiting unasked _ same =>
      refine .passed _ _ _ point row found name ⟨_,Nat.le_refl _,same _ _ _ point _ (Nat.le_refl _) row found⟩ ?_
      simp [unasked]
    | passed k h n point' row' found' other made same =>
      obtain ⟨rfl,rfl,rfl⟩ := atPoint_unique point point'
      refine .passed _ _ _ point row found name made ?_
      intro a member
      rcases List.mem_append.mp member with old | new
      · exact same a old
      · exact List.mem_singleton.mp new
  | none =>
    -- The point is not passed: nothing is recorded there or beyond.
    have absent : ∀ j ≥ s.executor.curWFFunctionId,s.outputs.get? (w,j) = none := by
      intro j le
      by_contra present
      obtain ⟨row,found'⟩ := Option.ne_none_iff_exists'.mp present
      obtain ⟨row',found'',_⟩ := firm_row ignores plain.fit path.reached firm le found'
      cases found.symm.trans found''
    have unasked : s.answers = [] := by
      cases unpatched with
      | waiting unasked => exact unasked
      | passed k h n point' row' found' other made same =>
        obtain ⟨rfl,rfl,rfl⟩ := atPoint_unique point point'
        cases found.symm.trans found'
    obtain ⟨row,name,called⟩ := callPatch_missing p input found
    rw [called]
    have more : Extends w s.outputs (s.outputs.insert (w,s.executor.curWFFunctionId) row) := by
      intro n row' found'
      rcases s.outputs.insert_cases (w,s.executor.curWFFunctionId) row (w,n) with same | ⟨_,missing,_⟩
      · exact same.trans found'
      · cases found'.symm.trans missing
    have below : ∀ n < s.executor.curWFFunctionId,
        (s.outputs.insert (w,s.executor.curWFFunctionId) row).get? (w,n) = s.outputs.get? (w,n) := by
      intro n lower
      have other : (w,n) ≠ (w,s.executor.curWFFunctionId) := by
        intro same
        cases same
        omega
      rw [Table.get?_insert,if_neg other]
    refine .inr ⟨⟨_,_,_,row,atPoint_kept more point,by simp [found],name,?_,⟨crashed,deployed,?_⟩,by simp [unasked],by simp,
      by simp⟩,by simp⟩
    · exact named_below plain.fit.named (fun _ _ => trivial) path.reached more below
    · intro j le
      by_contra present
      obtain ⟨row',found'⟩ := Option.ne_none_iff_exists'.mp present
      cases (absent j le).symm.trans (kept j row' found')

/-- The executor is at the point and finds the marker. -/
theorem marked_answer {input : Input} (ignores : Ignores p throws ignored) (marked : Marked ignored p w s)
    (undecided : s.executor.isPatched = none) (here : p.point s.executor.results = true) : Marked ignored p w (callPatch p w s input) := by
  obtain ⟨⟨k,h,n,row,point,found,name,names,clear,same,early,_⟩,_⟩ := marked
  rcases early undecided with ⟨⟨h',path⟩,le⟩ | ended
  · have this : AtPoint ignored p w s.outputs s.executor.results.length h' s.executor.curWFFunctionId :=
      ⟨path.reached,(path.same.point ignores).symm.trans here,fun j lower => point.first j (by omega)⟩
    obtain ⟨rfl,rfl,rfl⟩ := atPoint_unique point this
    rw [callPatch_found found,if_pos name]
    refine ⟨⟨_,_,_,row,point,found,name,names,clear,?_,by simp,by simp⟩,by simp⟩
    intro a member
    rcases List.mem_append.mp member with old | new
    · exact same a old
    · exact List.mem_singleton.mp new
  · rw [ended.ends.2] at here
    cases here

/-- The executor replays what the old program did before the point. -/
theorem marked_replay {input : Input} (steady : Steady p throws) (ignores : Ignores p throws ignored) (marked : Marked ignored p w s)
    (undecided : s.executor.isPatched = none) (elsewhere : p.point s.executor.results = false)
    (taken : advance throws w s p.old input = some s') : Marked ignored p w s' := by
  obtain ⟨⟨k,h,n,row,point,found,name,names,clear,same,early,_⟩,notOld⟩ := marked
  obtain ⟨op,outputs',e',made,ran,rfl⟩ := advance_ran taken
  obtain ⟨more,_,_,patched⟩ := ran_frame ran
  rcases early undecided with ⟨⟨h',path⟩,le⟩ | ended
  · have lower : s.executor.results.length < k := by
      rcases Nat.lt_or_eq_of_le le with lower | equal
      · exact lower
      · have reached := path.reached
        rw [equal] at reached
        cases reached.symm.trans point.reached
        have here := (path.same.point ignores).trans point.here
        cases elsewhere.symm.trans here
    have made : p.old h' = some op := (path.same.old ignores).symm.trans made
    obtain ⟨path',change,moved⟩ := ran_path steady ignores names lower path made ran
    refine ⟨⟨k,h,n,row,atPoint_kept more point,more n row found,name,?_,clear,same,?_,?_⟩,by rw [patched]; exact notOld⟩
    · rcases change with rfl | records
      · exact names
      · -- What the replay to the point needs is recorded.
        refine named_insert names path.reached made records ?_
        intro needed
        obtain ⟨op',row',made',found',_⟩ := replay_below path.reached point.reached lower
        cases made'.symm.trans made
        obtain ⟨_,_,_,missing,_⟩ := records
        rw [rowFor,if_pos needed,missing] at found'
        cases found'
    · intro _
      refine path'.imp_left fun path => ⟨path,?_⟩
      rcases moved with same | ⟨r,same⟩
      · rw [show e'.results = _ from same]
        exact le
      · rw [show e'.results = _ from same,List.length_append]
        exact lower
    · intro new
      cases (patched.trans undecided).symm.trans new
  · cases ended.ends.1.symm.trans made

/-- The new branch is beyond the point. -/
theorem marked_beyond {program : Program} {input : Input} (marked : Marked ignored p w s) (new : s.executor.isPatched = some true)
    (taken : advance throws w s program input = some s') : Marked ignored p w s' := by
  obtain ⟨⟨k,h,n,row,point,found,name,names,clear,same,_,late⟩,_⟩ := marked
  have beyond := late new
  obtain ⟨op,outputs',e',_,ran,rfl⟩ := advance_ran taken
  obtain ⟨more,frame,forward,patched⟩ := ran_frame ran
  refine ⟨⟨k,h,n,row,atPoint_kept more point,more n row found,name,?_,clear,same,?_,?_⟩,?_⟩
  · exact named_below names (fun _ lower => lower) point.reached more fun i lower => frame i (by omega)
  · intro undecided
    exact absurd (undecided.symm.trans (patched.trans new)) (by simp)
  · intro _
    exact Nat.lt_of_lt_of_le beyond forward
  · rw [show e'.isPatched = _ from patched.trans new]
    simp

/-- The new code runs on where the patch is recorded. -/
theorem marked_next {input : Input} (steady : Steady p throws) (ignores : Ignores p throws ignored) (marked : Marked ignored p w s)
    (taken : step throws p w s (.next input) = some s') : Marked ignored p w s' := by
  obtain ⟨_,_,_,_,_,_,_,_,⟨crashed,deployed,_⟩,_⟩ := marked.point
  simp only [step] at taken
  split at taken
  · cases taken
  split at taken
  · rename_i none_
    rw [deployed] at none_
    cases none_
  · rename_i undecided
    split at taken
    · rename_i here
      cases taken
      exact marked_answer ignores marked undecided here
    · rename_i elsewhere
      exact marked_replay steady ignores marked undecided (by simpa using elsewhere) taken
  · rename_i old
    exact absurd old marked.notOld
  · rename_i new
    exact marked_beyond marked new taken

/-- The executor begins again. -/
theorem onPath_start (old : Program) (w : String) (outputs : OperationOutputs) : OnPath ignored old w outputs {} [] := ⟨.nil,rfl,by simp,rfl⟩

theorem plain_start {outputs : OperationOutputs} (fresh : ∀ n, outputs.get? (w,n) = none) : Plain ignored p w (start outputs) := by
  refine ⟨⟨⟨?_,?_⟩,?_⟩,.inl ⟨[],onPath_start _ _ _⟩,by simp [start],fun _ => rfl,by simp [start]⟩
  · intro k h n op row _ _ _ _ found
    rw [start,fresh] at found
    cases found
  · intro k h n op row _ _ _ _ found
    rw [start,fresh] at found
    cases found
  · intro j row found
    rw [start,fresh] at found
    cases found

/-- The executor starts again. -/
theorem plain_recover (plain : Plain ignored p w s) : Plain ignored p w { s with executor := {} } := by
  refine ⟨plain.fit,.inl ⟨[],onPath_start _ _ _⟩,by simp,plain.before,?_⟩
  intro crashed deployed
  obtain ⟨kept,unpatched,_⟩ := plain.after crashed deployed
  refine ⟨kept,?_,by simp⟩
  cases unpatched with
  | waiting unasked _ same => exact .waiting unasked rfl same
  | passed k h n point row found other made same => exact .passed k h n point row found other made same

theorem marked_recover (marked : Marked ignored p w s) : Marked ignored p w { s with executor := {} } := by
  obtain ⟨⟨k,h,n,row,point,found,name,names,clear,same,_,_⟩,_⟩ := marked
  exact ⟨⟨k,h,n,row,point,found,name,names,clear,same,fun _ => .inl ⟨⟨[],onPath_start _ _ _⟩,Nat.zero_le k⟩,by simp⟩,by simp⟩

theorem step_plain {event : Event} (steady : Steady p throws) (ignores : Ignores p throws ignored)
    (firm : ∀ h, Reaches p h → p.point h = true → Firm throws p h) (plain : Plain ignored p w s)
    (taken : step throws p w s event = some s') : Plain ignored p w s' ∨ Marked ignored p w s' := by
  cases event with
  | next input =>
    simp only [step] at taken
    split at taken
    · cases taken
    split at taken
    · rename_i running
      exact .inl (plain_advance steady ignores plain (by simp [running]) taken)
    · rename_i crashed deployed undecided
      split at taken
      · rename_i here
        cases taken
        exact plain_callPatch ignores plain deployed undecided here firm
      · rename_i elsewhere
        exact .inl (plain_advance steady ignores plain (fun _ _ => by simpa using elsewhere) taken)
    · rename_i old
      exact .inl (plain_advance steady ignores plain (by simp [old]) taken)
    · rename_i new
      exact absurd new plain.notNew
  | recover =>
    cases taken
    exact .inl (plain_recover plain)
  | deploy =>
    simp only [step] at taken
    split at taken
    · rename_i running
      cases taken
      refine .inl ⟨plain.fit,.inl ⟨[],onPath_start _ _ _⟩,by simp,by simp,?_⟩
      intro crashed deployed
      cases deployed
      refine ⟨fun _ _ found => found,.waiting (plain.before running) rfl ?_,by simp⟩
      intro k h n _ j _ row found
      rw [show s.outputs.get? (w,j) = some row from found]
      rfl
    · cases taken

theorem step_marked {event : Event} (steady : Steady p throws) (ignores : Ignores p throws ignored) (marked : Marked ignored p w s)
    (taken : step throws p w s event = some s') : Marked ignored p w s' := by
  cases event with
  | next input => exact marked_next steady ignores marked taken
  | recover =>
    cases taken
    exact marked_recover marked
  | deploy =>
    obtain ⟨⟨_,_,_,_,_,_,_,_,⟨crashed,deployed,_⟩,_⟩,_⟩ := marked
    simp only [step,deployed] at taken
    cases taken

theorem sound_plain (plain : Plain ignored p w s) : Sound w s := by
  refine ⟨?_,?_,?_⟩
  · intro crashed deployed a member
    obtain ⟨_,unpatched,_⟩ := plain.after crashed deployed
    cases unpatched with
    | waiting unasked =>
      rw [unasked] at member
      cases member
    | passed k h n _ _ _ _ made same =>
      rw [same a member]
      exact ⟨fun _ => made,fun _ => ⟨rfl,rfl⟩⟩
  · intro a member b member'
    cases deployed : s.crashed with
    | none =>
      rw [plain.before deployed] at member
      cases member
    | some crashed =>
      obtain ⟨_,unpatched,_⟩ := plain.after crashed deployed
      cases unpatched with
      | waiting unasked =>
        rw [unasked] at member
        cases member
      | passed k h n _ _ _ _ _ same => exact (same a member).trans (same b member').symm
  · rw [placed_error plain.path]
    simp

theorem sound_marked (marked : Marked ignored p w s) : Sound w s := by
  obtain ⟨⟨k,h,n,_,_,_,_,_,⟨crashed,deployed,clear⟩,same,early,_⟩,notOld⟩ := marked
  refine ⟨?_,fun a member b member' => (same a member).trans (same b member').symm,?_⟩
  · intro crashed' deployed' a member
    cases deployed.symm.trans deployed'
    rw [same a member]
    refine ⟨by simp,?_⟩
    rintro ⟨j,le,present⟩
    rw [clear j le] at present
    cases present
  · intro failed
    cases decided : s.executor.isPatched with
    | none =>
      rw [placed_error ((early decided).imp_left And.left)] at failed
      cases failed
    | some answer =>
      cases answer with
      | true => rfl
      | false => exact absurd decided notOld

end
end Dbos.PatchSoundness
