import Dbos.Context
import Dbos.Pg.Run

/-!
The function IDs of an execution. Contexts are kept as numbered objects, and code that runs in any of them may
call any operation at any time, so that operations that nobody has awaited, the attempts of a step and the
callbacks of transactions run in every order. An ID is used by one operation only as long as no
step and no transaction has the ID 0, which `isInStepCtx` and `isInTxnCtx` do not see, and as long as no ID
is reserved while a patch waits between its reading of the counter and its increment.
-/
namespace Dbos.FunctionIDs
open Dbos.Pg Dbos.Schema Dbos.Context
open Dbos.Start (truthy)

/-- A context and the execution of a workflow whose code runs in it. -/
structure Frame where
  ctx : DBOSLocalCtx := {}
  execution : Nat := 0

/-- A call of an operation; `caller` is the copy of the context that it has made. -/
structure Made where
  context : Nat
  caller : Frame
  ids : List Nat
  rest : Rest

/-- Code outside of every context reads the same as code in an empty one. -/
structure System where
  contexts : List Frame := [{}]
  calls : List Made := []
  executions : Nat := 1

inductive Event
  | withNextWorkflowID (context : Nat) (workflowID : Option String)
  | call (context : Nat) (op : Operation)
  | runInStepContext (call : Nat)
  | runWithDataSourceContext (call : Nat)
  | runWorkflow (call : Nat) (randomUUID : String)
  | checkedPatch (call : Nat) (hasEntry : Bool)

namespace System
variable (s : System)

/-- `asyncLocalCtx.run`. -/
def run (f : Frame) : System := { s with contexts := s.contexts ++ [f] }

def enter (context : Nat) (f : Frame) (op : Operation) : System :=
  match op.code f.ctx with
  | .ok reserved ctx =>
    { s with
      contexts := s.contexts.set context { f with ctx := ctx }
      calls := s.calls ++ [⟨context,{ f with ctx := ctx },reserved.ids,reserved.rest⟩] }
  | .error _ ctx => { s with contexts := s.contexts.set context { f with ctx := ctx } }

/-- `if (patched.hasEntry) functionIDGetIncrement()`. -/
def resumePatch (call : Nat) (a : Made) (functionID : Nat) (f : Frame) (hasEntry : Bool) : System :=
  if hasEntry then
    match functionIDGetIncrement f.ctx with
    | .ok _ ctx =>
      { s with
        contexts := s.contexts.set a.context { f with ctx := ctx }
        calls := s.calls.set call { a with ids := [functionID],rest := .done } }
    | .error _ _ => { s with calls := s.calls.set call { a with rest := .done } }
  else { s with calls := s.calls.set call { a with rest := .done } }

end System

def step (s : System) : Event → Option System
  | .withNextWorkflowID context workflowID =>
    (s.contexts[context]?).map fun f =>
      { s with contexts := s.contexts.set context { f with ctx := { f.ctx with idAssignedForNextWorkflow := workflowID } } }
  | .call context op => (s.contexts[context]?).map fun f => s.enter context f op
  | .runInStepContext call =>
    (s.calls[call]?).bind fun a =>
      match a.rest with
      | .step funcID =>
        if isInWorkflowCtx a.caller.ctx then
          some (s.run { a.caller with ctx := { a.caller.ctx with curStepFunctionId := some funcID } })
        else none
      | _ => none
  | .runWithDataSourceContext call =>
    (s.calls[call]?).bind fun a =>
      match a.rest with
      | .transaction callnum =>
        (s.contexts[a.context]?).map fun f => s.run { f with ctx := { f.ctx with curTxFunctionId := some callnum } }
      | _ => none
  | .runWorkflow call randomUUID =>
    (s.calls[call]?).bind fun a =>
      match a.rest with
      | .workflow workflowUUID =>
        some { s.run ⟨{ a.caller.ctx with
                        workflowId := some (if truthy workflowUUID then workflowUUID.getD "" else randomUUID)
                        curWFFunctionId := none },s.executions⟩ with executions := s.executions + 1 }
      | _ => none
  | .checkedPatch call hasEntry =>
    (s.calls[call]?).bind fun a =>
      match a.rest with
      | .patch functionID => (s.contexts[a.context]?).map fun f => s.resumePatch call a functionID f hasEntry
      | _ => none

/-! ### What is wanted -/

/-- Every ID of an execution is used by one operation, it is reserved in the code of a workflow and not in a step or a
    transaction of it, and the two ways to ask where the code is agree. -/
structure Sound (s : System) : Prop where
  once : ∀ a ∈ s.calls, a.ids.Nodup
  unique : ∀ (i j : Nat) (a b : Made) (n : Nat), s.calls[i]? = some a → s.calls[j]? = some b → a.caller.execution = b.caller.execution →
    n ∈ a.ids → n ∈ b.ids → i = j
  nested : ∀ a ∈ s.calls, a.ids ≠ [] → isInWorkflow a.caller.ctx = true
  agrees : ∀ f ∈ s.contexts, isInWorkflowCtx f.ctx = isInWorkflow f.ctx
  allocates : ∀ f ∈ s.contexts, (∃ n ctx, functionIDGetIncrement f.ctx = .ok n ctx) ↔ isInWorkflow f.ctx = true

/-- No step and no transaction of a workflow has the ID 0, no workflow starts inside a transaction that has it, and a
    patch that takes an ID takes the one that it has read. -/
def careful (s : System) : Event → Bool
  | .runInStepContext call => (s.calls[call]?).all fun a => a.rest ≠ .step 0
  | .runWithDataSourceContext call =>
    (s.calls[call]?).all fun a => a.rest ≠ .transaction 0 || !isWithinWorkflow a.caller.ctx
  | .runWorkflow call _ => (s.calls[call]?).all fun a => a.caller.ctx.curTxFunctionId ≠ some 0
  | .checkedPatch call true => (s.calls[call]?).all fun a => (s.contexts[a.context]?).all fun f =>
      a.rest = .patch (f.ctx.curWFFunctionId.getD 0)
  | _ => true

/-! ### What an operation reserves -/

def counter (c : DBOSLocalCtx) : Nat := c.curWFFunctionId.getD 0

def next (c : DBOSLocalCtx) : DBOSLocalCtx := { c with curWFFunctionId := some (counter c + 1) }

/-- Code leaves its context where it is, and the counter only goes up. -/
structure Kept (c c' : DBOSLocalCtx) : Prop where
  workflow : c'.workflowId = c.workflowId
  step : c'.curStepFunctionId = c.curStepFunctionId
  transaction : c'.curTxFunctionId = c.curTxFunctionId
  counter : counter c ≤ counter c'

/-- How an operation may go on in a context. -/
def Continues (c : DBOSLocalCtx) : Rest → Prop
  | .done => True
  | .step _ => isInWorkflow c = true
  | .transaction callnum => isInWorkflow c = true ∨ c.workflowId = none ∧ callnum = 0
  | .workflow _ => isInWorkflow c = true ∨ c.workflowId = none
  | .patch _ => isInWorkflow c = true

/-- IDs are reserved in the code of a workflow, and are those between the old counter and the new one. -/
structure Fits (c c' : DBOSLocalCtx) (reserved : Reserved) : Prop where
  once : reserved.ids.Nodup
  range : ∀ n ∈ reserved.ids, counter c ≤ n ∧ n < counter c'
  inside : reserved.ids ≠ [] → isInWorkflow c = true
  rest : Continues c reserved.rest

def Enters (c : DBOSLocalCtx) : EStateM.Result DbosError DBOSLocalCtx Reserved → Prop
  | .ok reserved c' => Kept c c' ∧ Fits c c' reserved
  | .error _ c' => Kept c c'

section
variable {c c' : DBOSLocalCtx}

theorem kept_refl : Kept c c := ⟨rfl,rfl,rfl,Nat.le_refl _⟩

theorem kept_trans {c'' : DBOSLocalCtx} (first : Kept c c') (second : Kept c' c'') : Kept c c'' :=
  ⟨second.workflow.trans first.workflow,second.step.trans first.step,second.transaction.trans first.transaction,
    Nat.le_trans first.counter second.counter⟩

theorem kept_next : Kept c (next c) := ⟨rfl,rfl,rfl,by simp [next,counter]⟩

theorem kept_isInWorkflow (kept : Kept c c') : isInWorkflow c' = isInWorkflow c := by
  simp only [isInWorkflow,isWithinWorkflow,isInTransaction,isInStep,kept.workflow,kept.step,kept.transaction]

theorem kept_isInWorkflowCtx (kept : Kept c c') : isInWorkflowCtx c' = isInWorkflowCtx c := by
  unfold isInWorkflowCtx isWithinWorkflowCtx isInStepCtx isInTxnCtx
  rw [kept.workflow,kept.step,kept.transaction]

/-- The code of a workflow has the same answer from both. -/
theorem inside_ctx (inside : isInWorkflow c = true) : isInWorkflowCtx c = true := by
  simp only [isInWorkflow,isWithinWorkflow,isInTransaction,isInStep,Bool.and_eq_true,Bool.not_eq_true',Option.isSome_eq_false_iff,
    Option.isNone_iff_eq_none] at inside
  simp [isInWorkflowCtx,isWithinWorkflowCtx,isInStepCtx,isInTxnCtx,inside]

theorem inside_spec (inside : isInWorkflow c = true) :
    isWithinWorkflow c = true ∧ isInStep c = false ∧ isInTransaction c = false := by
  simp only [isInWorkflow,Bool.and_eq_true,Bool.not_eq_true'] at inside
  exact ⟨inside.1.1,inside.2,inside.1.2⟩

theorem increment_in (inside : isInWorkflowCtx c = true) : functionIDGetIncrement c = .ok (counter c) (next c) := by
  simp [functionIDGetIncrement,inside,next,counter]

theorem increment_out (outside : isInWorkflowCtx c = false) : ∃ e, functionIDGetIncrement c = .error e c :=
  ⟨_,by simp [functionIDGetIncrement,outside,invalid]; rfl⟩

theorem enters_none {rest : Rest} (kept : Kept c c') (continues : Continues c rest) : Enters c (.ok ⟨[],rest⟩ c') :=
  ⟨kept,by simp,by simp,by simp,continues⟩

theorem continues_inside (inside : isInWorkflow c = true) (rest : Rest) : Continues c rest := by
  cases rest with
  | done => trivial
  | step funcID => exact inside
  | transaction callnum => exact .inl inside
  | workflow workflowUUID => exact .inl inside
  | patch functionID => exact inside

theorem enters_one (inside : isInWorkflow c = true) (rest : Rest) : Enters c (.ok ⟨[counter c],rest⟩ (next c)) :=
  ⟨kept_next,by simp,by simp [next,counter],fun _ => inside,continues_inside inside rest⟩

theorem enters_two (inside : isInWorkflow c = true) (rest : Rest) :
    Enters c (.ok ⟨[counter c,counter (next c)],rest⟩ (next (next c))) := by
  refine ⟨kept_trans kept_next kept_next,by simp [next,counter],?_,fun _ => inside,continues_inside inside rest⟩
  intro n member
  have two : counter (next (next c)) = counter c + 2 := rfl
  have one : counter (next c) = counter c + 1 := rfl
  simp only [List.mem_cons,List.not_mem_nil,or_false] at member
  rcases member with rfl | rfl
  · omega
  · omega

/-- What comes after the IDs are reserved. -/
theorem enters_later {reserved : Reserved} {c'' : DBOSLocalCtx} (enters : Enters c (.ok reserved c')) (kept : Kept c' c'') :
    Enters c (.ok reserved c'') := by
  obtain ⟨kept',once,range,inside,rest⟩ := enters
  refine ⟨kept_trans kept' kept,once,?_,inside,rest⟩
  intro n member
  exact ⟨(range n member).1,Nat.lt_of_lt_of_le (range n member).2 kept.counter⟩

theorem getNextWFID_kept (assignedID : Option String) (c : DBOSLocalCtx) :
    ∃ id c', getNextWFID assignedID c = .ok id c' ∧ Kept c c' ∧ counter c' = counter c := by
  simp only [getNextWFID,bind_code,get_code,ite_code,set_code,pure_code]
  split
  · exact ⟨_,_,rfl,⟨rfl,rfl,rfl,Nat.le_refl _⟩,rfl⟩
  · exact ⟨_,_,rfl,kept_refl,rfl⟩

/-- A workflow that is started where there is none yet, or with the ID that the caller has reserved. -/
theorem invokeWorkflow_enters (workflowID : Option String) (checked : Except DbosError Unit) (startWfFuncId : Option Nat)
    (c : DBOSLocalCtx) :
    (∃ e c', invokeWorkflow workflowID checked startWfFuncId c = .error e c' ∧ Kept c c') ∨
    (∃ u c', invokeWorkflow workflowID checked startWfFuncId c = .ok ⟨[],.workflow u⟩ c' ∧ Kept c c' ∧ c.workflowId = none) ∨
    (∃ u c', invokeWorkflow workflowID checked startWfFuncId c = .ok ⟨[startWfFuncId.getD (counter c)],.workflow u⟩ c' ∧
      Kept c c' ∧ isInWorkflow c = true ∧ (startWfFuncId = none → counter c < counter c')) := by
  obtain ⟨id,c₁,named,kept,count⟩ := getNextWFID_kept workflowID c
  cases within : isWithinWorkflow c with
  | false =>
    have none_ : c.workflowId = none := by simpa [isWithinWorkflow] using within
    have within₁ : isWithinWorkflow c₁ = false := by simp [isWithinWorkflow,kept.workflow,none_]
    cases checked with
    | error e => exact .inl ⟨e,c₁,by simp [invokeWorkflow,named,within₁],kept⟩
    | ok _ => exact .inr (.inl ⟨id,c₁,by simp [invokeWorkflow,named,within₁],kept,none_⟩)
  | true =>
    have within₁ : isWithinWorkflow c₁ = true := by rw [← within,isWithinWorkflow,kept.workflow,isWithinWorkflow]
    have same := kept_isInWorkflow kept
    cases inside : isInWorkflow c with
    | false => exact .inl ⟨_,c₁,by simp [invokeWorkflow,named,within₁,same,inside,invalid]; rfl,kept⟩
    | true =>
      have ready : isInWorkflowCtx c₁ = true := inside_ctx (same.trans inside)
      cases startWfFuncId with
      | some funcId =>
        cases checked with
        | error e => exact .inl ⟨e,c₁,by simp [invokeWorkflow,named,within₁,same,inside],kept⟩
        | ok _ => exact .inr (.inr ⟨_,c₁,by simp [invokeWorkflow,named,within₁,same,inside]; rfl,kept,rfl,by simp⟩)
      | none =>
        cases checked with
        | error e =>
          exact .inl ⟨e,next c₁,by simp [invokeWorkflow,named,within₁,same,inside,increment_in ready],kept_trans kept kept_next⟩
        | ok _ =>
          refine .inr (.inr ⟨if truthy id then id else some (c₁.workflowId.getD "" ++ "-" ++ toString (counter c)),next c₁,?_,
            kept_trans kept kept_next,rfl,fun _ => ?_⟩)
          · simp [invokeWorkflow,named,within₁,same,inside,increment_in ready,count]
          · rw [← count]
            simp [next,counter]

theorem runInternalStep_inside (funcName : String) (inside : isInWorkflow c = true) :
    runInternalStep funcName c = .ok ⟨[counter c],.done⟩ (next c) := by
  obtain ⟨within,notStep,_⟩ := inside_spec inside
  simp [runInternalStep,within,inside,notStep,increment_in (inside_ctx inside)]

/-- In the code of a workflow every operation reserves what it needs. -/
theorem operation_inside (op : Operation) (inside : isInWorkflow c = true) : Enters c (op.code c) := by
  obtain ⟨within,notStep,notTransaction⟩ := inside_spec inside
  have ready := increment_in (inside_ctx inside)
  have ready' : functionIDGetIncrement (next c) = .ok (counter (next c)) (next (next c)) :=
    increment_in (inside_ctx (c := next c) inside)
  have one : ∀ rest, op.code c = .ok ⟨[counter c],rest⟩ (next c) → Enters c (op.code c) := by
    intro rest result
    rw [result]
    exact enters_one inside rest
  have two : ∀ rest, op.code c = .ok ⟨[counter c,counter (next c)],rest⟩ (next (next c)) → Enters c (op.code c) := by
    intro rest result
    rw [result]
    exact enters_two inside rest
  cases op with
  | runStep name =>
    exact one (.step (counter c)) (by simp [Operation.code,runStep,callStepFunction,within,notStep,notTransaction,ready])
  | decoratedStep =>
    exact one (.step (counter c)) (by simp [Operation.code,decoratedStep,callStepFunction,within,notStep,notTransaction,ready])
  | runTransaction funcName =>
    exact one (.transaction (counter c)) (by simp [Operation.code,runTransaction,within,inside,ready])
  | registeredTransaction funcName =>
    exact one (.transaction (counter c)) (by simp [Operation.code,registeredTransaction,within,notStep,notTransaction,ready])
  | startWorkflow workflowID checked =>
    rcases invokeWorkflow_enters workflowID checked none c with
      ⟨e,c',result,kept⟩ | ⟨u,c',result,kept,none_⟩ | ⟨u,c',result,kept,_,above⟩
    · exact (congrArg (Enters c) result).mpr kept
    · exact (congrArg (Enters c) result).mpr (enters_none kept (.inr none_))
    · exact (congrArg (Enters c) result).mpr ⟨kept,by simp,by simpa using above rfl,fun _ => inside,.inl inside⟩
  | callWorkflow checked =>
    rcases invokeWorkflow_enters none checked (some (counter c)) (next (next c)) with
      ⟨e,c',result,kept⟩ | ⟨u,c',result,kept,none_⟩ | ⟨u,c',result,kept,_⟩
    · rw [show (Operation.callWorkflow checked).code c = .error e c' by
        simp [Operation.code,callWorkflow,inside,ready,ready',result]]
      exact kept_trans (kept_trans kept_next kept_next) kept
    · rw [show (next (next c)).workflowId = c.workflowId from rfl] at none_
      simp [isWithinWorkflow,none_] at within
    · rw [show (Operation.callWorkflow checked).code c = .ok ⟨[counter c,counter (next c)],.workflow u⟩ c' by
        simp [Operation.code,callWorkflow,inside,ready,ready',result]]
      exact enters_later (enters_two inside (.workflow u)) kept
  | startSingleton workflowID checked =>
    obtain ⟨id,c₁,named,kept₁,_⟩ := getNextWFID_kept workflowID (next c)
    have call : (Operation.startSingleton workflowID checked).code c = invokeWorkflow id checked (some (counter c)) c₁ := by
      simp [Operation.code,invokeSingletonWorkflow,inside,ready,named]
    rcases invokeWorkflow_enters id checked (some (counter c)) c₁ with
      ⟨e,c',result,kept⟩ | ⟨u,c',result,kept,none_⟩ | ⟨u,c',result,kept,_⟩
    · rw [call,result]
      exact kept_trans (kept_trans kept_next kept₁) kept
    · rw [kept₁.workflow,show (next c).workflowId = c.workflowId from rfl] at none_
      simp [isWithinWorkflow,none_] at within
    · rw [call,result]
      exact enters_later (enters_one inside (.workflow u)) (kept_trans kept₁ kept)
  | internalStep funcName => exact one .done (runInternalStep_inside funcName inside)
  | now funcName => exact one .done (by simp [Operation.code,now,inside,runInternalStep_inside _ inside])
  | getWorkflowStatus => exact one .done (by simp [Operation.code,getWorkflowStatus,within,inside,notStep,ready])
  | getResult timeoutSeconds =>
    cases timeoutSeconds with
    | none => exact one .done (by simp [Operation.code,getResult,runInternalStep_inside _ inside])
    | some _ =>
      have later : runInternalStep "DBOS.getResult" (next c) = .ok ⟨[counter (next c)],.done⟩ (next (next c)) :=
        runInternalStep_inside _ inside
      exact two .done (by simp [Operation.code,getResult,within,ready,later])
  | sleepms => exact one .done (by simp [Operation.code,sleepms,within,notStep,notTransaction,ready])
  | send => exact one .done (by simp [Operation.code,send,inside,ready])
  | recv => exact two .done (by simp [Operation.code,recv,within,inside,ready,ready'])
  | setEvent => exact one .done (by simp [Operation.code,setEvent,within,inside,ready])
  | getEvent => exact two .done (by simp [Operation.code,getEvent,within,inside,ready,ready'])
  | writeStream => exact one .done (by simp [Operation.code,writeStream,inside,ready])
  | closeStream => exact one .done (by simp [Operation.code,closeStream,within,inside,ready])
  | patch funcName enablePatching =>
    cases enablePatching with
    | false =>
      obtain ⟨e,failed⟩ : ∃ e, (Operation.patch funcName false).code c = .error e c :=
        ⟨_,by simp [Operation.code,patch,inside,invalid]; rfl⟩
      rw [failed]
      exact kept_refl
    | true =>
      have read : (Operation.patch funcName true).code c =
          .ok ⟨[],.patch (counter c)⟩ { c with curWFFunctionId := some (counter c) } := by
        simp [Operation.code,patch,inside,functionIDGet,inside_ctx inside,counter]
      rw [read]
      exact enters_none ⟨rfl,rfl,rfl,Nat.le_refl _⟩ inside

theorem enters_quiet : Enters c (.ok {} c) := enters_none kept_refl trivial

/-- What comes before, in a context that is not the code of a workflow. -/
theorem enters_earlier {result : EStateM.Result DbosError DBOSLocalCtx Reserved} (kept : Kept c c') (enters : Enters c' result) :
    Enters c result := by
  cases result with
  | error e c'' => exact kept_trans kept enters
  | ok reserved c'' =>
    obtain ⟨kept',once,range,inside,rest⟩ := enters
    have same := kept_isInWorkflow kept
    refine ⟨kept_trans kept kept',once,?_,fun some_ => same.symm.trans (inside some_),?_⟩
    · intro n member
      exact ⟨Nat.le_trans kept.counter (range n member).1,(range n member).2⟩
    · cases which : reserved.rest <;> simp only [which,Continues,same,kept.workflow] at rest ⊢ <;> exact rest

theorem runInternalStep_outside (funcName : String) (outside : isInWorkflow c = false) : Enters c (runInternalStep funcName c) := by
  simp only [runInternalStep,invalid,bind_code,get_code,ite_code,pure_code,throw_code,outside,Bool.false_eq_true,if_false]
  split
  · split
    · exact enters_quiet
    · exact kept_refl
  · exact enters_quiet

theorem invokeWorkflow_outside (workflowID : Option String) (checked : Except DbosError Unit) (startWfFuncId : Option Nat)
    (outside : isInWorkflow c = false) : Enters c (invokeWorkflow workflowID checked startWfFuncId c) := by
  rcases invokeWorkflow_enters workflowID checked startWfFuncId c with
    ⟨e,c',result,kept⟩ | ⟨u,c',result,kept,none_⟩ | ⟨u,c',_,_,inside,_⟩
  · rw [result]
    exact kept
  · rw [result]
    exact enters_none kept (.inr none_)
  · rw [outside] at inside
    cases inside

/-- Elsewhere nothing is reserved, provided that both ways to ask agree. -/
theorem operation_outside (op : Operation) (outside : isInWorkflow c = false) (agrees : isInWorkflowCtx c = false) :
    Enters c (op.code c) := by
  obtain ⟨e,refused⟩ := increment_out agrees
  have none_ : isWithinWorkflow c = false → c.workflowId = none := by simp [isWithinWorkflow]
  -- What remains is a refusal or nothing to record.
  cases op with
  | runStep name =>
    obtain ⟨id,c',named,kept,_⟩ := getNextWFID_kept none c
    simp only [Operation.code,runStep,callStepFunction,invalid,bind_code,get_code,ite_code,pure_code,throw_code,refused,named]
    repeat' split
    · exact kept_refl
    · exact enters_quiet
    · exact kept_refl
    · exact kept
    · exact enters_none kept trivial
  | decoratedStep =>
    obtain ⟨id,c',named,kept,_⟩ := getNextWFID_kept none c
    simp only [Operation.code,decoratedStep,callStepFunction,invalid,bind_code,get_code,ite_code,pure_code,throw_code,refused,named]
    split
    · repeat' split
      · exact kept_refl
      · exact enters_quiet
      · exact kept_refl
    · rename_i nowhere
      exact enters_none kept (.inr (none_ (by simpa using nowhere)))
  | runTransaction funcName =>
    obtain ⟨id,c',named,kept,_⟩ := getNextWFID_kept none c
    simp only [Operation.code,runTransaction,invalid,bind_code,get_code,ite_code,pure_code,throw_code,refused,named,outside]
    split
    · rename_i nowhere
      split
      · exact kept
      · exact enters_none kept (.inr ⟨none_ (by simpa using nowhere),rfl⟩)
    · exact kept_refl
  | registeredTransaction funcName =>
    obtain ⟨id,c',named,kept,_⟩ := getNextWFID_kept none c
    simp only [Operation.code,registeredTransaction,invalid,bind_code,get_code,ite_code,pure_code,throw_code,refused,named]
    split
    · rename_i nowhere
      split
      · exact kept
      · exact enters_none kept (.inr ⟨none_ (by simpa using nowhere),rfl⟩)
    · split
      · exact kept_refl
      · exact kept_refl
  | startWorkflow workflowID checked => exact invokeWorkflow_outside workflowID checked none outside
  | callWorkflow checked =>
    simp only [Operation.code,callWorkflow,bind_code,get_code,ite_code,outside,Bool.false_eq_true,if_false]
    exact invokeWorkflow_outside none checked none outside
  | startSingleton workflowID checked =>
    obtain ⟨id,c',named,kept,_⟩ := getNextWFID_kept workflowID c
    simp only [Operation.code,invokeSingletonWorkflow,bind_code,get_code,ite_code,outside,Bool.false_eq_true,if_false,pure_code,named]
    exact enters_earlier kept (invokeWorkflow_outside id checked none ((kept_isInWorkflow kept).trans outside))
  | internalStep funcName => exact runInternalStep_outside funcName outside
  | now funcName =>
    simp only [Operation.code,now,bind_code,get_code,ite_code,outside,Bool.false_eq_true,if_false,pure_code]
    exact enters_quiet
  | getWorkflowStatus =>
    simp only [Operation.code,getWorkflowStatus,invalid,bind_code,get_code,ite_code,pure_code,throw_code,outside,Bool.false_eq_true,if_false]
    repeat' split
    · exact enters_quiet
    · exact kept_refl
    · exact enters_quiet
  | getResult timeoutSeconds =>
    simp only [Operation.code,getResult,bind_code,get_code,ite_code,refused]
    split
    · exact kept_refl
    · exact runInternalStep_outside _ outside
  | sleepms =>
    simp only [Operation.code,sleepms,invalid,bind_code,get_code,ite_code,pure_code,throw_code,refused]
    repeat' split
    · exact kept_refl
    · exact kept_refl
    · exact enters_quiet
  | send =>
    simp only [Operation.code,send,bind_code,get_code,ite_code,outside,Bool.false_eq_true,if_false,pure_code]
    exact enters_quiet
  | recv =>
    simp only [Operation.code,recv,invalid,bind_code,get_code,ite_code,throw_code,outside,Bool.not_false,if_true]
    repeat' split
    · exact kept_refl
    · exact kept_refl
  | setEvent =>
    simp only [Operation.code,setEvent,invalid,bind_code,get_code,ite_code,throw_code,outside,Bool.not_false,if_true]
    repeat' split
    · exact kept_refl
    · exact kept_refl
  | getEvent =>
    simp only [Operation.code,getEvent,invalid,bind_code,get_code,ite_code,pure_code,throw_code,outside,Bool.not_false,if_true]
    repeat' split
    · exact kept_refl
    · exact enters_quiet
  | writeStream =>
    simp only [Operation.code,writeStream,invalid,bind_code,get_code,ite_code,pure_code,throw_code,outside,Bool.false_eq_true,if_false]
    repeat' split
    · exact enters_quiet
    · exact kept_refl
  | closeStream =>
    simp only [Operation.code,closeStream,invalid,bind_code,get_code,ite_code,throw_code,outside,Bool.false_eq_true,if_false]
    repeat' split
    · exact kept_refl
    · exact kept_refl
  | patch funcName enablePatching =>
    simp only [Operation.code,patch,invalid,bind_code,get_code,ite_code,throw_code,outside,Bool.not_false,if_true]
    exact kept_refl

theorem operation_enters (op : Operation) (agrees : isInWorkflowCtx c = isInWorkflow c) : Enters c (op.code c) := by
  cases inside : isInWorkflow c with
  | true => exact operation_inside op inside
  | false => exact operation_outside op inside (agrees.trans inside)

theorem continues_kept {rest : Rest} (kept : Kept c c') (continues : Continues c rest) : Continues c' rest := by
  cases rest <;> simp only [Continues,kept_isInWorkflow kept,kept.workflow] at continues ⊢ <;> exact continues

end
/-! ### The invariant -/

/-- A call and the context that it was made in. -/
structure Called (s : System) (a : Made) : Prop where
  origin : ∃ f, s.contexts[a.context]? = some f ∧ Kept a.caller.ctx f.ctx ∧ f.execution = a.caller.execution ∧
    ∀ n ∈ a.ids, n < counter f.ctx
  continues : Continues a.caller.ctx a.rest
  once : a.ids.Nodup
  inside : a.ids ≠ [] → isInWorkflow a.caller.ctx = true

/-- The code of an execution has one context, and so one counter, which is above all IDs that are in use. -/
structure Invariant (s : System) : Prop where
  agrees : ∀ f ∈ s.contexts, isInWorkflowCtx f.ctx = isInWorkflow f.ctx
  outer : ∀ f ∈ s.contexts, f.ctx.workflowId = none →
    f.ctx.curStepFunctionId = none ∧ (f.ctx.curTxFunctionId = none ∨ f.ctx.curTxFunctionId = some 0)
  single : ∀ (i j : Nat) (f g : Frame), s.contexts[i]? = some f → s.contexts[j]? = some g → isInWorkflow f.ctx = true →
    isInWorkflow g.ctx = true → f.execution = g.execution → i = j
  fresh : ∀ f ∈ s.contexts, f.execution < s.executions
  called : ∀ a ∈ s.calls, Called s a
  unique : ∀ (i j : Nat) (a b : Made) (n : Nat), s.calls[i]? = some a → s.calls[j]? = some b →
    a.caller.execution = b.caller.execution → n ∈ a.ids → n ∈ b.ids → i = j

section
variable {s : System} {f : Frame} {i : Nat} {c' : DBOSLocalCtx}

theorem invariant_start : Invariant {} := by
  refine ⟨?_,?_,?_,?_,by simp,by simp⟩
  · intro f member
    cases List.mem_singleton.mp member
    rfl
  · intro f member _
    cases List.mem_singleton.mp member
    exact ⟨rfl,.inl rfl⟩
  · intro i j f g found _ inside
    cases List.mem_singleton.mp (List.mem_of_getElem? found)
    cases inside
  · intro f member
    cases List.mem_singleton.mp member
    exact Nat.zero_lt_one

/-- Code counts up its context. -/
theorem invariant_set (inv : Invariant s) (found : s.contexts[i]? = some f) (kept : Kept f.ctx c') :
    Invariant { s with contexts := s.contexts.set i { f with ctx := c' } } := by
  have member := List.mem_of_getElem? found
  refine ⟨?_,?_,?_,?_,?_,inv.unique⟩
  · refine all_set inv.agrees ?_ i
    exact (kept_isInWorkflowCtx kept).trans ((inv.agrees f member).trans (kept_isInWorkflow kept).symm)
  · refine all_set inv.outer ?_ i
    intro nowhere
    have before := inv.outer f member (kept.workflow.symm.trans nowhere)
    rw [← kept.step,← kept.transaction] at before
    exact before
  · -- A context at its place has the execution that it had.
    have same : ∀ (j : Nat) (g : Frame), (s.contexts.set i { f with ctx := c' })[j]? = some g → isInWorkflow g.ctx = true →
        ∃ g' : Frame, s.contexts[j]? = some g' ∧ isInWorkflow g'.ctx = true ∧ g'.execution = g.execution := by
      intro j g listed inside
      rcases party_set_cases found listed with ⟨rfl,rfl⟩ | ⟨_,old⟩
      · exact ⟨f,found,(kept_isInWorkflow kept).symm.trans inside,rfl⟩
      · exact ⟨g,old,inside,rfl⟩
    intro j k g h listed listed' inside inside' equal
    obtain ⟨g',found',inside₁,equal₁⟩ := same j g listed inside
    obtain ⟨h',found'',inside₂,equal₂⟩ := same k h listed' inside'
    exact inv.single j k g' h' found' found'' inside₁ inside₂ (equal₁.trans (equal.trans equal₂.symm))
  · refine all_set inv.fresh ?_ i
    exact inv.fresh f member
  · intro a made
    obtain ⟨⟨g,from_,kept',execution,below⟩,continues,once,inside⟩ := inv.called a made
    refine ⟨?_,continues,once,inside⟩
    by_cases here : a.context = i
    · rw [here] at from_ ⊢
      cases found.symm.trans from_
      refine ⟨{ f with ctx := c' },?_,kept_trans kept' kept,execution,?_⟩
      · rw [party_set found,if_pos rfl]
      · intro n used
        exact Nat.lt_of_lt_of_le (below n used) kept.counter
    · refine ⟨g,?_,kept',execution,below⟩
      rw [party_set found,if_neg here]
      exact from_

/-- Code runs in a new context. -/
theorem invariant_run (inv : Invariant s) {g : Frame} {m : Nat} (agrees : isInWorkflowCtx g.ctx = isInWorkflow g.ctx)
    (outer : g.ctx.workflowId = none →
      g.ctx.curStepFunctionId = none ∧ (g.ctx.curTxFunctionId = none ∨ g.ctx.curTxFunctionId = some 0))
    (alone : isInWorkflow g.ctx = true → s.executions ≤ g.execution) (fresh : g.execution < m) (le : s.executions ≤ m) :
    Invariant { s with contexts := s.contexts ++ [g],executions := m } := by
  refine ⟨?_,?_,?_,?_,?_,inv.unique⟩
  · intro h listed
    rcases List.mem_append.mp listed with old | new
    · exact inv.agrees h old
    · exact List.mem_singleton.mp new ▸ agrees
  · intro h listed
    rcases List.mem_append.mp listed with old | new
    · exact inv.outer h old
    · exact List.mem_singleton.mp new ▸ outer
  · -- The new context is the first one of its execution, if it is one of a workflow.
    have apart : ∀ (j : Nat) (h : Frame), s.contexts[j]? = some h → isInWorkflow g.ctx = true → h.execution ≠ g.execution := by
      intro j h found inside same
      have old := inv.fresh h (List.mem_of_getElem? found)
      have new := alone inside
      omega
    intro j k h h' listed listed' inside inside' equal
    rcases party_append listed with old | ⟨rfl,rfl⟩
    · rcases party_append listed' with old' | ⟨rfl,rfl⟩
      · exact inv.single j k h h' old old' inside inside' equal
      · exact absurd equal (apart j h old inside')
    · rcases party_append listed' with old' | ⟨rfl,rfl⟩
      · exact absurd equal.symm (apart k h' old' inside)
      · rfl
  · intro h listed
    rcases List.mem_append.mp listed with old | new
    · exact Nat.lt_of_lt_of_le (inv.fresh h old) le
    · exact List.mem_singleton.mp new ▸ fresh
  · intro a made
    obtain ⟨⟨h,from_,rest⟩,continues,once,inside⟩ := inv.called a made
    refine ⟨⟨h,?_,rest⟩,continues,once,inside⟩
    rw [List.getElem?_append_left (List.getElem?_eq_some_iff.mp from_).1]
    exact from_

/-- What is used in the context of a workflow's code is below its counter, whoever uses it. -/
theorem used_below (inv : Invariant s) (found : s.contexts[i]? = some f) (inside : isInWorkflow f.ctx = true) {b : Made}
    (made : b ∈ s.calls) (same : b.caller.execution = f.execution) {n : Nat} (used : n ∈ b.ids) : n < counter f.ctx := by
  obtain ⟨⟨g,from_,kept,execution,below⟩,_,_,inside'⟩ := inv.called b made
  have inside' : isInWorkflow g.ctx = true := (kept_isInWorkflow kept).trans (inside' (List.ne_nil_of_mem used))
  have here := inv.single b.context i g f from_ found inside' inside (execution.trans same)
  rw [here] at from_
  cases found.symm.trans from_
  exact below n used

/-- An operation is called. -/
theorem invariant_enter (inv : Invariant s) (found : s.contexts[i]? = some f) (op : Operation) :
    Invariant (s.enter i f op) := by
  have enters := operation_enters op (inv.agrees f (List.mem_of_getElem? found))
  unfold System.enter
  cases result : op.code f.ctx with
  | error e ctx =>
    rw [result] at enters
    exact invariant_set inv found enters
  | ok reserved ctx =>
    rw [result] at enters
    obtain ⟨kept,once,range,inside,continues⟩ := enters
    have set := invariant_set inv found kept
    have same := kept_isInWorkflow kept
    have here : (s.contexts.set i { f with ctx := ctx })[i]? = some { f with ctx := ctx } := by
      rw [party_set found,if_pos rfl]
    refine ⟨set.agrees,set.outer,set.single,set.fresh,?_,?_⟩
    · intro a made
      rcases List.mem_append.mp made with old | new
      · exact ⟨(set.called a old).origin,(set.called a old).continues,(set.called a old).once,(set.called a old).inside⟩
      · cases List.mem_singleton.mp new
        exact ⟨⟨_,here,kept_refl,rfl,fun n used => (range n used).2⟩,continues_kept kept continues,once,
          fun some_ => same.trans (inside some_)⟩
    · -- The new IDs start at the counter, and the old ones are below it.
      have apart : ∀ (j : Nat) (b : Made) n, s.calls[j]? = some b → b.caller.execution = f.execution → n ∈ reserved.ids →
          n ∉ b.ids := by
        intro j b n listed equal new old
        have low := used_below inv found (inside (List.ne_nil_of_mem new)) (List.mem_of_getElem? listed) equal old
        have high := (range n new).1
        omega
      intro j k a b n listed listed' equal used used'
      rcases party_append listed with old | ⟨rfl,rfl⟩
      · rcases party_append listed' with old' | ⟨rfl,rfl⟩
        · exact inv.unique j k a b n old old' equal used used'
        · exact absurd used (apart j a n old equal used')
      · rcases party_append listed' with old' | ⟨rfl,rfl⟩
        · exact absurd used' (apart k b n old' equal.symm used)
        · rfl

/-- A call that gets other IDs which no other call of its execution has. -/
theorem invariant_replace (inv : Invariant s) {j : Nat} {a a' : Made} (listed : s.calls[j]? = some a) (called : Called s a')
    (same : a'.caller = a.caller)
    (apart : ∀ (k : Nat) (b : Made) n, k ≠ j → s.calls[k]? = some b → b.caller.execution = a.caller.execution → n ∈ a'.ids →
      n ∉ b.ids) : Invariant { s with calls := s.calls.set j a' } := by
  refine ⟨inv.agrees,inv.outer,inv.single,inv.fresh,?_,?_⟩
  · intro b made
    rcases List.mem_or_eq_of_mem_set made with old | rfl
    · exact ⟨(inv.called b old).origin,(inv.called b old).continues,(inv.called b old).once,(inv.called b old).inside⟩
    · exact ⟨called.origin,called.continues,called.once,called.inside⟩
  · intro k l b b' n listed₁ listed₂ equal used used'
    rcases party_set_cases listed listed₁ with ⟨rfl,rfl⟩ | ⟨other,old⟩
    · rcases party_set_cases listed listed₂ with ⟨rfl,rfl⟩ | ⟨other',old'⟩
      · rfl
      · exact absurd used' (apart l b' n other' old' (by rw [← same]; exact equal.symm) used)
    · rcases party_set_cases listed listed₂ with ⟨rfl,rfl⟩ | ⟨other',old'⟩
      · exact absurd used (apart k b n other old (by rw [← same]; exact equal) used')
      · exact inv.unique k l b b' n old old' equal used used'

/-- A patch goes on. -/
theorem invariant_resumePatch (inv : Invariant s) {j : Nat} {a : Made} (listed : s.calls[j]? = some a)
    {functionID : Nat} (waits : a.rest = .patch functionID) (found : s.contexts[a.context]? = some f) {hasEntry : Bool}
    (unmoved : hasEntry = true → functionID = counter f.ctx) : Invariant (s.resumePatch j a functionID f hasEntry) := by
  have called := inv.called a (List.mem_of_getElem? listed)
  obtain ⟨g,from_,kept,execution,below⟩ := called.origin
  cases found.symm.trans from_
  have answered : Invariant { s with calls := s.calls.set j { a with rest := .done } } := by
    refine invariant_replace inv listed ⟨called.origin,trivial,called.once,called.inside⟩ rfl ?_
    intro k b n other listed' equal used used'
    exact other (inv.unique k j b a n listed' listed equal used' used)
  unfold System.resumePatch
  cases hasEntry with
  | false => exact answered
  | true =>
    have within : isInWorkflow a.caller.ctx = true := by
      have continues := called.continues
      rw [waits] at continues
      exact continues
    have inside : isInWorkflow f.ctx = true := (kept_isInWorkflow kept).trans within
    rw [if_pos rfl,increment_in (inside_ctx inside)]
    have counted : Invariant { s with contexts := s.contexts.set a.context { f with ctx := next f.ctx } } :=
      invariant_set inv found kept_next
    refine invariant_replace counted listed ⟨⟨{ f with ctx := next f.ctx },?_,kept_trans kept kept_next,execution,?_⟩,
      trivial,by simp,fun _ => within⟩ rfl ?_
    · rw [party_set found,if_pos rfl]
    · intro n used
      rw [List.mem_singleton.mp used,unmoved rfl]
      simp [next,counter]
    · intro k b n other listed' equal used used'
      have low := used_below inv found inside (List.mem_of_getElem? listed') (equal.trans execution.symm) used'
      rw [List.mem_singleton.mp used,unmoved rfl] at low
      omega

/-- An attempt of a step. -/
theorem invariant_step_context (inv : Invariant s) {a : Made} (made : a ∈ s.calls) {funcID : Nat} (rest : a.rest = .step funcID)
    (numbered : funcID ≠ 0) :
    Invariant (s.run { a.caller with ctx := { a.caller.ctx with curStepFunctionId := some funcID } }) := by
  have called := inv.called a made
  obtain ⟨g,from_,_,execution,_⟩ := called.origin
  have inside : isInWorkflow a.caller.ctx = true := by
    have continues := called.continues
    rw [rest] at continues
    exact continues
  obtain ⟨workflowID,within⟩ := Option.isSome_iff_exists.mp (inside_spec inside).1
  have bound : a.caller.execution < s.executions := execution ▸ inv.fresh g (List.mem_of_getElem? from_)
  refine invariant_run inv ?_ (by simp [within]) (by simp [isInWorkflow,isInStep]) bound (Nat.le_refl _)
  simp [isInWorkflow,isInStep,isInWorkflowCtx,isInStepCtx,within,numbered]

/-- The callback of a transaction. -/
theorem invariant_transaction (inv : Invariant s) {a : Made} (made : a ∈ s.calls) {callnum : Nat} (rest : a.rest = .transaction callnum)
    (found : s.contexts[a.context]? = some f) (numbered : callnum = 0 → isWithinWorkflow a.caller.ctx = false) :
    Invariant (s.run { f with ctx := { f.ctx with curTxFunctionId := some callnum } }) := by
  have called := inv.called a made
  obtain ⟨g,from_,kept,_⟩ := called.origin
  cases found.symm.trans from_
  have member := List.mem_of_getElem? found
  have continues := called.continues
  rw [rest] at continues
  refine invariant_run inv ?_ ?_ (by simp [isInWorkflow,isInTransaction]) (inv.fresh f member) (Nat.le_refl _)
  · rcases continues with inside | ⟨nowhere,_⟩
    · have within := (inside_spec inside).1
      have nonzero : callnum ≠ 0 := by
        intro zero
        rw [numbered zero] at within
        cases within
      obtain ⟨workflowID,within⟩ := Option.isSome_iff_exists.mp within
      simp [isInWorkflow,isInTransaction,isInWorkflowCtx,isInTxnCtx,kept.workflow,within,nonzero]
    · simp [isInWorkflow,isWithinWorkflow,isInWorkflowCtx,isWithinWorkflowCtx,kept.workflow,nowhere]
  · intro nowhere
    refine ⟨(inv.outer f member nowhere).1,.inr ?_⟩
    rcases continues with inside | ⟨_,rfl⟩
    · have within := (inside_spec inside).1
      rw [isWithinWorkflow,← kept.workflow,show f.ctx.workflowId = none from nowhere] at within
      cases within
    · rfl

/-- A workflow begins. -/
theorem invariant_workflow (inv : Invariant s) {a : Made} (made : a ∈ s.calls) {workflowUUID : Option String}
    (rest : a.rest = .workflow workflowUUID) (free : a.caller.ctx.curTxFunctionId ≠ some 0) (workflowID : String) :
    Invariant { s.run ⟨{ a.caller.ctx with workflowId := some workflowID,curWFFunctionId := none },s.executions⟩ with
      executions := s.executions + 1 } := by
  have called := inv.called a made
  obtain ⟨g,from_,kept,_⟩ := called.origin
  have continues := called.continues
  rw [rest] at continues
  have clear : a.caller.ctx.curStepFunctionId = none ∧ a.caller.ctx.curTxFunctionId = none := by
    rcases continues with inside | nowhere
    · obtain ⟨_,notStep,notTransaction⟩ := inside_spec inside
      exact ⟨by simpa [isInStep] using notStep,by simpa [isInTransaction] using notTransaction⟩
    · have outer := inv.outer g (List.mem_of_getElem? from_) (kept.workflow.trans nowhere)
      rw [kept.step,kept.transaction] at outer
      exact ⟨outer.1,outer.2.resolve_right free⟩
  refine invariant_run inv ?_ (by simp) (fun _ => Nat.le_refl _) (Nat.lt_succ_self _) (Nat.le_succ _)
  simp [isInWorkflow,isWithinWorkflow,isInStep,isInTransaction,isInWorkflowCtx,isWithinWorkflowCtx,isInStepCtx,isInTxnCtx,clear]

theorem invariant_step {s' : System} {e : Event} (inv : Invariant s) (cares : careful s e = true) (taken : step s e = some s') :
    Invariant s' := by
  cases e with
  | withNextWorkflowID context workflowID =>
    obtain ⟨f,found,rfl⟩ := Option.map_eq_some_iff.mp taken
    exact invariant_set inv found ⟨rfl,rfl,rfl,Nat.le_refl _⟩
  | call context op =>
    obtain ⟨f,found,rfl⟩ := Option.map_eq_some_iff.mp taken
    exact invariant_enter inv found op
  | runInStepContext call =>
    obtain ⟨a,listed,taken⟩ := Option.bind_eq_some_iff.mp taken
    split at taken
    · rename_i funcID rest
      split at taken
      · cases taken
        simp only [careful,listed,Option.all_some,rest] at cares
        exact invariant_step_context inv (List.mem_of_getElem? listed) rest (by simpa using cares)
      · cases taken
    · cases taken
  | runWithDataSourceContext call =>
    obtain ⟨a,listed,taken⟩ := Option.bind_eq_some_iff.mp taken
    split at taken
    · rename_i callnum rest
      obtain ⟨f,found,rfl⟩ := Option.map_eq_some_iff.mp taken
      simp only [careful,listed,Option.all_some,rest] at cares
      refine invariant_transaction inv (List.mem_of_getElem? listed) rest found ?_
      rintro rfl
      simpa using cares
    · cases taken
  | runWorkflow call randomUUID =>
    obtain ⟨a,listed,taken⟩ := Option.bind_eq_some_iff.mp taken
    split at taken
    · rename_i workflowUUID rest
      cases taken
      simp only [careful,listed,Option.all_some] at cares
      exact invariant_workflow inv (List.mem_of_getElem? listed) rest (by simpa using cares) _
    · cases taken
  | checkedPatch call hasEntry =>
    obtain ⟨a,listed,taken⟩ := Option.bind_eq_some_iff.mp taken
    split at taken
    · rename_i functionID rest
      obtain ⟨f,found,rfl⟩ := Option.map_eq_some_iff.mp taken
      refine invariant_resumePatch inv listed rest found ?_
      rintro rfl
      simp only [careful,listed,Option.all_some,found,rest] at cares
      simpa [counter] using cares
    · cases taken

theorem sound_invariant (inv : Invariant s) : Sound s := by
  refine ⟨fun a made => (inv.called a made).once,inv.unique,fun a made => (inv.called a made).inside,inv.agrees,?_⟩
  intro f member
  rw [← inv.agrees f member]
  constructor
  · rintro ⟨n,ctx,result⟩
    by_contra outside
    obtain ⟨e,refused⟩ := increment_out (by simpa using outside)
    rw [refused] at result
    cases result
  · intro inside
    exact ⟨_,_,increment_in inside⟩

/-- In every run in which no step or transaction of a workflow has the ID 0 and no ID is reserved behind the back of a
    patch, function IDs are unique and only allocated in the code of workflows. -/
theorem ids_unique {events : List Event} (cares : Along step (fun s e => careful s e = true) {} events)
    (run : Runs step {} events s) : Sound s :=
  sound_invariant (along_invariant (fun _ _ _ inv cares taken => invariant_step inv cares taken) invariant_start cares run)

end
/-- A workflow that has made an operation before its first step. -/
def numberedRun : List Event :=
  [.call 0 (.startWorkflow none (.ok ())),.runWorkflow 0 "w",.call 1 .setEvent,.call 1 (.runStep "s"),.runInStepContext 2,
    .call 2 (.getResult (some 5)),.call 1 (.patch "DBOS.patch" true),.checkedPatch 3 true,.call 1 .recv]

theorem ids_unique_numbered : ∃ s, Along step (fun s e => careful s e = true) {} numberedRun ∧ Runs step {} numberedRun s ∧
    s.calls.map Made.ids = [[],[0],[1],[2],[3,4]] ∧ Sound s := by
  have cares : Along step (fun s e => careful s e = true) {} numberedRun := by decide
  exact ⟨_,cares,rfl,rfl,ids_unique cares rfl⟩

/-- A workflow that begins with a step. -/
def firstStep : List Event := [.call 0 (.startWorkflow none (.ok ())),.runWorkflow 0 "w",.call 1 (.runStep "s"),.runInStepContext 1]

/-- Inside of the first step the deadline of a result gets the ID that the workflow's next operation gets, and a
    patch and an operation that do not wait for each other get the same ID. -/
theorem ids_shared :
    (∃ s, Runs step {} (firstStep ++ [.call 2 (.getResult (some 5)),.call 1 .sleepms]) s ∧
      s.calls.map Made.ids = [[],[0],[1],[1]] ∧ s.contexts.map (fun f => isInWorkflowCtx f.ctx) = [false,true,true] ∧
      s.contexts.map (fun f => isInWorkflow f.ctx) = [false,true,false]) ∧
    (∃ s, Runs step {} (firstStep.take 2 ++ [.call 1 (.patch "DBOS.patch" true),.call 1 .sleepms,.checkedPatch 1 true]) s ∧
      s.calls.map Made.ids = [[],[0],[0]]) ∧
    ¬ ∀ events s, Runs step {} events s → Sound s := by
  have shared : ∃ s, Runs step {} (firstStep ++ [.call 2 (.getResult (some 5)),.call 1 .sleepms]) s ∧
      s.calls.map Made.ids = [[],[0],[1],[1]] ∧ s.contexts.map (fun f => isInWorkflowCtx f.ctx) = [false,true,true] ∧
      s.contexts.map (fun f => isInWorkflow f.ctx) = [false,true,false] := ⟨_,rfl,rfl,rfl,rfl⟩
  refine ⟨shared,⟨_,rfl,rfl⟩,?_⟩
  intro always
  obtain ⟨s,run,_,truthy_,defined⟩ := shared
  have agrees := (always _ s run).agrees
  have same : s.contexts.map (fun f => isInWorkflowCtx f.ctx) = s.contexts.map (fun f => isInWorkflow f.ctx) :=
    List.map_congr_left agrees
  rw [truthy_,defined] at same
  exact absurd same (by decide)

end Dbos.FunctionIDs
