import Dbos.Start

/-!
Where function IDs come from: the contexts of `src/context.ts` and how the functions of `src/dbos.ts` and
`src/datasource.ts` read them. A context is an object: code that runs in it counts up its
`curWFFunctionId`, and code that runs in a step, a transaction or a child workflow gets a copy of it.
Whether a context is inside a step is decided twice, by `isInStepCtx` with the truth of the step's ID and
by `DBOS.isInStep` with its presence. Each function is modelled up to its first `await`, by which it has reserved its
IDs; the exception is `DBOS.patch`.
-/
namespace Dbos.Context
open Dbos.Schema
open Dbos.Start (truthy)

/-- `DBOSLocalCtx`, as far as it decides about function IDs. -/
structure DBOSLocalCtx where
  idAssignedForNextWorkflow : Option String := none
  workflowId : Option String := none
  curWFFunctionId : Option Nat := none
  curStepFunctionId : Option Nat := none
  curTxFunctionId : Option Nat := none
  deriving DecidableEq

/-! ### Two ways to ask -/

def isWithinWorkflowCtx (ctx : DBOSLocalCtx) : Bool := ctx.workflowId.isSome

/-- `if (ctx.curStepFunctionId)`, which 0 does not pass. -/
def isInStepCtx (ctx : DBOSLocalCtx) : Bool := ctx.workflowId.isSome && ctx.curStepFunctionId.any (· ≠ 0)

def isInTxnCtx (ctx : DBOSLocalCtx) : Bool := ctx.workflowId.isSome && ctx.curTxFunctionId.any (· ≠ 0)

def isInWorkflowCtx (ctx : DBOSLocalCtx) : Bool :=
  if !isWithinWorkflowCtx ctx then false
  else if isInStepCtx ctx then false
  else if isInTxnCtx ctx then false
  else true

/-- `DBOS.isInTransaction` and the others are `!== undefined`. -/
def isInTransaction (ctx : DBOSLocalCtx) : Bool := ctx.curTxFunctionId.isSome

def isInStep (ctx : DBOSLocalCtx) : Bool := ctx.curStepFunctionId.isSome

def isWithinWorkflow (ctx : DBOSLocalCtx) : Bool := ctx.workflowId.isSome

def isInWorkflow (ctx : DBOSLocalCtx) : Bool := isWithinWorkflow ctx && !isInTransaction ctx && !isInStep ctx

/-! ### Function IDs -/

/-- Code in a context; an error leaves what was done to the context before it. -/
abbrev Code := EStateM DbosError DBOSLocalCtx

def invalid {α : Type} (message : String) : Code α := throw (.DBOSInvalidWorkflowTransitionError message)

def functionIDGet : Code Nat := do
  let pctx ← get
  if !isInWorkflowCtx pctx then invalid "Attempt to get a call ID number in a workflow that is already in a call"
  let functionID := pctx.curWFFunctionId.getD 0
  set { pctx with curWFFunctionId := some functionID }
  return functionID

def functionIDGetIncrement : Code Nat := do
  let pctx ← get
  if !isInWorkflowCtx pctx then invalid "Attempt to get a call ID number in a workflow that is already in a call"
  let functionID := pctx.curWFFunctionId.getD 0
  set { pctx with curWFFunctionId := some (functionID + 1) }
  return functionID

/-- The ID set by `withNextWorkflowID` is taken once. -/
def getNextWFID (assignedID : Option String) : Code (Option String) := do
  let pctx ← get
  if !truthy assignedID && truthy pctx.idAssignedForNextWorkflow then
    set { pctx with idAssignedForNextWorkflow := none }
    return pctx.idAssignedForNextWorkflow
  return assignedID

/-! ### Operations -/

/-- How an operation goes on after it has reserved its IDs. -/
inductive Rest
  | done
  | step (funcID : Nat)
  | transaction (callnum : Nat)
  | workflow (workflowUUID : Option String)
  | patch (functionID : Nat)
  deriving DecidableEq

/-- The IDs that an operation has reserved. -/
structure Reserved where
  ids : List Nat := []
  rest : Rest := .done
  deriving DecidableEq

def callStepFunction : Code Reserved := do
  let funcID ← functionIDGetIncrement
  return ⟨[funcID],.step funcID⟩

/-- `DBOS.runStep` and the functions of `DBOS.registerStep`. -/
def runStep (name : String) : Code Reserved := do
  if isWithinWorkflow (← get) then
    if isInTransaction (← get) then invalid "Invalid call to a runStep from within a `transaction`"
    if isInStep (← get) then return {}
    return ← callStepFunction
  if truthy (← getNextWFID none) then
    invalid ("Invalid call to step '" ++ name ++ "' outside of a workflow; with directive to start a workflow.")
  return {}

/-- A method with `@DBOS.step`; outside of a workflow it becomes one (`runStepTempWF`). -/
def decoratedStep : Code Reserved := do
  if isWithinWorkflow (← get) then
    if isInTransaction (← get) then invalid "Invalid call to a `step` function from within a `transaction`"
    if isInStep (← get) then return {}
    return ← callStepFunction
  let wfId ← getNextWFID none
  return ⟨[],.workflow wfId⟩

def runTransaction (funcName : String) : Code Reserved := do
  if !isWithinWorkflow (← get) then
    if truthy (← getNextWFID none) then
      invalid ("Invalid call to transaction '" ++ funcName ++ "' outside of a workflow; with directive to start a workflow.")
    return ⟨[],.transaction 0⟩
  if !isInWorkflow (← get) then invalid ("Invalid call to `" ++ funcName ++ "` inside a `step` or `transaction`")
  let callnum ← functionIDGetIncrement
  return ⟨[callnum],.transaction callnum⟩

/-- `registerTransaction`. -/
def registeredTransaction (funcName : String) : Code Reserved := do
  if !isWithinWorkflow (← get) then
    if truthy (← getNextWFID none) then
      invalid ("Call to transaction '" ++ funcName ++ "' made without starting workflow")
    return ⟨[],.transaction 0⟩
  if isInTransaction (← get) || isInStep (← get) then
    invalid "Invalid call to a `transaction` function from within a `step` or `transaction`"
  let callnum ← functionIDGetIncrement
  return ⟨[callnum],.transaction callnum⟩

/-- `#invokeWorkflow`; `checked` is what `checkEnqueueOptions` says. -/
def invokeWorkflow (workflowID : Option String) (checked : Except DbosError Unit) (startWfFuncId : Option Nat) : Code Reserved := do
  let wfId ← getNextWFID workflowID
  let ppctx ← get
  if isWithinWorkflow ppctx then
    if !isInWorkflow ppctx then invalid "Invalid call to a `workflow` function from within a `step` or `transaction`"
    let funcId ← match startWfFuncId with
      | some funcId => pure funcId
      | none => functionIDGetIncrement
    let _ ← (match checked with
      | .ok _ => pure ()
      | .error e => throw e : Code Unit)
    return ⟨[funcId],.workflow (if truthy wfId then wfId else some (ppctx.workflowId.getD "" ++ "-" ++ toString funcId))⟩
  let _ ← (match checked with
    | .ok _ => pure ()
    | .error e => throw e : Code Unit)
  return ⟨[],.workflow wfId⟩

/-- A call of a registered workflow; the second ID is for the result. -/
def callWorkflow (checked : Except DbosError Unit) : Code Reserved := do
  if isInWorkflow (← get) then
    let startWfFuncId ← functionIDGetIncrement
    let getResFuncID ← functionIDGetIncrement
    let started ← invokeWorkflow none checked (some startWfFuncId)
    return { started with ids := started.ids ++ [getResFuncID] }
  invokeWorkflow none checked none

/-- `#invokeSingletonWorkflow`. -/
def invokeSingletonWorkflow (workflowID : Option String) (checked : Except DbosError Unit) : Code Reserved := do
  let childFuncId ← if isInWorkflow (← get) then some <$> functionIDGetIncrement else pure none
  let resolvedWorkflowID ← getNextWFID workflowID
  invokeWorkflow resolvedWorkflowID checked childFuncId

/-- `runInternalStep` and `runTransactionalInternalStep`. -/
def runInternalStep (funcName : String) : Code Reserved := do
  if isWithinWorkflow (← get) then
    if isInStep (← get) then return {}
    if isInWorkflow (← get) then
      let functionID ← functionIDGetIncrement
      return ⟨[functionID],.done⟩
    invalid ("Invalid call to `" ++ funcName ++ "` inside a `transaction`")
  return {}

/-- `DBOS.now` and `DBOS.randomUUID`. -/
def now (funcName : String) : Code Reserved := do
  if isInWorkflow (← get) then return ← runInternalStep funcName
  return {}

def getWorkflowStatus : Code Reserved := do
  if isWithinWorkflow (← get) then
    if isInStep (← get) then return {}
    if isInWorkflow (← get) then
      let functionID ← functionIDGetIncrement
      return ⟨[functionID],.done⟩
    invalid "Invalid call to `getWorkflowStatus` inside a `transaction`"
  return {}

/-- The ID of the timer is reserved within a workflow, be it in a step or not. -/
def getResult (timeoutSeconds : Option Int) : Code Reserved := do
  if isWithinWorkflow (← get) && timeoutSeconds.isSome then
    let timerFuncID ← functionIDGetIncrement
    let reserved ← runInternalStep "DBOS.getResult"
    return { reserved with ids := timerFuncID :: reserved.ids }
  runInternalStep "DBOS.getResult"

def sleepms : Code Reserved := do
  if isWithinWorkflow (← get) && !isInStep (← get) then
    if isInTransaction (← get) then invalid "Invalid call to `DBOS.sleep` inside a `transaction`"
    let functionID ← functionIDGetIncrement
    return ⟨[functionID],.done⟩
  return {}

def send : Code Reserved := do
  if isInWorkflow (← get) then
    let functionID ← functionIDGetIncrement
    return ⟨[functionID],.done⟩
  return {}

def recv : Code Reserved := do
  if isWithinWorkflow (← get) then
    if !isInWorkflow (← get) then invalid "Invalid call to `DBOS.recv` inside a `step` or `transaction`"
    let functionID ← functionIDGetIncrement
    let timeoutFunctionID ← functionIDGetIncrement
    return ⟨[functionID,timeoutFunctionID],.done⟩
  invalid "Attempt to call `DBOS.recv` outside of a workflow"

def setEvent : Code Reserved := do
  if isWithinWorkflow (← get) then
    if !isInWorkflow (← get) then invalid "Invalid call to `DBOS.setEvent` inside a `step` or `transaction`"
    let functionID ← functionIDGetIncrement
    return ⟨[functionID],.done⟩
  invalid "Attempt to call `DBOS.setEvent` outside of a workflow"

def getEvent : Code Reserved := do
  if isWithinWorkflow (← get) then
    if !isInWorkflow (← get) then invalid "Invalid call to `DBOS.getEvent` inside a `step` or `transaction`"
    let functionID ← functionIDGetIncrement
    let timeoutFunctionID ← functionIDGetIncrement
    return ⟨[functionID,timeoutFunctionID],.done⟩
  return {}

/-- From a step it writes with the ID of the step, and not as an operation of its own. -/
def writeStream : Code Reserved := do
  if isInWorkflow (← get) then
    let functionID ← functionIDGetIncrement
    return ⟨[functionID],.done⟩
  if isInStep (← get) then return {}
  invalid "Invalid call to `DBOS.writeStream` outside of a workflow or step"

def closeStream : Code Reserved := do
  if isWithinWorkflow (← get) then
    if isInWorkflow (← get) then
      let functionID ← functionIDGetIncrement
      return ⟨[functionID],.done⟩
    invalid "Invalid call to `DBOS.closeStream` outside of a workflow or step"
  invalid "Invalid call to `DBOS.closeStream` outside of a workflow"

/-- `DBOS.patch` and `DBOS.deprecatePatch`: the counter is read, and `checkPatch` is awaited. -/
def patch (funcName : String) (enablePatching : Bool) : Code Reserved := do
  if !isInWorkflow (← get) then invalid ("`" ++ funcName ++ "` must be called from a workflow, and not within a step")
  if !enablePatching then invalid "Patching is not enabled.  See `enablePatching` in `DBOSConfig`"
  let functionID ← functionIDGet
  return ⟨[],.patch functionID⟩

inductive Operation
  | runStep (name : String)
  | decoratedStep
  | runTransaction (funcName : String)
  | registeredTransaction (funcName : String)
  | startWorkflow (workflowID : Option String) (checked : Except DbosError Unit)
  | callWorkflow (checked : Except DbosError Unit)
  | startSingleton (workflowID : Option String) (checked : Except DbosError Unit)
  | internalStep (funcName : String)
  | now (funcName : String)
  | getWorkflowStatus
  | getResult (timeoutSeconds : Option Int)
  | sleepms
  | send
  | recv
  | setEvent
  | getEvent
  | writeStream
  | closeStream
  | patch (funcName : String) (enablePatching : Bool)

def Operation.code : Operation → Code Reserved
  | .runStep name => Context.runStep name
  | .decoratedStep => Context.decoratedStep
  | .runTransaction funcName => Context.runTransaction funcName
  | .registeredTransaction funcName => Context.registeredTransaction funcName
  | .startWorkflow workflowID checked => invokeWorkflow workflowID checked none
  | .callWorkflow checked => Context.callWorkflow checked
  | .startSingleton workflowID checked => invokeSingletonWorkflow workflowID checked
  | .internalStep funcName => runInternalStep funcName
  | .now funcName => Context.now funcName
  | .getWorkflowStatus => Context.getWorkflowStatus
  | .getResult timeoutSeconds => Context.getResult timeoutSeconds
  | .sleepms => Context.sleepms
  | .send => Context.send
  | .recv => Context.recv
  | .setEvent => Context.setEvent
  | .getEvent => Context.getEvent
  | .writeStream => Context.writeStream
  | .closeStream => Context.closeStream
  | .patch funcName enablePatching => Context.patch funcName enablePatching

/-! ### Running the code -/

section
variable {α β : Type} (c : DBOSLocalCtx)

@[simp] theorem get_code : (get : Code DBOSLocalCtx) c = .ok c c := rfl

@[simp] theorem set_code (c' : DBOSLocalCtx) : (set c' : Code PUnit) c = .ok () c' := rfl

@[simp] theorem pure_code (a : α) : (pure a : Code α) c = .ok a c := rfl

@[simp] theorem throw_code (e : DbosError) : (throw e : Code α) c = .error e c := rfl

@[simp] theorem bind_code (m : Code α) (f : α → Code β) :
    (m >>= f) c = match m c with
      | .ok a c' => f a c'
      | .error e c' => .error e c' := by
  change EStateM.bind m f c = _
  unfold EStateM.bind
  cases m c <;> rfl

@[simp] theorem map_code (m : Code α) (f : α → β) :
    (f <$> m) c = match m c with
      | .ok a c' => .ok (f a) c'
      | .error e c' => .error e c' := by
  change EStateM.map f m c = _
  unfold EStateM.map
  cases m c <;> rfl

@[simp] theorem ite_code (p : Prop) [Decidable p] (m m' : Code α) : (if p then m else m') c = if p then m c else m' c := by
  split <;> rfl

end
end Dbos.Context
