import Dbos.OrphanedClaims

/-!
Steps that run as workflows of their own: `startStepTempWF` in `src/dbos-executor.ts`, the registry of `src/decorators.ts` and the way back
in `executeWorkflowId`. The name of such a workflow joins three parts with hyphens; the dispatch splits it at every hyphen and takes the
third part for the name of the step.
-/
namespace Dbos.TempWorkflows
open Dbos.Pg Dbos.Schema Dbos.Status Dbos.Start Dbos.Execution Dbos.OrphanedClaims

variable {Args : Type}

/-! ### The registry -/

/-- A registration with the function it is for; the number tells functions apart. -/
structure Operation extends Registration where
  registeredFunction : Nat

/-- The maps of `src/decorators.ts`: the class names, the operations of a class by name and its configured instances. -/
structure Registry where
  classesByName : String → Bool
  registeredOperationsByName : String → String → Option Operation
  configuredInstances : String → String → Bool
  inClass : ∀ className name op, registeredOperationsByName className name = some op → classesByName className = true

/-- The process `p` with these registrations. -/
def Registry.process (registry : Registry) (p : Process Args) : Process Args :=
  { p with
    classesByName := registry.classesByName
    getFunctionRegistrationByName := fun className name =>
      (registry.registeredOperationsByName className name).map Operation.toRegistration
    hasConfiguredInstance := registry.configuredInstances }

/-- The status that `startStepTempWF` hands to `initWorkflowStatus`; `configName` is the name of the configured instance or empty. -/
def startStepTempWF (step : Operation) (configName : String) (caller : Caller) (params : WorkflowParams) (now : Int) :
    WorkflowStatusInternal :=
  let target := stepTarget step.toRegistration configName
  internalStatus { caller with
    workflowName := target.workflowName
    workflowClassName := target.workflowClassName
    workflowConfigName := target.workflowConfigName } params now

/-- The step that a name of three parts stands for. -/
def Registry.parsedStep (registry : Registry) (wf : WorkflowStatusInternal) : Option Operation :=
  let nameArr := (Js.split '-' wf.workflowName.toList).map String.ofList
  if tempWorkflowName.toList.isPrefixOf (nameArr[0]?.getD "").toList = true ∧ nameArr[1]? = some "step" then
    (registry.registeredOperationsByName wf.workflowClassName (nameArr[2]?.getD "undefined")).filter fun op => op.stepConfig
  else none

/-- The registered function that `executeWorkflowId` runs: a workflow of the stored name goes first. -/
def Registry.dispatched (registry : Registry) (wf : WorkflowStatusInternal) : Option Operation :=
  match registry.registeredOperationsByName wf.workflowClassName wf.workflowName with
  | some methReg => if methReg.workflowConfig.isSome then some methReg else registry.parsedStep wf
  | none => registry.parsedStep wf

/-- A dispatch of the row runs the step again, under the name, the class and the configuration that the row has. -/
structure ReInvoked (registry : Registry) (p : Process Args) (step : Operation) (workflowID : String) (options : ExecuteOptions)
    (row : WorkflowStatus) (now : Int) : Prop where
  same : registry.dispatched (mapWorkflowStatus workflowID row) = some step
  goesOn : ∃ initStatus maxRetries,plan (registry.process p) workflowID options (some row) now = .inits initStatus maxRetries ∧
    Matches row initStatus.status

/-- The input of the row can be read, and it can be written again. -/
def Readable (p : Process Args) (row : WorkflowStatus) : Prop :=
  ∃ text args input,row.inputs = some text ∧ text ≠ "" ∧ p.deserializePositionalArgs text row.serialization = .ok args ∧
    p.serializeFunctionInput args = .ok input

/-! ### Taking the name apart -/

/-- The name up to its first hyphen. -/
def firstPart (name : String) : String := String.ofList (name.toList.takeWhile fun c => c ≠ '-')

theorem firstPart_eq_iff {name : String} : firstPart name = name ↔ '-' ∉ name.toList := by
  unfold firstPart
  rw [← String.toList_inj,String.toList_ofList,List.takeWhile_eq_self_iff]
  constructor
  · intro free listed
    simpa using free '-' listed
  · intro free c listed
    have other : c ≠ '-' := fun same => free (same ▸ listed)
    simpa using other

/-- Of the name of a temporary workflow the dispatch sees the step up to its first hyphen. -/
theorem nameArr_step (name : String) :
    ∃ rest,(Js.split '-' (tempWorkflowName ++ "-step-" ++ name).toList).map String.ofList =
      tempWorkflowName :: "step" :: firstPart name :: rest := by
  obtain ⟨rest,pieces⟩ := Js.split_head '-' name.toList
  have letters : (tempWorkflowName ++ "-step-" ++ name).toList =
      tempWorkflowName.toList ++ '-' :: ("step".toList ++ '-' :: name.toList) := by
    simp [tempWorkflowName]
  refine ⟨rest.map String.ofList,?_⟩
  rw [letters,Js.split_append (by decide),Js.split_append (by decide),pieces]
  simp [firstPart]

variable {registry : Registry} {p : Process Args} {workflowID : String} {wf : WorkflowStatusInternal} {name configName : String}

theorem parsedStep_step (named : wf.workflowName = tempWorkflowName ++ "-step-" ++ name) :
    registry.parsedStep wf =
      (registry.registeredOperationsByName wf.workflowClassName (firstPart name)).filter fun op => op.stepConfig := by
  obtain ⟨rest,parts⟩ := nameArr_step name
  have temporary : tempWorkflowName.toList.isPrefixOf tempWorkflowName.toList = true := by decide
  unfold Registry.parsedStep
  simp only [named,parts,List.getElem?_cons_zero,List.getElem?_cons_succ,Option.getD_some,temporary,true_and,if_true]

/-- A temporary workflow of a step is run as the step that the first part of the name is registered for. -/
theorem tempTarget_step (p : Process Args) (workflowID : String) (named : wf.workflowName = tempWorkflowName ++ "-step-" ++ name) {target : Target} :
    tempTarget (registry.process p) workflowID wf configName = .ok target ↔
      ∃ op,registry.registeredOperationsByName wf.workflowClassName (firstPart name) = some op ∧ op.stepConfig = true ∧
        target = stepTarget op.toRegistration configName := by
  obtain ⟨rest,parts⟩ := nameArr_step name
  have temporary : tempWorkflowName.toList.isPrefixOf tempWorkflowName.toList = true := by decide
  unfold tempTarget
  simp only [named,parts,List.getElem?_cons_zero,List.getElem?_cons_succ,Option.getD_some,temporary,Registry.process]
  cases found : registry.registeredOperationsByName wf.workflowClassName (firstPart name) with
  | none => simp
  | some op =>
    by_cases steps : op.stepConfig = true
    · simp only [Option.map_some,steps,if_true,Bool.true_eq_false,if_false,Except.ok.injEq,Option.some.injEq]
      constructor
      · rintro rfl
        exact ⟨op,rfl,steps,rfl⟩
      · rintro ⟨op',rfl,_,rfl⟩
        rfl
    · simp [steps]

/-- A workflow that is registered under the name hides the step. -/
theorem dispatched_step {step : Operation} (named : wf.workflowName = tempWorkflowName ++ "-step-" ++ name)
    (isStep : step.stepConfig = true) (noWorkflow : step.workflowConfig = none) :
    registry.dispatched wf = some step ↔
      (∀ op, registry.registeredOperationsByName wf.workflowClassName wf.workflowName = some op → op.workflowConfig = none) ∧
        registry.registeredOperationsByName wf.workflowClassName (firstPart name) = some step := by
  have parsed : registry.parsedStep wf = some step ↔
      registry.registeredOperationsByName wf.workflowClassName (firstPart name) = some step := by
    rw [parsedStep_step named,Option.filter_eq_some_iff]
    exact and_iff_left isStep
  unfold Registry.dispatched
  cases here : registry.registeredOperationsByName wf.workflowClassName wf.workflowName with
  | none => simp [parsed]
  | some op =>
    cases config : op.workflowConfig with
    | none => simp [config,parsed]
    | some workflow =>
      have other : op ≠ step := by
        rintro rfl
        simp [config] at noWorkflow
      simp [config,other]

/-- Unless a workflow hides it, the target is the one of the step. -/
theorem targetOf_step (named : wf.workflowName = tempWorkflowName ++ "-step-" ++ name)
    (unshadowed : ∀ op, registry.registeredOperationsByName wf.workflowClassName wf.workflowName = some op → op.workflowConfig = none)
    {target : Target} :
    targetOf (registry.process p) workflowID wf = .ok target ↔
      ∃ op,registry.registeredOperationsByName wf.workflowClassName (firstPart name) = some op ∧ op.stepConfig = true ∧
        target = stepTarget op.toRegistration
          (if registry.configuredInstances wf.workflowClassName wf.workflowConfigName then wf.workflowConfigName else "") := by
  rw [← tempTarget_step p workflowID named]
  unfold targetOf
  by_cases missing : (registry.process p).classesByName wf.workflowClassName = false
  · rw [if_pos missing]
    constructor
    · intro found
      cases found
    · intro found
      obtain ⟨op,listed,_⟩ := (tempTarget_step p workflowID named).mp found
      cases (registry.inClass _ _ op listed).symm.trans missing
  · rw [if_neg missing]
    have looksUp : (registry.process p).getFunctionRegistrationByName wf.workflowClassName wf.workflowName =
        (registry.registeredOperationsByName wf.workflowClassName wf.workflowName).map Operation.toRegistration := rfl
    rw [looksUp]
    cases here : registry.registeredOperationsByName wf.workflowClassName wf.workflowName with
    | none => rfl
    | some op =>
      simp only [Option.map_some,unshadowed op here]
      rfl

/-! ### Which steps are run again -/

/-- The step is what its class has under the part of its name before the first hyphen (for an empty name, what the empty class has), no
    workflow has the name of the temporary workflow, and a configured instance is registered in that class. -/
structure Recoverable (registry : Registry) (step : Operation) (configName : String) : Prop where
  found : registry.registeredOperationsByName (if step.name = "" then "" else step.className) (firstPart step.name) = some step
  unshadowed : ∀ op, registry.registeredOperationsByName (if step.name = "" then "" else step.className)
    (tempWorkflowName ++ "-step-" ++ step.name) = some op → op.workflowConfig = none
  configured : configName = "" ∨ registry.configuredInstances (if step.name = "" then "" else step.className) configName = true

/-- Where every operation has the class and the name that it is registered under, a name without hyphens is found again, and the empty one
    where there is no class. -/
theorem found_iff {step : Operation} (ownNames : ∀ className name op, registry.registeredOperationsByName className name = some op →
    op.className = className ∧ op.name = name) (registered : registry.registeredOperationsByName step.className step.name = some step) :
    registry.registeredOperationsByName (if step.name = "" then "" else step.className) (firstPart step.name) = some step ↔
      '-' ∉ step.name.toList ∧ (step.name = "" → step.className = "") := by
  constructor
  · intro found
    obtain ⟨class_,name_⟩ := ownNames _ _ _ found
    refine ⟨firstPart_eq_iff.mp name_.symm,?_⟩
    intro empty
    rwa [if_pos empty] at class_
  · rintro ⟨free,classless⟩
    rw [firstPart_eq_iff.mpr free]
    by_cases empty : step.name = ""
    · rw [if_pos empty,← classless empty]
      exact registered
    · rwa [if_neg empty]

/-- Whatever is done to a row, it keeps the name, the class and the configuration that it was started with. -/
theorem rewrite_matches {k : String} {r r' : WorkflowStatus} {op : Ops.Op} {initStatus : WorkflowStatusInternal}
    (rewritten : Ops.Rewrite k r op r') (agrees : Matches r initStatus) : Matches r' initStatus := by
  obtain ⟨name,class_,config⟩ := agrees
  cases rewritten with
  | recorded _ outcome now records open_ => cases outcome <;> exact ⟨name,class_,config⟩
  | _ => exact ⟨name,class_,config⟩

/-- A call goes on with the row exactly when the row can be executed. -/
theorem plan_goesOn {row : WorkflowStatus} {options : ExecuteOptions} (same : options.startNewWorkflow = none) {now : Int} :
    (∃ initStatus maxRetries,plan p workflowID options (some row) now = .inits initStatus maxRetries ∧ Matches row initStatus.status) ↔
      ∃ args target,Executable p workflowID row args target := by
  have planned : Planned p workflowID row (plan p workflowID options (some row) now) := plan_planned options same now
  generalize plan p workflowID options (some row) now = outcome at planned
  cases planned with
  | fails e readable lost =>
    constructor
    · rintro ⟨_,_,made,_⟩
      cases made
    · rintro ⟨args,target,executable⟩
      exact absurd executable (lost args target)
  | recordsError error unreadable lost =>
    constructor
    · rintro ⟨_,_,made,_⟩
      cases made
    · rintro ⟨args,target,executable⟩
      exact absurd executable (lost args target)
  | inits initStatus target readable own executor limited names executable =>
    constructor
    · rintro ⟨_,_,made,agrees⟩
      cases made
      obtain ⟨args,able⟩ := executable agrees
      exact ⟨args,target,able⟩
    · rintro ⟨args,target',able⟩
      exact ⟨initStatus,_,rfl,(names args target' able).2⟩

/-- A row of a step's temporary workflow that can be read: a later dispatch runs the step again exactly when the registry is such. The row is
    any that has the name, the class and the configuration that the start gave it. -/
theorem temp_reinvoked_iff (registry : Registry) (p : Process Args) (step : Operation) (isStep : step.stepConfig = true)
    (noWorkflow : step.workflowConfig = none) (configName : String) (caller : Caller) (params : WorkflowParams) (created : Int)
    (row : WorkflowStatus) (stored : Matches row (startStepTempWF step configName caller params created)) (readable : Readable p row)
    (workflowID : String) (options : ExecuteOptions) (again : options.startNewWorkflow = none) (now : Int) :
    ReInvoked registry p step workflowID options row now ↔ Recoverable registry step configName := by
  obtain ⟨name,class_,config⟩ := stored
  have named : (mapWorkflowStatus workflowID row).workflowName = tempWorkflowName ++ "-step-" ++ step.name := name
  have inClass : (mapWorkflowStatus workflowID row).workflowClassName = if step.name = "" then "" else step.className := class_
  have configured : (mapWorkflowStatus workflowID row).workflowConfigName = configName := config
  constructor
  · rintro ⟨same,goesOn⟩
    obtain ⟨unshadowed,found⟩ := (dispatched_step named isStep noWorkflow).mp same
    obtain ⟨args,target,able⟩ := (plan_goesOn again).mp goesOn
    obtain ⟨op,_,_,rfl⟩ := (targetOf_step named unshadowed).mp able.found
    have kept : configName =
        if registry.configuredInstances (mapWorkflowStatus workflowID row).workflowClassName configName then configName else "" := by
      rw [← configured]
      exact able.config
    rw [inClass] at found unshadowed kept
    rw [named] at unshadowed
    refine ⟨found,unshadowed,?_⟩
    by_cases instance_ : registry.configuredInstances (if step.name = "" then "" else step.className) configName = true
    · exact .inr instance_
    · rw [if_neg instance_] at kept
      exact .inl kept
  · rintro ⟨found,unshadowed,known⟩
    rw [← inClass] at found unshadowed known
    rw [← named] at unshadowed
    refine ⟨(dispatched_step named isStep noWorkflow).mpr ⟨unshadowed,found⟩,(plan_goesOn again).mpr ?_⟩
    obtain ⟨text,args,input,given,present,reads,writes⟩ := readable
    have kept : (if registry.configuredInstances (mapWorkflowStatus workflowID row).workflowClassName
        (mapWorkflowStatus workflowID row).workflowConfigName then (mapWorkflowStatus workflowID row).workflowConfigName else "") =
          configName := by
      rw [configured]
      rcases known with none_ | instance_
      · simp [none_]
      · rw [if_pos instance_]
    refine ⟨args,stepTarget step.toRegistration configName,⟨text,given,present,reads⟩,?_,⟨input,writes⟩,name,class_,config⟩
    exact (targetOf_step named unshadowed).mpr ⟨step,found,isStep,by rw [kept]⟩

/-! ### Names with a hyphen -/

def reserve : Operation := { name := "reserve",className := "Orders",stepConfig := true,registeredFunction := 1 }

def reserveStock : Operation := { name := "reserve-stock",className := "Orders",stepConfig := true,registeredFunction := 2 }

/-- One class with these operations. -/
def orders (operations : List Operation) : Registry where
  classesByName className := className = "Orders"
  registeredOperationsByName className name :=
    if className = "Orders" then operations.find? fun op => op.name = name else none
  configuredInstances _ _ := false
  inClass := by
    intro className name op found
    split at found
    · rename_i here
      simpa using here
    · cases found

/-- The row that the start of the step inserts. -/
def startedRow (step : Operation) : WorkflowStatus :=
  insertedRow (startStepTempWF step "" { workflowName := "",input := some "[]" } { workflowUUID := "w" } 1) none 1

theorem temp_reinvoked_reserve : ReInvoked (orders [reserve]) DispatchedStarts.oneWorkflow reserve "w" { isRecoveryDispatch := true }
    (startedRow reserve) 2 := by
  refine (temp_reinvoked_iff (orders [reserve]) DispatchedStarts.oneWorkflow reserve rfl rfl "" { workflowName := "",input := some "[]" }
    { workflowUUID := "w" } 1 (startedRow reserve) ⟨rfl,rfl,rfl⟩ ⟨"[]",(),_,rfl,by decide,rfl,rfl⟩ "w" { isRecoveryDispatch := true } rfl
    2).mpr ⟨?_,?_,.inl rfl⟩
  · rfl
  · intro op found
    cases found

/-- The step of a registered name with a hyphen is not found when its row is recovered. Where another step has the name up to the hyphen,
    that one is taken for it and the names differ. -/
theorem hyphen_not_reinvoked :
    ((orders [reserveStock]).registeredOperationsByName "Orders" "reserve-stock" = some reserveStock ∧
      plan ((orders [reserveStock]).process DispatchedStarts.oneWorkflow) "w" { isRecoveryDispatch := true } (some (startedRow reserveStock)) 2 =
        .fails (.DBOSNotRegisteredError "Operation (Name: reserve) not registered") ∧
      ¬ ReInvoked (orders [reserveStock]) DispatchedStarts.oneWorkflow reserveStock "w" { isRecoveryDispatch := true }
        (startedRow reserveStock) 2) ∧
    (orders [reserve,reserveStock]).registeredOperationsByName "Orders" "reserve-stock" = some reserveStock ∧
      (orders [reserve,reserveStock]).dispatched (mapWorkflowStatus "w" (startedRow reserveStock)) = some reserve ∧
      ∀ initStatus maxRetries, plan ((orders [reserve,reserveStock]).process DispatchedStarts.oneWorkflow) "w" { isRecoveryDispatch := true }
        (some (startedRow reserveStock)) 2 = .inits initStatus maxRetries → ¬ Matches (startedRow reserveStock) initStatus.status := by
  refine ⟨⟨rfl,rfl,?_⟩,rfl,rfl,?_⟩
  · rintro ⟨_,_,_,made,_⟩
    cases made
  · intro initStatus maxRetries made agrees
    cases made
    have other : "temp_workflow-step-reserve-stock" ≠ "temp_workflow-step-reserve" := by decide
    exact other agrees.1

end Dbos.TempWorkflows
