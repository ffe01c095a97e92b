import Dbos.Pg.Run
import Dbos.Pg.Table
import Dbos.Pg.Throwing

/-!
The registry of functions and classes of `src/decorators.ts`. A row of `workflow_status` has the class name and the name of its workflow, as
the registration of the function has them, and whoever recovers or dequeues the row looks the function up by these names. Decorators and
calls of `registerWorkflow` and the like come in any order before a launch, which gives the classes that were registered by their
constructors their names.
-/
namespace Dbos.FunctionRegistry
open Dbos.Pg

/-! ### Objects -/

/-- A constructor, with its `name`. -/
structure Ctor where
  id : Nat
  name : String
  deriving DecidableEq

/-- `ctorOrProto`: a constructor for a static method, a prototype for a method of instances. -/
structure Target where
  ctor : Ctor
  isInstance : Bool
  deriving DecidableEq

/-- A function of the application, the `registeredFunction` of a registration, or what the application gets in return. -/
inductive Func
  | app (n : Nat)
  | registered (m : Nat)
  | wrapper (m : Nat)
  deriving DecidableEq

/-- Registrations of methods are numbered. -/
structure ClassRegistration where
  name : String := ""
  ctor : Option Ctor := none
  registeredOperationsByName : Table String Nat := Table.empty
  allRegisteredOperations : Table Func Nat := Table.empty
  configuredInstances : Table String Nat := Table.empty

inductive OperationType
  | Workflow
  | Step
  deriving DecidableEq

/-- `workflowConfig` or `stepConfig` is set when there is a `type`. `byName` is history that nothing reads: the class and the name under
    which `registerOperationByName` has put it. -/
structure MethodRegistration where
  name : String
  className : String
  classReg : Nat
  isInstance : Bool
  type : Option OperationType := none
  byName : Option (Nat × String) := none

structure ByName where
  reg : Nat
  ctor : Option Ctor

structure ByCtor where
  name : String
  reg : Nat

/-- The maps of the module, with the objects that they refer to. `launched` is `dbosLaunchPoint`. -/
structure Registry where
  classes : List ClassRegistration := []
  methods : List MethodRegistration := []
  functionToRegistration : Table Func Nat := Table.empty
  classesByName : Table String ByName := Table.empty
  classesByCtor : Table Ctor ByCtor := Table.empty
  launched : Bool := false

/-- The texts are without the places of earlier registrations. -/
inductive RegistrationError
  | TypeError (message : String)
  | DBOSConflictingRegistrationError (message : String)
  | DBOSNotRegisteredError (name message : String)
  deriving DecidableEq

abbrev Registering := Throwing RegistrationError Registry

/-- `||` on texts. -/
def orText (a b : String) : String := if a = "" then b else a

def ClassRegistration.getClassName (cls : ClassRegistration) : String := orText cls.name ((cls.ctor.map Ctor.name).getD "")

/-- The class of a registration. -/
def Registry.class? (s : Registry) (reg : MethodRegistration) : Option ClassRegistration := s.classes[reg.classReg]?

def MethodRegistration.getClassName (s : Registry) (reg : MethodRegistration) : String :=
  orText reg.className ((s.class? reg).elim "" ClassRegistration.getClassName)

/-! ### Changes -/

namespace Registry
variable (s : Registry)

def addCtor (c : Ctor) : Registry :=
  { s with
    classes := s.classes ++ [{ ctor := some c }]
    classesByCtor := s.classesByCtor.insert c ⟨c.name,s.classes.length⟩ }

def addNamed (name : String) : Registry :=
  { s with
    classes := s.classes ++ [{ name := name }]
    classesByName := s.classesByName.insert name ⟨s.classes.length,none⟩ }

def setAlias (c : Ctor) (name : String) : Registry :=
  { s with classesByCtor := s.classesByCtor.update (fun c' _ => c' = c) fun _ reg => { reg with name := name } }

def modifyClass (k : Nat) (f : ClassRegistration → ClassRegistration) : Registry := { s with classes := s.classes.modify k f }

def modifyMethod (m : Nat) (f : MethodRegistration → MethodRegistration) : Registry := { s with methods := s.methods.modify m f }

def setFunction (func : Func) (m : Nat) : Registry :=
  { s with functionToRegistration := s.functionToRegistration.upsert func m fun _ => m }

/-- A new registration, under the functions that it is found by. -/
def addMethod (k : Nat) (name : String) (func : Func) (isInstance : Bool) : Registry :=
  let m := s.methods.length
  let reg : MethodRegistration :=
    { name := name,className := (s.classes[k]?).elim "" ClassRegistration.name,classReg := k,isInstance := isInstance }
  let classes := s.classes.modify k fun cls =>
    { cls with allRegisteredOperations := cls.allRegisteredOperations.insert func m }
  ({ s with methods := s.methods ++ [reg],classes := classes }.setFunction (.registered m) m).setFunction func m

/-- The registration is put under the name in the class. -/
def register (k : Nat) (name : String) (m : Nat) : Registry :=
  (s.modifyClass k fun cls =>
    { cls with registeredOperationsByName := cls.registeredOperationsByName.upsert name m fun _ => m }).modifyMethod m fun reg =>
    { reg with byName := some (k,name) }

end Registry

/-! ### Registration -/

def getClassRegistration (c : Ctor) : Registering ByCtor := do
  let s ← get
  match s.classesByCtor.get? c with
  | some reg => return reg
  | none =>
    modify fun s => s.addCtor c
    return ⟨c.name,s.classes.length⟩

/-- With `create`; a class that is found by a name has been initialized. -/
def getClassRegistrationByName (name : String) : Registering Nat := do
  let s ← get
  match s.classesByName.get? name with
  | some reg => return reg.reg
  | none =>
    modify fun s => s.addNamed name
    return s.classes.length

def getOrCreateClassRegistration (target : Option Target) (className : Option String) : Registering Nat := do
  match target with
  | none => getClassRegistrationByName (className.getD "")
  | some target =>
    let reg ← getClassRegistration target.ctor
    match className with
    | none => return reg.reg
    | some className =>
      if reg.name ≠ "" ∧ reg.name ≠ className then
        throw (.TypeError s!"Attempt to register class under two names: {reg.name} vs. {className}")
      modify fun s => s.setAlias target.ctor className
      return reg.reg

def getOrCreateMethodRegistration (target : Option Target) (className : Option String) (name : String) (func : Func) : Registering Nat := do
  let k ← getOrCreateClassRegistration target className
  let s ← get
  match (s.classes[k]?).bind fun cls => cls.allRegisteredOperations.get? func with
  | some m => return m
  | none =>
    modify fun s => s.addMethod k name func (target.any Target.isInstance)
    return s.methods.length

def registerOperationByName (k : Nat) (name : String) (m : Nat) : Registering Unit := do
  let s ← get
  match (s.classes[k]?).bind fun cls => cls.registeredOperationsByName.get? name with
  | some m' =>
    if m' ≠ m then
      throw (.DBOSConflictingRegistrationError
        ("Operation (Name: " ++ (s.classes[k]?).elim "" ClassRegistration.name ++ s!".{name}) is already registered."))
    modify fun s => s.register k name m
  | none => modify fun s => s.register k name m

def ensureDBOSIsNotLaunched : Registering Unit := do
  let s ← get
  if s.launched then throw (.DBOSConflictingRegistrationError "DBOS code is being registered after DBOS.launch().")

def wrapDBOSFunctionAndRegisterByUniqueName (target : Option Target) (className : Option String) (propertyKey name : String) (func : Func) :
    Registering Nat := do
  ensureDBOSIsNotLaunched
  let name := orText name propertyKey
  let s ← get
  match s.functionToRegistration.get? func with
  | some m =>
    let k ← getOrCreateClassRegistration target className
    registerOperationByName k name m
    return m
  | none =>
    let m ← getOrCreateMethodRegistration target className name func
    let k ← getOrCreateClassRegistration target className
    registerOperationByName k name m
    return m

def wrapDBOSFunctionAndRegister (target : Option Target) (className : Option String) (name : String) (func : Func) : Registering Nat := do
  ensureDBOSIsNotLaunched
  let s ← get
  match s.functionToRegistration.get? func with
  | some m => return m
  | none => getOrCreateMethodRegistration target className name func

def OperationType.text : OperationType → String
  | .Workflow => "Workflow"
  | .Step => "Step"

/-- `checkFuncTypeUnassigned` and the assignment of the configuration. -/
def setConfig (m : Nat) (type : OperationType) : Registering Unit := do
  let s ← get
  match s.methods[m]? with
  | none => return
  | some reg =>
    let operation := s!"Operation (Name: {reg.getClassName s}.{reg.name}) is already registered"
    match reg.type with
    | some old =>
      if old ≠ type then
        throw (.DBOSConflictingRegistrationError s!"{operation} with a conflicting function type: {old.text} vs. {type.text}")
      else throw (.DBOSConflictingRegistrationError s!"{operation}.")
    | none => modify fun s => s.modifyMethod m fun reg => { reg with type := some type }

def registerFunctionWrapper (func : Func) (m : Nat) : Registering Unit := modify fun s => s.setFunction func m

/-- `DBOS.registerWorkflow`, and `DBOS.workflow` with a target and without a class name. -/
def registerWorkflow (target : Option Target) (className : Option String) (propertyKey name : String) (func : Func) : Registering Unit := do
  let m ← wrapDBOSFunctionAndRegisterByUniqueName target className propertyKey name func
  setConfig m .Workflow
  registerFunctionWrapper (.wrapper m) m

/-- The decorator `DBOS.step`. -/
def step_ (target : Target) (propertyKey name : String) (func : Func) : Registering Unit := do
  let m ← wrapDBOSFunctionAndRegisterByUniqueName (some target) none propertyKey name func
  setConfig m .Step
  registerFunctionWrapper (.wrapper m) m

/-- `DBOS.registerStep` sets no configuration and no name. -/
def registerStep (target : Option Target) (className : Option String) (name : String) (func : Func) : Registering Unit := do
  let m ← wrapDBOSFunctionAndRegister target className name func
  registerFunctionWrapper (.wrapper m) m

/-- As event receivers do, and `DBOS.registerScheduled` and `DBOS.scheduled`. -/
def associateMethodWithExternal (target : Option Target) (className : Option String) (funcName : String) (func : Func) : Registering Unit := do
  let _ ← wrapDBOSFunctionAndRegister target className funcName func

def associateClassWithExternal : Ctor ⊕ String → Registering Unit
  | .inl c => do let _ ← getClassRegistration c
  | .inr name => do let _ ← getClassRegistrationByName name

/-- The decorator `DBOS.className`. -/
def className (name : String) (c : Ctor) : Registering Unit := do
  let reg ← getClassRegistration c
  if reg.name ≠ "" ∧ reg.name ≠ name ∧ reg.name ≠ c.name then
    throw (.DBOSConflictingRegistrationError
      s!"Attempt to assign name {name} to class {c.name}, which has already been aliased to {reg.name}")
  modify fun s => s.setAlias c name

/-- The constructor of `ConfiguredInstance`. -/
def registerClassInstance (c : Ctor) (instname : String) (inst : Nat) : Registering Unit := do
  let reg ← getClassRegistration c
  let s ← get
  if ((s.classes[reg.reg]?).bind fun cls => cls.configuredInstances.get? instname).isSome then
    throw (.DBOSConflictingRegistrationError
      ("An instance of class '" ++ c.name ++ "' with name '" ++ instname ++ "' was already registered."))
  modify fun s => s.modifyClass reg.reg fun cls =>
    { cls with configuredInstances := cls.configuredInstances.insert instname inst }

/-! ### Launch -/

/-- `classesByName.set`, `reg.name = cname` and `setName`. -/
def Registry.setName (s : Registry) (c : Ctor) (k : Nat) (cname : String) : Registry :=
  { s with
    classesByName := s.classesByName.upsert cname ⟨k,some c⟩ fun _ => ⟨k,some c⟩
    classesByCtor := s.classesByCtor.update (fun c' _ => c' = c) fun _ reg => { reg with name := cname }
    classes := s.classes.modify k fun cls => { cls with name := cname }
    methods := s.methods.zipIdx.map fun (reg,m) =>
      if ((s.classes[k]?).elim [] fun cls => cls.registeredOperationsByName.entries).any fun e => e.2 = m then
        { reg with className := cname }
      else reg }

/-- One turn of `finalizeClassRegistrations`. -/
def finalizeClass (c : Ctor) (reg : ByCtor) : Registering PUnit := do
  let s ← get
  let cname := orText reg.name (orText ((s.classes[reg.reg]?).elim "" ClassRegistration.name) c.name)
  match s.classesByName.get? cname with
  | none => modify fun s => s.setName c reg.reg cname
  | some ereg =>
    if ereg.ctor ≠ none ∧ ereg.ctor ≠ some c then
      throw (.DBOSConflictingRegistrationError (s!"Class {cname}({c.name}) has been given a name that conflicts with another class " ++
        (ereg.ctor.map Ctor.name).getD "" ++ "."))
    if ereg.reg ≠ reg.reg then
      throw (.DBOSConflictingRegistrationError
        s!"Class: {cname}({c.name}) has been given a name that was registered directly by name without a class.")
    modify fun s => s.setName c reg.reg cname

def finalizeClassRegistrations : Registering PUnit := do
  let s ← get
  s.classesByCtor.entries.forM fun e => finalizeClass e.1 e.2

/-- What `DBOS.launch` does with the registry, unless DBOS runs already. -/
def launch : Registering PUnit := do
  let s ← get
  if s.launched then return
  finalizeClassRegistrations
  modify fun s => { s with launched := true }

/-! ### Look-up -/

def getFunctionRegistrationByName (s : Registry) (className name : String) : Except RegistrationError (Option Nat) :=
  match s.classesByName.get? className with
  | none => .error (.DBOSNotRegisteredError className ("Class '" ++ className ++ "' is not registered"))
  | some reg => .ok ((s.classes[reg.reg]?).bind fun cls => cls.registeredOperationsByName.get? name)

/-- What `internalWorkflow` records of the function. -/
def getRegisteredFunctionFullName (s : Registry) (func : Func) : Option (String × String) :=
  (s.functionToRegistration.get? func).bind fun m => (s.methods[m]?).map fun reg => (reg.getClassName s,reg.name)

/-! ### The registry at work -/

inductive Event
  | registerWorkflow (target : Option Target) (className : Option String) (propertyKey name : String) (func : Func)
  | step_ (target : Target) (propertyKey name : String) (func : Func)
  | registerStep (target : Option Target) (className : Option String) (name : String) (func : Func)
  | associateMethodWithExternal (target : Option Target) (className : Option String) (funcName : String) (func : Func)
  | associateClassWithExternal (cls : Ctor ⊕ String)
  | assignClassName (name : String) (c : Ctor)
  | registerClassInstance (c : Ctor) (instname : String) (inst : Nat)
  | launch
  | shutdown

def Event.act : Event → Registering PUnit
  | .registerWorkflow target className propertyKey name func => FunctionRegistry.registerWorkflow target className propertyKey name func
  | .step_ target propertyKey name func => FunctionRegistry.step_ target propertyKey name func
  | .registerStep target className name func => FunctionRegistry.registerStep target className name func
  | .associateMethodWithExternal target className funcName func =>
    FunctionRegistry.associateMethodWithExternal target className funcName func
  | .associateClassWithExternal cls => FunctionRegistry.associateClassWithExternal cls
  | .assignClassName name c => className name c
  | .registerClassInstance c instname inst => FunctionRegistry.registerClassInstance c instname inst
  | .launch => FunctionRegistry.launch
  | .shutdown => modify fun s => { s with launched := false }

/-- A call that throws leaves what it has done. -/
def step (s : Registry) (e : Event) : Option Registry := some (outcome e.act s).2

/-- The call returns. -/
def returns (s : Registry) (e : Event) : Bool := (outcome e.act s).1.toOption.isSome

end Dbos.FunctionRegistry
