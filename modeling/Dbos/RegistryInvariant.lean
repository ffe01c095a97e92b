import Dbos.FunctionRegistry

/-!
What the maps of the registry have to do with each other, whatever is registered: a class that was registered by its constructor is found
by it, a class without one is found by its name, and a registration with a type is under one name in one class. Nothing that is under a
name is ever replaced. After a launch every class is under the name that its registrations have for it.
-/
namespace Dbos.FunctionRegistry
open Dbos.Pg

/-! ### Lists of objects -/

theorem modify_cases {α : Type} {l : List α} {i j : Nat} {f : α → α} {new : α} (found : (l.modify i f)[j]? = some new) :
    ∃ old, l[j]? = some old ∧ new = if i = j then f old else old := by
  rw [List.getElem?_modify] at found
  obtain ⟨old,there,rfl⟩ := Option.map_eq_some_iff.mp found
  exact ⟨old,there,rfl⟩

theorem modify_there {α : Type} {l : List α} {j : Nat} {old : α} (found : l[j]? = some old) (i : Nat) (f : α → α) :
    (l.modify i f)[j]? = some (if i = j then f old else old) := by
  rw [List.getElem?_modify,found]
  rfl

theorem lt_of_found {α : Type} {l : List α} {i : Nat} {a : α} (found : l[i]? = some a) : i < l.length :=
  (List.getElem?_eq_some_iff.mp found).1

/-! ### The invariant -/

/-- The class is under the name. -/
def Listed (s : Registry) (name : String) (k : Nat) : Prop := ∃ reg, s.classesByName.get? name = some reg ∧ reg.reg = k

/-- The class is under the name that its registrations have for it. -/
def Home (s : Registry) (k : Nat) : Prop := ∃ cls, s.classes[k]? = some cls ∧ Listed s cls.getClassName k

/-- The class of the workflow's registration, if it has a constructor, has given the registration its name. -/
structure Settled (s : Registry) (reg : MethodRegistration) : Prop where
  home : Home s reg.classReg
  named : ∀ (k : Nat) name cls, reg.byName = some (k,name) → s.classes[k]? = some cls → cls.ctor.isSome = true →
    reg.className = cls.name ∧ Listed s cls.name k

structure Kept (s : Registry) : Prop where
  named : ∀ name reg, s.classesByName.get? name = some reg → reg.reg < s.classes.length
  byCtor : ∀ c reg, s.classesByCtor.get? c = some reg → ∃ cls, s.classes[reg.reg]? = some cls ∧ cls.ctor = some c
  ctorListed : ∀ (k : Nat) cls c, s.classes[k]? = some cls → cls.ctor = some c → ∃ reg, s.classesByCtor.get? c = some reg ∧ reg.reg = k
  nameListed : ∀ (k : Nat) cls, s.classes[k]? = some cls → (cls.name = "" ∧ cls.ctor.isSome = true) ∨ Listed s cls.name k
  operations : ∀ (k : Nat) cls name m, s.classes[k]? = some cls → (cls.registeredOperationsByName.get? name = some m ↔
    ∃ reg, s.methods[m]? = some reg ∧ reg.byName = some (k,name))
  typed : ∀ (m : Nat) reg, s.methods[m]? = some reg → reg.byName.isSome = reg.type.isSome
  inClass : ∀ (m : Nat) reg, s.methods[m]? = some reg → reg.classReg < s.classes.length ∧
    ∀ k name, reg.byName = some (k,name) → k < s.classes.length
  home : ∀ (m : Nat) reg, s.methods[m]? = some reg →
    (∀ (k : Nat) name cls, reg.byName = some (k,name) → s.classes[k]? = some cls → cls.ctor = none) →
    reg.className = "" ∨ Listed s reg.className reg.classReg
  functions : ∀ func m, s.functionToRegistration.get? func = some m → m < s.methods.length
  all : ∀ (k : Nat) cls func m, s.classes[k]? = some cls → cls.allRegisteredOperations.get? func = some m → m < s.methods.length
  settled : s.launched = true → ∀ (m : Nat) reg, s.methods[m]? = some reg → Settled s reg

theorem kept_start : Kept {} where
  named := by intro name reg found; cases found
  byCtor := by intro c reg found; cases found
  ctorListed := by intro k cls c found; simp at found
  nameListed := by intro k cls found; simp at found
  operations := by intro k cls name m found; simp at found
  typed := by intro m reg found; simp at found
  inClass := by intro m reg found; simp at found
  home := by intro m reg found; simp at found
  functions := by intro func m found; cases found
  all := by intro k cls func m found; simp at found
  settled := by intro launched; cases launched

section
variable {s : Registry}

/-- A class is added. -/
theorem Kept.grown (kept : Kept s) {x : ClassRegistration} {byName : Table String ByName} {byCtor : Table Ctor ByCtor}
    (lists : ∀ name reg, s.classesByName.get? name = some reg → ∃ reg', byName.get? name = some reg' ∧ reg'.reg = reg.reg)
    (named : ∀ name reg, byName.get? name = some reg → reg.reg < s.classes.length + 1)
    (ctors : ∀ c reg, byCtor.get? c = some reg →
      s.classesByCtor.get? c = some reg ∨ (reg.reg = s.classes.length ∧ x.ctor = some c))
    (old : ∀ c reg, s.classesByCtor.get? c = some reg → ∃ reg', byCtor.get? c = some reg' ∧ reg'.reg = reg.reg)
    (new : ∀ c, x.ctor = some c → ∃ reg, byCtor.get? c = some reg ∧ reg.reg = s.classes.length)
    (name : (x.name = "" ∧ x.ctor.isSome = true) ∨ ∃ reg, byName.get? x.name = some reg ∧ reg.reg = s.classes.length)
    (none_ : x.registeredOperationsByName = Table.empty) (none_' : x.allRegisteredOperations = Table.empty) :
    Kept { s with classes := s.classes ++ [x],classesByName := byName,classesByCtor := byCtor } := by
  have still : ∀ {k : Nat} {cls}, s.classes[k]? = some cls → (s.classes ++ [x])[k]? = some cls := by
    intro k cls found
    rw [List.getElem?_append_left (lt_of_found found)]
    exact found
  have back : ∀ {k : Nat} {cls}, k < s.classes.length → (s.classes ++ [x])[k]? = some cls → s.classes[k]? = some cls := by
    intro k cls lower found
    rwa [List.getElem?_append_left lower] at found
  have listed : ∀ {n k}, Listed s n k → Listed { s with classes := s.classes ++ [x],classesByName := byName,classesByCtor := byCtor } n k := by
    rintro n k ⟨reg,found,rfl⟩
    exact lists n reg found
  constructor
  · intro n reg found
    rw [List.length_append]
    exact named n reg found
  · intro c reg found
    rcases ctors c reg found with before | ⟨last,mine⟩
    · obtain ⟨cls,there,same⟩ := kept.byCtor c reg before
      exact ⟨cls,still there,same⟩
    · refine ⟨x,?_,mine⟩
      rw [last]
      exact List.getElem?_concat_length
  · intro k cls c found mine
    rcases party_append found with there | ⟨rfl,rfl⟩
    · obtain ⟨reg,before,rfl⟩ := kept.ctorListed k cls c there mine
      exact old c reg before
    · exact new c mine
  · intro k cls found
    rcases party_append found with there | ⟨rfl,rfl⟩
    · exact (kept.nameListed k cls there).imp_right listed
    · exact name
  · intro k cls n m found
    rcases party_append found with there | ⟨rfl,rfl⟩
    · exact kept.operations k cls n m there
    · rw [none_]
      refine ⟨nofun,?_⟩
      rintro ⟨reg,there,mine⟩
      exact absurd ((kept.inClass m reg there).2 _ n mine) (Nat.lt_irrefl _)
  · exact kept.typed
  · intro m reg found
    obtain ⟨lower,others⟩ := kept.inClass m reg found
    rw [List.length_append]
    exact ⟨Nat.lt_succ_of_lt lower,fun k n mine => Nat.lt_succ_of_lt (others k n mine)⟩
  · intro m reg found plain
    refine (kept.home m reg found ?_).imp_right listed
    intro k n cls mine there
    exact plain k n cls mine (still there)
  · exact kept.functions
  · intro k cls func m found has
    rcases party_append found with there | ⟨rfl,rfl⟩
    · exact kept.all k cls func m there has
    · rw [none_'] at has
      cases has
  · intro launched m reg found
    obtain ⟨⟨cls,there,home⟩,mine⟩ := kept.settled launched m reg found
    refine ⟨⟨cls,still there,listed home⟩,?_⟩
    intro k n cls' byName_ there' isSome
    have lower := (kept.inClass m reg found).2 k n byName_
    obtain ⟨same,under⟩ := mine k n cls' byName_ (back lower there') isSome
    exact ⟨same,listed under⟩

theorem Kept.addCtor (kept : Kept s) {c : Ctor} (new : s.classesByCtor.get? c = none) : Kept (s.addCtor c) := by
  refine kept.grown (fun _ reg found => ⟨reg,found,rfl⟩) (fun n reg found => Nat.lt_succ_of_lt (kept.named n reg found)) ?_ ?_ ?_
    (.inl ⟨rfl,rfl⟩) rfl rfl
  · intro c' reg found
    rw [Table.get?_insert] at found
    split at found
    · rename_i same
      subst same
      rw [new] at found
      cases found
      exact .inr ⟨rfl,rfl⟩
    · exact .inl found
  · intro c' reg found
    have differ : c' ≠ c := by
      rintro rfl
      cases new.symm.trans found
    exact ⟨reg,by rw [Table.get?_insert,if_neg differ]; exact found,rfl⟩
  · intro c' mine
    cases mine
    exact ⟨⟨c.name,s.classes.length⟩,by rw [Table.get?_insert,if_pos rfl,new]; rfl,rfl⟩

theorem Kept.addNamed (kept : Kept s) {name : String} (new : s.classesByName.get? name = none) : Kept (s.addNamed name) := by
  have here : (s.classesByName.insert name ⟨s.classes.length,none⟩).get? name = some ⟨s.classes.length,none⟩ := by
    rw [Table.get?_insert,if_pos rfl,new]
    rfl
  have there : ∀ n, n ≠ name → (s.classesByName.insert name ⟨s.classes.length,none⟩).get? n = s.classesByName.get? n := by
    intro n differ
    rw [Table.get?_insert,if_neg differ]
  refine kept.grown ?_ ?_ (fun _ _ found => .inl found) (fun _ reg found => ⟨reg,found,rfl⟩) nofun (.inr ⟨_,here,rfl⟩) rfl rfl
  · intro n reg found
    have differ : n ≠ name := by
      rintro rfl
      cases new.symm.trans found
    exact ⟨reg,(there n differ).trans found,rfl⟩
  · intro n reg found
    by_cases same : n = name
    · subst same
      cases here.symm.trans found
      exact Nat.lt_succ_self _
    · rw [there n same] at found
      exact Nat.lt_succ_of_lt (kept.named n reg found)

theorem Kept.setAlias (kept : Kept s) (c : Ctor) (name : String) : Kept (s.setAlias c name) := by
  have same : ∀ c', ((s.setAlias c name).classesByCtor.get? c').map ByCtor.reg = (s.classesByCtor.get? c').map ByCtor.reg := by
    intro c'
    simp only [Registry.setAlias,Table.get?_update]
    cases s.classesByCtor.get? c' with
    | none => rfl
    | some reg =>
      simp only [Option.map_some]
      split <;> rfl
  constructor
  · exact kept.named
  · intro c' reg found
    have mine := same c'
    rw [found] at mine
    obtain ⟨old,before,equal⟩ := Option.map_eq_some_iff.mp mine.symm
    rw [← equal]
    exact kept.byCtor c' old before
  · intro k cls c' found mine
    obtain ⟨old,before,rfl⟩ := kept.ctorListed k cls c' found mine
    have also := same c'
    rw [before] at also
    exact Option.map_eq_some_iff.mp also
  · exact kept.nameListed
  · exact kept.operations
  · exact kept.typed
  · exact kept.inClass
  · exact kept.home
  · exact kept.functions
  · exact kept.all
  · intro launched m reg found
    obtain ⟨home,named⟩ := kept.settled launched m reg found
    exact ⟨home,named⟩

theorem Kept.setFunction (kept : Kept s) (func : Func) {m : Nat} (known : m < s.methods.length) : Kept (s.setFunction func m) := by
  have functions : ∀ func' m', (s.setFunction func m).functionToRegistration.get? func' = some m' → m' < s.methods.length := by
    intro func' m' found
    simp only [Registry.setFunction,Table.get?_upsert] at found
    split at found
    · cases there : s.functionToRegistration.get? func with
      | none =>
        rw [there] at found
        cases found
        exact known
      | some old =>
        rw [there] at found
        cases found
        exact known
    · exact kept.functions func' m' found
  refine ⟨kept.named,kept.byCtor,kept.ctorListed,kept.nameListed,kept.operations,kept.typed,kept.inClass,kept.home,functions,kept.all,?_⟩
  intro launched m reg found
  obtain ⟨home,named⟩ := kept.settled launched m reg found
  exact ⟨home,named⟩

/-- A class is changed in what names do not need. -/
theorem Kept.modifyClass (kept : Kept s) {k : Nat} {f : ClassRegistration → ClassRegistration} (name : ∀ cls, (f cls).name = cls.name)
    (ctor : ∀ cls, (f cls).ctor = cls.ctor)
    (operations : ∀ cls, (f cls).registeredOperationsByName = cls.registeredOperationsByName)
    (all : ∀ cls func m, s.classes[k]? = some cls → (f cls).allRegisteredOperations.get? func = some m → m < s.methods.length) :
    Kept (s.modifyClass k f) := by
  have back : ∀ {j : Nat} {new}, (s.modifyClass k f).classes[j]? = some new → ∃ old, s.classes[j]? = some old ∧ new.name = old.name ∧
      new.ctor = old.ctor ∧ new.registeredOperationsByName = old.registeredOperationsByName := by
    intro j new found
    obtain ⟨old,there,rfl⟩ := modify_cases found
    refine ⟨old,there,?_⟩
    split
    · exact ⟨name old,ctor old,operations old⟩
    · exact ⟨rfl,rfl,rfl⟩
  have onward : ∀ {j : Nat} {old}, s.classes[j]? = some old → ∃ new, (s.modifyClass k f).classes[j]? = some new ∧ new.name = old.name ∧
      new.ctor = old.ctor := by
    intro j old found
    refine ⟨_,modify_there found k f,?_⟩
    split
    · exact ⟨name old,ctor old⟩
    · exact ⟨rfl,rfl⟩
  have long : (s.modifyClass k f).classes.length = s.classes.length := List.length_modify ..
  constructor
  · intro n reg found
    rw [long]
    exact kept.named n reg found
  · intro c reg found
    obtain ⟨old,there,mine⟩ := kept.byCtor c reg found
    obtain ⟨new,there',_,same⟩ := onward there
    exact ⟨new,there',same.trans mine⟩
  · intro j new c found mine
    obtain ⟨old,there,_,same,_⟩ := back found
    exact kept.ctorListed j old c there (same.symm.trans mine)
  · intro j new found
    obtain ⟨old,there,same,same',_⟩ := back found
    rw [same,same']
    exact kept.nameListed j old there
  · intro j new n m found
    obtain ⟨old,there,_,_,same⟩ := back found
    rw [same]
    exact kept.operations j old n m there
  · exact kept.typed
  · intro m reg found
    rw [long]
    exact kept.inClass m reg found
  · intro m reg found plain
    refine kept.home m reg found ?_
    intro j n old mine there
    obtain ⟨new,there',_,same⟩ := onward there
    exact same.symm.trans (plain j n new mine there')
  · exact kept.functions
  · intro j new func m found has
    obtain ⟨old,there,rfl⟩ := modify_cases found
    split at has
    · rename_i same
      subst same
      exact all old func m there has
    · exact kept.all j old func m there has
  · intro launched m reg found
    obtain ⟨⟨old,there,home⟩,mine⟩ := kept.settled launched m reg found
    constructor
    · obtain ⟨new,there',same,same'⟩ := onward there
      refine ⟨new,there',?_⟩
      rw [ClassRegistration.getClassName,same,same']
      exact home
    · intro j n new byName found' isSome
      obtain ⟨old',there',same,same',_⟩ := back found'
      rw [same]
      exact mine j n old' byName there' (same' ▸ isSome)

/-- A registration is added. -/
theorem Kept.addedMethod (kept : Kept s) {reg : MethodRegistration} (idle : s.launched = false) (type : reg.type = none)
    (byName : reg.byName = none) (lower : reg.classReg < s.classes.length) (home : reg.className = "" ∨ Listed s reg.className reg.classReg) :
    Kept { s with methods := s.methods ++ [reg] } := by
  have long : (s.methods ++ [reg]).length = s.methods.length + 1 := by simp
  constructor
  · exact kept.named
  · exact kept.byCtor
  · exact kept.ctorListed
  · exact kept.nameListed
  · intro k cls n m found
    rw [kept.operations k cls n m found]
    constructor
    · rintro ⟨reg',there,mine⟩
      refine ⟨reg',?_,mine⟩
      rw [List.getElem?_append_left (lt_of_found there)]
      exact there
    · rintro ⟨reg',there,mine⟩
      rcases party_append there with old | ⟨_,rfl⟩
      · exact ⟨reg',old,mine⟩
      · cases byName.symm.trans mine
  · intro m reg' found
    rcases party_append found with old | ⟨_,rfl⟩
    · exact kept.typed m reg' old
    · rw [type,byName]
      rfl
  · intro m reg' found
    rcases party_append found with old | ⟨_,rfl⟩
    · exact kept.inClass m reg' old
    · refine ⟨lower,?_⟩
      intro k n mine
      cases byName.symm.trans mine
  · intro m reg' found plain
    rcases party_append found with old | ⟨_,rfl⟩
    · exact kept.home m reg' old plain
    · exact home
  · intro func m found
    rw [long]
    exact Nat.lt_succ_of_lt (kept.functions func m found)
  · intro k cls func m found has
    rw [long]
    exact Nat.lt_succ_of_lt (kept.all k cls func m found has)
  · intro launched
    cases idle.symm.trans launched

theorem Kept.addMethod (kept : Kept s) (idle : s.launched = false) {k : Nat} (lower : k < s.classes.length) (name : String) (func : Func)
    (isInstance : Bool) : Kept (s.addMethod k name func isInstance) := by
  obtain ⟨cls,there⟩ : ∃ cls, s.classes[k]? = some cls := ⟨_,List.getElem?_eq_getElem lower⟩
  have home : cls.name = "" ∨ Listed s cls.name k := (kept.nameListed k cls there).imp_left And.left
  let reg : MethodRegistration := ⟨name,cls.name,k,isInstance,none,none⟩
  have grown : Kept { s with methods := s.methods ++ [reg] } := kept.addedMethod idle rfl rfl lower home
  have inside : s.methods.length < (s.methods ++ [reg]).length := by simp
  have changed := grown.modifyClass (k := k)
    (f := fun cls => { cls with allRegisteredOperations := cls.allRegisteredOperations.insert func s.methods.length })
    (fun _ => rfl) (fun _ => rfl) (fun _ => rfl) ?_
  · have both := (changed.setFunction (.registered s.methods.length) inside).setFunction func inside
    unfold Registry.addMethod
    rw [there]
    exact both
  · intro cls' func' m there' has
    rw [Table.get?_insert] at has
    split at has
    · rename_i same
      subst same
      cases before : cls'.allRegisteredOperations.get? func' with
      | none =>
        rw [before] at has
        cases has
        exact inside
      | some m' =>
        rw [before] at has
        cases has
        exact grown.all k cls' func' m there' before
    · exact grown.all k cls' func' m there' has

/-! ### A registration gets a name and a type -/

/-- The registration is put under the name, with the type. -/
def Registry.registerTyped (s : Registry) (k : Nat) (name : String) (m : Nat) (type : OperationType) : Registry :=
  (s.register k name m).modifyMethod m fun reg => { reg with type := some type }

variable {k m : Nat} {name : String} {type : OperationType} {reg : MethodRegistration}

theorem registerTyped_method {j : Nat} {new : MethodRegistration} (found : (s.registerTyped k name m type).methods[j]? = some new) :
    ∃ old, s.methods[j]? = some old ∧ new = if m = j then { old with byName := some (k,name),type := some type } else old := by
  obtain ⟨middle,there,rfl⟩ := modify_cases found
  obtain ⟨old,there',rfl⟩ := modify_cases there
  refine ⟨old,there',?_⟩
  split <;> rfl

theorem registerTyped_here (known : s.methods[m]? = some reg) :
    (s.registerTyped k name m type).methods[m]? = some { reg with byName := some (k,name),type := some type } := by
  have first := modify_there known m fun reg => { reg with byName := some (k,name) }
  rw [if_pos rfl] at first
  have second := modify_there first m fun reg => { reg with type := some type }
  rw [if_pos rfl] at second
  exact second

theorem registerTyped_other {j : Nat} (differ : j ≠ m) : (s.registerTyped k name m type).methods[j]? = s.methods[j]? := by
  change ((s.methods.modify m _).modify m _)[j]? = _
  rw [List.getElem?_modify_ne _ _ (Ne.symm differ),List.getElem?_modify_ne _ _ (Ne.symm differ)]

theorem registerTyped_class {j : Nat} {new : ClassRegistration} (found : (s.registerTyped k name m type).classes[j]? = some new) :
    ∃ old, s.classes[j]? = some old ∧ new = if k = j then
      { old with registeredOperationsByName := old.registeredOperationsByName.upsert name m fun _ => m } else old := modify_cases found

theorem registerTyped_ctor {j : Nat} {old : ClassRegistration} (found : s.classes[j]? = some old) :
    ∃ new, (s.registerTyped k name m type).classes[j]? = some new ∧ new.ctor = old.ctor := by
  refine ⟨_,modify_there found k _,?_⟩
  split <;> rfl

theorem registerTyped_length (s : Registry) (k : Nat) (name : String) (m : Nat) (type : OperationType) :
    (s.registerTyped k name m type).classes.length = s.classes.length ∧
      (s.registerTyped k name m type).methods.length = s.methods.length := by
  refine ⟨List.length_modify ..,?_⟩
  change ((s.methods.modify m _).modify m _).length = _
  rw [List.length_modify,List.length_modify]

/-- A registration that has no type is under no name. -/
theorem Kept.unnamed (kept : Kept s) (known : s.methods[m]? = some reg) (untyped : reg.type = none) : reg.byName = none := by
  have same := kept.typed m reg known
  rw [untyped] at same
  exact Option.isNone_iff_eq_none.mp (by rw [← Option.not_isSome,same]; rfl)

/-- The registration that is found at its new place is the one that was put there. -/
theorem Kept.operation_here (kept : Kept s) (known : s.methods[m]? = some reg) {cls : ClassRegistration} (there : s.classes[k]? = some cls)
    (free : ∀ m', cls.registeredOperationsByName.get? name = some m' → m' = m) (m' : Nat) :
    (cls.registeredOperationsByName.upsert name m fun _ => m).get? name = some m' ↔
      ∃ reg, (s.registerTyped k name m type).methods[m']? = some reg ∧ reg.byName = some (k,name) := by
  have entry : (cls.registeredOperationsByName.get? name).elim m (fun _ => m) = m := by
    cases cls.registeredOperationsByName.get? name <;> rfl
  rw [Table.get?_upsert,if_pos rfl,entry]
  constructor
  · intro same
    cases same
    exact ⟨_,registerTyped_here known,rfl⟩
  · rintro ⟨reg',there',same⟩
    obtain ⟨old,before,rfl⟩ := registerTyped_method there'
    split at same
    · rename_i equal
      rw [equal]
    · exact congrArg some (free m' ((kept.operations k cls name m' there).mpr ⟨old,before,same⟩)).symm

/-- What is under other names in any class stays there. -/
theorem Kept.operation_elsewhere (kept : Kept s) (known : s.methods[m]? = some reg) (untyped : reg.type = none) {j : Nat}
    {cls : ClassRegistration} (there : s.classes[j]? = some cls) {n : String} (apart : ¬ (k = j ∧ n = name)) (m' : Nat) :
    cls.registeredOperationsByName.get? n = some m' ↔
      ∃ reg, (s.registerTyped k name m type).methods[m']? = some reg ∧ reg.byName = some (j,n) := by
  rw [kept.operations j cls n m' there]
  constructor
  · rintro ⟨reg',there',same⟩
    have differ : m' ≠ m := by
      rintro rfl
      cases known.symm.trans there'
      cases (kept.unnamed known untyped).symm.trans same
    exact ⟨reg',(registerTyped_other differ).trans there',same⟩
  · rintro ⟨reg',there',same⟩
    have differ : m' ≠ m := by
      rintro rfl
      cases (registerTyped_here known).symm.trans there'
      cases same
      exact apart ⟨rfl,rfl⟩
    exact ⟨reg',(registerTyped_other differ).symm.trans there',same⟩

theorem Kept.registered_operations (kept : Kept s) (known : s.methods[m]? = some reg) (untyped : reg.type = none)
    (free : ∀ cls m', s.classes[k]? = some cls → cls.registeredOperationsByName.get? name = some m' → m' = m) {j : Nat}
    {cls : ClassRegistration} (found : (s.registerTyped k name m type).classes[j]? = some cls) (n : String) (m' : Nat) :
    cls.registeredOperationsByName.get? n = some m' ↔
      ∃ reg, (s.registerTyped k name m type).methods[m']? = some reg ∧ reg.byName = some (j,n) := by
  obtain ⟨old,there,rfl⟩ := registerTyped_class found
  by_cases here : k = j ∧ n = name
  · obtain ⟨rfl,rfl⟩ := here
    rw [if_pos rfl]
    exact kept.operation_here known there (fun m' => free old m' there) m'
  · have stays : (if k = j then { old with registeredOperationsByName := old.registeredOperationsByName.upsert name m fun _ => m }
        else old).registeredOperationsByName.get? n = old.registeredOperationsByName.get? n := by
      split
      · rename_i same
        rw [Table.get?_upsert,if_neg fun equal => here ⟨same,equal⟩]
      · rfl
    rw [stays]
    exact kept.operation_elsewhere known untyped there here m'

theorem Kept.registered_home (kept : Kept s) (known : s.methods[m]? = some reg) (untyped : reg.type = none) {j : Nat}
    {new : MethodRegistration} (found : (s.registerTyped k name m type).methods[j]? = some new)
    (plain : ∀ (i : Nat) n cls, new.byName = some (i,n) → (s.registerTyped k name m type).classes[i]? = some cls → cls.ctor = none) :
    new.className = "" ∨ Listed s new.className new.classReg := by
  obtain ⟨old,there,rfl⟩ := registerTyped_method found
  have before := kept.home j old there
  by_cases here : m = j
  · subst here
    cases known.symm.trans there
    rw [if_pos rfl]
    refine before ?_
    intro i n cls same
    cases (kept.unnamed known untyped).symm.trans same
  · rw [if_neg here] at plain ⊢
    refine before ?_
    intro i n cls same there'
    obtain ⟨new,now,ctor⟩ := registerTyped_ctor there'
    exact ctor.symm.trans (plain i n new same now)

/-- A registration without a type is put under a name, and gets a type. -/
theorem Kept.registered (kept : Kept s) (idle : s.launched = false) (lower : k < s.classes.length) (known : s.methods[m]? = some reg)
    (untyped : reg.type = none)
    (free : ∀ cls m', s.classes[k]? = some cls → cls.registeredOperationsByName.get? name = some m' → m' = m) :
    Kept (s.registerTyped k name m type) := by
  obtain ⟨long,long'⟩ := registerTyped_length s k name m type
  constructor
  · intro n entry found
    rw [long]
    exact kept.named n entry found
  · intro c entry found
    obtain ⟨old,there,same⟩ := kept.byCtor c entry found
    obtain ⟨new,there',same'⟩ := registerTyped_ctor there
    exact ⟨new,there',same'.trans same⟩
  · intro j new c found same
    obtain ⟨old,there,rfl⟩ := registerTyped_class found
    refine kept.ctorListed j old c there ?_
    rw [← same]
    split <;> rfl
  · intro j new found
    obtain ⟨old,there,rfl⟩ := registerTyped_class found
    have before := kept.nameListed j old there
    split
    · exact before
    · exact before
  · intro j new n m' found
    exact kept.registered_operations known untyped free found n m'
  · intro j new found
    obtain ⟨old,there,rfl⟩ := registerTyped_method found
    split
    · rfl
    · exact kept.typed j old there
  · intro j new found
    obtain ⟨old,there,rfl⟩ := registerTyped_method found
    have before := kept.inClass j old there
    rw [long]
    split
    · refine ⟨before.1,?_⟩
      intro k' n same
      cases same
      exact lower
    · exact before
  · intro j new found plain
    exact kept.registered_home known untyped found plain
  · intro func m' found
    rw [long']
    exact kept.functions func m' found
  · intro j new func m' found has
    obtain ⟨old,there,rfl⟩ := registerTyped_class found
    rw [long']
    refine kept.all j old func m' there ?_
    split at has
    · exact has
    · exact has
  · intro launched
    cases idle.symm.trans launched

end
end Dbos.FunctionRegistry
