import Dbos.RegistryInvariant

/-!
Which function the names of a row lead to. A registration has the class and the name of the first call that has registered its function,
whatever call that was; the look-up goes by the class and the name that the registration of the workflow has given.
-/
namespace Dbos.FunctionRegistry
open Dbos.Pg

section
variable {s : Registry} {c : Ctor} {k : Nat} {cname : String}

/-! ### A class gets its name -/

theorem setName_listed (free : ∀ reg, s.classesByName.get? cname = some reg → reg.reg = k) {name : String} {j : Nat}
    (listed : Listed s name j) : Listed (s.setName c k cname) name j := by
  obtain ⟨reg,found,rfl⟩ := listed
  by_cases same : name = cname
  · subst same
    refine ⟨⟨k,some c⟩,?_,(free reg found).symm⟩
    simp only [Registry.setName,Table.get?_upsert,if_pos,found]
    rfl
  · refine ⟨reg,?_,rfl⟩
    simp only [Registry.setName,Table.get?_upsert,if_neg same]
    exact found

theorem setName_here (s : Registry) (c : Ctor) (k : Nat) (cname : String) : Listed (s.setName c k cname) cname k := by
  simp only [Listed,Registry.setName,Table.get?_upsert,if_pos]
  cases s.classesByName.get? cname with
  | none => exact ⟨_,rfl,rfl⟩
  | some reg => exact ⟨_,rfl,rfl⟩

theorem setName_class {j : Nat} {new : ClassRegistration} (found : (s.setName c k cname).classes[j]? = some new) :
    ∃ old, s.classes[j]? = some old ∧ new = if k = j then { old with name := cname } else old := modify_cases found

/-- The registrations that are under a name of the class get the name of the class. -/
theorem setName_method (kept : Kept s) (there : ∃ cls, s.classes[k]? = some cls) {m : Nat} {new : MethodRegistration}
    (found : (s.setName c k cname).methods[m]? = some new) :
    ∃ old, s.methods[m]? = some old ∧ ((∃ name, old.byName = some (k,name)) ∧ new = { old with className := cname } ∨
      (∀ name, old.byName ≠ some (k,name)) ∧ new = old) := by
  obtain ⟨cls,there⟩ := there
  simp only [Registry.setName,there,Option.elim_some,List.getElem?_map,List.getElem?_zipIdx,Option.map_map,Option.map_eq_some_iff,
    Function.comp_apply,Nat.zero_add] at found
  obtain ⟨old,before,rfl⟩ := found
  refine ⟨old,before,?_⟩
  have mine : (cls.registeredOperationsByName.entries.any fun e => e.2 = m) = true ↔ ∃ name, old.byName = some (k,name) := by
    rw [List.any_eq_true]
    constructor
    · rintro ⟨⟨name,m'⟩,listed,same⟩
      obtain rfl : m' = m := of_decide_eq_true same
      obtain ⟨reg,found,under⟩ := (kept.operations k cls name m' there).mp ((Table.get?_eq_some ..).mpr listed)
      cases before.symm.trans found
      exact ⟨name,under⟩
    · rintro ⟨name,under⟩
      have found := (kept.operations k cls name m there).mpr ⟨old,before,under⟩
      exact ⟨(name,m),(Table.get?_eq_some ..).mp found,decide_eq_true rfl⟩
  split
  · rename_i inside
    exact .inl ⟨mine.mp inside,rfl⟩
  · rename_i outside
    exact .inr ⟨fun name under => outside (mine.mpr ⟨name,under⟩),rfl⟩

theorem setName_there {m : Nat} {old : MethodRegistration} (found : s.methods[m]? = some old) :
    ∃ new, (s.setName c k cname).methods[m]? = some new ∧ new.byName = old.byName := by
  simp only [Registry.setName,List.getElem?_map,List.getElem?_zipIdx,found,Option.map_some]
  refine ⟨_,rfl,?_⟩
  split <;> rfl

theorem setName_ctors (s : Registry) (c : Ctor) (k : Nat) (cname : String) (c' : Ctor) :
    ((s.setName c k cname).classesByCtor.get? c').map ByCtor.reg = (s.classesByCtor.get? c').map ByCtor.reg := by
  simp only [Registry.setName,Table.get?_update]
  cases s.classesByCtor.get? c' with
  | none => rfl
  | some reg =>
    simp only [Option.map_some]
    split <;> rfl

theorem Kept.setName (kept : Kept s) (idle : s.launched = false) {cls : ClassRegistration} (there : s.classes[k]? = some cls)
    (isSome : cls.ctor.isSome = true) (free : ∀ reg, s.classesByName.get? cname = some reg → reg.reg = k) :
    Kept (s.setName c k cname) := by
  have long : (s.setName c k cname).classes.length = s.classes.length := List.length_modify ..
  have long' : (s.setName c k cname).methods.length = s.methods.length := by simp [Registry.setName]
  have onward : ∀ {j : Nat} {old}, s.classes[j]? = some old →
      ∃ new, (s.setName c k cname).classes[j]? = some new ∧ new.ctor = old.ctor := by
    intro j old found
    refine ⟨_,modify_there found k _,?_⟩
    split <;> rfl
  constructor
  · intro name reg found
    rw [long]
    simp only [Registry.setName,Table.get?_upsert] at found
    split at found
    · have lower := lt_of_found there
      cases before : s.classesByName.get? cname with
      | none =>
        rw [before] at found
        cases found
        exact lower
      | some old =>
        rw [before] at found
        cases found
        exact lower
    · exact kept.named name reg found
  · intro c' reg found
    have same := setName_ctors s c k cname c'
    rw [found] at same
    obtain ⟨old,before,equal⟩ := Option.map_eq_some_iff.mp same.symm
    obtain ⟨cls',there',mine⟩ := kept.byCtor c' old before
    obtain ⟨new,now,ctor⟩ := onward there'
    rw [← equal]
    exact ⟨new,now,ctor.trans mine⟩
  · intro j new c' found mine
    obtain ⟨old,before,rfl⟩ := setName_class found
    have ctor : old.ctor = some c' := by
      rw [← mine]
      split <;> rfl
    obtain ⟨reg,under,rfl⟩ := kept.ctorListed j old c' before ctor
    have same := setName_ctors s c k cname c'
    rw [under] at same
    exact Option.map_eq_some_iff.mp same
  · intro j new found
    obtain ⟨old,before,rfl⟩ := setName_class found
    split
    · rename_i same
      subst same
      exact .inr (setName_here s c k cname)
    · exact (kept.nameListed j old before).imp_right (setName_listed free)
  · intro j new name m found
    obtain ⟨old,before,rfl⟩ := setName_class found
    have operations : (if k = j then { old with name := cname } else old).registeredOperationsByName = old.registeredOperationsByName := by
      split <;> rfl
    rw [operations,kept.operations j old name m before]
    constructor
    · rintro ⟨reg,found',under⟩
      obtain ⟨new,now,same⟩ := setName_there (c := c) (k := k) found'
      exact ⟨new,now,same.trans under⟩
    · rintro ⟨new,now,under⟩
      obtain ⟨reg,found',⟨_,rfl⟩ | ⟨_,rfl⟩⟩ := setName_method kept ⟨cls,there⟩ now
      · exact ⟨reg,found',under⟩
      · exact ⟨new,found',under⟩
  · intro m new found
    obtain ⟨reg,found',⟨_,rfl⟩ | ⟨_,rfl⟩⟩ := setName_method kept ⟨cls,there⟩ found
    · exact kept.typed m reg found'
    · exact kept.typed m new found'
  · intro m new found
    rw [long]
    obtain ⟨reg,found',⟨_,rfl⟩ | ⟨_,rfl⟩⟩ := setName_method kept ⟨cls,there⟩ found
    · exact kept.inClass m reg found'
    · exact kept.inClass m new found'
  · intro m new found plain
    obtain ⟨new',now,ctor⟩ := onward there
    obtain ⟨reg,found',⟨⟨name,under⟩,rfl⟩ | ⟨_,rfl⟩⟩ := setName_method kept ⟨cls,there⟩ found
    · have absent := plain k name new' under now
      rw [ctor] at absent
      rw [absent] at isSome
      cases isSome
    · refine (kept.home m new found' ?_).imp_right (setName_listed free)
      intro j name cls' under before
      obtain ⟨new'',now',ctor'⟩ := onward before
      exact ctor'.symm.trans (plain j name new'' under now')
  · intro func m found
    rw [long']
    exact kept.functions func m found
  · intro j new func m found has
    rw [long']
    obtain ⟨old,before,rfl⟩ := setName_class found
    refine kept.all j old func m before ?_
    split at has
    · exact has
    · exact has
  · intro launched
    cases idle.symm.trans launched

/-- The class is under its own name, which the registrations under its names have too. -/
def Named (s : Registry) (k : Nat) : Prop := ∃ cls, s.classes[k]? = some cls ∧ cls.getClassName = cls.name ∧ Listed s cls.name k ∧
  ∀ (m : Nat) reg name, s.methods[m]? = some reg → reg.byName = some (k,name) → reg.className = cls.name

theorem setName_named (kept : Kept s) {cls : ClassRegistration} (there : s.classes[k]? = some cls)
    (own : orText cname ((cls.ctor.map Ctor.name).getD "") = cname) : Named (s.setName c k cname) k := by
  refine ⟨{ cls with name := cname },?_,own,setName_here s c k cname,?_⟩
  · have now := modify_there there k fun cls => { cls with name := cname }
    rw [if_pos rfl] at now
    exact now
  · intro m reg name found under
    obtain ⟨old,_,⟨_,rfl⟩ | ⟨other,rfl⟩⟩ := setName_method kept ⟨cls,there⟩ found
    · rfl
    · exact absurd under (other name)

theorem setName_still (kept : Kept s) {cls : ClassRegistration} (there : s.classes[k]? = some cls)
    (own : orText cname ((cls.ctor.map Ctor.name).getD "") = cname)
    (free : ∀ reg, s.classesByName.get? cname = some reg → reg.reg = k) {j : Nat} (named : Named s j) : Named (s.setName c k cname) j := by
  by_cases same : j = k
  · subst same
    exact setName_named kept there own
  obtain ⟨cls',there',own',listed,mine⟩ := named
  refine ⟨cls',?_,own',setName_listed free listed,?_⟩
  · have now := modify_there there' k fun cls => { cls with name := cname }
    rw [if_neg (Ne.symm same)] at now
    exact now
  · intro m reg name found under
    obtain ⟨old,before,⟨⟨name',under'⟩,rfl⟩ | ⟨_,rfl⟩⟩ := setName_method kept ⟨cls,there⟩ found
    · cases under'.symm.trans under
      exact absurd rfl same
    · exact mine m reg name before under

/-! ### Launch -/

/-- A turn that returns gives the class a name that no other class is under. -/
theorem finalizeClass_moves {reg : ByCtor} {s' : Registry} {u : PUnit} (returns : Returns (finalizeClass c reg) s u s') :
    ∃ cname, s' = s.setName c reg.reg cname ∧
      cname = orText reg.name (orText ((s.classes[reg.reg]?).elim "" ClassRegistration.name) c.name) ∧
      ∀ ereg, s.classesByName.get? cname = some ereg → ereg.reg = reg.reg := by
  unfold finalizeClass at returns
  obtain ⟨t,_,first,rest⟩ := returns_bind.mp returns
  obtain ⟨rfl,rfl⟩ := returns_get.mp first
  dsimp only at rest
  split at rest
  · rename_i free
    refine ⟨_,(returns_modify.mp rest).symm,rfl,?_⟩
    intro ereg found
    cases free.symm.trans found
  · rename_i ereg found
    obtain ⟨_,rest⟩ := returns_check.mp rest
    obtain ⟨same,rest⟩ := returns_check.mp rest
    refine ⟨_,(returns_modify.mp rest).symm,rfl,?_⟩
    intro ereg' found'
    cases found.symm.trans found'
    exact not_not.mp same

theorem orText_eq (a b : String) : orText a b = if a = "" then b else a := rfl

theorem orText_empty {a b : String} (empty : orText a b = "") : a = "" ∧ b = "" := by
  unfold orText at empty
  split at empty
  · rename_i first
    exact ⟨first,empty⟩
  · rename_i first
    exact absurd empty first

theorem Kept.finalizeClass (kept : Kept s) (idle : s.launched = false) {reg old : ByCtor} (there : s.classesByCtor.get? c = some old)
    (same : old.reg = reg.reg) {s' : Registry} {u : PUnit} (returns : Returns (FunctionRegistry.finalizeClass c reg) s u s') :
    Kept s' ∧ s'.launched = false ∧ (∀ c', (s'.classesByCtor.get? c').map ByCtor.reg = (s.classesByCtor.get? c').map ByCtor.reg) ∧
      Named s' reg.reg ∧ ∀ k, Named s k → Named s' k := by
  obtain ⟨cname,rfl,chosen,free⟩ := finalizeClass_moves returns
  obtain ⟨cls,inside,ctor⟩ := kept.byCtor c old there
  rw [same] at inside
  have own : orText cname ((cls.ctor.map Ctor.name).getD "") = cname := by
    rw [orText_eq]
    split
    · rename_i empty
      obtain ⟨_,rest⟩ := orText_empty (chosen.symm.trans empty)
      rw [empty,ctor]
      exact (orText_empty rest).2
    · rfl
  exact ⟨kept.setName idle inside (by rw [ctor]; rfl) free,idle,setName_ctors s c reg.reg cname,setName_named kept inside own,
    fun k => setName_still kept inside own free⟩

theorem Kept.finalizeClassRegistrations (kept : Kept s) (idle : s.launched = false) {s' : Registry} {u : PUnit}
    (returns : Returns FunctionRegistry.finalizeClassRegistrations s u s') :
    Kept s' ∧ s'.launched = false ∧ ∀ (k : Nat) cls, s'.classes[k]? = some cls → cls.ctor.isSome = true → Named s' k := by
  unfold FunctionRegistry.finalizeClassRegistrations at returns
  obtain ⟨t,_,first,loop⟩ := returns_bind.mp returns
  obtain ⟨rfl,rfl⟩ := returns_get.mp first
  let I : List (Ctor × ByCtor) → Registry → Prop := fun done t => Kept t ∧ t.launched = false ∧
    (∀ c, (t.classesByCtor.get? c).map ByCtor.reg = (s.classesByCtor.get? c).map ByCtor.reg) ∧ ∀ e ∈ done, Named t e.2.reg
  have ends : I s.classesByCtor.entries s' := by
    refine returns_forM loop ⟨kept,idle,fun _ => rfl,nofun⟩ ?_
    rintro done ⟨c,reg⟩ rest t t' split ⟨keptNow,idleNow,ctors,named⟩ turn
    have listed : s.classesByCtor.get? c = some reg := by
      rw [Table.get?_eq_some,split]
      exact List.mem_append_right _ List.mem_cons_self
    have here := ctors c
    rw [listed] at here
    obtain ⟨old,there,same⟩ := Option.map_eq_some_iff.mp here
    obtain ⟨keptThen,idleThen,ctors',mine,others⟩ := keptNow.finalizeClass idleNow there same turn
    refine ⟨keptThen,idleThen,fun c' => (ctors' c').trans (ctors c'),?_⟩
    intro e listed'
    rcases List.mem_append.mp listed' with before | now
    · exact others _ (named e before)
    · rw [List.mem_singleton.mp now]
      exact mine
  obtain ⟨keptThen,idleThen,ctors,named⟩ := ends
  refine ⟨keptThen,idleThen,?_⟩
  intro k cls there isSome
  obtain ⟨c,ctor⟩ := Option.isSome_iff_exists.mp isSome
  obtain ⟨reg,under,rfl⟩ := keptThen.ctorListed k cls c there ctor
  have before := ctors c
  rw [under] at before
  obtain ⟨old,listed,same⟩ := Option.map_eq_some_iff.mp before.symm
  rw [← same]
  exact named (c,old) ((Table.get?_eq_some ..).mp listed)

/-- After the loop every registration is settled. -/
theorem Kept.launched (kept : Kept s) (named : ∀ (k : Nat) cls, s.classes[k]? = some cls → cls.ctor.isSome = true → Named s k) :
    Kept { s with launched := true } := by
  refine ⟨kept.named,kept.byCtor,kept.ctorListed,kept.nameListed,kept.operations,kept.typed,kept.inClass,kept.home,kept.functions,kept.all,?_⟩
  intro _ m reg found
  constructor
  · obtain ⟨lower,_⟩ := kept.inClass m reg found
    obtain ⟨cls,there⟩ : ∃ cls, s.classes[reg.classReg]? = some cls := ⟨_,List.getElem?_eq_getElem lower⟩
    refine ⟨cls,there,?_⟩
    cases ctor : cls.ctor with
    | some c =>
      obtain ⟨cls',there',own,listed,_⟩ := named reg.classReg cls there (by rw [ctor]; rfl)
      cases there.symm.trans there'
      rw [own]
      exact listed
    | none =>
      have own : cls.getClassName = cls.name := by
        rw [ClassRegistration.getClassName,ctor,orText_eq]
        split
        · rename_i empty
          exact empty.symm
        · rfl
      rw [own]
      rcases kept.nameListed reg.classReg cls there with ⟨_,isSome⟩ | listed
      · rw [ctor] at isSome
        cases isSome
      · exact listed
  · intro k name cls under there isSome
    obtain ⟨cls',there',_,listed,mine⟩ := named k cls there isSome
    cases there.symm.trans there'
    exact ⟨mine m reg name found under,listed⟩

/-! ### What the calls do -/

theorem Kept.getClassRegistration (kept : Kept s) {reg : ByCtor} {s' : Registry}
    (returns : Returns (FunctionRegistry.getClassRegistration c) s reg s') :
    Kept s' ∧ reg.reg < s'.classes.length ∧ s'.methods = s.methods ∧ s'.launched = s.launched := by
  unfold FunctionRegistry.getClassRegistration at returns
  obtain ⟨t,_,first,rest⟩ := returns_bind.mp returns
  obtain ⟨rfl,rfl⟩ := returns_get.mp first
  split at rest
  · rename_i reg' found
    obtain ⟨rfl,rfl⟩ := returns_pure.mp rest
    obtain ⟨cls,there,_⟩ := kept.byCtor c reg' found
    exact ⟨kept,lt_of_found there,rfl,rfl⟩
  · rename_i new
    obtain ⟨_,u,changes,last⟩ := returns_bind.mp rest
    obtain rfl := returns_modify.mp changes
    obtain ⟨rfl,rfl⟩ := returns_pure.mp last
    refine ⟨kept.addCtor new,?_,rfl,rfl⟩
    simp [Registry.addCtor]

theorem Kept.getClassRegistrationByName (kept : Kept s) {name : String} {s' : Registry}
    (returns : Returns (FunctionRegistry.getClassRegistrationByName name) s k s') :
    Kept s' ∧ k < s'.classes.length ∧ s'.methods = s.methods ∧ s'.launched = s.launched := by
  unfold FunctionRegistry.getClassRegistrationByName at returns
  obtain ⟨t,_,first,rest⟩ := returns_bind.mp returns
  obtain ⟨rfl,rfl⟩ := returns_get.mp first
  split at rest
  · rename_i reg found
    obtain ⟨rfl,rfl⟩ := returns_pure.mp rest
    exact ⟨kept,kept.named name reg found,rfl,rfl⟩
  · rename_i new
    obtain ⟨_,u,changes,last⟩ := returns_bind.mp rest
    obtain rfl := returns_modify.mp changes
    obtain ⟨rfl,rfl⟩ := returns_pure.mp last
    refine ⟨kept.addNamed new,?_,rfl,rfl⟩
    simp [Registry.addNamed]

theorem Kept.getOrCreateClassRegistration (kept : Kept s) {target : Option Target} {className : Option String} {s' : Registry}
    (returns : Returns (FunctionRegistry.getOrCreateClassRegistration target className) s k s') :
    Kept s' ∧ k < s'.classes.length ∧ s'.methods = s.methods ∧ s'.launched = s.launched := by
  unfold FunctionRegistry.getOrCreateClassRegistration at returns
  split at returns
  · exact kept.getClassRegistrationByName returns
  · obtain ⟨reg,u,first,rest⟩ := returns_bind.mp returns
    obtain ⟨keptNow,lower,methods,launched⟩ := kept.getClassRegistration first
    split at rest
    · obtain ⟨rfl,rfl⟩ := returns_pure.mp rest
      exact ⟨keptNow,lower,methods,launched⟩
    · obtain ⟨_,rest⟩ := returns_check.mp rest
      obtain ⟨_,v,changes,last⟩ := returns_bind.mp rest
      obtain rfl := returns_modify.mp changes
      obtain ⟨rfl,rfl⟩ := returns_pure.mp last
      exact ⟨keptNow.setAlias _ _,lower,methods,launched⟩

theorem Kept.getOrCreateMethodRegistration (kept : Kept s) (idle : s.launched = false) {target : Option Target} {className : Option String}
    {name : String} {func : Func} {m : Nat} {s' : Registry}
    (returns : Returns (FunctionRegistry.getOrCreateMethodRegistration target className name func) s m s') :
    Kept s' ∧ m < s'.methods.length ∧ s'.launched = false := by
  unfold FunctionRegistry.getOrCreateMethodRegistration at returns
  obtain ⟨k,u,first,rest⟩ := returns_bind.mp returns
  obtain ⟨keptNow,lower,_,launched⟩ := kept.getOrCreateClassRegistration first
  obtain ⟨t,_,second,rest⟩ := returns_bind.mp rest
  obtain ⟨rfl,rfl⟩ := returns_get.mp second
  split at rest
  · rename_i m' found
    obtain ⟨rfl,rfl⟩ := returns_pure.mp rest
    obtain ⟨cls,there,listed⟩ := Option.bind_eq_some_iff.mp found
    exact ⟨keptNow,keptNow.all k cls func m' there listed,launched.trans idle⟩
  · obtain ⟨_,v,changes,last⟩ := returns_bind.mp rest
    obtain rfl := returns_modify.mp changes
    obtain ⟨rfl,rfl⟩ := returns_pure.mp last
    refine ⟨keptNow.addMethod (launched.trans idle) lower name func _,?_,launched.trans idle⟩
    simp [Registry.addMethod,Registry.setFunction]

/-- A registration under a name that no other registration has. -/
theorem registerOperationByName_moves {name : String} {m : Nat} {u : Unit} {s' : Registry}
    (returns : Returns (registerOperationByName k name m) s u s') :
    s' = s.register k name m ∧
      ∀ cls m', s.classes[k]? = some cls → cls.registeredOperationsByName.get? name = some m' → m' = m := by
  unfold registerOperationByName at returns
  obtain ⟨t,_,first,rest⟩ := returns_bind.mp returns
  obtain ⟨rfl,rfl⟩ := returns_get.mp first
  dsimp only at rest
  split at rest
  · rename_i m₀ found
    obtain ⟨same,rest⟩ := returns_check.mp rest
    refine ⟨(returns_modify.mp rest).symm,?_⟩
    intro cls m' there listed
    rw [there,Option.bind_some,listed] at found
    cases found
    exact not_not.mp same
  · rename_i absent
    refine ⟨(returns_modify.mp rest).symm,?_⟩
    intro cls m' there listed
    rw [there,Option.bind_some,listed] at absent
    cases absent

theorem ensureDBOSIsNotLaunched_returns {u : Unit} {s' : Registry} (returns : Returns ensureDBOSIsNotLaunched s u s') :
    s' = s ∧ s.launched = false := by
  unfold ensureDBOSIsNotLaunched at returns
  obtain ⟨t,_,first,rest⟩ := returns_bind.mp returns
  obtain ⟨rfl,rfl⟩ := returns_get.mp first
  split at rest
  · exact absurd rest returns_throw
  · rename_i idle
    obtain ⟨_,rfl⟩ := returns_pure.mp rest
    exact ⟨rfl,Bool.eq_false_iff.mpr idle⟩

/-- What the registration of a workflow or a step has come to before its type is set. -/
theorem Kept.wrapDBOSFunctionAndRegisterByUniqueName (kept : Kept s) {target : Option Target} {className : Option String}
    {propertyKey name : String} {func : Func} {m : Nat} {s' : Registry}
    (returns : Returns (FunctionRegistry.wrapDBOSFunctionAndRegisterByUniqueName target className propertyKey name func) s m s') :
    ∃ t k n, Kept t ∧ t.launched = false ∧ k < t.classes.length ∧ m < t.methods.length ∧ s' = t.register k n m ∧
      ∀ cls m', t.classes[k]? = some cls → cls.registeredOperationsByName.get? n = some m' → m' = m := by
  unfold FunctionRegistry.wrapDBOSFunctionAndRegisterByUniqueName at returns
  obtain ⟨_,t,first,rest⟩ := returns_bind.mp returns
  obtain ⟨rfl,idle⟩ := ensureDBOSIsNotLaunched_returns first
  obtain ⟨v,_,second,rest⟩ := returns_bind.mp rest
  obtain ⟨rfl,rfl⟩ := returns_get.mp second
  split at rest
  · rename_i m₀ found
    obtain ⟨k,t,third,rest⟩ := returns_bind.mp rest
    obtain ⟨keptNow,lower,methods,launched⟩ := kept.getOrCreateClassRegistration third
    obtain ⟨_,u,fourth,last⟩ := returns_bind.mp rest
    obtain ⟨rfl,free⟩ := registerOperationByName_moves fourth
    obtain ⟨rfl,rfl⟩ := returns_pure.mp last
    refine ⟨t,k,_,keptNow,launched.trans idle,lower,?_,rfl,free⟩
    rw [methods]
    exact kept.functions func m₀ found
  · obtain ⟨m₀,u,third,rest⟩ := returns_bind.mp rest
    obtain ⟨keptNow,inside,idleNow⟩ := kept.getOrCreateMethodRegistration idle third
    obtain ⟨k,t,fourth,rest⟩ := returns_bind.mp rest
    obtain ⟨keptThen,lower,methods,launched⟩ := keptNow.getOrCreateClassRegistration fourth
    obtain ⟨_,w,fifth,last⟩ := returns_bind.mp rest
    obtain ⟨rfl,free⟩ := registerOperationByName_moves fifth
    obtain ⟨rfl,rfl⟩ := returns_pure.mp last
    refine ⟨t,k,_,keptThen,launched.trans idleNow,lower,?_,rfl,free⟩
    rw [methods]
    exact inside

theorem Kept.wrapDBOSFunctionAndRegister (kept : Kept s) {target : Option Target} {className : Option String} {name : String} {func : Func}
    {m : Nat} {s' : Registry} (returns : Returns (FunctionRegistry.wrapDBOSFunctionAndRegister target className name func) s m s') :
    Kept s' ∧ m < s'.methods.length := by
  unfold FunctionRegistry.wrapDBOSFunctionAndRegister at returns
  obtain ⟨_,t,first,rest⟩ := returns_bind.mp returns
  obtain ⟨rfl,idle⟩ := ensureDBOSIsNotLaunched_returns first
  obtain ⟨v,_,second,rest⟩ := returns_bind.mp rest
  obtain ⟨rfl,rfl⟩ := returns_get.mp second
  split at rest
  · rename_i m₀ found
    obtain ⟨rfl,rfl⟩ := returns_pure.mp rest
    exact ⟨kept,kept.functions func m₀ found⟩
  · obtain ⟨keptNow,inside,_⟩ := kept.getOrCreateMethodRegistration idle rest
    exact ⟨keptNow,inside⟩

/-- A type is set once. -/
theorem setConfig_moves {m : Nat} {type : OperationType} {reg : MethodRegistration} (known : s.methods[m]? = some reg) {u : Unit}
    {s' : Registry} (returns : Returns (setConfig m type) s u s') :
    reg.type = none ∧ s' = s.modifyMethod m fun reg => { reg with type := some type } := by
  unfold setConfig at returns
  obtain ⟨t,_,first,rest⟩ := returns_bind.mp returns
  obtain ⟨rfl,rfl⟩ := returns_get.mp first
  rw [known] at rest
  dsimp only at rest
  split at rest
  · split at rest
    · exact absurd rest returns_throw
    · exact absurd rest returns_throw
  · rename_i untyped
    exact ⟨untyped,(returns_modify.mp rest).symm⟩

/-- A registration by a unique name that gives the type. -/
theorem Kept.typedBy (kept : Kept s) {target : Option Target} {className : Option String} {propertyKey name : String} {func : Func}
    {type : OperationType} {u : Unit} {s' : Registry}
    (returns : Returns (do
      let m ← FunctionRegistry.wrapDBOSFunctionAndRegisterByUniqueName target className propertyKey name func
      setConfig m type
      registerFunctionWrapper (.wrapper m) m) s u s') : Kept s' := by
  obtain ⟨m,v,first,rest⟩ := returns_bind.mp returns
  obtain ⟨t,k,n,keptNow,idle,lower,inside,rfl,free⟩ := kept.wrapDBOSFunctionAndRegisterByUniqueName first
  obtain ⟨_,w,second,last⟩ := returns_bind.mp rest
  obtain ⟨reg,there⟩ : ∃ reg, t.methods[m]? = some reg := ⟨_,List.getElem?_eq_getElem inside⟩
  have named : (t.register k n m).methods[m]? = some { reg with byName := some (k,n) } := by
    have now := modify_there there m fun reg => { reg with byName := some (k,n) }
    rw [if_pos rfl] at now
    exact now
  obtain ⟨untyped,rfl⟩ := setConfig_moves named second
  obtain rfl := returns_modify.mp last
  refine (keptNow.registered idle lower there untyped free).setFunction _ ?_
  rw [(registerTyped_length t k n m type).2]
  exact inside

theorem Kept.registerClassInstance (kept : Kept s) {instname : String} {inst : Nat} {u : Unit} {s' : Registry}
    (returns : Returns (FunctionRegistry.registerClassInstance c instname inst) s u s') : Kept s' := by
  unfold FunctionRegistry.registerClassInstance at returns
  obtain ⟨reg,t,first,rest⟩ := returns_bind.mp returns
  obtain ⟨keptNow,_⟩ := kept.getClassRegistration first
  obtain ⟨v,_,second,rest⟩ := returns_bind.mp rest
  obtain ⟨rfl,rfl⟩ := returns_get.mp second
  obtain ⟨_,rest⟩ := returns_check.mp rest
  obtain rfl := returns_modify.mp rest
  exact keptNow.modifyClass (fun _ => rfl) (fun _ => rfl) (fun _ => rfl) fun cls func m there listed => keptNow.all _ cls func m there listed

theorem Kept.launch (kept : Kept s) {u : PUnit} {s' : Registry} (returns : Returns FunctionRegistry.launch s u s') : Kept s' := by
  unfold FunctionRegistry.launch at returns
  obtain ⟨t,_,first,rest⟩ := returns_bind.mp returns
  obtain ⟨rfl,rfl⟩ := returns_get.mp first
  split at rest
  · obtain ⟨_,rfl⟩ := returns_pure.mp rest
    exact kept
  · rename_i idle
    obtain ⟨_,v,finalized,last⟩ := returns_bind.mp rest
    obtain ⟨keptNow,_,named⟩ := kept.finalizeClassRegistrations (Bool.eq_false_iff.mpr idle) finalized
    obtain rfl := returns_modify.mp last
    exact keptNow.launched named

theorem Kept.act (kept : Kept s) {e : Event} {u : PUnit} {s' : Registry} (returns : Returns e.act s u s') : Kept s' := by
  cases e with
  | registerWorkflow target className propertyKey name func => exact kept.typedBy returns
  | step_ target propertyKey name func => exact kept.typedBy returns
  | registerStep target className name func =>
    obtain ⟨m,t,first,last⟩ := returns_bind.mp returns
    obtain ⟨keptNow,inside⟩ := kept.wrapDBOSFunctionAndRegister first
    obtain rfl := returns_modify.mp last
    exact keptNow.setFunction _ inside
  | associateMethodWithExternal target className funcName func =>
    obtain ⟨m,t,first,last⟩ := returns_bind.mp returns
    obtain ⟨_,rfl⟩ := returns_pure.mp last
    exact (kept.wrapDBOSFunctionAndRegister first).1
  | associateClassWithExternal cls =>
    cases cls with
    | inl c =>
      obtain ⟨reg,t,first,last⟩ := returns_bind.mp returns
      obtain ⟨_,rfl⟩ := returns_pure.mp last
      exact (kept.getClassRegistration first).1
    | inr name =>
      obtain ⟨k,t,first,last⟩ := returns_bind.mp returns
      obtain ⟨_,rfl⟩ := returns_pure.mp last
      exact (kept.getClassRegistrationByName first).1
  | assignClassName name c =>
    obtain ⟨reg,t,first,rest⟩ := returns_bind.mp returns
    obtain ⟨keptNow,_⟩ := kept.getClassRegistration first
    obtain ⟨_,rest⟩ := returns_check.mp rest
    obtain rfl := returns_modify.mp rest
    exact keptNow.setAlias c name
  | registerClassInstance c instname inst => exact kept.registerClassInstance returns
  | launch => exact kept.launch returns
  | shutdown =>
    obtain rfl := returns_modify.mp returns
    refine ⟨kept.named,kept.byCtor,kept.ctorListed,kept.nameListed,kept.operations,kept.typed,kept.inClass,kept.home,kept.functions,
      kept.all,?_⟩
    intro launched
    cases launched

theorem kept_runs {events : List Event} (run : Runs FunctionRegistry.step {} events s)
    (returned : Along FunctionRegistry.step (fun s e => returns s e = true) {} events) : Kept s := by
  refine along_invariant ?_ kept_start returned run
  intro s e s' kept returned taken
  cases taken
  cases ends : outcome e.act s with
  | mk result t =>
    cases result with
    | ok u => exact kept.act ends
    | error _ =>
      rw [returns,ends] at returned
      cases returned

/-! ### The names of a row -/

theorem getClassName_own {reg : MethodRegistration} (own : reg.className ≠ "") : reg.getClassName s = reg.className := if_neg own

theorem getClassName_home {reg : MethodRegistration} {cls : ClassRegistration} (empty : reg.className = "")
    (there : s.classes[reg.classReg]? = some cls) : reg.getClassName s = cls.getClassName := by
  rw [MethodRegistration.getClassName,empty,orText_eq,if_pos rfl,Registry.class?,there]
  rfl

/-- The class that the class name of a row leads to: that of the first call, unless a class with a constructor has given its name. -/
theorem Kept.recordedClass (kept : Kept s) (launched : s.launched = true) {m : Nat} {reg : MethodRegistration}
    (there : s.methods[m]? = some reg) {name : String} {cls : ClassRegistration} (under : reg.byName = some (k,name))
    (inside : s.classes[k]? = some cls) :
    ∃ j, Listed s (reg.getClassName s) j ∧ (k = j ↔ k = reg.classReg ∨ cls.ctor.isSome = true ∧ cls.name ≠ "") := by
  obtain ⟨⟨first,there',home⟩,named⟩ := kept.settled launched m reg there
  by_cases given : cls.ctor.isSome = true ∧ cls.name ≠ ""
  · obtain ⟨same,listed⟩ := named k name cls under inside given.1
    refine ⟨k,?_,iff_of_true rfl (.inr given)⟩
    rw [getClassName_own (same ▸ given.2),same]
    exact listed
  · refine ⟨reg.classReg,?_,(or_iff_left given).symm⟩
    by_cases empty : reg.className = ""
    · rw [getClassName_home empty there']
      exact home
    · rw [getClassName_own empty]
      refine (kept.home m reg there ?_).resolve_left empty
      intro j name' cls' under' inside'
      cases under.symm.trans under'
      cases inside.symm.trans inside'
      by_contra isSome
      rw [← ne_eq,← Option.isSome_iff_ne_none] at isSome
      obtain ⟨same,_⟩ := named k name cls under inside isSome
      exact given ⟨isSome,same ▸ empty⟩

/-- Where DBOS runs, the names that are recorded with a workflow lead to a class. They lead to the function of the workflow if, and only if,
    it was registered as a workflow under its own name, in the class of its first registration or in a class with a constructor. -/
theorem recorded_names_lead_back {events : List Event} (run : Runs FunctionRegistry.step {} events s)
    (returned : Along FunctionRegistry.step (fun s e => returns s e = true) {} events) (launched : s.launched = true)
    {func : Func} {m : Nat} {reg : MethodRegistration} (registered : s.functionToRegistration.get? func = some m)
    (there : s.methods[m]? = some reg) (workflow : reg.type = some .Workflow) :
    ∃ className name found k operation cls, getRegisteredFunctionFullName s func = some (className,name) ∧
      getFunctionRegistrationByName s className name = .ok found ∧ s.classes[k]? = some cls ∧
      (∀ (k' : Nat) cls' operation', s.classes[k']? = some cls' →
        (cls'.registeredOperationsByName.get? operation' = some m ↔ k' = k ∧ operation' = operation)) ∧
      (found = some m ↔ operation = name ∧ (k = reg.classReg ∨ cls.ctor.isSome = true ∧ cls.name ≠ "")) := by
  have kept := kept_runs run returned
  obtain ⟨⟨k,operation⟩,under⟩ : ∃ place, reg.byName = some place := by
    have typed := kept.typed m reg there
    rw [workflow] at typed
    exact Option.isSome_iff_exists.mp typed
  obtain ⟨cls,inside⟩ : ∃ cls, s.classes[k]? = some cls := ⟨_,List.getElem?_eq_getElem ((kept.inClass m reg there).2 k operation under)⟩
  obtain ⟨j,⟨entry,listed,rfl⟩,same⟩ := kept.recordedClass launched there under inside
  obtain ⟨cls',inside'⟩ : ∃ cls', s.classes[entry.reg]? = some cls' := ⟨_,List.getElem?_eq_getElem (kept.named _ entry listed)⟩
  have placed : ∀ (k' : Nat) cls' operation', s.classes[k']? = some cls' →
      (cls'.registeredOperationsByName.get? operation' = some m ↔ k' = k ∧ operation' = operation) := by
    intro k' cls' operation' inside'
    rw [kept.operations k' cls' operation' m inside']
    constructor
    · rintro ⟨reg',there',under'⟩
      cases there.symm.trans there'
      cases under.symm.trans under'
      exact ⟨rfl,rfl⟩
    · rintro ⟨rfl,rfl⟩
      exact ⟨reg,there,under⟩
  refine ⟨reg.getClassName s,reg.name,cls'.registeredOperationsByName.get? reg.name,k,operation,cls,?_,?_,inside,placed,?_⟩
  · rw [getRegisteredFunctionFullName,registered,Option.bind_some,there]
    rfl
  · rw [getFunctionRegistrationByName,listed]
    dsimp only
    rw [inside']
    rfl
  · rw [placed entry.reg cls' reg.name inside',← same]
    constructor
    · rintro ⟨place,name⟩
      exact ⟨name.symm,place.symm⟩
    · rintro ⟨name,place⟩
      exact ⟨place.symm,name.symm⟩

end

def reports : Target := ⟨⟨0,"Reports"⟩,false⟩

/-- A class with one workflow, and then its own name; the function that the decorator returns is scheduled. -/
def decorated : List Event :=
  [.registerWorkflow (some reports) none "daily" "nightly" (.app 0),.associateMethodWithExternal (some reports) none "daily" (.wrapper 0),
    .assignClassName "Billing" reports.ctor,.launch]

theorem recorded_names_lead_back_decorated : ∃ s, Runs FunctionRegistry.step {} decorated s ∧
    getRegisteredFunctionFullName s (.wrapper 0) = some ("Billing","nightly") ∧
    getFunctionRegistrationByName s "Billing" "nightly" = .ok (some 0) := by
  obtain ⟨s,run,returned,launched,registered,names,reg,there,workflow,home,cls,inside,listed⟩ : ∃ s,
      Runs FunctionRegistry.step {} decorated s ∧ Along FunctionRegistry.step (fun s e => returns s e = true) {} decorated ∧
      s.launched = true ∧ s.functionToRegistration.get? (.wrapper 0) = some 0 ∧
      getRegisteredFunctionFullName s (.wrapper 0) = some ("Billing","nightly") ∧
      ∃ reg, s.methods[0]? = some reg ∧ reg.type = some .Workflow ∧ reg.classReg = 0 ∧
      ∃ cls, s.classes[0]? = some cls ∧ cls.registeredOperationsByName.get? "nightly" = some 0 :=
    ⟨_,rfl,of_decide_eq_true rfl,rfl,rfl,rfl,_,rfl,rfl,rfl,_,rfl,rfl⟩
  obtain ⟨_,_,found,k,operation,_,recorded,leads,_,placed,back⟩ := recorded_names_lead_back run returned launched registered there workflow
  cases names.symm.trans recorded
  obtain ⟨rfl,rfl⟩ := (placed 0 cls "nightly" inside).mp listed
  exact ⟨s,run,names,leads.trans (congrArg Except.ok (back.mpr ⟨rfl,.inl home.symm⟩))⟩

/-- Two workflows, of which the first was scheduled before it was registered under a name. -/
def scheduledFirst : List Event :=
  [.associateMethodWithExternal (some reports) none "daily" (.app 0),.registerWorkflow (some reports) none "daily" "nightly" (.app 0),
    .registerWorkflow (some reports) none "hourly" "daily" (.app 1),.launch]

/-- The names that are recorded with the first workflow lead to the second one. -/
theorem scheduledFirst_leads_astray : ∃ s, Runs FunctionRegistry.step {} scheduledFirst s ∧
    Along FunctionRegistry.step (fun s e => returns s e = true) {} scheduledFirst ∧
    s.functionToRegistration.get? (.wrapper 0) = some 0 ∧ getRegisteredFunctionFullName s (.wrapper 0) = some ("Reports","daily") ∧
    getFunctionRegistrationByName s "Reports" "daily" = .ok (some 1) :=
  ⟨_,rfl,of_decide_eq_true rfl,rfl,rfl,rfl⟩

/-- A workflow that is registered again in another class: the call throws, and has put it there. -/
def registeredTwice : List Event :=
  [.registerWorkflow (some reports) none "daily" "nightly" (.app 0),
    .registerWorkflow (some ⟨⟨1,"Billing"⟩,false⟩) none "daily" "invoices" (.app 0),.launch]

/-- Where a call has thrown, the names that are recorded with a workflow may lead to nothing. -/
theorem registeredTwice_leads_nowhere : ∃ s, Runs FunctionRegistry.step {} registeredTwice s ∧ s.launched = true ∧
    s.functionToRegistration.get? (.wrapper 0) = some 0 ∧ getRegisteredFunctionFullName s (.wrapper 0) = some ("Billing","nightly") ∧
    getFunctionRegistrationByName s "Billing" "nightly" = .ok none := ⟨_,rfl,rfl,rfl,rfl,rfl⟩

end Dbos.FunctionRegistry
