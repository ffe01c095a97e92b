import Dbos.Js.JsonReader
import Mathlib.Data.List.Forall2
import Mathlib.Logic.Relation

/-!
`DBOSPortableJSON` of `src/serialization.ts`. `JSON.stringify` asks a value for its `toJSON`, hands it to `portableJsonReplacer`, and goes
on with the members of what it gets. A Map is made into an object by assignments, one for each entry, and an assignment under
`__proto__` makes no member.
-/
namespace Dbos.PortableJson
open Dbos.Js

/-! ### Values -/

/-- Null, booleans, finite numbers, texts, arrays, plain objects, Maps, Sets, valid dates, big integers and errors. The key of an entry is
    `none` if it is no text. -/
inductive Value
  | null
  | boolean (b : Bool)
  | number (n : NumberText)
  | string (s : String)
  | array (items : List Value)
  | object (members : List (String × Value))
  | map (entries : List (Option String × Value))
  | set (items : List Value)
  | date (time : Int)
  | bigint (n : Int)
  | error (name message : String)

inductive Thrown
  | typeError

/-- What becomes of an assignment to an object with a given prototype: the object has the member, a setter takes the value, or the
    prototype has the property read-only, as `size` of a Map. -/
inductive Assigned
  | own
  | swallowed
  | refused

structure Runtime where
  toISOString : Int → String
  inherits : Value → String → Assigned

/-- A value that can be a prototype. -/
def Value.prototypical : Value → Bool
  | .boolean _ => false
  | .number _ => false
  | .string _ => false
  | .bigint _ => false
  | _ => true

/-! ### Members of objects -/

/-- The number of a key that is an array index. -/
def arrayIndex (key : String) : Option Nat :=
  match key.toNat? with
  | some n => if toString n = key ∧ n < 2 ^ 32 - 1 then some n else none
  | none => none

def goesBefore (key other : String) : Bool :=
  match arrayIndex key,arrayIndex other with
  | some n,some m => n < m
  | some _,none => true
  | none,_ => false

/-- A new member: array indices come first, in their order, and other keys in the order of their creation. -/
def createMember {α : Type} (member : String × α) : List (String × α) → List (String × α)
  | [] => [member]
  | other :: rest => if goesBefore member.1 other.1 then member :: other :: rest else other :: createMember member rest

section
variable (runtime : Runtime)

/-- `obj[k] = v` for the entries of a Map, from an object with the given prototype, that of all objects if `none`. -/
def assignEntries {α : Type} (proto : Option Value) : List (String × Value × α) → List (String × α) → Except Thrown (List (String × α))
  | [],obj => .ok obj
  | (key,value,result) :: rest,obj =>
    if key = "__proto__" then assignEntries (if value.prototypical then some value else proto) rest obj
    else
      match proto.elim .own fun proto => runtime.inherits proto key with
      | .own => assignEntries proto rest (createMember (key,result) obj)
      | .swallowed => assignEntries proto rest obj
      | .refused => .error .typeError

/-- The entries of a Map if all keys are texts. -/
def stringKeys {α : Type} : List (Option String × α) → Except Thrown (List (String × α))
  | [] => .ok []
  | (none,_) :: _ => .error .typeError
  | (some key,value) :: rest => (stringKeys rest).map ((key,value) :: ·)

/-- Members are written one after another. -/
def inOrder {α : Type} : List (String × Except Thrown α) → Except Thrown (List (String × α))
  | [] => .ok []
  | (key,result) :: rest => do
    let value ← result
    let rest ← inOrder rest
    return (key,value) :: rest

mutual
/-- What `JSON.stringify` writes with `portableJsonReplacer`. A date has made a text of itself by `toJSON` before. -/
def serializeProperty : Value → Except Thrown Json
  | .null => .ok .null
  | .boolean b => .ok (.boolean b)
  | .number n => .ok (.number n)
  | .string s => .ok (.string s)
  | .array items => (serializeItems items).map .array
  | .object members => (inOrder (serializeMembers members)).map .object
  | .map entries => do
    let entries ← stringKeys (serializeEntries entries)
    let obj ← assignEntries runtime none entries []
    let members ← inOrder obj
    return .object members
  | .set items => (serializeItems items).map .array
  | .date time => .ok (.string (runtime.toISOString time))
  | .bigint n => .ok (.string (toString n))
  | .error name message => .ok (.object [("name",.string name),("message",.string message)])

def serializeItems : List Value → Except Thrown (List Json)
  | [] => .ok []
  | item :: rest => do
    let item ← serializeProperty item
    let rest ← serializeItems rest
    return item :: rest

def serializeMembers : List (String × Value) → List (String × Except Thrown Json)
  | [] => []
  | (key,value) :: rest => (key,serializeProperty value) :: serializeMembers rest

/-- The entries with what is written for their values, should they be written. -/
def serializeEntries : List (Option String × Value) → List (Option String × Value × Except Thrown Json)
  | [] => []
  | (key,value) :: rest => (key,value,serializeProperty value) :: serializeEntries rest
end

/-- `DBOSPortableJSON.stringify`. -/
def stringify (value : Value) : Except Thrown String := (serializeProperty runtime value).map Json.stringify

/-- `DBOSPortableJSON.parse` of a text. -/
def parse (text : String) : Option Json := Json.read text

/-! ### The portable image -/

mutual
/-- A Map is an object with exactly its entries, a Set an array, and a date, a big integer and an error are their texts. -/
def image : Value → Json
  | .null => .null
  | .boolean b => .boolean b
  | .number n => .number n
  | .string s => .string s
  | .array items => .array (imageItems items)
  | .object members => .object (imageMembers members)
  | .map entries => .object ((imageEntries entries).foldl (fun obj member => createMember member obj) [])
  | .set items => .array (imageItems items)
  | .date time => .string (runtime.toISOString time)
  | .bigint n => .string (toString n)
  | .error name message => .object [("name",.string name),("message",.string message)]

def imageItems : List Value → List Json
  | [] => []
  | item :: rest => image item :: imageItems rest

def imageMembers : List (String × Value) → List (String × Json)
  | [] => []
  | (key,value) :: rest => (key,image value) :: imageMembers rest

def imageEntries : List (Option String × Value) → List (String × Json)
  | [] => []
  | (none,_) :: rest => imageEntries rest
  | (some key,value) :: rest => (key,image value) :: imageEntries rest
end

end

/-! ### What a value is made of -/

inductive Child : Value → Value → Prop
  | item {items : List Value} {v : Value} : v ∈ items → Child (.array items) v
  | element {items : List Value} {v : Value} : v ∈ items → Child (.set items) v
  | member {members : List (String × Value)} {key : String} {v : Value} : (key,v) ∈ members → Child (.object members) v
  | entry {entries : List (Option String × Value)} {key : Option String} {v : Value} : (key,v) ∈ entries → Child (.map entries) v

theorem Child.smaller {v w : Value} (child : Child v w) : sizeOf w < sizeOf v := by
  cases child with
  | item listed =>
    have less := List.sizeOf_lt_of_mem listed
    simp
    omega
  | element listed =>
    have less := List.sizeOf_lt_of_mem listed
    simp
    omega
  | member listed =>
    have less := List.sizeOf_lt_of_mem listed
    simp at less ⊢
    omega
  | entry listed =>
    have less := List.sizeOf_lt_of_mem listed
    simp at less ⊢
    omega

section
variable {w : Value}

@[simp] theorem child_array {items : List Value} : Child (.array items) w ↔ w ∈ items := by
  constructor
  · intro child
    cases child with
    | item listed => exact listed
  · exact .item

@[simp] theorem child_set {items : List Value} : Child (.set items) w ↔ w ∈ items := by
  constructor
  · intro child
    cases child with
    | element listed => exact listed
  · exact .element

@[simp] theorem child_object {members : List (String × Value)} : Child (.object members) w ↔ ∃ key,(key,w) ∈ members := by
  constructor
  · intro child
    cases child with
    | member listed => exact ⟨_,listed⟩
  · rintro ⟨key,listed⟩
    exact .member listed

@[simp] theorem child_map {entries : List (Option String × Value)} : Child (.map entries) w ↔ ∃ key,(key,w) ∈ entries := by
  constructor
  · intro child
    cases child with
    | entry listed => exact ⟨_,listed⟩
  · rintro ⟨key,listed⟩
    exact .entry listed

end

/-- Induction over what values are made of. -/
theorem child_induction {P : Value → Prop} (step : ∀ v,(∀ w,Child v w → P w) → P v) (v : Value) : P v := by
  induction size : sizeOf v using Nat.strongRecOn generalizing v with
  | ind n ih =>
    subst size
    exact step v fun w child => ih _ child.smaller w rfl

abbrev Inside : Value → Value → Prop := Relation.ReflTransGen Child

def OtherKey (entries : List (Option String × Value)) : Prop := none ∈ entries.map Prod.fst

def ProtoKey (entries : List (Option String × Value)) : Prop := some "__proto__" ∈ entries.map Prod.fst

/-- The prototype after some entries, from an object with the given one. -/
def prototypeAfter (proto : Option Value) (before : List (Option String × Value)) : Option Value :=
  before.foldl (fun proto entry => if entry.1 = some "__proto__" ∧ entry.2.prototypical = true then some entry.2 else proto) proto

section
variable (runtime : Runtime)

/-- What becomes of a key after some entries. -/
def becomes (proto : Option Value) (before : List (Option String × Value)) (key : String) : Assigned :=
  (prototypeAfter proto before).elim .own fun proto => runtime.inherits proto key

/-- Some key does not get past the prototype that an entry before has set. -/
def Refuses (entries : List (Option String × Value)) : Prop :=
  ∃ before key v after,entries = before ++ (some key,v) :: after ∧ key ≠ "__proto__" ∧ becomes runtime none before key = .refused

/-- The children that are written. An entry under `__proto__` is not, nor what a setter takes. -/
inductive Written : Value → Value → Prop
  | child {v w : Value} : Child v w → (∀ entries,v ≠ .map entries) → Written v w
  | entry {before after : List (Option String × Value)} {key : String} {v : Value} : key ≠ "__proto__" → becomes runtime none before key = .own →
      Written (.map (before ++ (some key,v) :: after)) v

/-- A Map that is not written, among those that are met. -/
def Fails (value : Value) : Prop :=
  ∃ entries,Relation.ReflTransGen (Written runtime) value (.map entries) ∧ (OtherKey entries ∨ Refuses runtime entries)

end

/-! ### Order of members -/

section
variable {α β : Type}

def inOwnOrder (members : List (String × α)) : List (String × α) := members.foldl (fun obj member => createMember member obj) []

theorem createMember_perm (member : String × α) (obj : List (String × α)) : (createMember member obj).Perm (member :: obj) := by
  induction obj with
  | nil => exact .refl _
  | cons other rest ih =>
    unfold createMember
    split
    · exact .refl _
    · exact (ih.cons other).trans (.swap member other rest)

theorem inOwnOrder_perm (members : List (String × α)) : (inOwnOrder members).Perm members := by
  suffices grown : ∀ obj : List (String × α),(members.foldl (fun obj member => createMember member obj) obj).Perm (obj ++ members) from grown []
  induction members with
  | nil => simp
  | cons member rest ih =>
    intro obj
    refine (ih _).trans (((createMember_perm member obj).append_right rest).trans ?_)
    exact List.perm_middle.symm

/-- The order looks at the keys only. -/
theorem createMember_map (f : α → β) (member : String × α) (obj : List (String × α)) :
    createMember (member.1,f member.2) (obj.map fun m => (m.1,f m.2)) = (createMember member obj).map fun m => (m.1,f m.2) := by
  induction obj with
  | nil => rfl
  | cons other rest ih =>
    rw [List.map_cons,createMember,createMember]
    split
    · rfl
    · rw [ih,List.map_cons]

theorem inOwnOrder_map (f : α → β) (members : List (String × α)) :
    inOwnOrder (members.map fun m => (m.1,f m.2)) = (inOwnOrder members).map fun m => (m.1,f m.2) := by
  suffices grown : ∀ obj : List (String × α),(members.map fun m => (m.1,f m.2)).foldl (fun obj member => createMember member obj)
      (obj.map fun m => (m.1,f m.2)) = (members.foldl (fun obj member => createMember member obj) obj).map fun m => (m.1,f m.2) from grown []
  induction members with
  | nil => exact fun _ => rfl
  | cons member rest ih =>
    intro obj
    rw [List.map_cons,List.foldl_cons,List.foldl_cons,createMember_map]
    exact ih _

end

/-! ### Maps -/

section
variable {runtime : Runtime}

def keyed (texts : List (String × Value)) : List (Option String × Value) := texts.map fun m => (some m.1,m.2)

variable (runtime) in
theorem stringKeys_cases (entries : List (Option String × Value)) :
    (OtherKey entries ∧ stringKeys (serializeEntries runtime entries) = .error .typeError) ∨
    ∃ texts,entries = keyed texts ∧
      stringKeys (serializeEntries runtime entries) = .ok (texts.map fun m => (m.1,m.2,serializeProperty runtime m.2)) := by
  induction entries with
  | nil => exact .inr ⟨[],rfl,rfl⟩
  | cons entry rest ih =>
    obtain ⟨key,v⟩ := entry
    cases key with
    | none => exact .inl ⟨by simp [OtherKey],rfl⟩
    | some key =>
      rcases ih with ⟨other,thrown⟩ | ⟨texts,rfl,listed⟩
      · refine .inl ⟨by simpa [OtherKey] using other,?_⟩
        rw [serializeEntries,stringKeys,thrown]
        rfl
      · refine .inr ⟨(key,v) :: texts,rfl,?_⟩
        rw [serializeEntries,stringKeys,listed]
        rfl

/-- The entries that become members, or one that is refused. -/
def writtenFrom (runtime : Runtime) (proto : Option Value) : List (String × Value) → Except Thrown (List (String × Value))
  | [] => .ok []
  | (key,v) :: rest =>
    if key = "__proto__" then writtenFrom runtime (if v.prototypical then some v else proto) rest
    else
      match proto.elim .own fun proto => runtime.inherits proto key with
      | .own => (writtenFrom runtime proto rest).map ((key,v) :: ·)
      | .swallowed => writtenFrom runtime proto rest
      | .refused => .error .typeError

variable (runtime) in
theorem assignEntries_written {α : Type} (f : Value → α) (texts : List (String × Value)) (proto : Option Value) (obj : List (String × α)) :
    assignEntries runtime proto (texts.map fun m => (m.1,m.2,f m.2)) obj =
      (writtenFrom runtime proto texts).map fun written => (written.map fun m => (m.1,f m.2)).foldl (fun obj member => createMember member obj) obj := by
  induction texts generalizing proto obj with
  | nil => rfl
  | cons m rest ih =>
    obtain ⟨key,v⟩ := m
    rw [List.map_cons,assignEntries,writtenFrom]
    by_cases special : key = "__proto__"
    · rw [if_pos special,if_pos special]
      exact ih _ _
    · rw [if_neg special,if_neg special]
      cases proto.elim .own fun proto => runtime.inherits proto key with
      | own =>
        dsimp only
        rw [ih]
        cases writtenFrom runtime proto rest <;> rfl
      | swallowed => exact ih _ _
      | refused => rfl

/-- `key` and `v` are an entry, and something becomes of it. -/
def Becomes (runtime : Runtime) (proto : Option Value) (texts : List (String × Value)) (key : String) (v : Value) (assigned : Assigned) : Prop :=
  ∃ before after,texts = before ++ (key,v) :: after ∧ key ≠ "__proto__" ∧ becomes runtime proto (keyed before) key = assigned

theorem becomes_cons {proto : Option Value} {first : String × Value} {texts : List (String × Value)} {key : String} {v : Value}
    {assigned : Assigned} : Becomes runtime proto (first :: texts) key v assigned ↔
    ((key,v) = first ∧ key ≠ "__proto__" ∧ (proto.elim .own fun proto => runtime.inherits proto key) = assigned) ∨
      Becomes runtime (if first.1 = "__proto__" ∧ first.2.prototypical = true then some first.2 else proto) texts key v assigned := by
  constructor
  · rintro ⟨before,after,whole,plain,result⟩
    cases before with
    | nil =>
      cases whole
      exact .inl ⟨rfl,plain,result⟩
    | cons head before =>
      cases whole
      exact .inr ⟨before,after,rfl,plain,by simpa [becomes,prototypeAfter,keyed] using result⟩
  · rintro (⟨rfl,plain,result⟩ | ⟨before,after,rfl,plain,result⟩)
    · exact ⟨[],texts,rfl,plain,result⟩
    · exact ⟨first :: before,after,rfl,plain,by simpa [becomes,prototypeAfter,keyed] using result⟩

variable (runtime) in
/-- Either an entry is refused, or exactly those become members of which own members become. -/
theorem writtenFrom_cases (texts : List (String × Value)) (proto : Option Value) :
    (writtenFrom runtime proto texts = .error .typeError ∧ ∃ key v,Becomes runtime proto texts key v .refused) ∨
    ∃ written,writtenFrom runtime proto texts = .ok written ∧ (¬ ∃ key v,Becomes runtime proto texts key v .refused) ∧
      (∀ key v,(key,v) ∈ written ↔ Becomes runtime proto texts key v .own) ∧ written.Sublist texts := by
  induction texts generalizing proto with
  | nil => exact .inr ⟨[],rfl,by simp [Becomes],by simp [Becomes],.refl _⟩
  | cons m rest ih =>
    obtain ⟨key,v⟩ := m
    rw [writtenFrom]
    by_cases special : key = "__proto__"
    · have skip : ∀ k w assigned,Becomes runtime proto ((key,v) :: rest) k w assigned ↔
          Becomes runtime (if v.prototypical then some v else proto) rest k w assigned := by
        intro k w assigned
        rw [becomes_cons]
        simp only [special,true_and]
        refine or_iff_right ?_
        rintro ⟨same,plain,_⟩
        exact plain (Prod.ext_iff.mp same).1
      rw [if_pos special]
      simp only [skip]
      rcases ih (if v.prototypical then some v else proto) with refused | ⟨written,done,none_,members,sub⟩
      · exact .inl refused
      · exact .inr ⟨written,done,none_,members,sub.cons _⟩
    · have split_ : ∀ k w assigned,Becomes runtime proto ((key,v) :: rest) k w assigned ↔
          ((k,w) = (key,v) ∧ (proto.elim .own fun proto => runtime.inherits proto key) = assigned) ∨ Becomes runtime proto rest k w assigned := by
        intro k w assigned
        rw [becomes_cons]
        simp only [special,false_and,if_false]
        refine or_congr_left ⟨fun ⟨same,_,result⟩ => ?_,fun ⟨same,result⟩ => ?_⟩
        · cases same
          exact ⟨rfl,result⟩
        · cases same
          exact ⟨rfl,special,result⟩
      rw [if_neg special]
      simp only [split_]
      cases fate : proto.elim .own fun proto => runtime.inherits proto key with
      | own =>
        rcases ih proto with ⟨thrown,k,w,refused⟩ | ⟨written,done,none_,members,sub⟩
        · exact .inl ⟨by rw [thrown]; rfl,k,w,.inr refused⟩
        · refine .inr ⟨(key,v) :: written,by rw [done]; rfl,?_,?_,sub.cons_cons _⟩
          · rintro ⟨k,w,⟨_,same⟩ | refused⟩
            · cases same
            · exact none_ ⟨k,w,refused⟩
          · intro k w
            rw [List.mem_cons,members]
            simp
      | swallowed =>
        rcases ih proto with ⟨thrown,k,w,refused⟩ | ⟨written,done,none_,members,sub⟩
        · exact .inl ⟨thrown,k,w,.inr refused⟩
        · refine .inr ⟨written,done,?_,?_,sub.cons _⟩
          · rintro ⟨k,w,⟨_,same⟩ | refused⟩
            · cases same
            · exact none_ ⟨k,w,refused⟩
          · intro k w
            rw [members]
            simp
      | refused => exact .inl ⟨rfl,key,v,.inl ⟨rfl,rfl⟩⟩

/-- Without the special key every entry becomes a member. -/
theorem writtenFrom_plain {texts : List (String × Value)} (plain : ∀ m ∈ texts,m.1 ≠ "__proto__") :
    writtenFrom runtime none texts = .ok texts := by
  induction texts with
  | nil => rfl
  | cons m rest ih =>
    obtain ⟨key,v⟩ := m
    rw [writtenFrom,if_neg (plain _ List.mem_cons_self),ih fun m listed => plain m (List.mem_cons_of_mem _ listed)]
    rfl

/-! ### What is thrown -/

variable (runtime) in
theorem inOrder_cases (members : List (String × Value)) :
    ((∃ m ∈ members,serializeProperty runtime m.2 = .error .typeError) ∧
      inOrder (members.map fun m => (m.1,serializeProperty runtime m.2)) = .error .typeError) ∨
    (¬ (∃ m ∈ members,serializeProperty runtime m.2 = .error .typeError) ∧
      ∃ results,inOrder (members.map fun m => (m.1,serializeProperty runtime m.2)) = .ok results ∧
        List.Forall₂ (fun m r => m.1 = r.1 ∧ serializeProperty runtime m.2 = .ok r.2) members results) := by
  induction members with
  | nil => exact .inr ⟨by simp,[],rfl,.nil⟩
  | cons m rest ih =>
    rw [List.map_cons,inOrder]
    rcases here : serializeProperty runtime m.2 with thrown | j
    · exact .inl ⟨⟨m,List.mem_cons_self,here⟩,rfl⟩
    · rcases ih with ⟨⟨m',listed,thrown⟩,failed⟩ | ⟨fine,results,done,all⟩
      · refine .inl ⟨⟨m',List.mem_cons_of_mem _ listed,thrown⟩,?_⟩
        rw [failed]
        rfl
      · refine .inr ⟨by simpa [here] using fine,(m.1,j) :: results,?_,.cons ⟨rfl,here⟩ all⟩
        rw [done]
        rfl

variable (runtime) in
theorem serializeItems_cases (items : List Value) :
    ((∃ v ∈ items,serializeProperty runtime v = .error .typeError) ∧ serializeItems runtime items = .error .typeError) ∨
    (¬ (∃ v ∈ items,serializeProperty runtime v = .error .typeError) ∧
      ∃ results,serializeItems runtime items = .ok results ∧ List.Forall₂ (fun v j => serializeProperty runtime v = .ok j) items results) := by
  induction items with
  | nil => exact .inr ⟨by simp,[],rfl,.nil⟩
  | cons v rest ih =>
    rw [serializeItems]
    rcases here : serializeProperty runtime v with thrown | j
    · exact .inl ⟨⟨v,List.mem_cons_self,here⟩,rfl⟩
    · rcases ih with ⟨⟨w,listed,thrown⟩,failed⟩ | ⟨fine,results,done,all⟩
      · refine .inl ⟨⟨w,List.mem_cons_of_mem _ listed,thrown⟩,?_⟩
        rw [failed]
        rfl
      · refine .inr ⟨by simpa [here] using fine,j :: results,?_,.cons here all⟩
        rw [done]
        rfl

theorem map_throws {α β : Type} {f : α → β} {result : Except Thrown α} : result.map f = .error .typeError ↔ result = .error .typeError := by
  cases result <;> simp [Except.map]

theorem serializeItems_throws (items : List Value) :
    serializeItems runtime items = .error .typeError ↔ ∃ v ∈ items,serializeProperty runtime v = .error .typeError := by
  rcases serializeItems_cases runtime items with ⟨some_,thrown⟩ | ⟨fine,results,done,_⟩
  · exact iff_of_true thrown some_
  · exact iff_of_false (by simp [done]) fine

theorem inOrder_throws (members : List (String × Value)) :
    inOrder (members.map fun m => (m.1,serializeProperty runtime m.2)) = .error .typeError ↔
      ∃ m ∈ members,serializeProperty runtime m.2 = .error .typeError := by
  rcases inOrder_cases runtime members with ⟨some_,thrown⟩ | ⟨fine,results,done,_⟩
  · exact iff_of_true thrown some_
  · exact iff_of_false (by simp [done]) fine

theorem serializeMembers_eq (members : List (String × Value)) :
    serializeMembers runtime members = members.map fun m => (m.1,serializeProperty runtime m.2) := by
  induction members with
  | nil => rfl
  | cons m rest ih => rw [serializeMembers,ih,List.map_cons]

theorem becomes_keyed {texts : List (String × Value)} {key : String} {v : Value} {assigned : Assigned} :
    (∃ before after,keyed texts = before ++ (some key,v) :: after ∧ key ≠ "__proto__" ∧ becomes runtime none before key = assigned) ↔
      Becomes runtime none texts key v assigned := by
  constructor
  · rintro ⟨before,after,whole,plain,result⟩
    obtain ⟨front,back,rfl,rfl,rest⟩ := List.map_eq_append_iff.mp whole
    obtain ⟨m,back,rfl,same,rfl⟩ := List.map_eq_cons_iff.mp rest
    cases same
    exact ⟨front,back,rfl,plain,result⟩
  · rintro ⟨before,after,rfl,plain,result⟩
    exact ⟨keyed before,keyed after,by simp [keyed],plain,result⟩

theorem refuses_keyed {texts : List (String × Value)} : Refuses runtime (keyed texts) ↔ ∃ key v,Becomes runtime none texts key v .refused := by
  constructor
  · rintro ⟨before,key,v,after,whole,plain,result⟩
    exact ⟨key,v,becomes_keyed.mp ⟨before,after,whole,plain,result⟩⟩
  · rintro ⟨key,v,refused⟩
    obtain ⟨before,after,whole,plain,result⟩ := becomes_keyed.mpr refused
    exact ⟨before,key,v,after,whole,plain,result⟩

variable (runtime) in
/-- A Map: a key is no text, or an entry is refused, or the entries that become members are written in their order. -/
theorem serialize_map (entries : List (Option String × Value)) :
    ((OtherKey entries ∨ Refuses runtime entries) ∧ serializeProperty runtime (.map entries) = .error .typeError) ∨
    ∃ texts written,entries = keyed texts ∧ writtenFrom runtime none texts = .ok written ∧ ¬ Refuses runtime entries ∧
      (∀ key v,(key,v) ∈ written ↔ Becomes runtime none texts key v .own) ∧ written.Sublist texts ∧
      serializeProperty runtime (.map entries) =
        (inOrder ((inOwnOrder written).map fun m => (m.1,serializeProperty runtime m.2))).map .object := by
  rcases stringKeys_cases runtime entries with ⟨other,thrown⟩ | ⟨texts,rfl,listed⟩
  · refine .inl ⟨.inl other,?_⟩
    rw [serializeProperty,thrown]
    rfl
  · have assigned := assignEntries_written runtime (serializeProperty runtime) texts none []
    rcases writtenFrom_cases runtime texts none with ⟨thrown,refused⟩ | ⟨written,done,none_,members,sub⟩
    · refine .inl ⟨.inr (refuses_keyed.mpr refused),?_⟩
      rw [thrown] at assigned
      rw [serializeProperty,listed]
      change (assignEntries runtime none _ [] >>= fun obj => _) = _
      rw [assigned]
      rfl
    · refine .inr ⟨texts,written,rfl,done,fun refused => none_ (refuses_keyed.mp refused),members,sub,?_⟩
      rw [done] at assigned
      rw [serializeProperty,listed,← inOwnOrder_map]
      change (assignEntries runtime none _ [] >>= fun obj => _) = _
      rw [assigned]
      have last : ∀ obj : List (String × Except Thrown Json),
          (inOrder obj >>= fun members => pure (Json.object members)) = (inOrder obj).map .object := by
        intro obj
        cases inOrder obj <;> rfl
      exact last _

/-! ### Throwing -/

theorem fails_child {v w : Value} (written : Written runtime v w) (fails : Fails runtime w) : Fails runtime v := by
  obtain ⟨entries,path,bad⟩ := fails
  exact ⟨entries,.head written path,bad⟩

theorem fails_cases {v : Value} (fails : Fails runtime v) :
    (∃ entries,v = .map entries ∧ (OtherKey entries ∨ Refuses runtime entries)) ∨ ∃ w,Written runtime v w ∧ Fails runtime w := by
  obtain ⟨entries,path,bad⟩ := fails
  rcases Relation.ReflTransGen.cases_head path with rfl | ⟨w,step,path⟩
  · exact .inl ⟨entries,rfl,bad⟩
  · exact .inr ⟨w,step,entries,path,bad⟩

theorem written_child {v w : Value} (written : Written runtime v w) : Child v w := by
  cases written with
  | child child => exact child
  | entry => exact .entry (List.mem_append_right _ List.mem_cons_self)

/-- A Map that may be written. -/
theorem written_map {texts written : List (String × Value)} (members : ∀ key v,(key,v) ∈ written ↔ Becomes runtime none texts key v .own) (w : Value) :
    (∃ m ∈ inOwnOrder written,m.2 = w) ↔ Written runtime (.map (keyed texts)) w := by
  constructor
  · rintro ⟨m,listed,rfl⟩
    obtain ⟨before,after,whole,plain,own⟩ := becomes_keyed.mpr ((members m.1 m.2).mp ((inOwnOrder_perm written).mem_iff.mp listed))
    exact whole ▸ .entry plain own
  · intro step
    generalize whole : Value.map (keyed texts) = v at step
    cases step with
    | child child plain => exact absurd whole.symm (plain _)
    | @entry before after key w plain own =>
      have listed := (members key w).mpr (becomes_keyed.mp ⟨before,after,Value.map.inj whole,plain,own⟩)
      exact ⟨(key,w),(inOwnOrder_perm written).mem_iff.mpr listed,rfl⟩

/-- A value other than a Map throws what its children throw. -/
theorem throws_child {v : Value} (plain : ∀ entries,v ≠ .map entries) :
    serializeProperty runtime v = .error .typeError ↔ ∃ w,Child v w ∧ serializeProperty runtime w = .error .typeError := by
  cases v with
  | array items =>
    rw [serializeProperty,map_throws,serializeItems_throws]
    simp only [child_array]
  | set items =>
    rw [serializeProperty,map_throws,serializeItems_throws]
    simp only [child_set]
  | object members =>
    rw [serializeProperty,map_throws,serializeMembers_eq,inOrder_throws]
    simp only [child_object,Prod.exists]
    constructor
    · rintro ⟨key,w,listed,thrown⟩
      exact ⟨w,⟨key,listed⟩,thrown⟩
    · rintro ⟨w,⟨key,listed⟩,thrown⟩
      exact ⟨key,w,listed,thrown⟩
  | map entries => exact absurd rfl (plain entries)
  | _ =>
    refine iff_of_false (by simp [serializeProperty]) ?_
    rintro ⟨w,child,_⟩
    cases child

/-- What is thrown comes from a Map that is not written, among those that are met. -/
theorem throws_iff (v : Value) : serializeProperty runtime v = .error .typeError ↔ Fails runtime v := by
  induction v using child_induction with
  | step v ih =>
  by_cases plain : ∀ entries,v ≠ .map entries
  · rw [throws_child plain]
    constructor
    · rintro ⟨w,child,thrown⟩
      exact fails_child (.child child plain) ((ih w child).mp thrown)
    · intro fails
      rcases fails_cases fails with ⟨entries,same,_⟩ | ⟨w,step,inner⟩
      · exact absurd same (plain entries)
      · exact ⟨w,written_child step,(ih w (written_child step)).mpr inner⟩
  · obtain ⟨entries,rfl⟩ : ∃ entries,v = .map entries := by simpa using plain
    rcases serialize_map runtime entries with ⟨bad,thrown⟩ | ⟨texts,written,rfl,_,none_,members,_,same⟩
    · exact iff_of_true thrown ⟨entries,.refl,bad⟩
    rw [same,map_throws,inOrder_throws]
    constructor
    · rintro ⟨m,listed,thrown⟩
      have step := (written_map members m.2).mp ⟨m,listed,rfl⟩
      exact fails_child step ((ih m.2 (written_child step)).mp thrown)
    · intro fails
      rcases fails_cases fails with ⟨entries,whole,bad⟩ | ⟨w,step,inner⟩
      · cases whole
        rcases bad with other | refused
        · simp [OtherKey,keyed] at other
        · exact absurd refused none_
      · obtain ⟨m,listed,rfl⟩ := (written_map members w).mpr step
        exact ⟨m,listed,(ih m.2 (written_child step)).mpr inner⟩

/-! ### The image -/

theorem imageItems_eq (items : List Value) : imageItems runtime items = items.map (image runtime) := by
  induction items with
  | nil => rfl
  | cons v rest ih => rw [imageItems,ih,List.map_cons]

theorem imageMembers_eq (members : List (String × Value)) : imageMembers runtime members = members.map fun m => (m.1,image runtime m.2) := by
  induction members with
  | nil => rfl
  | cons m rest ih => rw [imageMembers,ih,List.map_cons]

theorem imageEntries_keyed (texts : List (String × Value)) : imageEntries runtime (keyed texts) = texts.map fun m => (m.1,image runtime m.2) := by
  induction texts with
  | nil => rfl
  | cons m rest ih =>
    rw [List.map_cons,← ih]
    rfl

theorem image_map (texts : List (String × Value)) :
    image runtime (.map (keyed texts)) = .object ((inOwnOrder texts).map fun m => (m.1,image runtime m.2)) := by
  rw [image,imageEntries_keyed,← inOwnOrder_map]
  rfl

/-- No Map has an entry under the special key. -/
def Plain (v : Value) : Prop := ∀ entries,Inside v (.map entries) → ¬ ProtoKey entries

theorem plain_iff (v : Value) : Plain v ↔ (∀ entries,v = .map entries → ¬ ProtoKey entries) ∧ ∀ w,Child v w → Plain w := by
  constructor
  · intro plain
    refine ⟨fun entries same => plain entries (same ▸ .refl),fun w child entries path => plain entries (.head child path)⟩
  · rintro ⟨here,children⟩ entries path
    rcases Relation.ReflTransGen.cases_head path with rfl | ⟨w,child,path⟩
    · exact here entries rfl
    · exact children w child entries path

/-- Lists of results that are the images, one by one. -/
theorem images_items {items : List Value} {results : List Json} (all : List.Forall₂ (fun v j => serializeProperty runtime v = .ok j) items results)
    {P : Value → Prop} (each : ∀ v ∈ items,∀ j,serializeProperty runtime v = .ok j → (j = image runtime v ↔ P v)) :
    results = items.map (image runtime) ↔ ∀ v ∈ items,P v := by
  induction all with
  | nil => simp
  | @cons v j items results done _ ih =>
    have here := each v List.mem_cons_self j done
    have there := ih fun w listed => each w (List.mem_cons_of_mem _ listed)
    simp only [List.map_cons,List.cons.injEq,List.forall_mem_cons,here,there]

theorem images_members {members : List (String × Value)} {results : List (String × Json)}
    (all : List.Forall₂ (fun m r => m.1 = r.1 ∧ serializeProperty runtime m.2 = .ok r.2) members results) {P : Value → Prop}
    (each : ∀ m ∈ members,∀ j,serializeProperty runtime m.2 = .ok j → (j = image runtime m.2 ↔ P m.2)) :
    (results = members.map fun m => (m.1,image runtime m.2)) ↔ ∀ m ∈ members,P m.2 := by
  induction all with
  | nil => simp
  | @cons m r members results done _ ih =>
    have here := each m List.mem_cons_self r.2 done.2
    have there := ih fun w listed => each w (List.mem_cons_of_mem _ listed)
    simp only [List.map_cons,List.cons.injEq,List.forall_mem_cons,there,Prod.ext_iff,done.1,here,true_and]

theorem map_ok {α β : Type} {f : α → β} {result : Except Thrown α} {b : β} (done : result.map f = .ok b) : ∃ a,result = .ok a ∧ f a = b := by
  cases result with
  | error thrown => cases done
  | ok a => exact ⟨a,rfl,Except.ok.inj done⟩

/-- What is written is the image exactly when no Map has the special key. -/
theorem written_iff (v : Value) (j : Json) (done : serializeProperty runtime v = .ok j) : j = image runtime v ↔ Plain v := by
  induction v using child_induction generalizing j with
  | step v ih =>
  rw [plain_iff]
  cases v with
  | array items =>
    obtain ⟨results,listed,rfl⟩ := map_ok done
    rcases serializeItems_cases runtime items with ⟨_,thrown⟩ | ⟨_,results',listed',all⟩
    · cases thrown.symm.trans listed
    cases listed'.symm.trans listed
    rw [image,imageItems_eq,Json.array.injEq,images_items all fun v member => ih v (.item member)]
    simp
  | set items =>
    obtain ⟨results,listed,rfl⟩ := map_ok done
    rcases serializeItems_cases runtime items with ⟨_,thrown⟩ | ⟨_,results',listed',all⟩
    · cases thrown.symm.trans listed
    cases listed'.symm.trans listed
    rw [image,imageItems_eq,Json.array.injEq,images_items all fun v member => ih v (.element member)]
    simp
  | object members =>
    obtain ⟨results,listed,rfl⟩ := map_ok done
    rw [serializeMembers_eq] at listed
    rcases inOrder_cases runtime members with ⟨_,thrown⟩ | ⟨_,results',listed',all⟩
    · cases thrown.symm.trans listed
    cases listed'.symm.trans listed
    rw [image,imageMembers_eq,Json.object.injEq,images_members all fun m member => ih m.2 (.member member)]
    refine ⟨fun each => ⟨by simp,fun w child => ?_⟩,fun both m member => both.2 m.2 (.member member)⟩
    obtain ⟨key,member⟩ := child_object.mp child
    exact each (key,w) member
  | map entries =>
    rcases serialize_map runtime entries with ⟨_,thrown⟩ | ⟨texts,written,rfl,assigned,_,members,sub,same⟩
    · cases thrown.symm.trans done
    obtain ⟨results,listed,rfl⟩ := map_ok (same.symm.trans done)
    rcases inOrder_cases runtime (inOwnOrder written) with ⟨_,thrown⟩ | ⟨_,results',listed',all⟩
    · cases thrown.symm.trans listed
    cases listed'.symm.trans listed
    rw [image_map,Json.object.injEq]
    by_cases special : ProtoKey (keyed texts)
    · refine iff_of_false ?_ fun plain => plain.1 _ rfl special
      -- the object has fewer members than the Map has entries
      intro whole
      have length := all.length_eq.trans (congrArg List.length whole)
      rw [(inOwnOrder_perm written).length_eq,List.length_map,(inOwnOrder_perm texts).length_eq] at length
      cases sub.eq_of_length length
      obtain ⟨⟨key,v⟩,member,rfl⟩ : ∃ m ∈ texts,m.1 = "__proto__" := by simpa [ProtoKey,keyed] using special
      obtain ⟨_,_,_,plain,_⟩ := (members _ v).mp member
      exact plain rfl
    · have plain : ∀ m ∈ texts,m.1 ≠ "__proto__" := by
        intro m member same
        exact special (by simpa [ProtoKey,keyed] using ⟨m.2,same ▸ member⟩)
      cases (writtenFrom_plain plain).symm.trans assigned
      have entry : ∀ m ∈ inOwnOrder texts,Child (.map (keyed texts)) m.2 := by
        intro m member
        exact .entry (List.mem_map.mpr ⟨m,(inOwnOrder_perm texts).mem_iff.mp member,rfl⟩)
      rw [images_members all fun m member => ih m.2 (entry m member)]
      refine ⟨fun each => ⟨?_,fun w child => ?_⟩,fun both m member => both.2 m.2 (entry m member)⟩
      · intro entries same
        cases same
        exact special
      · obtain ⟨key,member⟩ := child_map.mp child
        obtain ⟨m,listed,same⟩ := List.mem_map.mp member
        cases same
        exact each m ((inOwnOrder_perm texts).mem_iff.mpr listed)
  | _ =>
    cases done
    refine iff_of_true (by simp [image]) ⟨by simp,?_⟩
    intro w child
    cases child

/-! ### The whole value -/

/-- Some Map has a key that is no text. -/
def HasOtherKey (v : Value) : Prop := ∃ entries,Inside v (.map entries) ∧ OtherKey entries

theorem becomes_plain {before after : List (Option String × Value)} {key : Option String} {v : Value}
    (plain : ¬ ProtoKey (before ++ (key,v) :: after)) (text : String) : becomes runtime none before text = .own := by
  have unset : prototypeAfter none before = none := by
    unfold prototypeAfter
    refine List.foldlRecOn (motive := fun proto => proto = none) before _ rfl fun proto unset entry listed => ?_
    rw [if_neg,unset]
    rintro ⟨special,_⟩
    exact plain (by simpa [ProtoKey] using .inl ⟨entry.2,special ▸ listed⟩)
  rw [becomes,unset]
  rfl

theorem plain_child {v w : Value} (plain : Plain v) (child : Child v w) : Plain w := ((plain_iff v).mp plain).2 w child

/-- Without the special key only keys that are no texts are thrown for. -/
theorem plain_fails {v : Value} (plain : Plain v) : Fails runtime v ↔ HasOtherKey v := by
  constructor
  · rintro ⟨entries,path,other | ⟨before,key,w,after,rfl,_,refused⟩⟩
    · exact ⟨entries,Relation.ReflTransGen.mono (fun _ _ => written_child) _ _ path,other⟩
    · have inside := Relation.ReflTransGen.mono (fun _ _ => written_child) _ _ path
      rw [becomes_plain (plain _ inside)] at refused
      cases refused
  · rintro ⟨entries,path,other⟩
    induction path using Relation.ReflTransGen.head_induction_on with
    | refl => exact ⟨entries,.refl,.inl other⟩
    | @head v w child _ ih =>
      have inner := ih (plain_child plain child)
      by_cases map : ∀ entries,v ≠ .map entries
      · exact fails_child (.child child map) inner
      obtain ⟨entries,rfl⟩ : ∃ entries,v = .map entries := by simpa using map
      obtain ⟨key,listed⟩ := child_map.mp child
      obtain ⟨before,after,rfl⟩ := List.append_of_mem listed
      have here := plain _ .refl
      cases key with
      | none => exact ⟨_,.refl,.inl (by simp [OtherKey])⟩
      | some key =>
        refine fails_child (.entry ?_ (becomes_plain here key)) inner
        rintro rfl
        exact here (by simp [ProtoKey])

/-- The portable format loses nothing, and throws for keys that are no texts only, exactly when no Map has an entry under `__proto__`, or one
    that is met on the way is not written anyway and some Map has a key that is no text. -/
theorem portable_iff (runtime : Runtime) (value : Value) :
    ((stringify runtime value = .error .typeError ↔ HasOtherKey value) ∧
      ∀ text,stringify runtime value = .ok text → parse text = some (image runtime value)) ↔
    Plain value ∨ HasOtherKey value ∧ Fails runtime value := by
  have throws : stringify runtime value = .error .typeError ↔ Fails runtime value := map_throws.trans (throws_iff value)
  have read : ∀ text,stringify runtime value = .ok text → (parse text = some (image runtime value) ↔ Plain value) := by
    intro text done
    obtain ⟨j,written,rfl⟩ := map_ok done
    rw [parse,read_stringify,Option.some.injEq,written_iff value j written]
  constructor
  · rintro ⟨thrown,kept⟩
    by_cases other : HasOtherKey value
    · exact .inr ⟨other,throws.mp (thrown.mpr other)⟩
    · cases done : stringify runtime value with
      | error failure => exact absurd (thrown.mp done) other
      | ok text => exact .inl ((read text done).mp (kept text done))
  · rintro (plain | ⟨other,fails⟩)
    · exact ⟨throws.trans (plain_fails plain),fun text done => (read text done).mpr plain⟩
    · refine ⟨iff_of_true (throws.mpr fails) other,fun text done => ?_⟩
      rw [throws.mpr fails] at done
      cases done

end

/-- A prototype is asked for `size` by Maps and Sets only. -/
def plainRuntime : Runtime where
  toISOString _ := "1970-01-01T00:00:00.000Z"
  inherits proto key :=
    match proto with
    | .map _ => if key = "size" then .refused else .own
    | .set _ => if key = "size" then .refused else .own
    | _ => .own

/-- A Map with an entry under `__proto__`, which is lost without a trace. -/
def lossy : Value := .map [(some "a",.boolean true),(some "__proto__",.string "b")]

theorem lossy_stringify :
    stringify plainRuntime lossy = .ok "\x7b\"a\":true\x7d" ∧ parse "\x7b\"a\":true\x7d" ≠ some (image plainRuntime lossy) ∧
      ¬ HasOtherKey lossy := by
  have written : serializeProperty plainRuntime lossy = .ok (.object [("a",.boolean true)]) := rfl
  have text : stringify plainRuntime lossy = .ok (Json.object [("a",.boolean true)]).stringify := by rw [stringify,written]; rfl
  have shown : (Json.object [("a",.boolean true)]).stringify = "\x7b\"a\":true\x7d" := by decide
  have special : ¬ Plain lossy := fun plain => plain _ .refl (by simp [ProtoKey])
  refine ⟨text.trans (congrArg _ shown),?_,?_⟩
  · rw [← shown,parse,read_stringify,ne_eq,Option.some.injEq,written_iff lossy _ written]
    exact special
  · rintro ⟨entries,path,other⟩
    rcases Relation.ReflTransGen.cases_head path with same | ⟨w,child,path⟩
    · cases same
      simp [OtherKey] at other
    · obtain ⟨key,listed⟩ := child_map.mp child
      have atoms : w = .boolean true ∨ w = .string "b" := by
        simp only [List.mem_cons,List.not_mem_nil,or_false,Prod.mk.injEq] at listed
        rcases listed with ⟨_,boolean⟩ | ⟨_,text⟩
        · exact .inl boolean
        · exact .inr text
      rcases Relation.ReflTransGen.cases_head path with rfl | ⟨x,below,_⟩
      · simp at atoms
      · rcases atoms with rfl | rfl <;> cases below

end Dbos.PortableJson
