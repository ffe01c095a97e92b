import Dbos.Js.JsonReader

/-!
The two formats that `DBOSJSON.parse` of `src/serialization.ts` reads: what `DBOSJSONLegacy` has written, and what superjson has written
with the brand of DBOS. The brand is looked for in the text, and then in the value that the text has.
-/
namespace Dbos.LegacyFormat
open Dbos.Js

/-! ### Values -/

/-- Values of JSON, dates, big integers and buffers. An invalid date has no time. -/
inductive Value
  | null
  | boolean (b : Bool)
  | number (n : NumberText)
  | string (s : String)
  | array (items : List Value)
  | object (members : List (String × Value))
  | date (time : Option Int)
  | bigint (n : Int)
  | buffer (bytes : List UInt8)

mutual
/-- No object has two members under one key. -/
def Value.Proper : Value → Prop
  | .array items => ItemsProper items
  | .object members => MembersProper members ∧ (members.map Prod.fst).Nodup
  | _ => True

def ItemsProper : List Value → Prop
  | [] => True
  | item :: rest => item.Proper ∧ ItemsProper rest

def MembersProper : List (String × Value) → Prop
  | [] => True
  | (_,value) :: rest => value.Proper ∧ MembersProper rest
end

def Value.member (key : String) : Value → Option Value
  | .object members => members.lookup key
  | _ => none

mutual
/-- The value of a text of JSON. -/
def plain : Json → Value
  | .null => .null
  | .boolean b => .boolean b
  | .number n => .number n
  | .string s => .string s
  | .array items => .array (plainItems items)
  | .object members => .object (plainMembers members)

def plainItems : List Json → List Value
  | [] => []
  | item :: rest => plain item :: plainItems rest

def plainMembers : List (String × Json) → List (String × Value)
  | [] => []
  | (key,value) :: rest => (key,plain value) :: plainMembers rest
end

inductive Thrown
  | rangeError
  | syntaxError
  | typeError

/-- A record without annotations: superjson leaves its JSON as it is. -/
def Unannotated (annotations : Option Json) : Prop :=
  ∀ meta_ ∈ annotations,meta_.member "values" = none ∧ meta_.member "referentialEqualities" = none

/-- JavaScript and superjson, with all the values `W` that superjson may have. The functions that read dates, big integers and buffers are
    given the member of a record, which may be missing. -/
structure Library (W : Type) where
  parse : String → Except Thrown Json
  toISOString : Int → String
  dateParse : Option Value → Option Int
  bigInt : Option Value → Except Thrown Int
  bufferFrom : Option Value → Except Thrown (List UInt8)
  embed : Value → W
  serialize : W → Except Thrown (Json × Option Json)
  deserialize : Json → Option Json → Except Thrown W
  parse_stringify : ∀ j : Json,j.Proper → parse j.stringify = .ok j
  embed_injective : Function.Injective embed
  serialize_proper : ∀ w json annotations,serialize w = .ok (json,annotations) → json.Proper ∧ ∀ meta_ ∈ annotations,meta_.Proper
  deserialize_plain : ∀ json annotations,Unannotated annotations → deserialize json annotations = .ok (embed (plain json))

theorem bind_ok {α β : Type} {source : Except Thrown α} {continuation : α → Except Thrown β} {result : β}
    (done : (source >>= continuation) = .ok result) : ∃ value,source = .ok value ∧ continuation value = .ok result := by
  cases source with
  | error thrown => cases done
  | ok value => exact ⟨value,rfl,done⟩

theorem map_ok {α β : Type} {source : Except Thrown α} {f : α → β} {result : β} (done : source.map f = .ok result) :
    ∃ value,source = .ok value ∧ f value = result := by
  cases source with
  | error thrown => cases done
  | ok value => exact ⟨value,rfl,Except.ok.inj done⟩

section
variable {W : Type} (library : Library W)

/-- `superjson.deserialize(superjson.serialize(w))` is `w`. -/
def Library.RoundTrips (w : W) : Prop :=
  ∃ json annotations,library.serialize w = .ok (json,annotations) ∧ library.deserialize json annotations = .ok w

/-! ### DBOSJSONLegacy -/

def ofNat (n : Nat) : NumberText where
  chars := Nat.toDigits 10 n
  some_ := Nat.toDigits_ne_nil
  literal c listed := by
    unfold isNumberChar
    rw [Nat.isDigit_of_mem_toDigits (by decide) (by decide) listed]
    rfl

mutual
/-- What `JSON.stringify` writes with `DBOSReplacer`. A buffer has made a record of itself before. -/
def replaced : Value → Except Thrown Json
  | .null => .ok .null
  | .boolean b => .ok (.boolean b)
  | .number n => .ok (.number n)
  | .string s => .ok (.string s)
  | .array items => (replacedItems items).map .array
  | .object members => (replacedMembers members).map .object
  | .date (some time) => .ok (.object [("dbos_type",.string "dbos_Date"),("dbos_data",.string (library.toISOString time))])
  | .date none => .error .rangeError
  | .bigint n => .ok (.object [("dbos_type",.string "dbos_BigInt"),("dbos_data",.string (toString n))])
  | .buffer bytes => .ok (.object [("type",.string "Buffer"),("data",.array (bytes.map fun byte => .number (ofNat byte.toNat)))])

def replacedItems : List Value → Except Thrown (List Json)
  | [] => .ok []
  | item :: rest => do
    let item ← replaced item
    let rest ← replacedItems rest
    return item :: rest

def replacedMembers : List (String × Value) → Except Thrown (List (String × Json))
  | [] => .ok []
  | (key,value) :: rest => do
    let value ← replaced value
    let rest ← replacedMembers rest
    return (key,value) :: rest
end

/-- The member is a text. -/
def Value.says (key text : String) (value : Value) : Bool :=
  match value.member key with
  | some (.string s) => s = text
  | _ => false

def isSerializedBuffer (value : Value) : Bool := value.says "type" "Buffer"

def isSerializedDate (value : Value) : Bool := value.says "dbos_type" "dbos_Date"

def isSerializedBigInt (value : Value) : Bool := value.says "dbos_type" "dbos_BigInt"

def DBOSReviver (value : Value) : Except Thrown Value :=
  if isSerializedBuffer value then (library.bufferFrom (value.member "data")).map .buffer
  else if isSerializedDate value then .ok (.date (library.dateParse (value.member "dbos_data")))
  else if isSerializedBigInt value then (library.bigInt (value.member "dbos_data")).map .bigint
  else .ok value

mutual
/-- `JSON.parse` gives `DBOSReviver` the members before the value that has them. -/
def revived : Json → Except Thrown Value
  | .array items => do
    let items ← revivedItems items
    DBOSReviver library (.array items)
  | .object members => do
    let members ← revivedMembers members
    DBOSReviver library (.object members)
  | j => DBOSReviver library (plain j)

def revivedItems : List Json → Except Thrown (List Value)
  | [] => .ok []
  | item :: rest => do
    let item ← revived item
    let rest ← revivedItems rest
    return item :: rest

def revivedMembers : List (String × Json) → Except Thrown (List (String × Value))
  | [] => .ok []
  | (key,value) :: rest => do
    let value ← revived value
    let rest ← revivedMembers rest
    return (key,value) :: rest
end

namespace DBOSJSONLegacy

def parse : Option String → Except Thrown Value
  | none => .ok .null
  | some text => do
    let j ← library.parse text
    revived library j

def stringify (value : Value) : Except Thrown String := (replaced library value).map Json.stringify

end DBOSJSONLegacy

/-! ### DBOSJSON -/

def SERIALIZER_MARKER_KEY : String := "__dbos_serializer"

def SERIALIZER_MARKER_VALUE : String := "superjson"

def SERIALIZER_MARKER_STRING : String := "\"" ++ SERIALIZER_MARKER_KEY ++ "\":\"" ++ SERIALIZER_MARKER_VALUE ++ "\""

def isDBOSBrandedSuperjsonRecord (obj : Json) : Bool :=
  (match obj.member SERIALIZER_MARKER_KEY with
    | some (.string s) => s = SERIALIZER_MARKER_VALUE
    | _ => false) && (obj.member "json").isSome

/-- The record that superjson has made, with the brand. -/
def brandedRecord (json : Json) (annotations : Option Json) : Json :=
  .object (("json",json) :: (annotations.map fun meta_ => ("meta",meta_)).toList ++ [(SERIALIZER_MARKER_KEY,.string SERIALIZER_MARKER_VALUE)])

/-- `superjson.deserialize`. -/
def deserialized (record : Json) : Except Thrown W := library.deserialize ((record.member "json").getD .null) (record.member "meta")

namespace DBOSJSON

def parse : Option String → Except Thrown W
  | none => .ok (library.embed .null)
  | some text =>
    let legacy := (DBOSJSONLegacy.parse library (some text)).map library.embed
    if includes text SERIALIZER_MARKER_STRING then
      match library.parse text with
      | .error thrown => .error thrown
      | .ok vanillaParsed => if isDBOSBrandedSuperjsonRecord vanillaParsed then deserialized library vanillaParsed else legacy
    else legacy

/-- `sjstringify`. -/
def stringify (value : W) : Except Thrown String := do
  let (json,annotations) ← library.serialize value
  return (brandedRecord json annotations).stringify

end DBOSJSON

/-- A value that has no annotations for superjson. -/
def Value.Unannotated (value : Value) : Prop :=
  ∀ meta_ ∈ value.member "meta",meta_.member "values" = none ∧ meta_.member "referentialEqualities" = none

/-- A value that has the shape of a branded record. -/
def Value.branded (value : Value) : Bool := value.says SERIALIZER_MARKER_KEY SERIALIZER_MARKER_VALUE && (value.member "json").isSome

variable {library}

/-! ### Members -/

theorem plain_lookup (members : List (String × Json)) (key : String) :
    (plainMembers members).lookup key = (members.lookup key).map plain := by
  induction members with
  | nil => rfl
  | cons first rest ih =>
    obtain ⟨name,value⟩ := first
    unfold plainMembers
    rw [List.lookup_cons,List.lookup_cons,ih]
    cases key == name <;> rfl

/-- The members are revived one by one. -/
theorem revived_lookup {members : List (String × Json)} {values : List (String × Value)} (done : revivedMembers library members = .ok values)
    {key : String} {j : Json} (found : members.lookup key = some j) : ∃ value,values.lookup key = some value ∧ revived library j = .ok value := by
  induction members generalizing values with
  | nil => cases found
  | cons first rest ih =>
    obtain ⟨name,first⟩ := first
    obtain ⟨value,here,done⟩ := bind_ok done
    obtain ⟨others,later,done⟩ := bind_ok done
    cases Except.ok.inj done
    rw [List.lookup_cons] at found ⊢
    cases same : key == name with
    | true =>
      rw [same] at found
      cases found
      exact ⟨value,rfl,here⟩
    | false =>
      rw [same] at found
      exact ih later found

theorem replaced_lookup {members : List (String × Value)} {js : List (String × Json)} (done : replacedMembers library members = .ok js)
    (key : String) : (members.lookup key = none ∧ js.lookup key = none) ∨
      ∃ value j,members.lookup key = some value ∧ js.lookup key = some j ∧ replaced library value = .ok j := by
  induction members generalizing js with
  | nil =>
    cases done
    exact .inl ⟨rfl,rfl⟩
  | cons first rest ih =>
    obtain ⟨name,first⟩ := first
    obtain ⟨j,here,done⟩ := bind_ok done
    obtain ⟨others,later,done⟩ := bind_ok done
    cases Except.ok.inj done
    rw [List.lookup_cons,List.lookup_cons]
    cases key == name with
    | true => exact .inr ⟨first,j,rfl,rfl,here⟩
    | false => exact ih later

theorem replaced_keys {members : List (String × Value)} {js : List (String × Json)} (done : replacedMembers library members = .ok js) :
    js.map Prod.fst = members.map Prod.fst := by
  induction members generalizing js with
  | nil =>
    cases done
    rfl
  | cons first rest ih =>
    obtain ⟨name,first⟩ := first
    obtain ⟨j,here,done⟩ := bind_ok done
    obtain ⟨others,later,done⟩ := bind_ok done
    cases Except.ok.inj done
    rw [List.map_cons,List.map_cons,ih later]

theorem bytes_proper (bytes : List UInt8) : Js.ItemsProper (bytes.map fun byte => .number (ofNat byte.toNat)) := by
  induction bytes with
  | nil => trivial
  | cons byte rest ih => exact ⟨trivial,ih⟩

mutual
/-- Distinct keys are written as distinct keys. -/
theorem replaced_proper (value : Value) {j : Json} (proper : value.Proper) (done : replaced library value = .ok j) : j.Proper := by
  match value with
  | .null | .boolean _ | .number _ | .string _ =>
    cases done
    trivial
  | .array items =>
    obtain ⟨js,items_,rfl⟩ := map_ok done
    exact replacedItems_proper items proper items_
  | .object members =>
    obtain ⟨js,members_,rfl⟩ := map_ok done
    refine ⟨replacedMembers_proper members proper.1 members_,?_⟩
    rw [replaced_keys members_]
    exact proper.2
  | .date (some _) | .bigint _ =>
    cases done
    exact ⟨⟨trivial,trivial,trivial⟩,by simp⟩
  | .date none => cases done
  | .buffer bytes =>
    cases done
    exact ⟨⟨trivial,bytes_proper bytes,trivial⟩,by simp⟩

theorem replacedItems_proper (items : List Value) {js : List Json} (proper : ItemsProper items) (done : replacedItems library items = .ok js) :
    Js.ItemsProper js := by
  match items with
  | [] =>
    cases done
    trivial
  | item :: rest =>
    obtain ⟨j,here,done⟩ := bind_ok done
    obtain ⟨others,later,done⟩ := bind_ok done
    cases Except.ok.inj done
    exact ⟨replaced_proper item proper.1 here,replacedItems_proper rest proper.2 later⟩

theorem replacedMembers_proper (members : List (String × Value)) {js : List (String × Json)} (proper : MembersProper members)
    (done : replacedMembers library members = .ok js) : Js.MembersProper js := by
  match members with
  | [] =>
    cases done
    trivial
  | (name,value) :: rest =>
    obtain ⟨j,here,done⟩ := bind_ok done
    obtain ⟨others,later,done⟩ := bind_ok done
    cases Except.ok.inj done
    exact ⟨replaced_proper value proper.1 here,replacedMembers_proper rest proper.2 later⟩
end

/-! ### Branded records -/

theorem branded_json {j : Json} : isDBOSBrandedSuperjsonRecord j = true ↔
    j.member SERIALIZER_MARKER_KEY = some (.string SERIALIZER_MARKER_VALUE) ∧ ∃ inner,j.member "json" = some inner := by
  unfold isDBOSBrandedSuperjsonRecord
  rw [Bool.and_eq_true,Option.isSome_iff_exists]
  refine and_congr_left' ?_
  split
  · next s found => rw [found]; simp
  · next other =>
    constructor
    · intro absurd_
      cases absurd_
    · intro found
      exact absurd found (other _)

theorem says_iff {key text : String} {value : Value} : value.says key text = true ↔ value.member key = some (.string text) := by
  unfold Value.says
  split
  · next s found => rw [found]; simp
  · next other =>
    constructor
    · intro absurd_
      cases absurd_
    · intro found
      exact absurd found (other _)

/-- Nothing but a text is written as a text. -/
theorem replaced_string {value : Value} {s : String} (done : replaced library value = .ok (.string s)) : value = .string s := by
  match value with
  | .string _ =>
    cases done
    rfl
  | .array items | .object items =>
    obtain ⟨js,-,other⟩ := map_ok done
    cases other
  | .null | .boolean _ | .number _ | .bigint _ | .buffer _ | .date none | .date (some _) => cases done

/-- A value is written as a branded record just where it has the shape of one. -/
theorem branded_replaced {value : Value} {j : Json} (done : replaced library value = .ok j) :
    isDBOSBrandedSuperjsonRecord j = value.branded := by
  match value with
  | .object members =>
    obtain ⟨js,members_,rfl⟩ := map_ok done
    rw [Bool.eq_iff_iff,branded_json,Value.branded,Bool.and_eq_true,says_iff,Option.isSome_iff_exists]
    refine and_congr ?_ ?_
    · rcases replaced_lookup members_ SERIALIZER_MARKER_KEY with ⟨none_,none_'⟩ | ⟨found,j,here,there,written⟩
      · simp only [Json.member,Value.member,none_,none_']
        simp
      · simp only [Json.member,Value.member,here,there,Option.some.injEq]
        constructor
        · intro text
          exact replaced_string (written.trans (congrArg Except.ok text))
        · intro text
          rw [text] at written
          exact (Except.ok.inj written).symm
    · rcases replaced_lookup members_ "json" with ⟨none_,none_'⟩ | ⟨found,j,here,there,written⟩
      · simp only [Json.member,Value.member,none_,none_']
        simp
      · simp only [Json.member,Value.member,here,there]
        simp
  | .array items =>
    obtain ⟨js,-,rfl⟩ := map_ok done
    rfl
  | .null | .boolean _ | .number _ | .string _ | .bigint _ | .buffer _ | .date (some _) =>
    cases done
    rfl
  | .date none => cases done

theorem marker_text : SERIALIZER_MARKER_STRING =
    String.ofList (quote SERIALIZER_MARKER_KEY ++ ':' :: (Json.string SERIALIZER_MARKER_VALUE).text) := by
  have text : SERIALIZER_MARKER_STRING.toList = quote SERIALIZER_MARKER_KEY ++ ':' :: (Json.string SERIALIZER_MARKER_VALUE).text := by decide
  rw [← text,String.ofList_toList]

theorem lookup_listed {α : Type} {members : List (String × α)} {key : String} {value : α} (found : members.lookup key = some value) :
    (key,value) ∈ members := by
  obtain ⟨before,after,rfl,-⟩ := List.lookup_eq_some_iff.mp found
  exact List.mem_append_right before List.mem_cons_self

/-- The text of a branded record has the marker. -/
theorem branded_includes {j : Json} (branded : isDBOSBrandedSuperjsonRecord j = true) : includes j.stringify SERIALIZER_MARKER_STRING = true := by
  obtain ⟨marker,-⟩ := branded_json.mp branded
  match j with
  | .object members =>
    rw [marker_text]
    exact stringify_includes (lookup_listed marker)

/-- What `DBOSJSON` reads of a text of `JSON.stringify`: a branded record is for superjson, whatever has the marker else is not. -/
theorem parse_stringify {j : Json} (proper : j.Proper) : DBOSJSON.parse library (some j.stringify) =
    if isDBOSBrandedSuperjsonRecord j then deserialized library j else (DBOSJSONLegacy.parse library (some j.stringify)).map library.embed := by
  unfold DBOSJSON.parse
  by_cases branded : isDBOSBrandedSuperjsonRecord j = true
  · simp only [branded_includes branded,library.parse_stringify j proper,branded,if_true]
  · by_cases marker : includes j.stringify SERIALIZER_MARKER_STRING = true
    · simp only [marker,library.parse_stringify j proper,branded,if_true]
    · simp only [marker,branded,Bool.false_eq_true,if_false]

/-- Only the records of dates, big integers and buffers have members that the value has not. -/
theorem member_replaced {value : Value} {j : Json} (done : replaced library value = .ok j) {key : String}
    (other : key ∉ ["dbos_type","dbos_data","type","data"]) (missing : value.member key = none) : j.member key = none := by
  simp only [List.mem_cons,List.not_mem_nil,or_false,not_or] at other
  obtain ⟨date_type,date_data,buffer_type,buffer_data⟩ := other
  match value with
  | .object members =>
    obtain ⟨js,members_,rfl⟩ := map_ok done
    rcases replaced_lookup members_ key with ⟨-,none_⟩ | ⟨found,j,here,-,-⟩
    · exact none_
    · exact absurd (here.symm.trans missing) nofun
  | .array items =>
    obtain ⟨js,-,rfl⟩ := map_ok done
    rfl
  | .date (some _) | .bigint _ | .buffer _ =>
    cases done
    simp only [Json.member,List.lookup_cons,List.lookup_nil,beq_false_of_ne date_type,beq_false_of_ne date_data,beq_false_of_ne buffer_type,
      beq_false_of_ne buffer_data]
  | .null | .boolean _ | .number _ | .string _ =>
    cases done
    rfl
  | .date none => cases done

theorem unannotated_replaced {value : Value} {j : Json} (done : replaced library value = .ok j) (unannotated : value.Unannotated) :
    Unannotated (j.member "meta") := by
  intro meta_ there
  match value with
  | .object members =>
    obtain ⟨js,members_,rfl⟩ := map_ok done
    rcases replaced_lookup members_ "meta" with ⟨-,none_⟩ | ⟨found,j,here,there',written⟩
    · exact absurd (none_.symm.trans there) nofun
    · cases there'.symm.trans there
      obtain ⟨values,equalities⟩ := unannotated found here
      exact ⟨member_replaced written (by decide) values,member_replaced written (by decide) equalities⟩
  | .array _ | .null | .boolean _ | .number _ | .string _ | .bigint _ | .buffer _ | .date _ =>
    rw [member_replaced done (by decide) rfl] at there
    cases there

/-! ### Branded values are read in two ways -/

/-- What a reader without a reviver makes of a record is not revived. -/
theorem reviver_object {members : List (String × Value)} {j : Json} (done : DBOSReviver library (.object members) = .ok (plain j)) :
    plain j = .object members := by
  unfold DBOSReviver at done
  split_ifs at done
  · obtain ⟨bytes,-,buffer⟩ := map_ok done
    cases j <;> cases buffer
  · cases j <;> cases Except.ok.inj done
  · obtain ⟨n,-,bigint⟩ := map_ok done
    cases j <;> cases bigint
  · exact (Except.ok.inj done).symm

/-- The reviver leaves a branded record as a record, and superjson takes out its `json`: one would have to lie in the other for ever. -/
theorem revived_ne_plain (inner : Json) {record : Json} (branded : isDBOSBrandedSuperjsonRecord record = true)
    (has : record.member "json" = some inner) : revived library record ≠ .ok (plain inner) := by
  intro same
  induction size : sizeOf inner using Nat.strong_induction_on generalizing inner record with | _ n ih
  subst size
  obtain ⟨marker,-⟩ := branded_json.mp branded
  match record with
  | .object members =>
    obtain ⟨values,members_,done⟩ := bind_ok same
    have object := reviver_object done
    obtain ⟨inside,insideFound,insideRevived⟩ := revived_lookup members_ has
    obtain ⟨text,textFound,textRevived⟩ := revived_lookup members_ marker
    match inner with
    | .object js =>
      have values_ : values = plainMembers js := (Value.object.inj object).symm
      rw [values_,plain_lookup,Option.map_eq_some_iff] at insideFound textFound
      obtain ⟨inner',found,rfl⟩ := insideFound
      obtain ⟨text',there,rfl⟩ := textFound
      have text_ : text' = .string SERIALIZER_MARKER_VALUE := by
        have revived_ : plain text' = .string SERIALIZER_MARKER_VALUE := (Except.ok.inj textRevived).symm
        cases text' <;> cases revived_
        rfl
      rw [text_] at there
      have smaller : sizeOf inner' < sizeOf (Json.object js) := by
        have member := List.sizeOf_lt_of_mem (lookup_listed found)
        simp only [Prod.mk.sizeOf_spec] at member
        simp only [Json.object.sizeOf_spec]
        omega
      have branded_ : isDBOSBrandedSuperjsonRecord (.object js) = true := branded_json.mpr ⟨there,inner',found⟩
      exact ih _ smaller inner' branded_ found insideRevived rfl

/-- A branded record without annotations is read in two ways. -/
theorem branded_differs {j : Json} (proper : j.Proper) (branded : isDBOSBrandedSuperjsonRecord j = true)
    (unannotated : Unannotated (j.member "meta")) :
    DBOSJSON.parse library (some j.stringify) ≠ (DBOSJSONLegacy.parse library (some j.stringify)).map library.embed := by
  obtain ⟨-,inner,has⟩ := branded_json.mp branded
  intro same
  have read : DBOSJSON.parse library (some j.stringify) = .ok (library.embed (plain inner)) := by
    rw [parse_stringify proper,if_pos branded]
    unfold deserialized
    rw [has,Option.getD_some]
    exact library.deserialize_plain _ _ unannotated
  obtain ⟨value,legacy,embedded⟩ := map_ok (same.symm.trans read)
  have revived_ : revived library j = .ok value := by
    unfold DBOSJSONLegacy.parse at legacy
    dsimp only at legacy
    rw [library.parse_stringify j proper] at legacy
    exact legacy
  rw [library.embed_injective embedded] at revived_
  exact revived_ne_plain inner branded has revived_

/-- What superjson has written is read by superjson. -/
theorem superjson_reads {w : W} (roundTrips : library.RoundTrips w) :
    ∃ text,DBOSJSON.stringify library w = .ok text ∧ DBOSJSON.parse library (some text) = .ok w := by
  obtain ⟨json,annotations,serialized,back⟩ := roundTrips
  obtain ⟨json_proper,annotations_proper⟩ := library.serialize_proper w json annotations serialized
  have written : DBOSJSON.stringify library w = .ok (brandedRecord json annotations).stringify := by
    unfold DBOSJSON.stringify
    rw [serialized]
    rfl
  refine ⟨_,written,?_⟩
  cases annotations with
  | none =>
    have proper : (brandedRecord json none).Proper := ⟨⟨json_proper,trivial,trivial⟩,by simp; decide⟩
    rw [parse_stringify proper]
    exact back
  | some meta_ =>
    have proper : (brandedRecord json (some meta_)).Proper := ⟨⟨json_proper,annotations_proper meta_ rfl,trivial,trivial⟩,by simp; decide⟩
    rw [parse_stringify proper]
    exact back

end

/-! ### A library -/

/-- JSON, and a superjson that writes what JSON has but arrays and objects. -/
def library : Library Value where
  parse text := match Json.read text with
    | some j => .ok j
    | none => .error .syntaxError
  toISOString _ := "1970-01-01T00:00:00.000Z"
  dateParse
    | some (.string "1970-01-01T00:00:00.000Z") => some 0
    | _ => none
  bigInt
    | some (.string s) => match s.toInt? with
      | some n => .ok n
      | none => .error .syntaxError
    | _ => .error .typeError
  bufferFrom
    | some (.array []) => .ok []
    | _ => .error .typeError
  embed value := value
  serialize
    | .null => .ok (.null,none)
    | .boolean b => .ok (.boolean b,none)
    | .number n => .ok (.number n,none)
    | .string s => .ok (.string s,none)
    | _ => .error .typeError
  deserialize json _ := .ok (plain json)
  parse_stringify j _ := by simp only [read_stringify]
  embed_injective _ _ same := same
  serialize_proper := by
    intro w json annotations serialized
    split at serialized <;> cases serialized <;> exact ⟨trivial,fun _ none_ => nomatch none_⟩
  deserialize_plain _ _ _ := rfl

/-- A record that somebody has stored. -/
def stored : Value := .object [("json",.number (ofNat 1)),(SERIALIZER_MARKER_KEY,.string SERIALIZER_MARKER_VALUE)]

/-! ### Two formats, one reader -/

/-- `DBOSJSON` reads a legacy text as `DBOSJSONLegacy` does just where the value has not the shape of a branded record: this is enough for every
    value, and needed where superjson has nothing to annotate. What superjson has written it reads back, whatever the value. -/
theorem formats_distinguished {W : Type} (library : Library W) :
    (∀ value text,value.Proper → DBOSJSONLegacy.stringify library value = .ok text →
      (value.branded = false → DBOSJSON.parse library (some text) = (DBOSJSONLegacy.parse library (some text)).map library.embed) ∧
      (value.Unannotated →
        (DBOSJSON.parse library (some text) = (DBOSJSONLegacy.parse library (some text)).map library.embed ↔ value.branded = false))) ∧
    ∀ w,library.RoundTrips w → ∃ text,DBOSJSON.stringify library w = .ok text ∧ DBOSJSON.parse library (some text) = .ok w := by
  refine ⟨?_,fun w => superjson_reads⟩
  intro value text proper written
  obtain ⟨j,replaced_,rfl⟩ := map_ok written
  have proper_ := replaced_proper value proper replaced_
  have enough : value.branded = false →
      DBOSJSON.parse library (some j.stringify) = (DBOSJSONLegacy.parse library (some j.stringify)).map library.embed := by
    intro other
    rw [parse_stringify proper_,branded_replaced replaced_,other]
    rfl
  refine ⟨enough,fun unannotated => ⟨fun same => ?_,enough⟩⟩
  by_contra branded
  rw [Bool.not_eq_false,← branded_replaced replaced_] at branded
  exact branded_differs proper_ branded (unannotated_replaced replaced_ unannotated) same

/-- A record without the marker is read in one way. -/
theorem unmarked_agrees : ∃ text,DBOSJSONLegacy.stringify library (.object [("json",.number (ofNat 1))]) = .ok text ∧
    DBOSJSON.parse library (some text) = (DBOSJSONLegacy.parse library (some text)).map library.embed := by
  have proper : (Value.object [("json",.number (ofNat 1))]).Proper := ⟨⟨trivial,trivial⟩,by decide⟩
  obtain ⟨legacy,-⟩ := formats_distinguished library
  exact ⟨_,rfl,(legacy _ _ proper rfl).1 (by decide)⟩

/-- The text of the stored record is read as the text of its `json`. -/
theorem stored_misread :
    (∃ text,DBOSJSONLegacy.stringify library stored = .ok text ∧ DBOSJSONLegacy.parse library (some text) = .ok stored ∧
      DBOSJSON.parse library (some text) = .ok (.number (ofNat 1))) ∧
    ¬ ∀ value text,value.Proper → DBOSJSONLegacy.stringify library value = .ok text →
      DBOSJSON.parse library (some text) = (DBOSJSONLegacy.parse library (some text)).map library.embed := by
  let record : Json := .object [("json",.number (ofNat 1)),(SERIALIZER_MARKER_KEY,.string SERIALIZER_MARKER_VALUE)]
  have proper : record.Proper := ⟨⟨trivial,trivial,trivial⟩,by decide⟩
  have written : DBOSJSONLegacy.stringify library stored = .ok record.stringify := rfl
  have legacy : DBOSJSONLegacy.parse library (some record.stringify) = .ok stored := by
    unfold DBOSJSONLegacy.parse
    dsimp only
    rw [library.parse_stringify record proper]
    rfl
  have branded : DBOSJSON.parse library (some record.stringify) = .ok (.number (ofNat 1)) := by
    rw [parse_stringify proper]
    rfl
  refine ⟨⟨_,written,legacy,branded⟩,?_⟩
  intro all
  have same := all stored _ ⟨⟨trivial,trivial,trivial⟩,by decide⟩ written
  rw [branded,legacy] at same
  cases same

end Dbos.LegacyFormat
