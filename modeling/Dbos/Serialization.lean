import Mathlib.Data.Option.Basic

/-!
Values as text: `src/serialization.ts`. Beside the text goes the name of the serializer that has written it. Two serializers are known
to everybody, and each executor is configured with a default one.
-/
namespace Dbos.Serialization

/-- `undefined` is `none`. -/
inductive WorkflowSerializationFormat
  | native
  | portable
  deriving DecidableEq

inductive Thrown (Value : Type)
  | typeError (message : String)
  | error (value : Value)

structure DBOSSerializer (Value : Type) where
  name : String
  stringify : Value → Except (Thrown Value) String
  parse : Option String → Except (Thrown Value) Value

def DBOSSerializer.RoundTrips {Value : Type} (serializer : DBOSSerializer Value) : Prop :=
  ∀ value text, serializer.stringify value = .ok text → serializer.parse (some text) = .ok value

/-- The serializer that an executor is configured with. -/
structure DefaultSerializer (Value : Type) extends DBOSSerializer Value where
  roundTrips : toDBOSSerializer.RoundTrips

/-- The serializers that every executor has, and the objects of JavaScript, JSON and `serialize-error` that go through them. `image` is
    what portable JSON leaves of a value. -/
structure Formats (Value : Type) where
  DBOSPortableJSON : DBOSSerializer Value
  DBOSJSON : DBOSSerializer Value
  undefined : Value
  null : Value
  array : List Value → Value
  isObjectish : Value → Bool
  attachFunctionStubs : Value → Value → Value
  jsonWorkflowArgs : Option (List Value) → Option Value → Value
  positionalArgs : Value → Except (Thrown Value) Value
  jsonWorkflowErrorData : Value → Value
  portableWorkflowError : Value → Value
  serializeError : Value → Value
  deserializeError : Value → Value
  image : Value → Value
  portable_name : DBOSPortableJSON.name = "portable_json"
  native_name : DBOSJSON.name = "js_superjson"
  portable_image : ∀ value text, DBOSPortableJSON.stringify value = .ok text → DBOSPortableJSON.parse (some text) = .ok (image value)
  native_roundTrips : DBOSJSON.RoundTrips
  image_undefined : ∃ text, DBOSPortableJSON.stringify undefined = .ok text ∧ image undefined ≠ undefined
  image_array : ∀ args, image (array args) = array [] ↔ args = []
  positionalArgs_args : ∀ args named, positionalArgs (image (jsonWorkflowArgs args named)) = .ok (image (array (args.getD [])))
  positionalArgs_array : ∀ args, positionalArgs (image (array args)) = .ok (array [])

section
variable {Value : Type} (formats : Formats Value)

/-! ### Serializers by name -/

/-- `!serialization`. -/
def isFalsy (serialization : Option String) : Bool := serialization = none ∨ serialization = some ""

/-- The serializer for a name: a format that everybody has, or else the default one. -/
def Formats.serializerFor (unavailable : String → String) (serialization : Option String) (serializer : DBOSSerializer Value) :
    Except (Thrown Value) (DBOSSerializer Value) :=
  if serialization = some formats.DBOSPortableJSON.name then .ok formats.DBOSPortableJSON
  else if serialization = some formats.DBOSJSON.name then .ok formats.DBOSJSON
  else if isFalsy serialization ∨ serialization = some serializer.name then .ok serializer
  else .error (.typeError (unavailable (serialization.getD "")))

def Formats.formatName (serializationType : Option WorkflowSerializationFormat) (serializer : DBOSSerializer Value) : String :=
  match serializationType with
  | some .portable => formats.DBOSPortableJSON.name
  | some .native => formats.DBOSJSON.name
  | none => serializer.name

def Formats.formatSerializer (serializationFormat : Option WorkflowSerializationFormat) (serializer : DBOSSerializer Value) :
    DBOSSerializer Value :=
  match serializationFormat with
  | some .portable => formats.DBOSPortableJSON
  | some .native => formats.DBOSJSON
  | none => serializer

/-! ### Writing -/

structure FunctionInputOutput (Value : Type) where
  deserialized : Value
  stringified : String
  sername : String

/-- A value and its serialization in a row. -/
structure Serialized where
  serializedValue : String
  serialization : Option String
  deriving DecidableEq

def serializeFunctionInputOutputWithSerializer (value : Value) (serializer : DBOSSerializer Value) (serialization : Option String) :
    Except (Thrown Value) (FunctionInputOutput Value) := do
  let ser ← formats.serializerFor (fun required => "Serializer provided (" ++ serializer.name ++
    ") is not compatible with the required serialization (" ++ required ++ ")") serialization serializer
  let stringified ← ser.stringify value
  let deserialized ← ser.parse (some stringified)
  let stubs := (serialization = some formats.DBOSPortableJSON.name ∨ serialization = some formats.DBOSJSON.name ∨
    serializer.name = formats.DBOSJSON.name) ∧ formats.isObjectish deserialized = true
  return ⟨if stubs then formats.attachFunctionStubs value deserialized else deserialized,stringified,ser.name⟩

def serializeFunctionInputOutput (value : Value) (serializer : DBOSSerializer Value)
    (serializationType : Option WorkflowSerializationFormat) : Except (Thrown Value) (FunctionInputOutput Value) :=
  serializeFunctionInputOutputWithSerializer formats value serializer (some (formats.formatName serializationType serializer))

def serializeValue (value : Value) (serializer : DBOSSerializer Value) (serializationFormat : Option WorkflowSerializationFormat) :
    Except (Thrown Value) Serialized := do
  let ser := formats.formatSerializer serializationFormat serializer
  let serializedValue ← ser.stringify value
  return ⟨serializedValue,some ser.name⟩

/-- An array of arguments, which may be undefined. -/
def Formats.ofArgs (positionalArgs : Option (List Value)) : Value := positionalArgs.elim formats.undefined formats.array

def serializeArgs (positionalArgs : Option (List Value)) (namedArgs : Option Value) (serializer : DBOSSerializer Value)
    (serializationFormat : Option WorkflowSerializationFormat) : Except (Thrown Value) Serialized :=
  match serializationFormat with
  | some .portable => do
    let serializedValue ← formats.DBOSPortableJSON.stringify (formats.jsonWorkflowArgs positionalArgs namedArgs)
    return ⟨serializedValue,some formats.DBOSPortableJSON.name⟩
  | other =>
    if namedArgs.isSome then
      .error (.typeError ("Serialization format '" ++ (if other = some .native then "native" else "undefined") ++
        "' does not currently support named args."))
    else serializeValue formats (formats.ofArgs positionalArgs) serializer other

def serializeResErrorWithSerializer (err : Value) (serializer : DBOSSerializer Value) (serialization : Option String) :
    Except (Thrown Value) Serialized :=
  if serialization = some formats.DBOSPortableJSON.name then do
    let serializedValue ← formats.DBOSPortableJSON.stringify (formats.jsonWorkflowErrorData err)
    return ⟨serializedValue,some formats.DBOSPortableJSON.name⟩
  else if serialization = some formats.DBOSJSON.name then do
    let serializedValue ← formats.DBOSJSON.stringify (formats.serializeError err)
    return ⟨serializedValue,some formats.DBOSJSON.name⟩
  else do
    let serializedValue ← serializer.stringify (formats.serializeError err)
    return ⟨serializedValue,some serializer.name⟩

def serializeResError (err : Value) (serializer : DBOSSerializer Value) (serializationType : Option WorkflowSerializationFormat) :
    Except (Thrown Value) Serialized :=
  serializeResErrorWithSerializer formats err serializer (some (formats.formatName serializationType serializer))

/-! ### Reading -/

/-- The serializer that reads a value. -/
def Formats.deserializer (serialization : Option String) (serializer : DBOSSerializer Value) :
    Except (Thrown Value) (DBOSSerializer Value) :=
  formats.serializerFor (fun type_ => "Value deserialization type " ++ type_ ++ " is not available") serialization serializer

def deserializeValue (serializedValue serialization : Option String) (serializer : DBOSSerializer Value) :
    Except (Thrown Value) Value := do
  let ser ← formats.deserializer serialization serializer
  ser.parse serializedValue

def deserializePositionalArgs (serializedValue serialization : Option String) (serializer : DBOSSerializer Value) :
    Except (Thrown Value) Value := do
  let value ← deserializeValue formats serializedValue serialization serializer
  if serialization = some formats.DBOSPortableJSON.name then formats.positionalArgs value else return value

/-- The portable error is thrown, the others are returned. -/
def deserializeResError (serializedValue serialization : Option String) (serializer : DBOSSerializer Value) :
    Except (Thrown Value) Value := do
  let value ← deserializeValue formats serializedValue serialization serializer
  if serialization = some formats.DBOSPortableJSON.name then .error (.error (formats.portableWorkflowError value))
  else return formats.deserializeError value

/-- `rawText` is the text itself as a value. -/
def safeParse (rawText : String → Value) (serializer : DBOSSerializer Value) (val : String) (serialization : Option String) : Value :=
  match deserializeValue formats (some val) serialization serializer with
  | .ok value => value
  | .error _ => rawText val

/-- The serializer that a name stands for where the writer knows no other. -/
def Formats.chosen (serialization : Option String) (serializer : DBOSSerializer Value) : DBOSSerializer Value :=
  if serialization = some formats.DBOSPortableJSON.name then formats.DBOSPortableJSON
  else if serialization = some formats.DBOSJSON.name then formats.DBOSJSON
  else serializer

/-! ### Which serializer it is -/

variable {formats}

theorem bind_ok {α β : Type} {source : Except (Thrown Value) α} {continuation : α → Except (Thrown Value) β} {result : β}
    (done : (source >>= continuation) = .ok result) : ∃ value, source = .ok value ∧ continuation value = .ok result := by
  cases source with
  | error thrown => cases done
  | ok value => exact ⟨value,rfl,done⟩

/-! ### Who reads -/

theorem portable_ne_native : formats.DBOSPortableJSON.name ≠ formats.DBOSJSON.name := by
  rw [formats.portable_name,formats.native_name]
  decide

theorem deserializer_portable (reader : DBOSSerializer Value) :
    formats.deserializer (some formats.DBOSPortableJSON.name) reader = .ok formats.DBOSPortableJSON := if_pos rfl

theorem deserializer_native (reader : DBOSSerializer Value) :
    formats.deserializer (some formats.DBOSJSON.name) reader = .ok formats.DBOSJSON := by
  unfold Formats.deserializer Formats.serializerFor
  rw [if_neg (by simpa using portable_ne_native.symm),if_pos rfl]

theorem deserializer_default {serialization : Option String} {reader : DBOSSerializer Value}
    (foreign : serialization ≠ some formats.DBOSPortableJSON.name) (foreign' : serialization ≠ some formats.DBOSJSON.name)
    (own : isFalsy serialization = true ∨ serialization = some reader.name) : formats.deserializer serialization reader = .ok reader := by
  unfold Formats.deserializer Formats.serializerFor
  rw [if_neg foreign,if_neg foreign',if_pos own]

theorem deserializer_unavailable {serialization : Option String} {reader : DBOSSerializer Value}
    (foreign : serialization ≠ some formats.DBOSPortableJSON.name) (foreign' : serialization ≠ some formats.DBOSJSON.name)
    (truthy : isFalsy serialization = false) (other : serialization ≠ some reader.name) :
    ∃ message, formats.deserializer serialization reader = .error (.typeError message) := by
  unfold Formats.deserializer Formats.serializerFor
  rw [if_neg foreign,if_neg foreign',if_neg (by simp [truthy,other])]
  exact ⟨_,rfl⟩

theorem native_ne_portable : formats.DBOSJSON ≠ formats.DBOSPortableJSON :=
  fun same => portable_ne_native (congrArg DBOSSerializer.name same.symm)

theorem isFalsy_some {name : String} : isFalsy (some name) = false ↔ name ≠ "" := by simp [isFalsy]

theorem portable_ne_empty : formats.DBOSPortableJSON.name ≠ "" := by
  rw [formats.portable_name]
  decide

theorem native_ne_empty : formats.DBOSJSON.name ≠ "" := by
  rw [formats.native_name]
  decide

theorem chosen_portable (serializer : DBOSSerializer Value) :
    formats.chosen (some formats.DBOSPortableJSON.name) serializer = formats.DBOSPortableJSON := if_pos rfl

theorem chosen_native (serializer : DBOSSerializer Value) : formats.chosen (some formats.DBOSJSON.name) serializer = formats.DBOSJSON := by
  unfold Formats.chosen
  rw [if_neg (by simpa using portable_ne_native.symm),if_pos rfl]

theorem chosen_default {serialization : Option String} {serializer : DBOSSerializer Value}
    (foreign : serialization ≠ some formats.DBOSPortableJSON.name) (foreign' : serialization ≠ some formats.DBOSJSON.name) :
    formats.chosen serialization serializer = serializer := by
  unfold Formats.chosen
  rw [if_neg foreign,if_neg foreign']

/-- The serializer for a name has this name. -/
theorem chosen_name (serializer : DBOSSerializer Value) : (formats.chosen (some serializer.name) serializer).name = serializer.name := by
  by_cases portable : some serializer.name = some formats.DBOSPortableJSON.name
  · rw [portable,chosen_portable]
    exact (Option.some.inj portable).symm
  · by_cases native : some serializer.name = some formats.DBOSJSON.name
    · rw [native,chosen_native]
      exact (Option.some.inj native).symm
    · rw [chosen_default portable native]

/-- A serializer that loses nothing is not the portable one. -/
theorem default_ne_portable (serializer : DefaultSerializer Value) : serializer.toDBOSSerializer ≠ formats.DBOSPortableJSON := by
  intro same
  obtain ⟨text,encoded,lost⟩ := formats.image_undefined
  have parsed := formats.portable_image _ _ encoded
  have kept : formats.DBOSPortableJSON.parse (some text) = .ok formats.undefined :=
    same ▸ serializer.roundTrips _ _ (same.symm ▸ encoded)
  rw [kept] at parsed
  exact lost (Except.ok.inj parsed).symm

theorem serializerFor_chosen {unavailable : String → String} {serialization : Option String} {serializer ser : DBOSSerializer Value}
    (found : formats.serializerFor unavailable serialization serializer = .ok ser) : ser = formats.chosen serialization serializer ∧
      (serialization = some formats.DBOSPortableJSON.name ∨ serialization = some formats.DBOSJSON.name ∨ isFalsy serialization = true ∨
        serialization = some serializer.name) := by
  unfold Formats.serializerFor at found
  unfold Formats.chosen
  by_cases portable : serialization = some formats.DBOSPortableJSON.name
  · rw [if_pos portable] at found ⊢
    exact ⟨(Except.ok.inj found).symm,.inl portable⟩
  · rw [if_neg portable] at found ⊢
    by_cases native : serialization = some formats.DBOSJSON.name
    · rw [if_pos native] at found ⊢
      exact ⟨(Except.ok.inj found).symm,.inr (.inl native)⟩
    · rw [if_neg native] at found ⊢
      by_cases own : isFalsy serialization = true ∨ serialization = some serializer.name
      · rw [if_pos own] at found
        exact ⟨(Except.ok.inj found).symm,.inr (.inr own)⟩
      · rw [if_neg own] at found
        cases found

/-! ### What is written -/

theorem functionInputOutput_ok {value : Value} {serializer : DBOSSerializer Value} {serialization : Option String}
    {result : FunctionInputOutput Value} (done : serializeFunctionInputOutputWithSerializer formats value serializer serialization = .ok result) :
    (formats.chosen serialization serializer).stringify value = .ok result.stringified ∧
      result.sername = (formats.chosen serialization serializer).name ∧
      (serialization = some formats.DBOSPortableJSON.name ∨ serialization = some formats.DBOSJSON.name ∨ isFalsy serialization = true ∨
        serialization = some serializer.name) := by
  obtain ⟨ser,found,done⟩ := bind_ok done
  obtain ⟨text,encoded,done⟩ := bind_ok done
  obtain ⟨back,_,done⟩ := bind_ok done
  obtain ⟨rfl,available⟩ := serializerFor_chosen found
  cases Except.ok.inj done
  exact ⟨encoded,rfl,available⟩

theorem serializeValue_ok {value : Value} {serializer : DBOSSerializer Value} {serializationFormat : Option WorkflowSerializationFormat}
    {row : Serialized} (done : serializeValue formats value serializer serializationFormat = .ok row) :
    (formats.formatSerializer serializationFormat serializer).stringify value = .ok row.serializedValue ∧
      row.serialization = some (formats.formatSerializer serializationFormat serializer).name := by
  obtain ⟨text,encoded,done⟩ := bind_ok done
  cases Except.ok.inj done
  exact ⟨encoded,rfl⟩

/-- Arguments that are not portable are an array, or undefined. -/
theorem serializeArgs_ok {positionalArgs : Option (List Value)} {namedArgs : Option Value} {serializer : DBOSSerializer Value}
    {serializationFormat : Option WorkflowSerializationFormat} {row : Serialized} (other : serializationFormat ≠ some .portable)
    (done : serializeArgs formats positionalArgs namedArgs serializer serializationFormat = .ok row) :
    serializeValue formats (formats.ofArgs positionalArgs) serializer serializationFormat = .ok row := by
  unfold serializeArgs at done
  split at done
  · exact absurd rfl other
  · split at done
    · cases done
    · exact done

theorem serializeResError_ok {err : Value} {serializer : DBOSSerializer Value} {serialization : Option String} {row : Serialized}
    (done : serializeResErrorWithSerializer formats err serializer serialization = .ok row) :
    (formats.chosen serialization serializer).stringify
        (if serialization = some formats.DBOSPortableJSON.name then formats.jsonWorkflowErrorData err else formats.serializeError err) =
      .ok row.serializedValue ∧ row.serialization = some (formats.chosen serialization serializer).name := by
  unfold serializeResErrorWithSerializer at done
  unfold Formats.chosen
  by_cases portable : serialization = some formats.DBOSPortableJSON.name
  · rw [if_pos portable] at done
    obtain ⟨text,encoded,done⟩ := bind_ok done
    cases Except.ok.inj done
    rw [if_pos portable,if_pos portable]
    exact ⟨encoded,rfl⟩
  · rw [if_neg portable] at done
    rw [if_neg portable,if_neg portable]
    by_cases native : serialization = some formats.DBOSJSON.name
    · rw [if_pos native] at done ⊢
      obtain ⟨text,encoded,done⟩ := bind_ok done
      cases Except.ok.inj done
      exact ⟨encoded,rfl⟩
    · rw [if_neg native] at done ⊢
      obtain ⟨text,encoded,done⟩ := bind_ok done
      cases Except.ok.inj done
      exact ⟨encoded,rfl⟩

end

end Dbos.Serialization
