import Dbos.Js.JsonReader
import Dbos.Serialization

/-!
Errors as their readers see them: the caller who awaits a workflow or a step, and the introspection, which may not fail. What the
introspection cannot read it reports as an `Error` with the stored text for its message, and the portable reader throws also what it has
read.
-/
namespace Dbos.Serialization
open Dbos.Js

/-! ### Errors -/

/-- An `Error`, with what JSON leaves of its `code` and its `data`; `undefined` is `none`. -/
structure JsError where
  name : String
  message : String
  code : Option Json := none
  data : Option Json := none

/-- `{ name, message, code, data }`. JSON leaves out what is undefined. -/
def JsError.members (e : JsError) : List (String × Json) :=
  [("name",.string e.name),("message",.string e.message)] ++ (e.code.map fun code => ("code",code)).toList ++
    (e.data.map fun data => ("data",data)).toList

def JsError.errorData (e : JsError) : Json := .object e.members

/-- A `PortableWorkflowError` of the error data. -/
def JsError.ofErrorData (errdata : Json) : Option JsError :=
  match errdata.member "message",errdata.member "name" with
  | some (.string message),some (.string name) => some { name, message, code := errdata.member "code", data := errdata.member "data" }
  | _,_ => none

theorem ofErrorData_errorData (e : JsError) : JsError.ofErrorData e.errorData = some e := by
  obtain ⟨name,message,code,data⟩ := e
  cases code <;> cases data <;> rfl

/-- The values of JavaScript that are errors, and what of them `DBOSPortableJSON` writes and reads. Of `serialize-error` it is known that
    it keeps the name and the message. -/
structure ErrorFormats (Value : Type) extends Formats Value where
  error : JsError → Value
  name : Value → Option String
  message : Value → Option String
  json : Value → Option Json
  ofJson : Json → Value
  name_error : ∀ e,name (error e) = some e.name
  message_error : ∀ e,message (error e) = some e.message
  portable_stringify : ∀ value j,json value = some j → DBOSPortableJSON.stringify value = .ok j.stringify
  portable_parse : ∀ j : Json,DBOSPortableJSON.parse (some j.stringify) = .ok (ofJson j)
  errorData_json : ∀ e,json (jsonWorkflowErrorData (error e)) = some e.errorData
  portableWorkflowError_json : ∀ errdata e,JsError.ofErrorData errdata = some e → portableWorkflowError (ofJson errdata) = error e
  serializeError_json : ∀ e : JsError,∃ members,json (serializeError (error e)) = some (.object members) ∧
    ("message",.string e.message) ∈ members
  serializeError_kept : ∀ e : JsError,∃ e',deserializeError (serializeError (error e)) = error e' ∧ e'.name = e.name ∧ e'.message = e.message

section
variable {Value : Type} (formats : ErrorFormats Value)

/-! ### Who reads errors -/

/-- What an awaiting caller catches. -/
def rethrown (serializer : DBOSSerializer Value) (val : String) (serialization : Option String) : Value :=
  match deserializeResError formats.toFormats (some val) serialization serializer with
  | .ok value => value
  | .error (.error value) => value
  | .error (.typeError message) => formats.error { name := "TypeError", message }

def safeParseError (serializer : DBOSSerializer Value) (val : String) (serialization : Option String) : Value :=
  match deserializeResError formats.toFormats (some val) serialization serializer with
  | .ok value => value
  | .error _ => formats.error { name := "Error", message := val }

/-- A value that has the name and the message of an error. -/
def ErrorFormats.LooksLike (e : JsError) (value : Value) : Prop := formats.name value = some e.name ∧ formats.message value = some e.message

/-- The name of a serializer is that of a format, which reads what the serializer writes. Nothing but `DBOSPortableJSON` has the name of
    the portable format, whose reader loses something. -/
structure Formats.Named (formats : Formats Value) (serializer : DBOSSerializer Value) : Prop where
  portable : serializer.name = formats.DBOSPortableJSON.name → serializer = formats.DBOSPortableJSON
  reads : serializer.name ≠ formats.DBOSPortableJSON.name → ∀ value text,serializer.stringify value = .ok text →
    deserializeValue formats (some text) (some serializer.name) serializer = .ok value

/-- The error is written under the name of the portable format. -/
def Formats.WritesPortable (formats : Formats Value) (serializer : DBOSSerializer Value) (serialization : Option String) : Prop :=
  serialization = some formats.DBOSPortableJSON.name ∨
    (serialization ≠ some formats.DBOSJSON.name ∧ serializer.name = formats.DBOSPortableJSON.name)

variable {formats} {serializer : DBOSSerializer Value} {serialization : Option String} {e : JsError} {row : Serialized}

/-! ### Reading back -/

theorem looksLike_error {e' : JsError} (name : e'.name = e.name) (message : e'.message = e.message) : formats.LooksLike e (formats.error e') :=
  ⟨by rw [formats.name_error,name],by rw [formats.message_error,message]⟩

/-- What the portable reader reads it throws. -/
theorem deserializeResError_portable (val : Option String) : ∃ thrown,
    deserializeResError formats.toFormats val (some formats.DBOSPortableJSON.name) serializer = .error thrown := by
  unfold deserializeResError
  cases deserializeValue formats.toFormats val (some formats.DBOSPortableJSON.name) serializer with
  | error thrown => exact ⟨thrown,rfl⟩
  | ok value => exact ⟨_,if_pos rfl⟩

theorem safeParseError_portable (val : String) :
    safeParseError formats serializer val (some formats.DBOSPortableJSON.name) = formats.error { name := "Error", message := val } := by
  obtain ⟨thrown,threw⟩ : ∃ thrown,deserializeResError formats.toFormats (some val) (some formats.DBOSPortableJSON.name) serializer = .error thrown :=
    deserializeResError_portable (some val)
  unfold safeParseError
  rw [threw]

/-- The awaiting caller has the error itself where the error data is portable. -/
theorem rethrown_portable (e : JsError) :
    rethrown formats serializer e.errorData.stringify (some formats.DBOSPortableJSON.name) = formats.error e := by
  have read : deserializeValue formats.toFormats (some e.errorData.stringify) (some formats.DBOSPortableJSON.name) serializer =
      .ok (formats.ofJson e.errorData) := by
    unfold deserializeValue
    rw [deserializer_portable]
    exact formats.portable_parse _
  have threw : deserializeResError formats.toFormats (some e.errorData.stringify) (some formats.DBOSPortableJSON.name) serializer =
      .error (.error (formats.error e)) := by
    unfold deserializeResError
    rw [read,← formats.portableWorkflowError_json _ _ (ofErrorData_errorData e)]
    exact if_pos rfl
  unfold rethrown
  rw [threw]

/-- In every other format both readers have what `serialize-error` keeps. -/
theorem readers_agree {val : String} (other : serialization ≠ some formats.DBOSPortableJSON.name)
    (read : deserializeValue formats.toFormats (some val) serialization serializer = .ok (formats.serializeError (formats.error e))) :
    formats.LooksLike e (rethrown formats serializer val serialization) ∧
      formats.LooksLike e (safeParseError formats serializer val serialization) := by
  obtain ⟨e',kept,name,message⟩ := formats.serializeError_kept e
  have result : deserializeResError formats.toFormats (some val) serialization serializer = .ok (formats.error e') := by
    unfold deserializeResError
    rw [read,← kept]
    exact if_neg other
  unfold rethrown safeParseError
  rw [result]
  exact ⟨looksLike_error name message,looksLike_error name message⟩

/-! ### What has been written -/

theorem writesPortable_name (done : serializeResErrorWithSerializer formats.toFormats (formats.error e) serializer serialization = .ok row)
    (named : formats.Named serializer) (portable : formats.WritesPortable serializer serialization) :
    row.serialization = some formats.DBOSPortableJSON.name ∧
      ∃ members,("message",.string e.message) ∈ members ∧ row.serializedValue = (Json.object members).stringify := by
  obtain ⟨text,name⟩ := serializeResError_ok done
  by_cases format : serialization = some formats.DBOSPortableJSON.name
  · rw [format,chosen_portable] at text name
    rw [if_pos rfl,formats.portable_stringify _ _ (formats.errorData_json e)] at text
    exact ⟨name,e.members,by simp [JsError.members],(Except.ok.inj text).symm⟩
  · obtain ⟨foreign,own⟩ := portable.resolve_left format
    obtain ⟨members,json,listed⟩ := formats.serializeError_json e
    rw [chosen_default format foreign,named.portable own] at text name
    rw [if_neg format,formats.portable_stringify _ _ json] at text
    exact ⟨name,members,listed,(Except.ok.inj text).symm⟩

/-- What is not written under the name of the portable format is read back. -/
theorem read_written (done : serializeResErrorWithSerializer formats.toFormats (formats.error e) serializer serialization = .ok row)
    (named : formats.Named serializer) (other : ¬ formats.WritesPortable serializer serialization) :
    row.serialization ≠ some formats.DBOSPortableJSON.name ∧
      deserializeValue formats.toFormats (some row.serializedValue) row.serialization serializer =
        .ok (formats.serializeError (formats.error e)) := by
  have format : serialization ≠ some formats.DBOSPortableJSON.name := fun same => other (.inl same)
  obtain ⟨text,name⟩ := serializeResError_ok done
  rw [if_neg format] at text
  by_cases native : serialization = some formats.DBOSJSON.name
  · rw [native,chosen_native] at text name
    rw [name]
    refine ⟨fun same => portable_ne_native (Option.some.inj same).symm,?_⟩
    unfold deserializeValue
    rw [deserializer_native]
    exact formats.native_roundTrips _ _ text
  · have own : serializer.name ≠ formats.DBOSPortableJSON.name := fun same => other (.inr ⟨native,same⟩)
    rw [chosen_default format native] at text name
    rw [name]
    exact ⟨fun same => own (Option.some.inj same),named.reads own _ _ text⟩

/-! ### Errors look the same -/

/-- The report of a portable error is not the error: its message is the text of an object that has the message for a member. -/
theorem portable_report (done : serializeResErrorWithSerializer formats.toFormats (formats.error e) serializer serialization = .ok row)
    (named : formats.Named serializer) (portable : formats.WritesPortable serializer serialization) :
    safeParseError formats serializer row.serializedValue row.serialization =
        formats.error { name := "Error", message := row.serializedValue } ∧ row.serializedValue ≠ e.message := by
  obtain ⟨name,members,listed,text⟩ := writesPortable_name done named portable
  rw [name,safeParseError_portable,text]
  exact ⟨rfl,stringify_ne_member listed⟩

end

/-! ### Errors in JSON -/

/-- Values of JavaScript, of which JSON, `undefined` and errors are written here. -/
inductive ErrorSample
  | undefined
  | json (j : Json)
  | array (items : List ErrorSample)
  | args (positionalArgs : List ErrorSample)
  | error (e : JsError)

def ErrorSample.toJson : ErrorSample → Option Json
  | .undefined => some .null
  | .json j => some j
  | .error e => some (.object [("name",.string e.name),("message",.string e.message)])
  | _ => none

/-- `DBOSPortableJSON`. -/
def jsonErrors : DBOSSerializer ErrorSample where
  name := "portable_json"
  stringify value :=
    match value.toJson with
    | some j => .ok j.stringify
    | none => .error (.typeError "")
  parse
    | none => .ok (.json .null)
    | some text =>
      match Json.read text with
      | some j => .ok (.json j)
      | none => .error (.typeError "")

/-- `DBOSJSON`. -/
def superjsonErrors : DBOSSerializer ErrorSample where
  name := "js_superjson"
  stringify
    | .json j => .ok (Json.object [("json",j),("__dbos_serializer",.string "superjson")]).stringify
    | _ => .error (.typeError "")
  parse
    | none => .ok (.json .null)
    | some text =>
      match Json.read text with
      | some (.object [("json",j),("__dbos_serializer",.string "superjson")]) => .ok (.json j)
      | some j => .ok (.json j)
      | none => .error (.typeError "")

theorem superjsonErrors_roundTrips : superjsonErrors.RoundTrips := by
  intro value text done
  cases value with
  | json j =>
    cases Except.ok.inj done
    simp only [superjsonErrors,read_stringify]
  | _ => cases done

def errorSamples : ErrorFormats ErrorSample where
  DBOSPortableJSON := jsonErrors
  DBOSJSON := superjsonErrors
  undefined := .undefined
  null := .json .null
  array := .array
  isObjectish
    | .array _ => true
    | .args _ => true
    | .error _ => true
    | .json (.array _) => true
    | .json (.object _) => true
    | _ => false
  attachFunctionStubs _ deserialized := deserialized
  jsonWorkflowArgs positionalArgs _ := .args (positionalArgs.getD [])
  positionalArgs
    | .args positionalArgs => .ok (.array positionalArgs)
    | _ => .ok (.array [])
  jsonWorkflowErrorData
    | .error e => .json e.errorData
    | value => value
  portableWorkflowError
    | .json errdata => .error ((JsError.ofErrorData errdata).getD { name := "", message := "" })
    | value => value
  serializeError
    | .error e => .json e.errorData
    | value => value
  deserializeError
    | .json errdata => .error ((JsError.ofErrorData errdata).getD { name := "NonError", message := errdata.stringify })
    | value => value
  image value := match value.toJson with
    | some j => .json j
    | none => value
  portable_name := rfl
  native_name := rfl
  portable_image := by
    intro value text done
    cases json : value.toJson with
    | none =>
      simp only [jsonErrors,json] at done
      cases done
    | some j =>
      simp only [jsonErrors,json] at done ⊢
      cases Except.ok.inj done
      simp only [read_stringify]
  native_roundTrips := superjsonErrors_roundTrips
  image_undefined := ⟨"null",rfl,nofun⟩
  image_array args := by simp [ErrorSample.toJson]
  positionalArgs_args args named := rfl
  positionalArgs_array args := rfl
  error := .error
  name
    | .error e => some e.name
    | _ => none
  message
    | .error e => some e.message
    | _ => none
  json := ErrorSample.toJson
  ofJson := .json
  name_error e := rfl
  message_error e := rfl
  portable_stringify := by
    intro value j json
    simp only [jsonErrors,json]
  portable_parse := by
    intro j
    simp only [jsonErrors,read_stringify]
  errorData_json e := rfl
  portableWorkflowError_json := by
    intro errdata e read
    simp only [read,Option.getD_some]
  serializeError_json e := ⟨e.members,rfl,by simp [JsError.members]⟩
  serializeError_kept e := ⟨e,by simp [ofErrorData_errorData],rfl,rfl⟩

theorem superjsonErrors_named : errorSamples.Named superjsonErrors := by
  constructor
  · intro same
    exact absurd same (by decide)
  · intro _ value text done
    unfold deserializeValue
    rw [show superjsonErrors.name = errorSamples.DBOSJSON.name from rfl,deserializer_native]
    exact superjsonErrors_roundTrips value text done

def paymentError : JsError := { name := "PaymentError", message := "card declined" }

/-! ### Errors look the same -/

/-- The error is the same to its awaiting caller and to introspection just where it is not written under the name of the portable format. -/
theorem errors_look_same {Value : Type} {formats : ErrorFormats Value} {serializer : DBOSSerializer Value} (named : formats.Named serializer)
    {e : JsError} {serialization : Option String} {row : Serialized}
    (done : serializeResErrorWithSerializer formats.toFormats (formats.error e) serializer serialization = .ok row) :
    (formats.LooksLike e (rethrown formats serializer row.serializedValue row.serialization) ∧
        formats.LooksLike e (safeParseError formats serializer row.serializedValue row.serialization)) ↔
      ¬ formats.WritesPortable serializer serialization := by
  constructor
  · rintro ⟨-,-,message⟩ portable
    obtain ⟨report,differs⟩ := portable_report done named portable
    rw [report,formats.message_error] at message
    exact differs (Option.some.inj message)
  · intro other
    obtain ⟨foreign,read⟩ := read_written done named other
    exact readers_agree foreign read

theorem errors_look_same_payment : ∃ row,
    serializeResErrorWithSerializer errorSamples.toFormats (.error paymentError) superjsonErrors (some "js_superjson") = .ok row ∧
      errorSamples.LooksLike paymentError (rethrown errorSamples superjsonErrors row.serializedValue row.serialization) ∧
      errorSamples.LooksLike paymentError (safeParseError errorSamples superjsonErrors row.serializedValue row.serialization) := by
  have done : serializeResErrorWithSerializer errorSamples.toFormats (errorSamples.error paymentError) superjsonErrors (some "js_superjson") =
      .ok ⟨(Json.object [("json",paymentError.errorData),("__dbos_serializer",.string "superjson")]).stringify,some "js_superjson"⟩ := rfl
  refine ⟨_,done,(errors_look_same superjsonErrors_named done).mpr ?_⟩
  rintro (portable | ⟨foreign,-⟩)
  · exact absurd portable (by decide)
  · exact foreign rfl

theorem paymentError_text : paymentError.errorData.stringify = "\x7b\"name\":\"PaymentError\",\"message\":\"card declined\"\x7d" := by
  have text : paymentError.errorData.text = "\x7b\"name\":\"PaymentError\",\"message\":\"card declined\"\x7d".toList := by decide
  rw [Json.stringify,text,String.ofList_toList]

/-- The caller catches the portable error, and introspection reports the text that it is stored as. -/
theorem portable_error_misreported :
    (∃ row,serializeResErrorWithSerializer errorSamples.toFormats (.error paymentError) superjsonErrors (some "portable_json") = .ok row ∧
      rethrown errorSamples superjsonErrors row.serializedValue row.serialization = .error paymentError ∧
      safeParseError errorSamples superjsonErrors row.serializedValue row.serialization =
        .error { name := "Error", message := "\x7b\"name\":\"PaymentError\",\"message\":\"card declined\"\x7d" }) ∧
    ¬ ∀ e serialization row,serializeResErrorWithSerializer errorSamples.toFormats (.error e) superjsonErrors serialization = .ok row →
      errorSamples.LooksLike e (rethrown errorSamples superjsonErrors row.serializedValue row.serialization) ∧
        errorSamples.LooksLike e (safeParseError errorSamples superjsonErrors row.serializedValue row.serialization) := by
  have done : serializeResErrorWithSerializer errorSamples.toFormats (.error paymentError) superjsonErrors (some "portable_json") =
      .ok ⟨paymentError.errorData.stringify,some "portable_json"⟩ := rfl
  have report : safeParseError errorSamples superjsonErrors paymentError.errorData.stringify (some errorSamples.DBOSPortableJSON.name) =
      errorSamples.error { name := "Error", message := paymentError.errorData.stringify } := safeParseError_portable _
  refine ⟨⟨_,done,rethrown_portable paymentError,report.trans ?_⟩,?_⟩
  · rw [paymentError_text]
    rfl
  intro all
  obtain ⟨-,name,-⟩ := all _ _ _ done
  have reported := name.symm.trans (congrArg errorSamples.name report)
  exact absurd (Option.some.inj (reported.trans rfl)) (by decide)

end Dbos.Serialization
