import Dbos.Serialization
import Dbos.Pg.Run

/-!
Executors with different default serializers on one system database: what is recorded of workflows, steps, messages, events and streams,
and what another executor reads of it. The text and its name are on different ways. Some writers leave the name out, and what a
workflow ends with is under the name that its row has been given when it was enqueued.
-/
namespace Dbos.Serialization
open Dbos.Pg

section
variable {Value : Type} (formats : Formats Value)

/-! ### What executors store -/

/-- What is stored: the arguments of a workflow by `internalWorkflow`, or by `enqueue` and the scheduler; what a workflow returns or
    throws, with the serialization of its row; a message, an event or an entry of a stream; what a step returns or throws, or the enqueue
    of a child; and what `runInternalStep` and `runTransactionalInternalStep` record. -/
inductive Write (Value : Type)
  | workflowArgs (serializationType : Option WorkflowSerializationFormat) (args : List Value)
  | enqueueArgs (serializationType : Option WorkflowSerializationFormat) (positionalArgs : Option (List Value)) (namedArgs : Option Value)
  | workflowResult (serialization : Option String) (result : Value)
  | workflowError (serialization : Option String) (err : Value)
  | entry (serializationType : Option WorkflowSerializationFormat) (value : Value)
  | stepResult (result : Value)
  | stepError (err : Value)
  | childError (err : Value)
  | internalStepResult (output : Value)
  | internalStepError (err : Value)
  | transactionalStepResult (result : Option Value)

/-- What is in the row afterwards. -/
def store (serializer : DBOSSerializer Value) : Write Value → Except (Thrown Value) Serialized
  | .workflowArgs serializationType args => do
    let value := if serializationType = some .portable then formats.jsonWorkflowArgs (some args) none else formats.array args
    let funcArgs ← serializeFunctionInputOutput formats value serializer serializationType
    return ⟨funcArgs.stringified,some funcArgs.sername⟩
  | .enqueueArgs serializationType positionalArgs namedArgs =>
    serializeArgs formats positionalArgs namedArgs serializer serializationType
  | .workflowResult serialization result => do
    let funcResult ← serializeFunctionInputOutputWithSerializer formats result serializer serialization
    return ⟨funcResult.stringified,serialization⟩
  | .workflowError serialization err => do
    let sererr ← serializeResErrorWithSerializer formats err serializer serialization
    -- `recordWorkflowError` has no use for `sererr.serialization`
    return ⟨sererr.serializedValue,serialization⟩
  | .entry serializationType value => serializeValue formats value serializer serializationType
  | .stepResult result => do
    let funcResult ← serializeFunctionInputOutput formats result serializer none
    return ⟨funcResult.stringified,some funcResult.sername⟩
  | .stepError err => do
    let error ← serializer.stringify (formats.serializeError err)
    return ⟨error,some serializer.name⟩
  | .childError err => serializeResError formats err serializer none
  | .internalStepResult output => do
    let funcOutput ← serializeFunctionInputOutput formats output serializer none
    return ⟨funcOutput.stringified,none⟩
  | .internalStepError err => do
    let error ← serializer.stringify (formats.serializeError err)
    return ⟨error,none⟩
  | .transactionalStepResult result => do
    let output ← serializer.stringify (result.getD formats.null)
    return ⟨output,none⟩

/-! ### What is promised of a value that is read -/

/-- A value, an array of arguments, or an error. -/
inductive Argument (Value : Type)
  | value (value : Value)
  | args (positionalArgs : Option (List Value))
  | err (err : Value)

def Write.argument : Write Value → Argument Value
  | .workflowArgs _ args => .args (some args)
  | .enqueueArgs _ positionalArgs _ => .args positionalArgs
  | .workflowResult _ result => .value result
  | .workflowError _ err => .err err
  | .entry _ value => .value value
  | .stepResult result => .value result
  | .stepError err => .err err
  | .childError err => .err err
  | .internalStepResult output => .value output
  | .internalStepError err => .err err
  | .transactionalStepResult result => .value (result.getD formats.null)

/-- The serializer whose `stringify` makes the text. -/
def Write.encoder (serializer : DBOSSerializer Value) : Write Value → DBOSSerializer Value
  | .workflowArgs serializationType _ => formats.chosen (some (formats.formatName serializationType serializer)) serializer
  | .enqueueArgs serializationType _ _ => formats.formatSerializer serializationType serializer
  | .workflowResult serialization _ => formats.chosen serialization serializer
  | .workflowError serialization _ => formats.chosen serialization serializer
  | .entry serializationType _ => formats.formatSerializer serializationType serializer
  | .stepResult _ => formats.chosen (some serializer.name) serializer
  | .stepError _ => serializer
  | .childError _ => formats.chosen (some serializer.name) serializer
  | .internalStepResult _ => formats.chosen (some serializer.name) serializer
  | .internalStepError _ => serializer
  | .transactionalStepResult _ => serializer

def Argument.read (row : Serialized) (serializer : DBOSSerializer Value) : Argument Value → Except (Thrown Value) Value
  | .value _ => deserializeValue formats (some row.serializedValue) row.serialization serializer
  | .args _ => deserializePositionalArgs formats (some row.serializedValue) row.serialization serializer
  | .err _ => deserializeResError formats (some row.serializedValue) row.serialization serializer

def Argument.original : Argument Value → Except (Thrown Value) Value
  | .value given => .ok given
  | .args positionalArgs => .ok (formats.ofArgs positionalArgs)
  | .err thrown => .ok (formats.deserializeError (formats.serializeError thrown))

def Argument.portableImage : Argument Value → Except (Thrown Value) Value
  | .value given => .ok (formats.image given)
  | .args positionalArgs => .ok (formats.image (formats.array (positionalArgs.getD [])))
  | .err thrown => .error (.error (formats.portableWorkflowError (formats.image (formats.jsonWorkflowErrorData thrown))))

/-- Nothing but what has encoded the value decodes it, and the value comes back, or its portable image, or else a `TypeError`. -/
structure Kept (argument : Argument Value) (encoder : DBOSSerializer Value) (row : Serialized) (reader : DBOSSerializer Value) : Prop where
  decoder : ∀ ser, formats.deserializer row.serialization reader = .ok ser → ser = encoder
  outcome : (∃ message, argument.read formats row reader = .error (.typeError message)) ∨
    (encoder = formats.DBOSPortableJSON ∧ argument.read formats row reader = argument.portableImage formats) ∨
    (encoder ≠ formats.DBOSPortableJSON ∧ argument.read formats row reader = argument.original formats)

/-- The name of the serializer is for nobody else. -/
def OwnName (serializer : DBOSSerializer Value) : Prop :=
  serializer.name ≠ "" ∧ serializer.name ≠ formats.DBOSPortableJSON.name ∧
    (serializer.name = formats.DBOSJSON.name → serializer = formats.DBOSJSON)

/-- When what an executor stores is kept for a reader with another default serializer. -/
def Sound (serializer reader : DBOSSerializer Value) : Write Value → Prop
  | .workflowArgs none args => serializer.name ≠ "" ∧ (serializer.name = formats.DBOSPortableJSON.name → args = [])
  | .enqueueArgs none _ _ | .entry none _ | .stepError _ => OwnName formats serializer
  | .workflowArgs (some _) _ | .enqueueArgs (some _) _ _ | .entry (some _) _ => True
  | .stepResult _ | .childError _ => serializer.name ≠ ""
  | .workflowResult serialization _ => isFalsy serialization = false
  | .workflowError serialization _ => isFalsy serialization = false ∧
      (serialization = some reader.name → serialization = some formats.DBOSPortableJSON.name ∨ serialization = some formats.DBOSJSON.name)
  | .internalStepResult _ | .internalStepError _ | .transactionalStepResult _ => False

variable {formats}

/-! ### What is kept -/

section
variable {argument : Argument Value} {encoder reader : DBOSSerializer Value} {row : Serialized}

theorem kept_unavailable {message : String} (rejects : formats.deserializer row.serialization reader = .error (.typeError message)) :
    Kept formats argument encoder row reader := by
  constructor
  · intro ser accepts
    rw [rejects] at accepts
    cases accepts
  · refine .inl ⟨message,?_⟩
    cases argument <;> simp only [Argument.read,deserializePositionalArgs,deserializeResError,deserializeValue,rejects] <;> rfl

theorem not_kept {ser : DBOSSerializer Value} (decodes : formats.deserializer row.serialization reader = .ok ser) (other : ser ≠ encoder) :
    ¬ Kept formats argument encoder row reader := fun kept => other (kept.decoder ser decodes)

/-- What portable JSON is given for an argument, and what any other serializer is given. -/
def Argument.portablePayload (formats : Formats Value) (namedArgs : Option Value) : Argument Value → Value
  | .value given => given
  | .args positionalArgs => formats.jsonWorkflowArgs positionalArgs namedArgs
  | .err thrown => formats.jsonWorkflowErrorData thrown

def Argument.payload (formats : Formats Value) : Argument Value → Value
  | .value given => given
  | .args positionalArgs => formats.ofArgs positionalArgs
  | .err thrown => formats.serializeError thrown

theorem kept_portable (namedArgs : Option Value) (is : encoder = formats.DBOSPortableJSON)
    (named : row.serialization = some formats.DBOSPortableJSON.name)
    (encoded : formats.DBOSPortableJSON.stringify (argument.portablePayload formats namedArgs) = .ok row.serializedValue) :
    Kept formats argument encoder row reader := by
  constructor
  · intro ser accepts
    rw [named,deserializer_portable] at accepts
    rw [is]
    exact (Except.ok.inj accepts).symm
  · refine .inr (.inl ⟨is,?_⟩)
    have parsed := formats.portable_image _ _ encoded
    have value : deserializeValue formats (some row.serializedValue) row.serialization reader =
        .ok (formats.image (argument.portablePayload formats namedArgs)) := by
      unfold deserializeValue
      rw [named,deserializer_portable]
      exact parsed
    cases argument with
    | value given => exact value
    | args positionalArgs =>
      simp only [Argument.read,deserializePositionalArgs,value]
      rw [named]
      exact (if_pos rfl).trans (formats.positionalArgs_args positionalArgs namedArgs)
    | err thrown =>
      simp only [Argument.read,deserializeResError,value]
      rw [named]
      exact if_pos rfl

theorem kept_native (is : encoder = formats.DBOSJSON) (named : row.serialization = some formats.DBOSJSON.name)
    (encoded : formats.DBOSJSON.stringify (argument.payload formats) = .ok row.serializedValue) :
    Kept formats argument encoder row reader := by
  constructor
  · intro ser accepts
    rw [named,deserializer_native] at accepts
    rw [is]
    exact (Except.ok.inj accepts).symm
  · refine .inr (.inr ⟨is ▸ native_ne_portable,?_⟩)
    have parsed := formats.native_roundTrips _ _ encoded
    have value : deserializeValue formats (some row.serializedValue) row.serialization reader = .ok (argument.payload formats) := by
      unfold deserializeValue
      rw [named,deserializer_native]
      exact parsed
    have other : row.serialization ≠ some formats.DBOSPortableJSON.name := by
      rw [named]
      simpa using portable_ne_native.symm
    cases argument with
    | value given => exact value
    | args positionalArgs =>
      simp only [Argument.read,deserializePositionalArgs,value]
      exact if_neg other
    | err thrown =>
      simp only [Argument.read,deserializeResError,value]
      exact if_neg other

end

/-! ### Which writes are sound -/

section
variable {first : DefaultSerializer Value} {second : DBOSSerializer Value} {argument : Argument Value} {encoder : DBOSSerializer Value}
  {row : Serialized}

/-- Under a name that is falsy the other executor's serializer decodes. -/
theorem not_kept_falsy (falsy : isFalsy row.serialization = true) (other : second ≠ encoder) :
    ¬ Kept formats argument encoder row second := by
  refine not_kept (deserializer_default ?_ ?_ (.inl falsy)) other
  · intro named
    rw [named,isFalsy_some.mpr portable_ne_empty] at falsy
    cases falsy
  · intro named
    rw [named,isFalsy_some.mpr native_ne_empty] at falsy
    cases falsy

theorem second_ne (differ : first.name ≠ second.name) : second ≠ first.toDBOSSerializer :=
  fun same => differ (congrArg DBOSSerializer.name same).symm

/-- Under a name of its own what the default serializer has encoded is rejected, unless the name is empty. -/
theorem kept_default (differ : first.name ≠ second.name) (named : row.serialization = some first.name)
    (foreign : first.name ≠ formats.DBOSPortableJSON.name) (foreign' : first.name ≠ formats.DBOSJSON.name) :
    Kept formats argument first.toDBOSSerializer row second ↔ first.name ≠ "" := by
  by_cases empty : first.name = ""
  · refine iff_of_false ?_ (not_not_intro empty)
    refine not_kept_falsy ?_ (second_ne differ)
    rw [named,empty]
    rfl
  · refine iff_of_true ?_ empty
    have rejects : ∃ message, formats.deserializer row.serialization second = .error (.typeError message) := by
      rw [named]
      exact deserializer_unavailable (by simpa using foreign) (by simpa using foreign') (isFalsy_some.mpr empty) (by simpa using differ)
    obtain ⟨message,rejects⟩ := rejects
    exact kept_unavailable rejects

/-- The serializer is the one that its name stands for. -/
theorem kept_chosen (differ : first.name ≠ second.name) (named : row.serialization = some first.name)
    (foreign : first.name ≠ formats.DBOSPortableJSON.name) (is : encoder = formats.chosen (some first.name) first.toDBOSSerializer)
    (encoded : encoder.stringify (argument.payload formats) = .ok row.serializedValue) :
    Kept formats argument encoder row second ↔ first.name ≠ "" := by
  by_cases native : first.name = formats.DBOSJSON.name
  · rw [native,chosen_native] at is
    refine iff_of_true ?_ (native ▸ native_ne_empty)
    exact kept_native is (named.trans (congrArg some native)) (is ▸ encoded)
  · rw [chosen_default (by simpa using foreign) (by simpa using native)] at is
    rw [is]
    exact kept_default differ named foreign native

theorem kept_own (differ : first.name ≠ second.name) (named : row.serialization = some first.name)
    (encoded : first.stringify (argument.payload formats) = .ok row.serializedValue) :
    Kept formats argument first.toDBOSSerializer row second ↔ OwnName formats first.toDBOSSerializer := by
  by_cases portable : first.name = formats.DBOSPortableJSON.name
  · refine iff_of_false ?_ (fun own => own.2.1 portable)
    have decodes : formats.deserializer row.serialization second = .ok formats.DBOSPortableJSON := by
      rw [named,portable]
      exact deserializer_portable second
    exact not_kept decodes (default_ne_portable first).symm
  · by_cases native : first.name = formats.DBOSJSON.name
    · by_cases is : first.toDBOSSerializer = formats.DBOSJSON
      · refine iff_of_true ?_ ⟨native ▸ native_ne_empty,portable,fun _ => is⟩
        exact kept_native is (named.trans (congrArg some native)) (is ▸ encoded)
      · refine iff_of_false ?_ (fun own => is (own.2.2 native))
        refine not_kept ?_ (Ne.symm is)
        rw [named,native]
        exact deserializer_native second
    · rw [kept_default differ named portable native]
      exact ⟨fun named => ⟨named,portable,fun same => absurd same native⟩,fun own => own.1⟩

/-- The arguments are not in the object that portable JSON has them in: where there are any, they are lost. -/
theorem kept_bare_args {args : List Value} (is : encoder = formats.DBOSPortableJSON)
    (named : row.serialization = some formats.DBOSPortableJSON.name)
    (encoded : formats.DBOSPortableJSON.stringify (formats.array args) = .ok row.serializedValue) :
    Kept formats (.args (some args)) encoder row second ↔ args = [] := by
  have value : deserializeValue formats (some row.serializedValue) row.serialization second = .ok (formats.image (formats.array args)) := by
    unfold deserializeValue
    rw [named,deserializer_portable]
    exact formats.portable_image _ _ encoded
  have reads : (Argument.args (some args)).read formats row second = .ok (formats.array []) := by
    simp only [Argument.read,deserializePositionalArgs,value]
    rw [named]
    exact (if_pos rfl).trans (formats.positionalArgs_array args)
  constructor
  · intro kept
    rcases kept.outcome with ⟨message,rejected⟩ | ⟨_,image⟩ | ⟨other,_⟩
    · rw [reads] at rejected
      cases rejected
    · rw [reads] at image
      exact (formats.image_array args).mp (Except.ok.inj image).symm
    · exact absurd is other
  · rintro rfl
    constructor
    · intro ser accepts
      rw [named,deserializer_portable] at accepts
      rw [is]
      exact (Except.ok.inj accepts).symm
    · refine .inr (.inl ⟨is,?_⟩)
      rw [reads]
      exact congrArg Except.ok ((formats.image_array []).mpr rfl).symm

/-- Without a name the other executor's serializer decodes. -/
theorem not_kept_unlabelled (differ : first.name ≠ second.name) (unlabelled : row.serialization = none)
    (named : encoder.name = first.name) : ¬ Kept formats argument encoder row second := by
  refine not_kept_falsy ?_ ?_
  · rw [unlabelled]
    rfl
  · rintro rfl
    exact differ named.symm

/-- What a workflow ends with is under the serialization of its row. -/
theorem kept_result (differ : first.name ≠ second.name) (serialization : Option String) (named : row.serialization = serialization)
    (is : encoder = formats.chosen serialization first.toDBOSSerializer)
    (encoded : encoder.stringify (if serialization = some formats.DBOSPortableJSON.name then argument.portablePayload formats none
      else argument.payload formats) = .ok row.serializedValue) :
    Kept formats argument encoder row second ↔ isFalsy serialization = false ∧
      (serialization = some second.name → serialization = some formats.DBOSPortableJSON.name ∨ serialization = some formats.DBOSJSON.name) := by
  by_cases portable : serialization = some formats.DBOSPortableJSON.name
  · rw [portable,chosen_portable] at is
    rw [if_pos portable,is] at encoded
    exact iff_of_true (kept_portable none is (named.trans portable) encoded) ⟨portable ▸ isFalsy_some.mpr portable_ne_empty,fun _ => .inl portable⟩
  · rw [if_neg portable] at encoded
    by_cases native : serialization = some formats.DBOSJSON.name
    · rw [native,chosen_native] at is
      rw [is] at encoded
      exact iff_of_true (kept_native is (named.trans native) encoded) ⟨native ▸ isFalsy_some.mpr native_ne_empty,fun _ => .inr native⟩
    · rw [chosen_default portable native] at is
      cases falsy : isFalsy serialization with
      | true =>
        refine iff_of_false ?_ (fun sound => nomatch sound.1)
        exact not_kept_falsy (named ▸ falsy) (is ▸ second_ne differ)
      | false =>
        by_cases own : serialization = some second.name
        · refine iff_of_false ?_ (fun sound => (sound.2 own).elim portable native)
          refine not_kept ?_ (is ▸ second_ne differ)
          rw [named]
          exact deserializer_default portable native (.inr own)
        · refine iff_of_true ?_ ⟨rfl,fun same => absurd same own⟩
          obtain ⟨message,rejects⟩ := deserializer_unavailable portable native falsy own
          exact kept_unavailable (named ▸ rejects)

/-- The name of the default serializer picks the format. -/
theorem kept_by_name (differ : first.name ≠ second.name) (named : row.serialization = some first.name)
    (is : encoder = formats.chosen (some first.name) first.toDBOSSerializer)
    (encoded : encoder.stringify (if some first.name = some formats.DBOSPortableJSON.name then argument.portablePayload formats none
      else argument.payload formats) = .ok row.serializedValue) :
    Kept formats argument encoder row second ↔ first.name ≠ "" := by
  by_cases portable : first.name = formats.DBOSPortableJSON.name
  · rw [portable,chosen_portable] at is
    rw [if_pos (congrArg some portable),is] at encoded
    exact iff_of_true (kept_portable none is (named.trans (congrArg some portable)) encoded) (portable ▸ portable_ne_empty)
  · rw [if_neg (by simpa using portable)] at encoded
    exact kept_chosen differ named portable is encoded

theorem kept_iff (differ : first.name ≠ second.name) {write : Write Value}
    (stored : store formats first.toDBOSSerializer write = .ok row) :
    Kept formats (write.argument formats) (write.encoder formats first.toDBOSSerializer) row second ↔
      Sound formats first.toDBOSSerializer second write := by
  cases write with
  | workflowArgs serializationType args =>
    obtain ⟨funcArgs,done,stored⟩ := bind_ok stored
    cases Except.ok.inj stored
    obtain ⟨encoded,named,_⟩ := functionInputOutput_ok done
    cases serializationType with
    | some format =>
      refine iff_of_true ?_ trivial
      cases format with
      | native =>
        have is : formats.chosen (some (formats.formatName (some .native) first.toDBOSSerializer)) first.toDBOSSerializer = formats.DBOSJSON :=
          chosen_native _
        rw [is] at encoded named
        exact kept_native is (congrArg some named) encoded
      | portable =>
        have is : formats.chosen (some (formats.formatName (some .portable) first.toDBOSSerializer)) first.toDBOSSerializer =
            formats.DBOSPortableJSON := chosen_portable _
        rw [is] at encoded named
        exact kept_portable none is (congrArg some named) encoded
    | none =>
      have encoded : (formats.chosen (some first.name) first.toDBOSSerializer).stringify (formats.array args) = .ok funcArgs.stringified := encoded
      have named : funcArgs.sername = first.name := named.trans (chosen_name first.toDBOSSerializer)
      show Kept formats _ (formats.chosen (some first.name) first.toDBOSSerializer) _ _ ↔ _ ∧ _
      by_cases portable : first.name = formats.DBOSPortableJSON.name
      · rw [portable,chosen_portable] at encoded ⊢
        refine (kept_bare_args rfl (by rw [named,portable]) encoded).trans ?_
        exact ⟨fun empty => ⟨portable_ne_empty,fun _ => empty⟩,fun sound => sound.2 rfl⟩
      · refine (kept_chosen differ ?_ portable rfl ?_).trans ?_
        · exact congrArg some named
        · exact encoded
        · exact ⟨fun own => ⟨own,fun same => absurd same portable⟩,fun sound => sound.1⟩
  | enqueueArgs serializationType positionalArgs namedArgs =>
    have stored : serializeArgs formats positionalArgs namedArgs first.toDBOSSerializer serializationType = .ok row := stored
    cases serializationType with
    | none =>
      obtain ⟨encoded,named⟩ := serializeValue_ok (serializeArgs_ok (by simp) stored)
      exact kept_own differ named encoded
    | some format =>
      refine iff_of_true ?_ trivial
      cases format with
      | native =>
        obtain ⟨encoded,named⟩ := serializeValue_ok (serializeArgs_ok (by simp) stored)
        exact kept_native rfl named encoded
      | portable =>
        obtain ⟨text,encoded,stored⟩ := bind_ok stored
        cases Except.ok.inj stored
        exact kept_portable namedArgs rfl rfl encoded
  | workflowResult serialization result =>
    obtain ⟨funcResult,done,stored⟩ := bind_ok stored
    cases Except.ok.inj stored
    obtain ⟨encoded,_,available⟩ := functionInputOutput_ok done
    refine (kept_result differ serialization rfl rfl ?_).trans ?_
    · exact (ite_self result).symm ▸ encoded
    · refine ⟨fun sound => sound.1,fun truthy => ⟨truthy,?_⟩⟩
      -- the writer has checked the name
      intro same
      rcases available with portable | native | falsy | own
      · exact .inl portable
      · exact .inr native
      · rw [truthy] at falsy
        cases falsy
      · exact absurd (Option.some.inj (own.symm.trans same)) differ
  | workflowError serialization err =>
    obtain ⟨sererr,done,stored⟩ := bind_ok stored
    cases Except.ok.inj stored
    exact kept_result differ serialization rfl rfl (serializeResError_ok done).1
  | entry serializationType value =>
    obtain ⟨encoded,named⟩ := serializeValue_ok stored
    cases serializationType with
    | none => exact kept_own differ named encoded
    | some format =>
      refine iff_of_true ?_ trivial
      cases format with
      | native => exact kept_native rfl named encoded
      | portable => exact kept_portable none rfl named encoded
  | stepResult result =>
    obtain ⟨funcResult,done,stored⟩ := bind_ok stored
    cases Except.ok.inj stored
    obtain ⟨encoded,named,_⟩ := functionInputOutput_ok done
    have named : funcResult.sername = first.name := named.trans (chosen_name first.toDBOSSerializer)
    refine kept_by_name differ (congrArg some named) rfl ?_
    exact (ite_self result).symm ▸ encoded
  | childError err =>
    obtain ⟨encoded,named⟩ := serializeResError_ok stored
    exact kept_by_name differ (named.trans (congrArg some (chosen_name first.toDBOSSerializer))) rfl encoded
  | stepError err =>
    obtain ⟨error,encoded,stored⟩ := bind_ok stored
    cases Except.ok.inj stored
    exact kept_own differ rfl encoded
  | internalStepResult output =>
    obtain ⟨funcOutput,_,stored⟩ := bind_ok stored
    cases Except.ok.inj stored
    exact iff_of_false (not_kept_unlabelled differ rfl (chosen_name first.toDBOSSerializer)) not_false
  | internalStepError err =>
    obtain ⟨error,_,stored⟩ := bind_ok stored
    cases Except.ok.inj stored
    exact iff_of_false (not_kept_unlabelled differ rfl rfl) not_false
  | transactionalStepResult result =>
    obtain ⟨output,_,stored⟩ := bind_ok stored
    cases Except.ok.inj stored
    exact iff_of_false (not_kept_unlabelled differ rfl rfl) not_false

end

/-- A listing shows what is kept, or the text of what it cannot read. -/
theorem safeParse_kept {value : Value} {encoder reader : DBOSSerializer Value} {row : Serialized}
    (kept : Kept formats (.value value) encoder row reader) (rawText : String → Value) :
    safeParse formats rawText reader row.serializedValue row.serialization = rawText row.serializedValue ∨
      safeParse formats rawText reader row.serializedValue row.serialization = value ∨
      safeParse formats rawText reader row.serializedValue row.serialization = formats.image value := by
  unfold safeParse
  rcases kept.outcome with ⟨message,rejected⟩ | ⟨_,image⟩ | ⟨_,original⟩
  · have rejected : deserializeValue formats (some row.serializedValue) row.serialization reader = .error (.typeError message) := rejected
    exact .inl (by rw [rejected])
  · have image : deserializeValue formats (some row.serializedValue) row.serialization reader = .ok (formats.image value) := image
    exact .inr (.inr (by rw [image]))
  · have original : deserializeValue formats (some row.serializedValue) row.serialization reader = .ok value := original
    exact .inr (.inl (by rw [original]))

/-! ### One database for many executors -/

/-- A stored value, and who has stored it. -/
structure Record (Value : Type) where
  serializer : DefaultSerializer Value
  write : Write Value
  row : Serialized

/-- `workflows` is the serialization of each row of `workflow_status`. What is copied from row to row, by a fork or into the checkpoint of
    `recv` or `getEvent`, goes with its serialization and reads as the row that it is from. -/
structure System (Value : Type) where
  workflows : List (Option String) := []
  records : List (Record Value) := []

/-- A row of a workflow may be from another program or an older version. -/
inductive Event (Value : Type)
  | enqueued (serialization : Option String)
  | stores (i : Nat) (write : Write Value)

/-- The serialization of the workflow that a result is of. -/
def Write.workflow : Write Value → Option (Option String)
  | .workflowResult serialization _ => some serialization
  | .workflowError serialization _ => some serialization
  | _ => none

def Write.enqueues : Write Value → Bool
  | .workflowArgs _ _ => true
  | .enqueueArgs _ _ _ => true
  | _ => false

variable (formats)

def step (executors : List (DefaultSerializer Value)) (s : System Value) : Event Value → Option (System Value)
  | .enqueued serialization => some { s with workflows := s.workflows ++ [serialization] }
  | .stores i write =>
    match executors[i]? with
    | some serializer =>
      if write.workflow.all (· ∈ s.workflows) = true then
        match store formats serializer.toDBOSSerializer write with
        | .ok row =>
          some {
            workflows := if write.enqueues then s.workflows ++ [row.serialization] else s.workflows
            records := s.records ++ [⟨serializer,write,row⟩] }
        | .error _ => some s
      else none
    | none => none

def Record.Kept (record : Record Value) (reader : DBOSSerializer Value) : Prop :=
  Serialization.Kept formats (record.write.argument formats) (record.write.encoder formats record.serializer.toDBOSSerializer) record.row reader

/-- No checkpoint is without a name, and nobody records an error for a workflow whose serialization is not its own. -/
def Careful (executors : List (DefaultSerializer Value)) : Event Value → Prop
  | .enqueued serialization => isFalsy serialization = false
  | .stores _ (.internalStepResult _) | .stores _ (.internalStepError _) | .stores _ (.transactionalStepResult _) => False
  | .stores i (.workflowError serialization _) =>
    serialization = some formats.DBOSPortableJSON.name ∨ serialization = some formats.DBOSJSON.name ∨
      ∀ serializer, executors[i]? = some serializer → serialization = some serializer.name
  | .stores _ _ => True

variable {formats} {executors : List (DefaultSerializer Value)}

/-- What a step does: it stores something, or leaves the records as they are. -/
theorem step_cases {s s' : System Value} {e : Event Value} (taken : step formats executors s e = some s') :
    (∃ serialization, e = .enqueued serialization ∧ s' = { s with workflows := s.workflows ++ [serialization] }) ∨
    (∃ i write serializer row, e = .stores i write ∧ executors[i]? = some serializer ∧
      (∀ serialization ∈ write.workflow, serialization ∈ s.workflows) ∧ store formats serializer.toDBOSSerializer write = .ok row ∧
      s' = { workflows := if write.enqueues then s.workflows ++ [row.serialization] else s.workflows
             records := s.records ++ [⟨serializer,write,row⟩] }) ∨ s' = s := by
  cases e with
  | enqueued serialization => exact .inl ⟨serialization,rfl,(Option.some.inj taken).symm⟩
  | stores i write =>
    simp only [step] at taken
    split at taken
    · rename_i serializer found
      split at taken
      · rename_i known
        split at taken
        · rename_i row stored
          refine .inr (.inl ⟨i,write,serializer,row,rfl,found,?_,stored,(Option.some.inj taken).symm⟩)
          intro serialization listed
          rw [Option.mem_def] at listed
          rw [listed] at known
          exact of_decide_eq_true known
        · exact .inr (.inr (Option.some.inj taken).symm)
      · cases taken
    · cases taken

/-- One value is stored that is no result of a workflow. -/
theorem runs_stores (executors : List (DefaultSerializer Value)) {serializer : DefaultSerializer Value} {write : Write Value}
    {row : Serialized} (found : executors[0]? = some serializer) (free : write.workflow = none)
    (stored : store formats serializer.toDBOSSerializer write = .ok row) :
    Runs (step formats executors) {} [.stores 0 write]
      { workflows := if write.enqueues then [] ++ [row.serialization] else [],records := [⟨serializer,write,row⟩] } := by
  refine runs_cons.mpr ⟨_,?_,runs_nil.mpr rfl⟩
  simp only [step,found,free,stored]
  rfl

theorem records_stored {events : List (Event Value)} {s : System Value} (run : Runs (step formats executors) {} events s) :
    ∀ record ∈ s.records, store formats record.serializer.toDBOSSerializer record.write = .ok record.row := by
  refine runs_invariant (I := fun s => ∀ record ∈ s.records, store formats record.serializer.toDBOSSerializer record.write = .ok record.row)
    ?_ ?_ run
  · intro s e s' held taken
    obtain ⟨_,_,rfl⟩ | ⟨_,write,serializer,row,_,_,_,stored,rfl⟩ | rfl := step_cases taken
    · exact held
    · intro record listed
      rcases List.mem_append.mp listed with old | new
      · exact held record old
      · obtain rfl := List.mem_singleton.mp new
        exact stored
    · exact held
  · intro record listed
    cases listed

/-! ### Executors with names of their own -/

/-- The row of a new workflow is under a name. -/
theorem enqueued_named {serializer : DefaultSerializer Value} (own : OwnName formats serializer.toDBOSSerializer) {write : Write Value}
    (enqueues : write.enqueues = true) {row : Serialized} (stored : store formats serializer.toDBOSSerializer write = .ok row) :
    isFalsy row.serialization = false := by
  have formatNamed : ∀ format, formats.formatName format serializer.toDBOSSerializer ≠ "" := by
    intro format
    cases format with
    | none => exact own.1
    | some format =>
      cases format with
      | native => exact native_ne_empty
      | portable => exact portable_ne_empty
  cases write with
  | workflowArgs serializationType args =>
    obtain ⟨funcArgs,done,stored⟩ := bind_ok stored
    cases Except.ok.inj stored
    obtain ⟨_,named,_⟩ := functionInputOutput_ok done
    refine isFalsy_some.mpr ?_
    rw [named]
    unfold Formats.chosen
    split
    · exact portable_ne_empty
    · split
      · exact native_ne_empty
      · exact own.1
  | enqueueArgs serializationType positionalArgs namedArgs =>
    have stored : serializeArgs formats positionalArgs namedArgs serializer.toDBOSSerializer serializationType = .ok row := stored
    by_cases portable : serializationType = some .portable
    · subst portable
      obtain ⟨text,_,stored⟩ := bind_ok stored
      cases Except.ok.inj stored
      exact isFalsy_some.mpr portable_ne_empty
    · obtain ⟨_,named⟩ := serializeValue_ok (serializeArgs_ok portable stored)
      rw [named,isFalsy_some]
      have formatted := formatNamed serializationType
      cases serializationType with
      | none => exact formatted
      | some format => cases format <;> exact formatted
  | _ => cases enqueues

theorem sound_of_careful {i : Nat} {serializer reader : DefaultSerializer Value} (own : OwnName formats serializer.toDBOSSerializer)
    (differ : serializer.name ≠ reader.name) {write : Write Value} (careful : Careful formats executors (.stores i write))
    (found : executors[i]? = some serializer) (named : ∀ serialization ∈ write.workflow, isFalsy serialization = false) :
    Sound formats serializer.toDBOSSerializer reader.toDBOSSerializer write := by
  cases write with
  | workflowArgs serializationType args =>
    cases serializationType with
    | none => exact ⟨own.1,fun portable => absurd portable own.2.1⟩
    | some format => trivial
  | enqueueArgs serializationType positionalArgs namedArgs =>
    cases serializationType with
    | none => exact own
    | some format => trivial
  | entry serializationType value =>
    cases serializationType with
    | none => exact own
    | some format => trivial
  | workflowResult serialization result => exact named serialization rfl
  | workflowError serialization err =>
    refine ⟨named serialization rfl,?_⟩
    intro same
    rcases careful with portable | native | mine
    · exact .inl portable
    · exact .inr native
    · exact absurd (Option.some.inj ((mine serializer found).symm.trans same)) differ
  | stepResult result => exact own.1
  | childError err => exact own.1
  | stepError err => exact own
  | internalStepResult output => exact careful
  | internalStepError err => exact careful
  | transactionalStepResult result => exact careful

/-- Where all serializers have names of their own, only two writers give rise to what is misread: the ones that leave the name out, and
    the one of an error for a workflow whose serialization the executor does not have. -/
theorem records_kept (own : ∀ serializer ∈ executors, OwnName formats serializer.toDBOSSerializer) {events : List (Event Value)}
    {s : System Value} (careful : Along (step formats executors) (fun _ => Careful formats executors) {} events)
    (run : Runs (step formats executors) {} events s) :
    ∀ record ∈ s.records, ∀ reader : DefaultSerializer Value, record.serializer.name ≠ reader.name →
      record.Kept formats reader.toDBOSSerializer := by
  have held : (∀ serialization ∈ s.workflows, isFalsy serialization = false) ∧
      ∀ record ∈ s.records, ∀ reader : DefaultSerializer Value, record.serializer.name ≠ reader.name →
        record.Kept formats reader.toDBOSSerializer := by
    refine along_invariant (I := fun s => (∀ serialization ∈ s.workflows, isFalsy serialization = false) ∧
      ∀ record ∈ s.records, ∀ reader : DefaultSerializer Value, record.serializer.name ≠ reader.name →
        record.Kept formats reader.toDBOSSerializer) ?_ ?_ careful run
    · rintro s e s' ⟨named,kept⟩ careful taken
      obtain ⟨serialization,rfl,rfl⟩ | ⟨i,write,serializer,row,rfl,found,known,stored,rfl⟩ | rfl := step_cases taken
      · refine ⟨?_,kept⟩
        intro other listed
        rcases List.mem_append.mp listed with old | new
        · exact named other old
        · obtain rfl := List.mem_singleton.mp new
          exact careful
      · have own := own serializer (List.mem_of_getElem? found)
        constructor
        · intro other listed
          cases enqueues : write.enqueues with
          | false =>
            rw [if_neg (by simp [enqueues])] at listed
            exact named other listed
          | true =>
            rw [if_pos enqueues] at listed
            rcases List.mem_append.mp listed with old | new
            · exact named other old
            · obtain rfl := List.mem_singleton.mp new
              exact enqueued_named own enqueues stored
        · intro record listed reader differ
          rcases List.mem_append.mp listed with old | new
          · exact kept record old reader differ
          · obtain rfl := List.mem_singleton.mp new
            exact (kept_iff differ stored).mpr
              (sound_of_careful own differ careful found fun serialization mem => named serialization (known serialization mem))
      · exact ⟨named,kept⟩
    · constructor
      · intro serialization listed
        cases listed
      · intro record listed
        cases listed
  exact held.2

end

/-! ### JSON of letters and digits -/

/-- Values of JavaScript, of which only letters and digits are written here. -/
inductive Sample
  | undefined
  | null
  | string (text : String)
  | array (items : List Sample)
  | args (positionalArgs : List Sample)

def unwrap (before after text : String) : String :=
  .ofList ((text.toList.drop before.toList.length).take (text.toList.length - before.toList.length - after.toList.length))

theorem unwrap_append (before text after : String) : unwrap before after (before ++ text ++ after) = text := by
  have length : before.toList.length + (text.toList.length + after.toList.length) - before.toList.length - after.toList.length =
      text.toList.length := by omega
  simp only [unwrap,String.toList_append,List.append_assoc,List.drop_left,List.length_append,length,List.take_left,String.ofList_toList]

def Sample.stringify (write : String → String) : Sample → Except (Thrown Sample) String
  | .string text => if text.toList.all Char.isAlphanum then .ok (write text) else .error (.error .null)
  | _ => .error (.error .null)

def quoted (text : String) : String := "\"" ++ text ++ "\""

def Sample.parse : Option String → Except (Thrown Sample) Sample
  | none => .ok .null
  | some text => .ok (if text = "null" then .null else .string (unwrap "\"" "\"" text))

theorem parse_quoted (text : String) : Sample.parse (some (quoted text)) = .ok (.string text) := by
  have other : quoted text ≠ "null" := by
    intro same
    have first := congrArg (fun s : String => s.toList.head?) same
    simp [quoted] at first
  simp only [Sample.parse,if_neg other]
  rw [quoted,unwrap_append]

def portableJson : DBOSSerializer Sample where
  name := "portable_json"
  stringify
    | .undefined => .ok "null"
    | .null => .ok "null"
    | value => value.stringify quoted
  parse := Sample.parse

def brandedBefore : String := "\x7b\"json\":\""

def brandedAfter : String := "\",\"__dbos_serializer\":\"superjson\"\x7d"

/-- What has no brand is JSON. -/
def superjson : DBOSSerializer Sample where
  name := "js_superjson"
  stringify value := value.stringify fun text => brandedBefore ++ text ++ brandedAfter
  parse
    | none => .ok .null
    | some text =>
      if brandedBefore.toList.isPrefixOf text.toList then .ok (.string (unwrap brandedBefore brandedAfter text)) else Sample.parse (some text)

theorem stringify_ok {write : String → String} {value : Sample} {text : String} (done : value.stringify write = .ok text) :
    ∃ plain, value = .string plain ∧ text = write plain := by
  cases value with
  | string plain =>
    simp only [Sample.stringify] at done
    split at done
    · exact ⟨plain,rfl,(Except.ok.inj done).symm⟩
    · cases done
  | _ => cases done

theorem superjson_roundTrips : superjson.RoundTrips := by
  intro value text done
  obtain ⟨plain,rfl,rfl⟩ := stringify_ok done
  have branded : brandedBefore.toList.isPrefixOf (brandedBefore ++ plain ++ brandedAfter).toList = true := by
    rw [String.append_assoc,String.toList_append]
    exact List.isPrefixOf_iff_prefix.mpr (List.prefix_append _ _)
  simp only [superjson,if_pos branded,unwrap_append]

def Sample.image : Sample → Sample
  | .undefined => .null
  | value => value

def sampleFormats : Formats Sample where
  DBOSPortableJSON := portableJson
  DBOSJSON := superjson
  undefined := .undefined
  null := .null
  array := .array
  isObjectish
    | .array _ => true
    | .args _ => true
    | _ => false
  attachFunctionStubs _ deserialized := deserialized
  jsonWorkflowArgs positionalArgs _ := .args (positionalArgs.getD [])
  positionalArgs
    | .undefined => .error (.error .null)
    | .null => .error (.error .null)
    | .args positionalArgs => .ok (.array positionalArgs)
    | _ => .ok (.array [])
  jsonWorkflowErrorData err := err
  portableWorkflowError err := err
  serializeError err := err
  deserializeError err := err
  image := Sample.image
  portable_name := rfl
  native_name := rfl
  portable_image := by
    intro value text done
    cases value with
    | undefined =>
      cases done
      rfl
    | null =>
      cases done
      rfl
    | string plain =>
      have done : (Sample.string plain).stringify quoted = .ok text := done
      obtain ⟨_,same,rfl⟩ := stringify_ok done
      cases same
      exact parse_quoted plain
    | _ => cases done
  native_roundTrips := superjson_roundTrips
  image_undefined := ⟨"null",rfl,nofun⟩
  image_array args := by simp [Sample.image]
  positionalArgs_args args named := rfl
  positionalArgs_array args := rfl

/-- JSON, with the texts reversed. -/
def reversed : DefaultSerializer Sample where
  name := "reversed"
  stringify value := value.stringify fun text => quoted (.ofList text.toList.reverse)
  parse text := (Sample.parse text).map fun
    | .string text => .string (.ofList text.toList.reverse)
    | value => value
  roundTrips := by
    intro value text done
    obtain ⟨plain,rfl,rfl⟩ := stringify_ok done
    simp only [parse_quoted,Except.map,String.toList_ofList,List.reverse_reverse,String.ofList_toList]

def branded : DefaultSerializer Sample where
  toDBOSSerializer := superjson
  roundTrips := superjson_roundTrips

/-! ### What another executor reads -/

/-- In every run an executor with another serializer is given back what has been stored, or refused it, just where the write is sound. -/
theorem records_kept_iff {Value : Type} {formats : Formats Value} {executors : List (DefaultSerializer Value)} {events : List (Event Value)}
    {s : System Value} (run : Runs (step formats executors) {} events s) {record : Record Value} (listed : record ∈ s.records)
    {reader : DefaultSerializer Value} (differ : record.serializer.name ≠ reader.name) : record.Kept formats reader.toDBOSSerializer ↔
      Sound formats record.serializer.toDBOSSerializer reader.toDBOSSerializer record.write :=
  kept_iff differ (records_stored run record listed)

theorem records_kept_iff_sent : ∃ s record, Runs (step sampleFormats [reversed,branded]) {} [.stores 0 (.entry none (.string "abc"))] s ∧
    record ∈ s.records ∧ record.serializer.name ≠ branded.name ∧ record.Kept sampleFormats branded.toDBOSSerializer := by
  have stored : store sampleFormats reversed.toDBOSSerializer (.entry none (.string "abc")) = .ok ⟨"\"cba\"",some "reversed"⟩ := by rfl
  have run := runs_stores [reversed,branded] rfl rfl stored
  have differ : reversed.name ≠ branded.name := by decide
  have sound : OwnName sampleFormats reversed.toDBOSSerializer := ⟨by decide,by decide,fun same => absurd same (by decide)⟩
  exact ⟨_,_,run,List.mem_singleton_self _,differ,(records_kept_iff run (List.mem_singleton_self _) differ).mpr sound⟩

/-- The text of an internal step is without a name, and is another value to the other serializer. -/
theorem internalStep_misread :
    (∃ s record, Runs (step sampleFormats [reversed,branded]) {} [.stores 0 (.internalStepResult (.string "abc"))] s ∧ record ∈ s.records ∧
      deserializeValue sampleFormats (some record.row.serializedValue) record.row.serialization branded.toDBOSSerializer =
        .ok (.string "cba")) ∧
    ¬ ∀ (executors : List (DefaultSerializer Sample)) events s, Runs (step sampleFormats executors) {} events s → ∀ record ∈ s.records,
      ∀ reader : DefaultSerializer Sample, record.serializer.name ≠ reader.name → record.Kept sampleFormats reader.toDBOSSerializer := by
  have stored : store sampleFormats reversed.toDBOSSerializer (.internalStepResult (.string "abc")) = .ok ⟨"\"cba\"",none⟩ := by rfl
  have run := runs_stores [reversed,branded] rfl rfl stored
  refine ⟨⟨_,_,run,List.mem_singleton_self _,by rfl⟩,?_⟩
  intro all
  have differ : reversed.name ≠ branded.name := by decide
  exact (kept_iff differ stored).mp (all _ _ _ run _ (List.mem_singleton_self _) branded differ)

end Dbos.Serialization
