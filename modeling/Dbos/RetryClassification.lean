import Dbos.Pg.Worklist
import Dbos.Js.Json
import Mathlib.Data.Fintype.Basic
import Mathlib.Algebra.Ring.Nat

/-!
Which errors of the database are retried: `retriablePostgresException` of `src/system_database.ts` goes through an error and all that it
wraps, and `dbRetry` calls an operation again for as long as its errors are retriable. An error may be any value of JavaScript, and the
wrapped errors may form cycles.
-/
namespace Dbos.RetryClassification
open Dbos.Js Pg

/-! ### Values -/

/-- A number is given by the text that `String` makes of it. -/
inductive Value (Ref : Type)
  | undefined
  | null
  | boolean (b : Bool)
  | number (text : String)
  | bigint (n : Int)
  | symbol (text : String)
  | string (s : String)
  | object (ref : Ref)
  | function (ref : Ref)
deriving DecidableEq

inductive Thrown
  | typeError
  /-- What a `toString` of its own has thrown. -/
  | raised
deriving DecidableEq

/-- What is read of an object or a function. The elements of `errors` are there if it is an array; `boxed` is the text of a `String` object,
    which has the methods of texts; `text` is what `String` makes of it. -/
structure Object (Ref : Type) where
  errors : Option (List (Value Ref)) := none
  cause : Value Ref := .undefined
  error : Value Ref := .undefined
  code : Value Ref := .undefined
  isError : Bool := false
  stack : Value Ref := .undefined
  message : Value Ref := .undefined
  boxed : Option String := none
  text : Except Thrown String

/-- `toLowerCase`, which goes character by character where the text has ASCII characters only. -/
structure Lowercase where
  toLowerCase : String → String
  ascii : ∀ s : String,(∀ c ∈ s.toList,c.val < 128) → toLowerCase s = String.ofList (s.toList.map Char.toLower)

section
variable {Ref : Type} (heap : Ref → Object Ref)

def Value.truthy : Value Ref → Bool
  | .undefined => false
  | .null => false
  | .boolean b => b
  | .number text => text ≠ "0" ∧ text ≠ "NaN"
  | .bigint n => n ≠ 0
  | .string s => s ≠ ""
  | .symbol _ => true
  | .object _ => true
  | .function _ => true

def Value.isObject : Value Ref → Bool
  | .object _ => true
  | _ => false

/-- `e.code`. Nothing can be read of `undefined` and of `null`. -/
def Value.code : Value Ref → Except Thrown (Value Ref)
  | .undefined => .error .typeError
  | .null => .error .typeError
  | .object ref => .ok (heap ref).code
  | .function ref => .ok (heap ref).code
  | _ => .ok .undefined

/-- `e instanceof Error`, with what the error is made of. -/
def Value.asError : Value Ref → Option (Object Ref)
  | .object ref => if (heap ref).isError then some (heap ref) else none
  | .function ref => if (heap ref).isError then some (heap ref) else none
  | _ => none

/-- `String(e)`. -/
def Value.toText : Value Ref → Except Thrown String
  | .undefined => .ok "undefined"
  | .null => .ok "null"
  | .boolean b => .ok (if b then "true" else "false")
  | .number text => .ok text
  | .bigint n => .ok (toString n)
  | .symbol text => .ok text
  | .string s => .ok s
  | .object ref => (heap ref).text
  | .function ref => (heap ref).text

/-- The text whose methods a value has. -/
def Value.methods : Value Ref → Option String
  | .string s => some s
  | .object ref => (heap ref).boxed
  | _ => none

def utf16Length (s : String) : Nat := (s.toList.map fun c => if c.val < 0x10000 then 1 else 2).sum

/-! ### The classifiers -/

def RETRY_SQLSTATE_PREFIXES : List String := ["08","53","57"]

def RETRY_SQLSTATE_CODES : List String := ["40003"]

def RETRY_NODE_ERRNOS : List String := ["ECONNRESET","ECONNREFUSED","EHOSTUNREACH","ENETUNREACH","ETIMEDOUT","ECONNABORTED"]

/-- The code of a `DatabaseError`. -/
def isPgDatabaseError (e : Value Ref) : Option String :=
  match e with
  | .object ref =>
    match (heap ref).code with
    | .string code => if utf16Length code = 5 then some code else none
    | _ => none
  | _ => none

/-- No prefix has a character of two units, so that the first two characters do for `slice(0, 2)`. -/
def sqlStateLooksRetryable (sqlstate : String) : Bool :=
  if sqlstate = "" then false
  else if sqlstate ∈ RETRY_SQLSTATE_CODES then true
  else String.ofList (sqlstate.toList.take 2) ∈ RETRY_SQLSTATE_PREFIXES

def nodeErrnoLooksRetryable (e : Value Ref) : Except Thrown Bool :=
  match e.code heap with
  | .error thrown => .error thrown
  | .ok (.string code) => .ok (code ≠ "" ∧ code ∈ RETRY_NODE_ERRNOS)
  | .ok _ => .ok false

variable (lowercase : Lowercase)

def textLooksRetryable (msg : String) : Bool :=
  let m := lowercase.toLowerCase msg
  includes msg "ECONNREFUSED" || includes msg "ECONNRESET" || includes m "connection timeout" ||
    includes m "server closed the connection" || includes m "connection terminated unexpectedly" ||
    includes m "client has encountered a connection error" || includes m "timeout exceeded when trying to connect" ||
    includes m "could not connect to server"

/-- A value that is no text has no `toLowerCase`. -/
def messageLooksRetryable (msg : Value Ref) : Except Thrown Bool :=
  match msg.methods heap with
  | some msg => .ok (textLooksRetryable lowercase msg)
  | none => .error .typeError

/-- `if (msg && messageLooksRetryable(msg)) return true`, before the rest. -/
def orElse (msg : Value Ref) (rest : Except Thrown Bool) : Except Thrown Bool :=
  if msg.truthy then
    match messageLooksRetryable heap lowercase msg with
    | .error thrown => .error thrown
    | .ok true => .ok true
    | .ok false => rest
  else rest

/-- The part of the loop that looks for network issues in the texts. -/
def textsLookRetryable (e : Value Ref) : Except Thrown Bool :=
  match e.asError heap with
  | some error => orElse heap lowercase error.stack (orElse heap lowercase error.message (.ok false))
  | none =>
    match e.toText heap with
    | .error thrown => .error thrown
    | .ok text => .ok (textLooksRetryable lowercase text)

/-- The body of the loop of `retriablePostgresException`: `true` returns. -/
def looksRetryable (e : Value Ref) : Except Thrown Bool :=
  if ∃ code ∈ isPgDatabaseError heap e,sqlStateLooksRetryable code = true then .ok true
  else
    match nodeErrnoLooksRetryable heap e with
    | .error thrown => .error thrown
    | .ok true => .ok true
    | .ok false => textsLookRetryable heap lowercase e

/-! ### The walk -/

/-- What `unwrapErrors` puts in its queue for a value. -/
def links (cur : Value Ref) : List (Value Ref) :=
  match cur with
  | .object ref =>
    ((heap ref).errors.getD []) ++ (if (heap ref).cause.truthy then [(heap ref).cause] else []) ++
      (if (heap ref).error.truthy then [(heap ref).error] else [])
  | _ => []

/-- Objects are remembered in `seen`, other values are not. -/
def unwrapErrors [DecidableEq Ref] (walk : Walk (Value Ref)) : Option (Option (Value Ref) × Walk (Value Ref)) :=
  walk.turn (links heap) Value.isObject

/-- What ends the loop over the values. -/
def verdict (e : Value Ref) : Option (Except Thrown Bool) :=
  match looksRetryable heap lowercase e with
  | .error thrown => some (.error thrown)
  | .ok true => some (.ok true)
  | .ok false => none

/-- A turn of `for (const e of unwrapErrors(err))`, and the `return false` behind it. -/
def retriableTurn [DecidableEq Ref] (walk : Walk (Value Ref)) : Except Thrown Bool ⊕ Walk (Value Ref) :=
  match unwrapErrors heap walk with
  | none => .inl (.ok false)
  | some (none,walk) => .inr walk
  | some (some e,walk) =>
    match verdict heap lowercase e with
    | some result => .inl result
    | none => .inr walk

def retriablePostgresException [DecidableEq Ref] (fuel : Nat) (err : Value Ref) : Option (Except Thrown Bool) :=
  loop (fun _ walk => some (retriableTurn heap lowercase walk)) fuel ⟨[err],[]⟩

/-! ### What is retryable -/

def BySqlState (e : Value Ref) : Prop := ∃ code ∈ isPgDatabaseError heap e,sqlStateLooksRetryable code = true

def ByErrno (e : Value Ref) : Prop := ∃ code ∈ RETRY_NODE_ERRNOS,e.code heap = .ok (.string code)

/-- The stack and the message of an error, and the text of any other value. -/
def Value.texts (e : Value Ref) : List String :=
  match e.asError heap with
  | some error => (error.stack.methods heap).toList ++ (error.message.methods heap).toList
  | none => (e.toText heap).toOption.toList

def ByText (e : Value Ref) : Prop := ∃ text ∈ e.texts heap,textLooksRetryable lowercase text = true

def Retryable (e : Value Ref) : Prop := BySqlState heap e ∨ ByErrno heap e ∨ ByText heap lowercase e

/-- Wrapped at any depth: the elements of `errors`, the `cause` and the `error`. -/
def Wraps (e v : Value Ref) : Prop := ∃ ref,e = .object ref ∧ (v ∈ (heap ref).errors.getD [] ∨ v = (heap ref).cause ∨ v = (heap ref).error)

/-- Something stands in the place of a text that is none. -/
def Unreadable (msg : Value Ref) : Prop := msg.truthy = true ∧ msg.methods heap = none

/-- The texts of a value cannot be read as far as they would have to decide. -/
def Textless (e : Value Ref) : Prop :=
  match e.asError heap with
  | some error => Unreadable heap error.stack ∨
      (∀ text ∈ error.stack.methods heap,textLooksRetryable lowercase text = false) ∧ Unreadable heap error.message
  | none => (e.toText heap).toOption = none

/-- The classifiers fail on `undefined`, on `null`, and on what nothing but its texts could decide when these cannot be read. -/
def Troubled (e : Value Ref) : Prop :=
  e = .undefined ∨ e = .null ∨ ¬ BySqlState heap e ∧ ¬ ByErrno heap e ∧ Textless heap lowercase e

variable {heap lowercase} {e v : Value Ref}

theorem toLowerCase_plain {s : String} (plain : ∀ c ∈ s.toList,c.val < 128) :
    (lowercase.toLowerCase s).toList = s.toList.map Char.toLower := by rw [lowercase.ascii s plain,String.toList_ofList]

theorem textLooksRetryable_falsy : ∀ text ∈ ["undefined","null","false","0","NaN",""],textLooksRetryable lowercase text = false := by
  intro text listed
  have plain : ∀ c ∈ text.toList,c.val < 128 := by
    revert text
    decide
  simp only [textLooksRetryable,includes,toLowerCase_plain plain]
  clear plain
  revert text
  decide

variable (heap lowercase) in
/-- What is not truthy has no retryable text. -/
theorem falsy_text (falsy : v.truthy = false) : ∃ text,v.toText heap = .ok text ∧ textLooksRetryable lowercase text = false := by
  cases v with
  | undefined => exact ⟨_,rfl,textLooksRetryable_falsy _ (by simp)⟩
  | null => exact ⟨_,rfl,textLooksRetryable_falsy _ (by simp)⟩
  | boolean b =>
    cases falsy
    exact ⟨_,rfl,textLooksRetryable_falsy _ (by simp)⟩
  | number text =>
    refine ⟨_,rfl,textLooksRetryable_falsy _ ?_⟩
    by_cases zero : text = "0" <;> simp_all [Value.truthy]
  | bigint n =>
    have zero : n = 0 := by simpa [Value.truthy] using falsy
    subst zero
    exact ⟨"0",rfl,textLooksRetryable_falsy _ (by simp)⟩
  | string s =>
    have empty : s = "" := by simpa [Value.truthy] using falsy
    subst empty
    exact ⟨_,rfl,textLooksRetryable_falsy _ (by simp)⟩
  | symbol text => cases falsy
  | object ref => cases falsy
  | function ref => cases falsy

theorem methods_text {text : String} (methods : v.methods heap = some text) (falsy : v.truthy = false) : text = "" := by
  cases v with
  | string s =>
    cases methods
    simpa [Value.truthy] using falsy
  | object ref => cases falsy
  | _ => cases methods

/-- A value that is not truthy has no text that matters. -/
theorem orElse_eq (msg : Value Ref) (rest : Except Thrown Bool) : orElse heap lowercase msg rest =
    match msg.methods heap with
    | some text => if textLooksRetryable lowercase text then .ok true else rest
    | none => if msg.truthy then .error .typeError else rest := by
  unfold orElse messageLooksRetryable
  cases truthy : msg.truthy with
  | true =>
    cases methods : msg.methods heap with
    | none => rfl
    | some text => cases found : textLooksRetryable lowercase text <;> simp [found]
  | false =>
    cases methods : msg.methods heap with
    | none => rfl
    | some text =>
      cases methods_text methods truthy
      simp [textLooksRetryable_falsy "" (by simp)]

variable (heap) in
/-- The errno of a value: one to retry for, another or none, or nothing can be read. -/
theorem nodeErrnoLooksRetryable_cases (e : Value Ref) :
    (nodeErrnoLooksRetryable heap e = .ok true ∧ ByErrno heap e ∧ ¬ (e = .undefined ∨ e = .null)) ∨
    (nodeErrnoLooksRetryable heap e = .ok false ∧ ¬ ByErrno heap e ∧ ¬ (e = .undefined ∨ e = .null)) ∨
    (nodeErrnoLooksRetryable heap e = .error .typeError ∧ (e = .undefined ∨ e = .null)) := by
  have readable : (∃ v,e.code heap = .ok v ∧ ¬ (e = .undefined ∨ e = .null)) ∨ (e.code heap = .error .typeError ∧ (e = .undefined ∨ e = .null)) := by
    cases e <;> simp [Value.code]
  unfold nodeErrnoLooksRetryable ByErrno
  rcases readable with ⟨v,code,some_⟩ | ⟨nothing,none_⟩
  · rw [code]
    cases v with
    | string text =>
      by_cases listed : text ∈ RETRY_NODE_ERRNOS
      · have filled : text ≠ "" := by
          rintro rfl
          simp [RETRY_NODE_ERRNOS] at listed
        exact .inl ⟨by simp [filled,listed],⟨text,listed,rfl⟩,some_⟩
      · refine .inr (.inl ⟨by simp [listed],?_,some_⟩)
        rintro ⟨_,member,same⟩
        cases same
        exact listed member
    | _ => exact .inr (.inl ⟨rfl,by simp,some_⟩)
  · rw [nothing]
    exact .inr (.inr ⟨rfl,none_⟩)

variable (heap lowercase) in
/-- The texts of a value decide, or they cannot be read. -/
theorem textsLookRetryable_cases (e : Value Ref) :
    (textsLookRetryable heap lowercase e = .ok true ∧ ByText heap lowercase e ∧ ¬ Textless heap lowercase e) ∨
    (textsLookRetryable heap lowercase e = .ok false ∧ ¬ ByText heap lowercase e ∧ ¬ Textless heap lowercase e) ∨
    ∃ thrown,textsLookRetryable heap lowercase e = .error thrown ∧ Textless heap lowercase e := by
  unfold textsLookRetryable ByText Value.texts Textless
  rcases isError : e.asError heap with _ | error
  · rcases shown : e.toText heap with thrown | text
    · exact .inr (.inr ⟨thrown,rfl,rfl⟩)
    · cases found : textLooksRetryable lowercase text <;> simp [Except.toOption,found]
  · simp only [orElse_eq,Unreadable]
    rcases stack : error.stack.methods heap with _ | text
    · cases filled : error.stack.truthy with
      | true => exact .inr (.inr ⟨.typeError,rfl,.inl ⟨rfl,rfl⟩⟩)
      | false =>
        rcases message : error.message.methods heap with _ | text
        · cases given : error.message.truthy <;> simp
        · cases found : textLooksRetryable lowercase text <;> simp [found]
    · cases found : textLooksRetryable lowercase text with
      | true => simp [found]
      | false =>
        rcases message : error.message.methods heap with _ | other
        · cases given : error.message.truthy <;> simp [found]
        · cases found' : textLooksRetryable lowercase other <;> simp [found,found']

variable (heap lowercase) in
/-- One value is retryable, or it is not, or it is in trouble. -/
theorem looksRetryable_cases (e : Value Ref) :
    (looksRetryable heap lowercase e = .ok true ∧ Retryable heap lowercase e ∧ ¬ Troubled heap lowercase e) ∨
    (looksRetryable heap lowercase e = .ok false ∧ ¬ Retryable heap lowercase e ∧ ¬ Troubled heap lowercase e) ∨
    ∃ thrown,looksRetryable heap lowercase e = .error thrown ∧ Troubled heap lowercase e := by
  unfold looksRetryable Retryable Troubled
  by_cases state : BySqlState heap e
  · have there : e ≠ .undefined ∧ e ≠ .null := by
      constructor <;> rintro rfl <;> simp [BySqlState,isPgDatabaseError] at state
    exact .inl ⟨if_pos state,.inl state,by tauto⟩
  rw [if_neg (show ¬ ∃ code ∈ isPgDatabaseError heap e,sqlStateLooksRetryable code = true from state)]
  rcases nodeErrnoLooksRetryable_cases heap e with ⟨answer,errno,there⟩ | ⟨answer,errno,there⟩ | ⟨answer,missing⟩
  · rw [answer]
    exact .inl ⟨rfl,.inr (.inl errno),by tauto⟩
  · rw [answer]
    rcases textsLookRetryable_cases heap lowercase e with ⟨answer,text,readable⟩ | ⟨answer,text,readable⟩ | ⟨thrown,answer,textless⟩
    · exact .inl ⟨answer,.inr (.inr text),by tauto⟩
    · exact .inr (.inl ⟨answer,by tauto,by tauto⟩)
    · exact .inr (.inr ⟨thrown,answer,.inr (.inr ⟨state,errno,textless⟩)⟩)
  · rw [answer]
    exact .inr (.inr ⟨_,rfl,by tauto⟩)

theorem verdict_none (silent : verdict heap lowercase e = none) : ¬ Retryable heap lowercase e ∧ ¬ Troubled heap lowercase e := by
  rcases looksRetryable_cases heap lowercase e with ⟨answer,_⟩ | ⟨_,kept⟩ | ⟨thrown,answer,_⟩
  · simp [verdict,answer] at silent
  · exact kept
  · simp [verdict,answer] at silent

theorem verdict_some {result : Except Thrown Bool} (ended : verdict heap lowercase e = some result) :
    (result = .ok true ∧ Retryable heap lowercase e ∧ ¬ Troubled heap lowercase e) ∨
      (∃ thrown,result = .error thrown) ∧ Troubled heap lowercase e := by
  rcases looksRetryable_cases heap lowercase e with ⟨answer,kept⟩ | ⟨answer,_⟩ | ⟨thrown,answer,trouble⟩
  · rw [verdict,answer] at ended
    exact .inl ⟨(Option.some.inj ended).symm,kept⟩
  · simp [verdict,answer] at ended
  · rw [verdict,answer] at ended
    exact .inr ⟨⟨thrown,(Option.some.inj ended).symm⟩,trouble⟩

/-! ### What is wrapped -/

theorem falsy_not_retryable (falsy : v.truthy = false) : ¬ Retryable heap lowercase v := by
  have text := falsy_text heap lowercase falsy
  rintro (state | errno | said)
  · cases v <;> simp [BySqlState,isPgDatabaseError,Value.truthy] at state falsy
  · cases v <;> simp [ByErrno,Value.code,Value.truthy] at errno falsy
  · obtain ⟨shown,reads,quiet⟩ := text
    have plain : v.asError heap = none := by cases v <;> first | rfl | cases falsy
    obtain ⟨found,listed,loud⟩ := said
    have same : found = shown := by simpa [Value.texts,plain,reads,Except.toOption] using listed
    rw [same,quiet] at loud
    cases loud

theorem wraps_links (step : Wraps heap e v) : v ∈ links heap e ∨ v.truthy = false := by
  obtain ⟨ref,rfl,listed | rfl | rfl⟩ := step
  · exact .inl (List.mem_append_left _ (List.mem_append_left _ listed))
  · by_cases given : (heap ref).cause.truthy = true
    · exact .inl (by simp [links,given])
    · exact .inr (by simpa using given)
  · by_cases given : (heap ref).error.truthy = true
    · exact .inl (by simp [links,given])
    · exact .inr (by simpa using given)

theorem links_wraps (step : v ∈ links heap e) : Wraps heap e v := by
  cases e with
  | object ref =>
    refine ⟨ref,rfl,?_⟩
    simp only [links,List.mem_append] at step
    rcases step with (listed | cause) | error
    · exact .inl listed
    · exact .inr (.inl (by split at cause <;> simp_all))
    · exact .inr (.inr (by split at error <;> simp_all))
  | _ => cases step

/-- What the walk leaves out is not retryable and wraps nothing. -/
theorem wraps_leads (path : Relation.ReflTransGen (Wraps heap) e v) (retryable : Retryable heap lowercase v) : Leads (links heap) e v := by
  induction path using Relation.ReflTransGen.head_induction_on with
  | refl => exact .refl
  | @head a b step rest ih =>
    rcases wraps_links step with pushed | falsy
    · exact .head pushed ih
    · rcases Relation.ReflTransGen.cases_head rest with rfl | ⟨_,⟨ref,rfl,_⟩,_⟩
      · exact absurd retryable (falsy_not_retryable falsy)
      · cases falsy

/-! ### The walk over an error -/

variable {err : Value Ref}

/-- Nobody fails the classifiers before somebody is retryable, in the order of the walk. -/
def Untroubled (heap : Ref → Object Ref) (lowercase : Lowercase) (err : Value Ref) : Prop :=
  ∀ n before v after,breadth (links heap) n [err] = before ++ v :: after → Troubled heap lowercase v → ∃ w ∈ before,Retryable heap lowercase w

theorem untroubled_true {n : Nat} {before after : List (Value Ref)} (order : breadth (links heap) n [err] = before ++ v :: after)
    (retryable : Retryable heap lowercase v) (fine : ¬ Troubled heap lowercase v) (silent : ∀ w ∈ before,verdict heap lowercase w = none) :
    Untroubled heap lowercase err := by
  intro m before' w after' order' trouble
  rcases breadth_either order order' with early | early | rfl
  · exact ⟨v,early,retryable⟩
  · exact absurd trouble (verdict_none (silent w early)).2
  · exact absurd trouble fine

variable [DecidableEq Ref]

theorem retriableTurn_eq (walk : Walk (Value Ref)) : retriableTurn heap lowercase walk =
    (walk.look (links heap) Value.isObject (verdict heap lowercase)).map (·.getD (.ok false)) id := by
  unfold retriableTurn unwrapErrors Walk.look
  rcases Walk.turn (links heap) Value.isObject walk with _ | ⟨_ | shown,walk'⟩
  · rfl
  · rfl
  · rcases decided : verdict heap lowercase shown with _ | result <;> simp [decided]

theorem retriable_ends [Fintype Ref] (heap : Ref → Object Ref) (lowercase : Lowercase) (err : Value Ref) :
    ∃ result,Ends (retriablePostgresException heap lowercase) err (result.getD (.ok false)) ∧
      Answers (links heap) (verdict heap lowercase) [err] result := by
  have forgotten : ∀ v : Value Ref,v.isObject = false → links heap v = [] := by
    intro v plain
    cases v <;> first | rfl | cases plain
  have all : ∀ v : Value Ref,v.isObject = true → v ∈ Finset.univ.toList.map Value.object := by
    intro v there
    cases v with
    | object ref => simp
    | _ => cases there
  obtain ⟨result,⟨fuel,ended⟩,answers⟩ : ∃ result,Ends (firstAnswer (links heap) Value.isObject (verdict heap lowercase)) err result ∧
      Answers (links heap) (verdict heap lowercase) [err] result := firstAnswer_ends forgotten all err
  refine ⟨result,⟨fuel,?_⟩,answers⟩
  have mapped := loop_map (fun r : Option (Except Thrown Bool) => r.getD (.ok false))
    (fun _ walk => some (Walk.look (links heap) Value.isObject (verdict heap lowercase) walk)) fuel ⟨[err],[]⟩
  unfold firstAnswer at ended
  rw [ended] at mapped
  simpa [retriablePostgresException,retriableTurn_eq] using mapped

theorem retriable_grows : Grows (retriablePostgresException heap lowercase) := fun _ _ _ ended => loop_grows (grows_const _) _ _ _ ended

/-- The walk always ends. It answers, and rightly, exactly when no value fails the classifiers before a retryable one. -/
theorem retriable_total_iff [Fintype Ref] (heap : Ref → Object Ref) (lowercase : Lowercase) (err : Value Ref) :
    (∃ result,Ends (retriablePostgresException heap lowercase) err result) ∧
    ((∃ answer,Ends (retriablePostgresException heap lowercase) err (.ok answer) ∧
        (answer = true ↔ ∃ v,Relation.ReflTransGen (Wraps heap) err v ∧ Retryable heap lowercase v)) ↔
      Untroubled heap lowercase err) := by
  obtain ⟨result,ended,answers⟩ := retriable_ends heap lowercase err
  refine ⟨⟨_,ended⟩,?_⟩
  rcases result with _ | result
  · -- nobody has an answer: nothing that is led to is retryable, nor in trouble
    have quiet : ∀ v,Leads (links heap) err v → ¬ Retryable heap lowercase v ∧ ¬ Troubled heap lowercase v :=
      fun v path => verdict_none (answers err List.mem_cons_self v path)
    constructor
    · intro _ n before v after order trouble
      have met : v ∈ breadth (links heap) n [err] := by simp [order]
      obtain ⟨root,single,path⟩ := breadth_leads met
      rw [List.mem_singleton.mp single] at path
      exact absurd trouble (quiet v path).2
    · intro _
      refine ⟨false,ended,by simp,?_⟩
      rintro ⟨v,path,retryable⟩
      exact absurd retryable (quiet v (wraps_leads path retryable)).1
  · obtain ⟨n,before,v,after,order,decided,silent⟩ := answers
    have met : v ∈ breadth (links heap) n [err] := by simp [order]
    rcases verdict_some decided with ⟨rfl,retryable,fine⟩ | ⟨⟨thrown,rfl⟩,trouble⟩
    · refine ⟨fun _ => untroubled_true order retryable fine silent,fun _ => ⟨true,ended,fun _ => ⟨v,?_,retryable⟩,fun _ => rfl⟩⟩
      obtain ⟨root,single,path⟩ := breadth_leads met
      rw [List.mem_singleton.mp single] at path
      exact Relation.ReflTransGen.mono (fun a b step => links_wraps step) _ _ path
    · constructor
      · rintro ⟨answer,other,_⟩
        cases Ends.unique retriable_grows ended other
      · intro untroubled
        obtain ⟨w,early,retryable⟩ := untroubled n before v after order trouble
        exact absurd retryable (verdict_none (silent w early)).1

/-! ### Retrying -/

inductive Rethrown (Ref : Type)
  | own (e : Value Ref)
  | replaced (thrown : Thrown)

/-- `${v}`, which takes no symbols. -/
def Value.inTemplate (heap : Ref → Object Ref) : Value Ref → Except Thrown String
  | .symbol _ => .error .typeError
  | v => v.toText heap

/-- What the warning says of the error; there is a logger or there is none. -/
def warning (heap : Ref → Object Ref) (logger : Bool) (e : Value Ref) : Except Thrown String :=
  if logger then
    match e.asError heap with
    | some error => error.message.inTemplate heap
    | none => e.toText heap
  else .ok ""

/-- An attempt of the method that `dbRetry` wraps, after so many retries. -/
def dbRetryTurn {α : Type} (heap : Ref → Object Ref) (lowercase : Lowercase) (logger : Bool) (method : Nat → Except (Value Ref) α)
    (fuel retries : Nat) : Option (Except (Rethrown Ref) α ⊕ Nat) :=
  match method retries with
  | .ok a => some (.inl (.ok a))
  | .error e =>
    match retriablePostgresException heap lowercase fuel e with
    | none => none
    | some (.error thrown) => some (.inl (.error (.replaced thrown)))
    | some (.ok false) => some (.inl (.error (.own e)))
    | some (.ok true) =>
      match warning heap logger e with
      | .error thrown => some (.inl (.error (.replaced thrown)))
      | .ok _ => some (.inr (retries + 1))

def dbRetry {α : Type} (heap : Ref → Object Ref) (lowercase : Lowercase) (logger : Bool) (method : Nat → Except (Value Ref) α) :
    Nat → Nat → Option (Except (Rethrown Ref) α) := loop (dbRetryTurn heap lowercase logger method)

/-- Where the classifiers do not fail, and the warnings neither, whoever calls the method catches an error of its own that is not to be retried. -/
theorem dbRetry_throws {α : Type} [Fintype Ref] {logger : Bool} {method : Nat → Except (Value Ref) α} {retries : Nat} {thrown : Rethrown Ref}
    (untroubled : ∀ k e,method k = .error e → Untroubled heap lowercase e)
    (warned : ∀ k e,method k = .error e → ∃ text,warning heap logger e = .ok text)
    (ended : Ends (dbRetry heap lowercase logger method) retries (.error thrown)) :
    ∃ k e,method k = .error e ∧ thrown = .own e ∧ ¬ ∃ v,Relation.ReflTransGen (Wraps heap) e v ∧ Retryable heap lowercase v := by
  obtain ⟨fuel,ended⟩ := ended
  induction fuel generalizing retries with
  | zero => cases ended
  | succ fuel ih =>
    rw [dbRetry,loop,dbRetryTurn] at ended
    rcases tried : method retries with e | a
    · obtain ⟨text,said⟩ := warned retries e tried
      obtain ⟨answer,right,exact⟩ := (retriable_total_iff heap lowercase e).2.mpr (untroubled retries e tried)
      rw [tried] at ended
      cases decided : retriablePostgresException heap lowercase fuel e with
      | none => simp [decided] at ended
      | some result =>
        cases Ends.unique retriable_grows ⟨fuel,decided⟩ right
        cases answer with
        | true =>
          simp only [decided,said] at ended
          exact ih ended
        | false =>
          simp only [decided] at ended
          cases ended
          exact ⟨retries,e,tried,rfl,fun some_ => Bool.false_ne_true (exact.mpr some_)⟩
    · rw [tried] at ended
      cases ended

end

/-- An error of several attempts, the first of which has left no value: the second is a reset connection. -/
def attempts : Bool → Object Bool
  | true =>
    { errors := some [.undefined,.object false],isError := true,stack := .string "AggregateError: all attempts failed"
      message := .string "all attempts failed",text := .ok "AggregateError: all attempts failed" }
  | false =>
    { code := .string "ECONNRESET",isError := true,stack := .string "Error: read ECONNRESET",message := .string "read ECONNRESET"
      text := .ok "Error: read ECONNRESET" }

def asciiLowercase : Lowercase where
  toLowerCase s := String.ofList (s.toList.map Char.toLower)
  ascii _ _ := rfl

theorem attempts_throw :
    Ends (retriablePostgresException attempts asciiLowercase) (.object true) (.error .typeError) ∧
    (∃ v,Relation.ReflTransGen (Wraps attempts) (.object true) v ∧ Retryable attempts asciiLowercase v) ∧
    ¬ ∃ answer,Ends (retriablePostgresException attempts asciiLowercase) (.object true) (.ok answer) := by
  have threw : Ends (retriablePostgresException attempts asciiLowercase) (.object true) (.error .typeError) := ⟨2,by rfl⟩
  refine ⟨threw,⟨.object false,.single ⟨true,rfl,.inl (by simp [attempts])⟩,.inr (.inl ⟨"ECONNRESET",by decide,rfl⟩)⟩,?_⟩
  rintro ⟨answer,other⟩
  cases Ends.unique retriable_grows threw other

end Dbos.RetryClassification
