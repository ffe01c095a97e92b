import Dbos.Pg.Select
import Dbos.Pg.Table
import Dbos.Pg.Where

/-!
`listWorkflows` of `src/system_database.ts`: filters that may be given or not, each for one value or several, become the WHERE clause of
one statement, whose placeholders are numbered by hand. A filter is asked for when it is truthy, so the empty text asks for nothing and
the empty array does; IDs are found by LIKE.
-/
namespace Dbos.WorkflowList
open Dbos.Pg

/-! ### Rows -/

inductive Column
  | workflow_uuid
  | status
  | name
  | queue_name
  | schedule_name
  | authenticated_user
  | forked_from
  | parent_workflow_id
  | was_forked_from
  | attributes
  | created_at
  | completed_at
  | started_at_epoch_ms
  | application_version
  | executor_id

/-- A row of `workflow_status` but for its key, with the columns that the statements ask for. -/
structure Row (J : Type) where
  status : Option String := none
  name : Option String := none
  queue_name : Option String := none
  schedule_name : Option String := none
  authenticated_user : Option String := none
  forked_from : Option String := none
  parent_workflow_id : Option String := none
  was_forked_from : Bool := false
  attributes : Option J := none
  created_at : Int
  completed_at : Option Int := none
  started_at_epoch_ms : Option Int := none
  application_version : Option String := none
  executor_id : Option String := none
  deriving DecidableEq

abbrev Rows (J : Type) := Table String (Row J)

section
variable {J : Type}

def read (e : String × Row J) : Column → Datum J
  | .workflow_uuid => .text e.1
  | .status => e.2.status.elim .null .text
  | .name => e.2.name.elim .null .text
  | .queue_name => e.2.queue_name.elim .null .text
  | .schedule_name => e.2.schedule_name.elim .null .text
  | .authenticated_user => e.2.authenticated_user.elim .null .text
  | .forked_from => e.2.forked_from.elim .null .text
  | .parent_workflow_id => e.2.parent_workflow_id.elim .null .text
  | .was_forked_from => .bool e.2.was_forked_from
  | .attributes => e.2.attributes.elim .null .json
  | .created_at => .int e.2.created_at
  | .completed_at => e.2.completed_at.elim .null .int
  | .started_at_epoch_ms => e.2.started_at_epoch_ms.elim .null .int
  | .application_version => e.2.application_version.elim .null .text
  | .executor_id => e.2.executor_id.elim .null .text

/-! ### Statements -/

/-- What JavaScript and the server bring along: JSON, and `new Date(text).getTime()`, which may be no number. -/
structure Host (J : Type) extends Jsonb J where
  noKeys : J → Bool
  getTime : String → Option Int
  empty_time : getTime "" = none

/-- `string | string[]`. -/
inductive OneOrMany
  | one (s : String)
  | many (l : List String)
  deriving DecidableEq

def OneOrMany.list : OneOrMany → List String
  | .one s => [s]
  | .many l => l

structure GetWorkflowsInput (J : Type) where
  workflowIDs : Option (List String) := none
  workflowName : Option OneOrMany := none
  status : Option OneOrMany := none
  startTime : Option String := none
  endTime : Option String := none
  completedAfter : Option String := none
  completedBefore : Option String := none
  dequeuedAfter : Option String := none
  dequeuedBefore : Option String := none
  authenticatedUser : Option OneOrMany := none
  applicationVersion : Option OneOrMany := none
  executorId : Option OneOrMany := none
  workflow_id_prefix : Option OneOrMany := none
  queueName : Option OneOrMany := none
  queuesOnly : Bool := false
  forkedFrom : Option OneOrMany := none
  wasForkedFrom : Option Bool := none
  parentWorkflowID : Option OneOrMany := none
  hasParent : Option Bool := none
  attributes : Option J := none
  scheduleName : Option OneOrMany := none
  limit : Option Nat := none
  offset : Option Nat := none
  sortDesc : Bool := false

/-- One condition for a value, a choice for an array; the empty text is no value. -/
def addValues (t : Test) (column : Column) (param : String → Param J) (value : Option OneOrMany) : Where Column J → Where Column J :=
  match value with
  | none => id
  | some (.one s) => if s = "" then id else Where.one t column (param s)
  | some (.many l) => Where.many t column (l.map param)

def addFilter (column : Column) (value : Option OneOrMany) : Where Column J → Where Column J := addValues .equals column .text value

def addPrefix (value : Option OneOrMany) : Where Column J → Where Column J :=
  addValues .like .workflow_uuid (fun p => .text (p ++ "%")) value

def addIDs (workflowIDs : Option (List String)) : Where Column J → Where Column J :=
  match workflowIDs with
  | none => id
  | some ids => Where.many .equals .workflow_uuid (ids.map .text)

def addQueuesOnly (queuesOnly : Bool) : Where Column J → Where Column J :=
  if queuesOnly then
    Where.many .equals .status [.text "ENQUEUED",.text "PENDING",.text "DELAYED"] ∘ Where.bare (.isNotNull .queue_name)
  else id

def addWasForkedFrom (wasForkedFrom : Option Bool) : Where Column J → Where Column J :=
  match wasForkedFrom with
  | none => id
  | some b => Where.one .equals .was_forked_from (.bool b)

def addHasParent (hasParent : Option Bool) : Where Column J → Where Column J :=
  match hasParent with
  | none => id
  | some b => Where.bare (if b then .isNotNull .parent_workflow_id else .isNull .parent_workflow_id)

variable (host : Host J)

def addAttributes (attributes : Option J) : Where Column J → Where Column J :=
  match attributes with
  | none => id
  | some j => if host.noKeys j then id else Where.one .contains .attributes (.json j)

def addTime (t : Test) (column : Column) (time : Option String) : Where Column J → Where Column J :=
  match time with
  | none => id
  | some text => if text = "" then id else Where.one t column (.int (host.getTime text))

/-- The WHERE clause, in the order of the source. -/
def whereOf (input : GetWorkflowsInput J) : Where Column J :=
  [addQueuesOnly input.queuesOnly,
    addFilter .name input.workflowName,
    addFilter .queue_name input.queueName,
    addFilter .schedule_name input.scheduleName,
    addPrefix input.workflow_id_prefix,
    addIDs input.workflowIDs,
    addFilter .authenticated_user input.authenticatedUser,
    addFilter .forked_from input.forkedFrom,
    addFilter .parent_workflow_id input.parentWorkflowID,
    addWasForkedFrom input.wasForkedFrom,
    addHasParent input.hasParent,
    addAttributes host input.attributes,
    addTime host .atLeast .created_at input.startTime,
    addTime host .atMost .created_at input.endTime,
    addTime host .atLeast .completed_at input.completedAfter,
    addTime host .atMost .completed_at input.completedBefore,
    addTime host .atLeast .started_at_epoch_ms input.dequeuedAfter,
    addTime host .atMost .started_at_epoch_ms input.dequeuedBefore,
    addFilter .status input.status,
    addFilter .application_version input.applicationVersion,
    addFilter .executor_id input.executorId].foldl (fun w piece => piece w) {}

/-- ORDER BY created_at, which says nothing about rows of the same time. -/
def ahead (sortDesc : Bool) (a b : String × Row J) : Bool :=
  if sortDesc then b.2.created_at < a.2.created_at else a.2.created_at < b.2.created_at

/-- LIMIT and OFFSET are written when they are truthy. -/
def limitOf (limit : Option Nat) : Option Nat := limit.filter (· ≠ 0)

/-- OFFSET and LIMIT. -/
def cut {α : Type} (limit offset : Option Nat) (rows : List α) : List α :=
  let rest := rows.drop (offset.getD 0)
  limit.elim rest rest.take

/-- A literal that is no `bigint`. -/
def outOfRange (n : Option Nat) : Bool := n.any fun n => 2 ^ 63 ≤ n

/-- What the statement can give: an error, or the rows in one of the orders that ORDER BY leaves open. -/
def Lists (input : GetWorkflowsInput J) (table : Rows J) (result : Except Unit (List (String × Row J))) : Prop :=
  if (whereOf host input).fails host.toJsonb || (whereOf host input).tooMany || outOfRange (limitOf input.limit) || outOfRange input.offset
  then result = .error ()
  else ∃ sorted,Answer (ahead input.sortDesc) (table.select fun k row => (whereOf host input).matches host.toJsonb (read (k,row))) none sorted ∧
    result = .ok (cut (limitOf input.limit) input.offset sorted)

/-! ### What is asked for -/

/-- The column is the value, or one of the values. -/
def Among (value : Option OneOrMany) (d : Datum J) : Prop := ∀ v ∈ value,∃ s ∈ v.list,d = .text s

/-- The column starts with the text, or with one of the texts. -/
def Prefixed (starts : List Char → List Char → Bool) (value : Option OneOrMany) (d : Datum J) : Prop :=
  ∀ v ∈ value,∃ p ∈ v.list,∃ s,d = .text s ∧ starts p.toList s.toList = true

def Bound : Test → Int → Int → Prop
  | .atLeast,m,n => m ≤ n
  | .atMost,m,n => n ≤ m
  | _,_,_ => False

/-- The filters on texts, with their columns. -/
def GetWorkflowsInput.texts (input : GetWorkflowsInput J) : List (Column × Option OneOrMany) :=
  [(.name,input.workflowName),(.queue_name,input.queueName),(.schedule_name,input.scheduleName),
    (.authenticated_user,input.authenticatedUser),(.forked_from,input.forkedFrom),(.parent_workflow_id,input.parentWorkflowID),
    (.status,input.status),(.application_version,input.applicationVersion),(.executor_id,input.executorId)]

def GetWorkflowsInput.times (input : GetWorkflowsInput J) : List (Test × Column × Option String) :=
  [(.atLeast,.created_at,input.startTime),(.atMost,.created_at,input.endTime),
    (.atLeast,.completed_at,input.completedAfter),(.atMost,.completed_at,input.completedBefore),
    (.atLeast,.started_at_epoch_ms,input.dequeuedAfter),(.atMost,.started_at_epoch_ms,input.dequeuedBefore)]

/-- The filters that are neither texts nor prefixes. -/
structure Others (input : GetWorkflowsInput J) (row : Column → Datum J) : Prop where
  queuesOnly : input.queuesOnly = true → (row .queue_name).isNull = false ∧ ∃ s ∈ ["ENQUEUED","PENDING","DELAYED"],row .status = .text s
  workflowIDs : ∀ ids ∈ input.workflowIDs,∃ id ∈ ids,row .workflow_uuid = .text id
  wasForkedFrom : ∀ b ∈ input.wasForkedFrom,row .was_forked_from = .bool b
  hasParent : ∀ b ∈ input.hasParent,(row .parent_workflow_id).isNull = !b
  attributes : ∀ j ∈ input.attributes,host.noKeys j = true ∨ ∃ a,row .attributes = .json a ∧ host.contains a j = true
  times : ∀ b ∈ input.times,∀ text ∈ b.2.2,∀ m,host.getTime text = some m → ∃ n,row b.2.1 = .int n ∧ Bound b.1 m n

/-- The row is asked for by all filters. -/
def Wanted (input : GetWorkflowsInput J) (row : Column → Datum J) : Prop :=
  Others host input row ∧ (∀ f ∈ input.texts,Among f.2 (row f.1)) ∧ Prefixed List.isPrefixOf input.workflow_id_prefix (row .workflow_uuid)

/-- The rows that are asked for, in the order that is asked for, of which the offset and the limit leave a part. -/
def Asked (input : GetWorkflowsInput J) (table : Rows J) (rows : List (String × Row J)) : Prop :=
  ∃ wanted sorted,(∀ e,e ∈ wanted ↔ e ∈ table.entries ∧ Wanted host input (read e)) ∧ Answer (ahead input.sortDesc) wanted none sorted ∧
    rows = cut input.limit input.offset sorted

/-! ### Pieces -/

/-- An empty text is no value. -/
def truthy (value : Option OneOrMany) : Option OneOrMany := value.filter (· ≠ .one "")

/-- An empty list, or a text with a character that the server does not take. -/
def BadTexts (value : Option OneOrMany) : Prop := ∃ v ∈ value,v.list = [] ∨ ∃ s ∈ v.list,'\u0000' ∈ s.toList

def startsLike (p s : List Char) : Bool := likeMatch (p ++ ['%']) s

theorem passes_text {jsonb : Jsonb J} {d : Datum J} {s : String} : d.passes jsonb .equals (.text s) = true ↔ d = .text s := by
  cases d <;> simp [Datum.passes]

theorem passes_like {jsonb : Jsonb J} {d : Datum J} {p : String} :
    d.passes jsonb .like (.text (p ++ "%")) = true ↔ ∃ s,d = .text s ∧ startsLike p.toList s.toList = true := by
  cases d <;> simp [Datum.passes,startsLike]

variable {host}

theorem adds_values (t : Test) (column : Column) {param : String → Param J}
    (refused : ∀ s,(param s).refused host.toJsonb = true ↔ '\u0000' ∈ s.toList) (value : Option OneOrMany) :
    Adds host.toJsonb (addValues t column param value)
      (fun row => ∀ v ∈ truthy value,∃ s ∈ v.list,(row column).passes host.toJsonb t (param s) = true) (BadTexts value) := by
  rcases value with _ | s | l
  · exact adds_nothing.congr (fun row => by simp [truthy]) (by simp [BadTexts])
  · by_cases empty : s = ""
    · subst empty
      exact adds_nothing.congr (fun row => by simp [truthy]) (by simp [BadTexts,OneOrMany.list])
    · rw [addValues,if_neg empty]
      exact (adds_one t column (param s)).congr (fun row => by simp [truthy,empty,OneOrMany.list]) (by simp [BadTexts,OneOrMany.list,refused])
  · exact (adds_many t column (l.map param)).congr (fun row => by simp [truthy,OneOrMany.list]) (by simp [BadTexts,OneOrMany.list,refused])

theorem adds_filter (column : Column) (value : Option OneOrMany) :
    Adds host.toJsonb (addFilter column value) (fun row => Among (truthy value) (row column)) (BadTexts value) := by
  refine (adds_values .equals column (fun s => by simp [Param.refused]) value).congr (fun row => ?_) Iff.rfl
  simp only [Among,passes_text]

/-- The prefixes as LIKE finds them. -/
theorem adds_prefixes (value : Option OneOrMany) :
    Adds host.toJsonb (addPrefix value) (fun row => Prefixed startsLike (truthy value) (row .workflow_uuid)) (BadTexts value) := by
  refine (adds_values .like Column.workflow_uuid (fun p => by simp [Param.refused]) value).congr (fun row => ?_) Iff.rfl
  simp only [Prefixed,passes_like]

theorem adds_ids (ids : Option (List String)) :
    Adds host.toJsonb (addIDs ids) (fun row => ∀ l ∈ ids,∃ id ∈ l,row .workflow_uuid = .text id) (BadTexts (ids.map .many)) := by
  rcases ids with _ | ids
  · exact adds_nothing.congr (fun row => by simp) (by simp [BadTexts])
  · exact (adds_many .equals Column.workflow_uuid (ids.map .text)).congr (fun row => by simp [passes_text])
      (by simp [BadTexts,OneOrMany.list,Param.refused])

theorem adds_queuesOnly (queuesOnly : Bool) :
    Adds host.toJsonb (addQueuesOnly queuesOnly)
      (fun row => queuesOnly = true → (row .queue_name).isNull = false ∧ ∃ s ∈ ["ENQUEUED","PENDING","DELAYED"],row .status = .text s)
      False := by
  cases queuesOnly with
  | false => exact adds_nothing.congr (fun row => by simp) Iff.rfl
  | true =>
    have queued : Adds host.toJsonb (Where.bare (.isNotNull Column.queue_name)) (fun row => (row .queue_name).isNull = false) False :=
      adds_bare rfl rfl _ fun row params => by simp [Clause.holds]
    refine (queued.comp (adds_many .equals Column.status [.text "ENQUEUED",.text "PENDING",.text "DELAYED"])).congr
      (fun row => by simp [passes_text]) ?_
    simp [Param.refused]

theorem adds_wasForkedFrom (wasForkedFrom : Option Bool) :
    Adds host.toJsonb (addWasForkedFrom wasForkedFrom) (fun row => ∀ b ∈ wasForkedFrom,row .was_forked_from = .bool b) False := by
  rcases wasForkedFrom with _ | b
  · exact adds_nothing.congr (fun row => by simp) Iff.rfl
  · refine (adds_one .equals Column.was_forked_from (.bool b)).congr (fun row => ?_) (by simp [Param.refused])
    cases row .was_forked_from <;> simp [Datum.passes]

theorem adds_hasParent (hasParent : Option Bool) :
    Adds host.toJsonb (addHasParent hasParent) (fun row => ∀ b ∈ hasParent,(row .parent_workflow_id).isNull = !b) False := by
  rcases hasParent with _ | _ | _
  · exact adds_nothing.congr (fun row => by simp) Iff.rfl
  · exact adds_bare rfl rfl _ fun row params => by simp [Clause.holds]
  · exact adds_bare rfl rfl _ fun row params => by simp [Clause.holds]

theorem adds_attributes (attributes : Option J) :
    Adds host.toJsonb (addAttributes host attributes)
      (fun row => ∀ j ∈ attributes,host.noKeys j = true ∨ ∃ a,row .attributes = .json a ∧ host.contains a j = true)
      (∃ j ∈ attributes,host.noKeys j = false ∧ host.accepts j = false) := by
  rcases attributes with _ | j
  · exact adds_nothing.congr (fun row => by simp) (by simp)
  · cases empty : host.noKeys j with
    | true =>
      rw [addAttributes,if_pos empty]
      exact adds_nothing.congr (fun row => by simp [empty]) (by simp [empty])
    | false =>
      rw [addAttributes,if_neg (by simp [empty])]
      refine (adds_one .contains Column.attributes (.json j)).congr (fun row => ?_) (by simp [Param.refused,empty])
      cases row .attributes <;> simp [Datum.passes,empty]

theorem adds_time {t : Test} (bound : t = .atLeast ∨ t = .atMost) (column : Column) (time : Option String) :
    Adds host.toJsonb (addTime host t column time)
      (fun row => ∀ text ∈ time,text = "" ∨ ∃ m,host.getTime text = some m ∧ ∃ n,row column = .int n ∧ Bound t m n)
      (∃ text ∈ time,text ≠ "" ∧ host.getTime text = none) := by
  rcases time with _ | text
  · exact adds_nothing.congr (fun row => by simp) (by simp)
  · by_cases empty : text = ""
    · rw [addTime,if_pos empty]
      exact adds_nothing.congr (fun row => by simp [empty]) (by simp [empty])
    · rw [addTime,if_neg empty]
      refine (adds_one t column (.int (host.getTime text))).congr (fun row => ?_) (by simp [Param.refused,empty])
      rcases bound with rfl | rfl
      · cases at_ : host.getTime text <;> cases row column <;> simp [Datum.passes,empty,Bound,at_]
      · cases at_ : host.getTime text <;> cases row column <;> simp [Datum.passes,empty,Bound,at_]

/-! ### Numbers of parameters -/

/-- The number of texts of a filter. -/
def given : Option OneOrMany → Nat
  | none => 0
  | some (.one s) => if s = "" then 0 else 1
  | some (.many l) => l.length

theorem sends_values (t : Test) (column : Column) (param : String → Param J) (value : Option OneOrMany) :
    Sends (addValues t column param value) (given value) := by
  rcases value with _ | s | l
  · exact sends_nothing
  · by_cases empty : s = ""
    · subst empty
      exact sends_nothing
    · simpa [addValues,given,empty] using sends_one t column (param s)
  · simpa [addValues,given] using sends_many t column (l.map param)

theorem sends_filter (column : Column) (value : Option OneOrMany) :
    Sends (addFilter column value : Where Column J → Where Column J) (given value) := sends_values _ _ _ value

theorem sends_prefixes (value : Option OneOrMany) : Sends (addPrefix value : Where Column J → Where Column J) (given value) :=
  sends_values _ _ _ value

theorem sends_ids (ids : Option (List String)) :
    Sends (addIDs ids : Where Column J → Where Column J) (given (ids.map .many)) := by
  rcases ids with _ | ids
  · exact sends_nothing
  · simpa [addIDs,given] using sends_many .equals Column.workflow_uuid (ids.map (Param.text (J := J)))

theorem sends_queuesOnly (queuesOnly : Bool) :
    Sends (addQueuesOnly queuesOnly : Where Column J → Where Column J) (if queuesOnly then 3 else 0) := by
  cases queuesOnly with
  | false => exact sends_nothing
  | true => exact fun w => sends_many .equals Column.status _ (w.bare (.isNotNull .queue_name))

theorem sends_wasForkedFrom (wasForkedFrom : Option Bool) :
    Sends (addWasForkedFrom wasForkedFrom : Where Column J → Where Column J) (wasForkedFrom.elim 0 fun _ => 1) := by
  cases wasForkedFrom with
  | none => exact sends_nothing
  | some b => exact sends_one .equals Column.was_forked_from (.bool b)

theorem sends_hasParent (hasParent : Option Bool) : Sends (addHasParent hasParent : Where Column J → Where Column J) 0 := by
  cases hasParent with
  | none => exact sends_nothing
  | some b => exact sends_bare _

/-- The number of parameters for the attributes. -/
def attributesGiven (host : Host J) (attributes : Option J) : Nat := attributes.elim 0 fun j => if host.noKeys j then 0 else 1

theorem sends_attributes (attributes : Option J) :
    Sends (addAttributes host attributes) (attributesGiven host attributes) := by
  cases attributes with
  | none => exact sends_nothing
  | some j =>
    by_cases empty : host.noKeys j = true
    · simpa [addAttributes,attributesGiven,empty] using sends_nothing
    · simpa [addAttributes,attributesGiven,empty] using sends_one .contains Column.attributes (.json j)

/-- The number of parameters for a time. -/
def timeGiven (time : Option String) : Nat := time.elim 0 fun text => if text = "" then 0 else 1

theorem sends_time (t : Test) (column : Column) (time : Option String) : Sends (addTime host t column time) (timeGiven time) := by
  cases time with
  | none => exact sends_nothing
  | some text =>
    by_cases empty : text = ""
    · simpa [addTime,timeGiven,empty] using sends_nothing
    · simpa [addTime,timeGiven,empty] using sends_one t column (.int (host.getTime text))

/-- The WHERE clause fails: a list is empty, or the server takes a parameter for no text, no JSON or no number. -/
def BadWhere (host : Host J) (input : GetWorkflowsInput J) : Prop :=
  (∃ f ∈ input.texts,BadTexts f.2) ∨ BadTexts input.workflow_id_prefix ∨ BadTexts (input.workflowIDs.map .many) ∨
    (∃ j ∈ input.attributes,host.noKeys j = false ∧ host.accepts j = false) ∨
    ∃ b ∈ input.times,∃ text ∈ b.2.2,text ≠ "" ∧ host.getTime text = none

/-- What the WHERE clause means for a row. -/
def Reads (host : Host J) (input : GetWorkflowsInput J) (row : Column → Datum J) : Prop :=
  (input.queuesOnly = true → (row .queue_name).isNull = false ∧ ∃ s ∈ ["ENQUEUED","PENDING","DELAYED"],row .status = .text s) ∧
    (∀ f ∈ input.texts,Among (truthy f.2) (row f.1)) ∧ Prefixed startsLike (truthy input.workflow_id_prefix) (row .workflow_uuid) ∧
    (∀ l ∈ input.workflowIDs,∃ id ∈ l,row .workflow_uuid = .text id) ∧ (∀ b ∈ input.wasForkedFrom,row .was_forked_from = .bool b) ∧
    (∀ b ∈ input.hasParent,(row .parent_workflow_id).isNull = !b) ∧
    (∀ j ∈ input.attributes,host.noKeys j = true ∨ ∃ a,row .attributes = .json a ∧ host.contains a j = true) ∧
    ∀ b ∈ input.times,∀ text ∈ b.2.2,text = "" ∨ ∃ m,host.getTime text = some m ∧ ∃ n,row b.2.1 = .int n ∧ Bound b.1 m n

/-- What a filter means and when it fails. -/
abbrev WherePart (J : Type) := ((Column → Datum J) → Prop) × Prop

def filterPart (column : Column) (value : Option OneOrMany) : WherePart J :=
  (fun row => Among (truthy value) (row column),BadTexts value)

def timePart (host : Host J) (t : Test) (column : Column) (time : Option String) : WherePart J :=
  (fun row => ∀ text ∈ time,text = "" ∨ ∃ m,host.getTime text = some m ∧ ∃ n,row column = .int n ∧ Bound t m n,
    ∃ text ∈ time,text ≠ "" ∧ host.getTime text = none)

def queuesPart (queuesOnly : Bool) : WherePart J :=
  (fun row => queuesOnly = true → (row .queue_name).isNull = false ∧ ∃ s ∈ ["ENQUEUED","PENDING","DELAYED"],row .status = .text s,False)

def prefixPart (value : Option OneOrMany) : WherePart J :=
  (fun row => Prefixed startsLike (truthy value) (row .workflow_uuid),BadTexts value)

def idsPart (ids : Option (List String)) : WherePart J :=
  (fun row => ∀ l ∈ ids,∃ id ∈ l,row .workflow_uuid = .text id,BadTexts (ids.map .many))

def forkedPart (wasForkedFrom : Option Bool) : WherePart J := (fun row => ∀ b ∈ wasForkedFrom,row .was_forked_from = .bool b,False)

def parentPart (hasParent : Option Bool) : WherePart J := (fun row => ∀ b ∈ hasParent,(row .parent_workflow_id).isNull = !b,False)

def attributesPart (host : Host J) (attributes : Option J) : WherePart J :=
  (fun row => ∀ j ∈ attributes,host.noKeys j = true ∨ ∃ a,row .attributes = .json a ∧ host.contains a j = true,
    ∃ j ∈ attributes,host.noKeys j = false ∧ host.accepts j = false)

/-- The parts of the WHERE clause, piece by piece. -/
def partsOf (host : Host J) (input : GetWorkflowsInput J) : List (WherePart J) :=
  [queuesPart input.queuesOnly,filterPart .name input.workflowName,filterPart .queue_name input.queueName,
    filterPart .schedule_name input.scheduleName,prefixPart input.workflow_id_prefix,idsPart input.workflowIDs,
    filterPart .authenticated_user input.authenticatedUser,filterPart .forked_from input.forkedFrom,
    filterPart .parent_workflow_id input.parentWorkflowID,forkedPart input.wasForkedFrom,parentPart input.hasParent,
    attributesPart host input.attributes,
    timePart host .atLeast .created_at input.startTime,timePart host .atMost .created_at input.endTime,
    timePart host .atLeast .completed_at input.completedAfter,timePart host .atMost .completed_at input.completedBefore,
    timePart host .atLeast .started_at_epoch_ms input.dequeuedAfter,timePart host .atMost .started_at_epoch_ms input.dequeuedBefore,
    filterPart .status input.status,filterPart .application_version input.applicationVersion,filterPart .executor_id input.executorId]

theorem whereOf_parts (host : Host J) (input : GetWorkflowsInput J) :
    Means host.toJsonb (whereOf host input) (fun row => True ∧ ∀ part ∈ partsOf host input,part.1 row)
      (False ∨ ∃ part ∈ partsOf host input,part.2) := by
  refine means_pieces ?_ means_start
  exact .cons (adds_queuesOnly _) <| .cons (adds_filter _ _) <| .cons (adds_filter _ _) <| .cons (adds_filter _ _) <|
    .cons (adds_prefixes _) <| .cons (adds_ids _) <| .cons (adds_filter _ _) <| .cons (adds_filter _ _) <| .cons (adds_filter _ _) <|
    .cons (adds_wasForkedFrom _) <| .cons (adds_hasParent _) <| .cons (adds_attributes _) <|
    .cons (adds_time (.inl rfl) _ _) <| .cons (adds_time (.inr rfl) _ _) <| .cons (adds_time (.inl rfl) _ _) <|
    .cons (adds_time (.inr rfl) _ _) <| .cons (adds_time (.inl rfl) _ _) <| .cons (adds_time (.inr rfl) _ _) <|
    .cons (adds_filter _ _) <| .cons (adds_filter _ _) <| .cons (adds_filter _ _) .nil

theorem partsOf_reads (host : Host J) (input : GetWorkflowsInput J) (row : Column → Datum J) :
    (∀ part ∈ partsOf host input,part.1 row) ↔ Reads host input row := by
  simp only [partsOf,filterPart,timePart,queuesPart,prefixPart,idsPart,forkedPart,parentPart,attributesPart,List.forall_mem_cons,
    List.not_mem_nil,Reads,GetWorkflowsInput.texts,GetWorkflowsInput.times,false_implies,implies_true,and_true]
  constructor
  · rintro ⟨queued,name,queue,schedule,start,ids,user,forked,parent,was,has,attributes,t1,t2,t3,t4,t5,t6,status,version,executor⟩
    exact ⟨queued,⟨name,queue,schedule,user,forked,parent,status,version,executor⟩,start,ids,was,has,attributes,t1,t2,t3,t4,t5,t6⟩
  · rintro ⟨queued,⟨name,queue,schedule,user,forked,parent,status,version,executor⟩,start,ids,was,has,attributes,t1,t2,t3,t4,t5,t6⟩
    exact ⟨queued,name,queue,schedule,start,ids,user,forked,parent,was,has,attributes,t1,t2,t3,t4,t5,t6,status,version,executor⟩

theorem partsOf_bad (host : Host J) (input : GetWorkflowsInput J) : (∃ part ∈ partsOf host input,part.2) ↔ BadWhere host input := by
  simp only [partsOf,filterPart,timePart,queuesPart,prefixPart,idsPart,forkedPart,parentPart,attributesPart,BadWhere,
    GetWorkflowsInput.texts,GetWorkflowsInput.times,List.exists_mem_cons_iff,List.not_mem_nil,false_and,exists_false,or_false,false_or]
  apply iff_of_eq
  ac_rfl

theorem whereOf_means (host : Host J) (input : GetWorkflowsInput J) :
    Means host.toJsonb (whereOf host input) (Reads host input) (BadWhere host input) :=
  (whereOf_parts host input).congr (fun row => by rw [true_and,partsOf_reads]) (by rw [false_or,partsOf_bad])

/-- The numbers of parameters, piece by piece. -/
def numbersOf (host : Host J) (input : GetWorkflowsInput J) : List Nat :=
  [if input.queuesOnly then 3 else 0,given input.workflowName,given input.queueName,given input.scheduleName,given input.workflow_id_prefix,
    given (input.workflowIDs.map .many),given input.authenticatedUser,given input.forkedFrom,given input.parentWorkflowID,
    input.wasForkedFrom.elim 0 fun _ => 1,0,attributesGiven host input.attributes,timeGiven input.startTime,timeGiven input.endTime,
    timeGiven input.completedAfter,timeGiven input.completedBefore,timeGiven input.dequeuedAfter,timeGiven input.dequeuedBefore,
    given input.status,given input.applicationVersion,given input.executorId]

theorem whereOf_length (host : Host J) (input : GetWorkflowsInput J) : (whereOf host input).params.length = (numbersOf host input).sum := by
  have length : (whereOf host input).params.length = 0 + (numbersOf host input).sum := by
    refine sends_pieces ?_ {}
    exact .cons (sends_queuesOnly _) <| .cons (sends_filter _ _) <| .cons (sends_filter _ _) <| .cons (sends_filter _ _) <|
      .cons (sends_prefixes _) <| .cons (sends_ids _) <| .cons (sends_filter _ _) <| .cons (sends_filter _ _) <| .cons (sends_filter _ _) <|
      .cons (sends_wasForkedFrom _) <| .cons (sends_hasParent _) <| .cons (sends_attributes _) <|
      .cons (sends_time _ _ _) <| .cons (sends_time _ _ _) <| .cons (sends_time _ _ _) <|
      .cons (sends_time _ _ _) <| .cons (sends_time _ _ _) <| .cons (sends_time _ _ _) <|
      .cons (sends_filter _ _) <| .cons (sends_filter _ _) <| .cons (sends_filter _ _) .nil
  rw [length,Nat.zero_add]

/-! ### Filters and what they are meant for -/

/-- The column is empty wherever the filter is the empty text. -/
def Blank (input : GetWorkflowsInput J) (row : Column → Datum J) : Prop := ∀ f ∈ input.texts,f.2 = some (.one "") → row f.1 = .text ""

/-- For a row that all other filters let pass, LIKE and the ignored empty texts make no difference. -/
def Agree (host : Host J) (input : GetWorkflowsInput J) (row : Column → Datum J) : Prop :=
  Others host input row → (∀ f ∈ input.texts,Among (truthy f.2) (row f.1)) →
    (Prefixed startsLike input.workflow_id_prefix (row .workflow_uuid) ↔
      Blank input row ∧ Prefixed List.isPrefixOf input.workflow_id_prefix (row .workflow_uuid))

theorem among_truthy (value : Option OneOrMany) (d : Datum J) :
    Among value d ↔ Among (truthy value) d ∧ (value = some (.one "") → d = .text "") := by
  by_cases empty : value = some (.one "")
  · subst empty
    simp [Among,truthy,OneOrMany.list]
  · have same : truthy value = value := by
      cases value with
      | none => rfl
      | some v => exact Option.filter_eq_some_iff.mpr ⟨rfl,by simpa using empty⟩
    rw [same]
    exact ⟨fun among => ⟨among,fun blank => absurd blank empty⟩,And.left⟩

theorem prefixed_truthy (value : Option OneOrMany) (id : String) :
    Prefixed startsLike (truthy value) (Datum.text id : Datum J) ↔ Prefixed startsLike value (Datum.text id : Datum J) := by
  by_cases empty : value = some (.one "")
  · subst empty
    simp [Prefixed,truthy,OneOrMany.list,startsLike]
  · cases value with
    | none => rfl
    | some v =>
      have same : truthy (some v) = some v := Option.filter_eq_some_iff.mpr ⟨rfl,by simpa using empty⟩
      rw [same]

/-- The bounds on times, when the texts of the times are dates. -/
theorem times_meaning {input : GetWorkflowsInput J}
    (dates : ¬ ∃ b ∈ input.times,∃ text ∈ b.2.2,text ≠ "" ∧ host.getTime text = none) (row : Column → Datum J) :
    (∀ b ∈ input.times,∀ text ∈ b.2.2,text = "" ∨ ∃ m,host.getTime text = some m ∧ ∃ n,row b.2.1 = .int n ∧ Bound b.1 m n) ↔
      ∀ b ∈ input.times,∀ text ∈ b.2.2,∀ m,host.getTime text = some m → ∃ n,row b.2.1 = .int n ∧ Bound b.1 m n := by
  refine forall₂_congr fun b listed => forall₂_congr fun text given => ?_
  constructor
  · rintro (empty | ⟨m,time,bound⟩) m' time'
    · rw [empty,host.empty_time] at time'
      cases time'
    · cases time.symm.trans time'
      exact bound
  · intro bound
    by_cases empty : text = ""
    · exact .inl empty
    · cases time : host.getTime text with
      | none => exact absurd ⟨b,listed,text,given,empty,time⟩ dates
      | some m => exact .inr ⟨m,rfl,bound m time⟩

/-- What the WHERE clause means, filter by filter as `Wanted` has them. -/
theorem reads_iff {input : GetWorkflowsInput J} (good : ¬BadWhere host input) (e : String × Row J) :
    Reads host input (read e) ↔ Others host input (read e) ∧ (∀ f ∈ input.texts,Among (truthy f.2) (read e f.1)) ∧
      Prefixed startsLike input.workflow_id_prefix (read e .workflow_uuid) := by
  have dates : ¬ ∃ b ∈ input.times,∃ text ∈ b.2.2,text ≠ "" ∧ host.getTime text = none :=
    fun bad => good (.inr (.inr (.inr (.inr bad))))
  have times := times_meaning dates (read e)
  have start : Prefixed startsLike (truthy input.workflow_id_prefix) (read e .workflow_uuid) ↔ _ :=
    prefixed_truthy input.workflow_id_prefix e.1
  constructor
  · rintro ⟨queued,texts,like,ids,was,has,attributes,bounds⟩
    exact ⟨⟨queued,ids,was,has,attributes,times.mp bounds⟩,texts,start.mp like⟩
  · rintro ⟨others,texts,like⟩
    exact ⟨others.queuesOnly,texts,start.mpr like,others.workflowIDs,others.wasForkedFrom,others.hasParent,others.attributes,
      times.mpr others.times⟩

theorem wanted_iff (input : GetWorkflowsInput J) (row : Column → Datum J) :
    Wanted host input row ↔ Others host input row ∧ (∀ f ∈ input.texts,Among (truthy f.2) (row f.1)) ∧ Blank input row ∧
      Prefixed List.isPrefixOf input.workflow_id_prefix (row .workflow_uuid) := by
  have texts : (∀ f ∈ input.texts,Among f.2 (row f.1)) ↔
      (∀ f ∈ input.texts,Among (truthy f.2) (row f.1)) ∧ Blank input row := by
    rw [Blank,← forall₂_and]
    exact forall₂_congr fun f _ => among_truthy f.2 (row f.1)
  rw [Wanted,texts,and_assoc]

/-- The WHERE clause lets the right rows pass where the filters agree. -/
theorem agree_iff {input : GetWorkflowsInput J} (good : ¬BadWhere host input) (e : String × Row J) :
    Agree host input (read e) ↔ (Reads host input (read e) ↔ Wanted host input (read e)) := by
  rw [reads_iff good,wanted_iff,Agree]
  constructor
  · intro agree
    exact and_congr_right fun others => and_congr_right fun texts => agree others texts
  · intro same others texts
    exact (and_congr_right_iff.mp (and_congr_right_iff.mp same others)) texts

/-- Prefixes of plain characters, and no filter that is the empty text. -/
theorem agree_plain {input : GetWorkflowsInput J} (texts : ∀ f ∈ input.texts,f.2 ≠ some (.one ""))
    (plain : ∀ v ∈ input.workflow_id_prefix,∀ p ∈ v.list,∀ c ∈ p.toList,isSpecial c = false) (row : Column → Datum J) :
    Agree host input row := by
  intro _ _
  have blank : Blank input row := fun f listed empty => absurd empty (texts f listed)
  have start : ∀ v ∈ input.workflow_id_prefix,∀ p ∈ v.list,∀ s : String,
      startsLike p.toList s.toList = p.toList.isPrefixOf s.toList :=
    fun v given p listed s => likeMatch_prefix (plain v given p listed) s.toList
  rw [and_iff_right blank]
  refine forall₂_congr fun v given => exists_congr fun p => and_congr_right fun listed => exists_congr fun s => and_congr_right fun _ => ?_
  rw [start v given p listed s]

/-! ### Answers -/

/-- The statement fails. -/
def Faulty (host : Host J) (input : GetWorkflowsInput J) : Prop :=
  BadWhere host input ∨ (whereOf host input).tooMany = true ∨ outOfRange (limitOf input.limit) = true ∨ outOfRange input.offset = true

/-- Whatever the statement gives is what is asked for. -/
def Right (host : Host J) (input : GetWorkflowsInput J) (table : Rows J) : Prop :=
  ∀ result,Lists host input table result → ∃ rows,result = .ok rows ∧ Asked host input table rows

/-- The rows that the WHERE clause lets pass. -/
def selected (host : Host J) (input : GetWorkflowsInput J) (table : Rows J) : List (String × Row J) :=
  table.select fun k row => (whereOf host input).matches host.toJsonb (read (k,row))

variable {input : GetWorkflowsInput J} {table : Rows J} {result : Except Unit (List (String × Row J))}

theorem mem_selected (e : String × Row J) : e ∈ selected host input table ↔ e ∈ table.entries ∧ Reads host input (read e) := by
  rw [selected,Table.select,List.mem_filter,(whereOf_means host input).matches]

theorem lists_faulty (faulty : Faulty host input) : Lists host input table result ↔ result = .error () := by
  have fails : (whereOf host input).fails host.toJsonb = true ↔ BadWhere host input := (whereOf_means host input).fails
  rw [Lists,if_pos]
  simp only [Bool.or_eq_true,fails,or_assoc]
  exact faulty

theorem lists_fine (fine : ¬Faulty host input) : Lists host input table result ↔
    ∃ sorted,Answer (ahead input.sortDesc) (selected host input table) none sorted ∧
      result = .ok (cut (limitOf input.limit) input.offset sorted) := by
  have fails : (whereOf host input).fails host.toJsonb = true ↔ BadWhere host input := (whereOf_means host input).fails
  rw [Lists,if_neg]
  · rfl
  · simp only [Bool.or_eq_true,fails,or_assoc]
    exact fine

/-- Rows can always be put in order. -/
theorem exists_sorted (sortDesc : Bool) {rows : List (String × Row J)} (distinct : rows.Nodup) :
    ∃ sorted,Answer (ahead sortDesc) rows none sorted := by
  classical
  refine exists_answer ?_ ?_ distinct none
  · intro a b
    cases sortDesc
    · simp only [ahead,Bool.false_eq_true,if_false,decide_eq_false_iff_not]
      omega
    · simp only [ahead,if_true,decide_eq_false_iff_not]
      omega
  · intro a b c
    cases sortDesc
    · simp only [ahead,Bool.false_eq_true,if_false,decide_eq_false_iff_not]
      omega
    · simp only [ahead,if_true,decide_eq_false_iff_not]
      omega

theorem entries_nodup (table : Rows J) : table.entries.Nodup := List.Nodup.of_map _ table.distinct

theorem selected_nodup (host : Host J) (input : GetWorkflowsInput J) (table : Rows J) : (selected host input table).Nodup := (entries_nodup table).filter _

/-- There is an error or an answer. -/
theorem exists_lists (host : Host J) (input : GetWorkflowsInput J) (table : Rows J) : ∃ result,Lists host input table result := by
  by_cases faulty : Faulty host input
  · exact ⟨_,(lists_faulty faulty).mpr rfl⟩
  · obtain ⟨sorted,answer⟩ := exists_sorted input.sortDesc (selected_nodup host input table)
    exact ⟨_,(lists_fine faulty).mpr ⟨sorted,answer,rfl⟩⟩

theorem right_fine (right : Right host input table) : ¬Faulty host input := by
  intro faulty
  obtain ⟨rows,ok,_⟩ := right (.error ()) ((lists_faulty faulty).mpr rfl)
  cases ok

/-- Where the filters agree the rows that pass are the rows that are asked for. -/
theorem selected_wanted (good : ¬BadWhere host input) (agree : ∀ e ∈ table.entries,Agree host input (read e)) (e : String × Row J) :
    e ∈ selected host input table ↔ e ∈ table.entries ∧ Wanted host input (read e) := by
  rw [mem_selected]
  exact and_congr_right fun member => (agree_iff good e).mp (agree e member)

theorem right_of_agree (fine : ¬Faulty host input) (limit : input.limit ≠ some 0)
    (agree : ∀ e ∈ table.entries,Agree host input (read e)) : Right host input table := by
  intro result lists
  obtain ⟨sorted,answer,rfl⟩ := (lists_fine fine).mp lists
  have written : limitOf input.limit = input.limit := by
    cases given : input.limit with
    | none => rfl
    | some n => exact Option.filter_eq_some_iff.mpr ⟨rfl,by simpa [given] using limit⟩
  refine ⟨_,rfl,selected host input table,sorted,selected_wanted (fun bad => fine (.inl bad)) agree,answer,?_⟩
  rw [written]

/-- Nothing is cut off. -/
def Uncut (input : GetWorkflowsInput J) : Prop := input.limit = none ∧ input.offset.getD 0 = 0

theorem agree_of_right (uncut : Uncut input) (right : Right host input table) :
    ∀ e ∈ table.entries,Agree host input (read e) := by
  have fine := right_fine right
  have good : ¬BadWhere host input := fun bad => fine (.inl bad)
  have whole : ∀ rows : List (String × Row J),cut input.limit input.offset rows = rows := by
    intro rows
    rw [cut,uncut.1,uncut.2]
    rfl
  obtain ⟨sorted,answer⟩ := exists_sorted input.sortDesc (selected_nodup host input table)
  have written : limitOf input.limit = input.limit := by rw [uncut.1]; rfl
  have lists := (lists_fine fine).mpr ⟨sorted,answer,rfl⟩
  rw [written,whole] at lists
  obtain ⟨rows,ok,wanted,sorted',meaning,answer',given⟩ := right _ lists
  rw [whole] at given
  cases ok
  subst given
  intro e member
  rw [agree_iff good]
  have passes : e ∈ sorted ↔ Reads host input (read e) := by
    rw [answer_all answer,mem_selected,and_iff_right member]
  have asked : e ∈ sorted ↔ Wanted host input (read e) := by
    rw [answer_all answer',meaning,and_iff_right member]
  exact passes.symm.trans asked

/-- A limit of 0 is no limit to the statement. -/
theorem right_zero (fine : ¬Faulty host input) (zero : input.limit = some 0) :
    Right host input table ↔ (selected host input table).length ≤ input.offset.getD 0 := by
  classical
  have dropped : ∀ rows : List (String × Row J),cut (limitOf input.limit) input.offset rows = rows.drop (input.offset.getD 0) := by
    intro rows
    rw [zero]
    rfl
  have nothing : ∀ rows : List (String × Row J),cut input.limit input.offset rows = [] := by
    intro rows
    simp [cut,zero]
  have length : ∀ sorted,Answer (ahead input.sortDesc) (selected host input table) none sorted →
      sorted.length = (selected host input table).length := fun sorted answer => answer_length (selected_nodup host input table) answer
  constructor
  · intro right
    obtain ⟨sorted,answer⟩ := exists_sorted input.sortDesc (selected_nodup host input table)
    obtain ⟨rows,ok,_,_,_,_,given⟩ := right _ ((lists_fine fine).mpr ⟨sorted,answer,rfl⟩)
    rw [nothing] at given
    rw [given,dropped,Except.ok.injEq,List.drop_eq_nil_iff,length sorted answer] at ok
    exact ok
  · intro few result lists
    obtain ⟨sorted,answer,rfl⟩ := (lists_fine fine).mp lists
    have none_ : sorted.drop (input.offset.getD 0) = [] := List.drop_eq_nil_of_le (by rw [length sorted answer]; exact few)
    have distinct : (table.entries.filter fun e => Wanted host input (read e)).Nodup := (entries_nodup table).filter _
    obtain ⟨order,asked⟩ := exists_sorted input.sortDesc distinct
    refine ⟨[],by rw [dropped,none_],_,order,fun e => ?_,asked,(nothing order).symm⟩
    rw [List.mem_filter,decide_eq_true_eq]

/-- When the listing is right: the statement does not fail, and LIKE and the ignored empty texts make no difference to any row; under a
    limit of 0, which is ignored, the offset must leave nothing. -/
def Harmless (host : Host J) (input : GetWorkflowsInput J) (table : Rows J) : Prop :=
  ¬Faulty host input ∧
    if input.limit = some 0 then (selected host input table).length ≤ input.offset.getD 0
    else ∀ e ∈ table.entries,Agree host input (read e)

theorem right_of_harmless (harmless : Harmless host input table) : Right host input table := by
  obtain ⟨fine,rows⟩ := harmless
  split at rows
  · next zero => exact (right_zero fine zero).mpr rows
  · next limit => exact right_of_agree fine limit rows

theorem harmless_of_right (uncut : input.limit = some 0 ∨ Uncut input) (right : Right host input table) : Harmless host input table := by
  have fine := right_fine right
  refine ⟨fine,?_⟩
  by_cases zero : input.limit = some 0
  · rw [if_pos zero]
    exact (right_zero fine zero).mp right
  · rw [if_neg zero]
    exact agree_of_right (uncut.resolve_left zero) right

/-- The listing gives the rows that are asked for, in order and cut as asked for, when the input is harmless; where nothing is cut off,
    only then. -/
theorem listWorkflows_right (host : Host J) (input : GetWorkflowsInput J) (table : Rows J) :
    (∃ result,Lists host input table result) ∧ Means host.toJsonb (whereOf host input) (Reads host input) (BadWhere host input) ∧
      (Harmless host input table → Right host input table) ∧
      (input.limit = some 0 ∨ Uncut input → (Right host input table ↔ Harmless host input table)) ∧
      (Right host input table → ¬Faulty host input) :=
  ⟨exists_lists host input table,whereOf_means host input,right_of_harmless,
    fun uncut => ⟨harmless_of_right uncut,right_of_harmless⟩,right_fine⟩

/-- A host whose only JSON is the object without keys, and whose dates are none. -/
def sampleHost : Host Unit := ⟨⟨fun _ _ => true,fun _ => true⟩,fun _ => true,fun _ => none,rfl⟩

def sampleTable : Rows Unit := ⟨[("ab",{ created_at := 5 }),("b",{ created_at := 3 })],by decide⟩

theorem listWorkflows_prefixes :
    Right sampleHost { workflow_id_prefix := some (.many ["a","c"]),limit := some 1 } sampleTable := by
  refine (listWorkflows_right sampleHost { workflow_id_prefix := some (.many ["a","c"]),limit := some 1 } sampleTable).2.2.1 ⟨?_,?_⟩
  · have few : (whereOf sampleHost { workflow_id_prefix := some (.many ["a","c"]),limit := some 1 }).tooMany = false := by decide
    simp [Faulty,BadWhere,BadTexts,GetWorkflowsInput.texts,GetWorkflowsInput.times,OneOrMany.list,limitOf,outOfRange,few]
  · rw [if_neg (by decide)]
    intro e _
    refine agree_plain (by simp [GetWorkflowsInput.texts]) ?_ (read e)
    simp [OneOrMany.list,isSpecial]

/-- A prefix with `_`, an empty list, a filter that is the empty text, and a limit of 0. -/
theorem listing_differs :
    ¬Right sampleHost { workflow_id_prefix := some (.one "a_") } sampleTable ∧ ¬Right sampleHost { status := some (.many []) } sampleTable ∧
      ¬Right sampleHost { queueName := some (.one "") } sampleTable ∧ ¬Right sampleHost { limit := some 0 } sampleTable := by
  refine ⟨fun right => ?_,fun right => ?_,fun right => ?_,fun right => ?_⟩
  · have agree := agree_of_right ⟨rfl,rfl⟩ right ("ab",{ created_at := 5 }) List.mem_cons_self
    have same := agree ⟨by simp,by simp,by simp,by simp,by simp,by simp [GetWorkflowsInput.times]⟩ (by simp [GetWorkflowsInput.texts,Among,truthy])
    have like : Prefixed startsLike (some (.one "a_")) (Datum.text "ab" : Datum Unit) := by
      rintro _ ⟨⟩
      exact ⟨"a_",List.mem_cons_self,"ab",rfl,by decide⟩
    obtain ⟨p,listed,s,id,start⟩ := (same.mp like).2 _ rfl
    cases List.mem_singleton.mp listed
    cases id
    exact absurd start (by decide)
  · exact right_fine right (.inl (.inl ⟨(.status,some (.many [])),by simp [GetWorkflowsInput.texts],_,rfl,.inl rfl⟩))
  · have agree := agree_of_right ⟨rfl,rfl⟩ right ("ab",{ created_at := 5 }) List.mem_cons_self
    have same := agree ⟨by simp,by simp,by simp,by simp,by simp,by simp [GetWorkflowsInput.times]⟩ (by simp [GetWorkflowsInput.texts,Among,truthy])
    have blank := (same.mp (by simp [Prefixed])).1 (.queue_name,some (.one "")) (by simp [GetWorkflowsInput.texts]) rfl
    cases blank
  · have few := (right_zero (right_fine right) rfl).mp right
    exact absurd few (by decide)

end

end Dbos.WorkflowList
