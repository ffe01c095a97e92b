import Dbos.Pg.Declared
import Dbos.Schema

/-!
`exportWorkflow` and `importWorkflow` column by column. The tables are those that the
migrations declare, each statement names its columns as the source does, and the values of an
INSERT are given by position. An import is one transaction.
-/
namespace Dbos.ExportImport
open Dbos.Pg Dbos.Schema

/-! ### Tables -/

/-- A value of a column. JSONB is held as the text that `JSON.stringify` gives for what the driver
    makes of it, so numbers that are one number in JavaScript are not told apart. -/
inductive Value
  | null
  | text (s : String)
  | integer (n : Int)
  | boolean (b : Bool)
  | jsonb (json : String)
  deriving DecidableEq,Repr

inductive ColumnType
  | text
  | integer
  | boolean
  | jsonb

/-- A column of the type admits the value. -/
def ColumnType.admits : ColumnType → (notNull : Bool) → Value → Bool
  | _,notNull,.null => !notNull
  | .text,_,.text _ => true
  | .integer,_,.integer _ => true
  | .boolean,_,.boolean _ => true
  | .jsonb,_,.jsonb _ => true
  | _,_,_ => false

inductive StatusColumn
  | workflow_uuid | status | name | authenticated_user | assumed_role | authenticated_roles | request | output | error
  | executor_id | created_at | updated_at | application_version | application_id | class_name | config_name
  | recovery_attempts | queue_name | workflow_timeout_ms | workflow_deadline_epoch_ms | inputs | started_at_epoch_ms
  | deduplication_id | priority | queue_partition_key | forked_from | owner_xid | parent_workflow_id | serialization
  | delay_until_epoch_ms | was_forked_from | rate_limited | completed_at | attributes | schedule_name
  | debounce_deadline_epoch_ms | is_debounced
  deriving DecidableEq

abbrev StatusRow := StatusColumn → Value

def StatusColumn.admits : StatusColumn → Value → Bool
  | .workflow_uuid => ColumnType.text.admits true
  | .created_at | .updated_at | .priority => ColumnType.integer.admits true
  | .was_forked_from | .rate_limited | .is_debounced => ColumnType.boolean.admits true
  | .recovery_attempts | .workflow_timeout_ms | .workflow_deadline_epoch_ms | .started_at_epoch_ms
  | .delay_until_epoch_ms | .completed_at | .debounce_deadline_epoch_ms => ColumnType.integer.admits false
  | .attributes => ColumnType.jsonb.admits false
  | _ => ColumnType.text.admits false

/-- `workflow_status_pkey`. -/
def statusKey (row : StatusRow) : Option (List Value) := some [row .workflow_uuid]

/-- `uq_workflow_status_dedup_id`: partial, and NULLs are distinct. -/
def dedupKey (row : StatusRow) : Option (List Value) :=
  if row .deduplication_id = .null ∨ row .queue_name = .null then none else some [row .queue_name,row .deduplication_id]

def workflow_status : Declaration StatusColumn Value (List Value) where
  columns :=
    [.workflow_uuid,.status,.name,.authenticated_user,.assumed_role,.authenticated_roles,.request,.output,.error,
      .executor_id,.created_at,.updated_at,.application_version,.application_id,.class_name,.config_name,
      .recovery_attempts,.queue_name,.workflow_timeout_ms,.workflow_deadline_epoch_ms,.inputs,.started_at_epoch_ms,
      .deduplication_id,.priority,.queue_partition_key,.forked_from,.owner_xid,.parent_workflow_id,.serialization,
      .delay_until_epoch_ms,.was_forked_from,.rate_limited,.completed_at,.attributes,.schedule_name,
      .debounce_deadline_epoch_ms,.is_debounced]
  admits := StatusColumn.admits
  keys := [statusKey,dedupKey]

/-- The tables whose rows belong to a workflow and go with it. -/
inductive Child
  | operation_outputs
  | workflow_events
  | workflow_events_history
  | streams
  deriving DecidableEq

/-- In the order in which `importWorkflow` fills them. -/
def Child.all : List Child := [.operation_outputs,.workflow_events,.workflow_events_history,.streams]

inductive OutputColumn
  | workflow_uuid | function_id | function_name | output | error | child_workflow_id | started_at_epoch_ms
  | completed_at_epoch_ms | serialization
  deriving DecidableEq

inductive EventColumn
  | workflow_uuid | key | value | serialization
  deriving DecidableEq

inductive HistoryColumn
  | workflow_uuid | function_id | key | value | serialization
  deriving DecidableEq

inductive StreamColumn
  | workflow_uuid | key | value | offset | function_id | serialization
  deriving DecidableEq

@[reducible] def Child.Column : Child → Type
  | .operation_outputs => OutputColumn
  | .workflow_events => EventColumn
  | .workflow_events_history => HistoryColumn
  | .streams => StreamColumn

instance : (c : Child) → DecidableEq c.Column
  | .operation_outputs => inferInstanceAs (DecidableEq OutputColumn)
  | .workflow_events => inferInstanceAs (DecidableEq EventColumn)
  | .workflow_events_history => inferInstanceAs (DecidableEq HistoryColumn)
  | .streams => inferInstanceAs (DecidableEq StreamColumn)

abbrev Child.Row (c : Child) := c.Column → Value

def Child.workflow_uuid : (c : Child) → c.Column
  | .operation_outputs => OutputColumn.workflow_uuid
  | .workflow_events => EventColumn.workflow_uuid
  | .workflow_events_history => HistoryColumn.workflow_uuid
  | .streams => StreamColumn.workflow_uuid

def OutputColumn.admits : OutputColumn → Value → Bool
  | .workflow_uuid | .function_name => ColumnType.text.admits true
  | .function_id => ColumnType.integer.admits true
  | .started_at_epoch_ms | .completed_at_epoch_ms => ColumnType.integer.admits false
  | _ => ColumnType.text.admits false

def EventColumn.admits : EventColumn → Value → Bool
  | .serialization => ColumnType.text.admits false
  | _ => ColumnType.text.admits true

def HistoryColumn.admits : HistoryColumn → Value → Bool
  | .function_id => ColumnType.integer.admits true
  | .serialization => ColumnType.text.admits false
  | _ => ColumnType.text.admits true

def StreamColumn.admits : StreamColumn → Value → Bool
  | .offset | .function_id => ColumnType.integer.admits true
  | .serialization => ColumnType.text.admits false
  | _ => ColumnType.text.admits true

/-- The tables with their columns and primary keys. -/
def Child.table : (c : Child) → Declaration c.Column Value (List Value)
  | .operation_outputs =>
    { columns := [OutputColumn.workflow_uuid,.function_id,.function_name,.output,.error,.child_workflow_id,
        .started_at_epoch_ms,.completed_at_epoch_ms,.serialization]
      admits := OutputColumn.admits
      keys := [fun row => some [row OutputColumn.workflow_uuid,row .function_id]] }
  | .workflow_events =>
    { columns := [EventColumn.workflow_uuid,.key,.value,.serialization]
      admits := EventColumn.admits
      keys := [fun row => some [row EventColumn.workflow_uuid,row .key]] }
  | .workflow_events_history =>
    { columns := [HistoryColumn.workflow_uuid,.function_id,.key,.value,.serialization]
      admits := HistoryColumn.admits
      keys := [fun row => some [row HistoryColumn.workflow_uuid,row .function_id,row .key]] }
  | .streams =>
    { columns := [StreamColumn.workflow_uuid,.key,.value,.offset,.function_id,.serialization]
      admits := StreamColumn.admits
      keys := [fun row => some [row StreamColumn.workflow_uuid,row .key,row .offset]] }

/-- The committed tables; the rows of the children refer to a workflow that exists. -/
structure Database where
  workflow_status : Declared ExportImport.workflow_status
  children : (c : Child) → Declared c.table
  owned : ∀ c,∀ row ∈ (children c).rows,∃ s ∈ workflow_status.rows,s .workflow_uuid = row c.workflow_uuid

def Database.empty : Database := ⟨.empty,fun _ => .empty,by simp [Declared.empty]⟩

/-! ### exportWorkflow -/

/-- `getWorkflowChildren` and the filters of the SELECTs know a workflow by the text of its ID. -/
def Of (ids : List String) (v : Value) : Prop := ∃ id ∈ ids,v = .text id

instance (ids : List String) (v : Value) : Decidable (Of ids v) := inferInstanceAs (Decidable (∃ id ∈ _,_))

def Value.asText : Value → Option String
  | .text s => some s
  | _ => none

/-- `#getDirectChildren`. -/
def directChildren (db : Database) (frontier : List String) : List String :=
  (db.workflow_status.rows.filter fun row => Of frontier (row .parent_workflow_id)).filterMap fun row => (row .workflow_uuid).asText

/-- `descendants.add(id)`. -/
def addTo (descendants : List String) (id : String) : List String :=
  if id ∈ descendants then descendants else descendants ++ [id]

/-- The loop of `getWorkflowChildren`, of at most so many rounds. -/
def search (db : Database) : Nat → List String → List String → List String
  | 0,_,descendants => descendants
  | _ + 1,[],descendants => descendants
  | rounds + 1,frontier,descendants =>
    let next := (directChildren db frontier).filter fun id => id ∉ descendants
    search db rounds next (next.foldl addTo descendants)

/-- Every round but the last adds the ID of some row, so the rounds suffice. -/
def getWorkflowChildren (db : Database) (workflowID : String) : List String :=
  search db (db.workflow_status.rows.length + 1) [workflowID] []

def statusSelect : List StatusColumn :=
  [.workflow_uuid,.status,.name,.authenticated_user,.assumed_role,
    .authenticated_roles,.request,.output,.error,.executor_id,
    .created_at,.updated_at,.application_version,.application_id,
    .class_name,.config_name,.recovery_attempts,.queue_name,
    .workflow_timeout_ms,.workflow_deadline_epoch_ms,.started_at_epoch_ms,
    .deduplication_id,.inputs,.priority,.queue_partition_key,.forked_from,
    .parent_workflow_id,.serialization,.delay_until_epoch_ms,
    .was_forked_from,.rate_limited,.completed_at,.attributes,.schedule_name,
    .debounce_deadline_epoch_ms,.is_debounced]

def Child.select : (c : Child) → List c.Column
  | .operation_outputs =>
    [OutputColumn.workflow_uuid,.function_id,.function_name,.output,.error,
      .child_workflow_id,.started_at_epoch_ms,.completed_at_epoch_ms,
      .serialization]
  | .workflow_events => [EventColumn.workflow_uuid,.key,.value,.serialization]
  | .workflow_events_history => [HistoryColumn.workflow_uuid,.function_id,.key,.value,.serialization]
  | .streams => [StreamColumn.workflow_uuid,.key,.value,.offset,.function_id,.serialization]

/-- `ExportedWorkflow`, with the objects that the driver answers. -/
structure ExportedWorkflow where
  workflow_status : StatusColumn → Option Value
  children : (c : Child) → List (c.Column → Option Value)

def exportOne (db : Database) (wfID : String) : Except DbosError ExportedWorkflow :=
  match db.workflow_status.rows.filter fun row => row .workflow_uuid = .text wfID with
  | [] => .error (.DBOSNonExistentWorkflowError s!"Workflow {wfID} does not exist")
  | row :: _ =>
    .ok { workflow_status := selected statusSelect row
          children := fun c => ((db.children c).rows.filter fun r => r c.workflow_uuid = .text wfID).map (selected c.select) }

/-- The `workflowIDs` of an export. -/
def exportedIDs (db : Database) (workflowID : String) (exportChildren : Bool) : List String :=
  workflowID :: if exportChildren then getWorkflowChildren db workflowID else []

def exportWorkflow (db : Database) (workflowID : String) (exportChildren : Bool) : Except DbosError (List ExportedWorkflow) :=
  (exportedIDs db workflowID exportChildren).mapM (exportOne db)

/-! ### importWorkflow -/

/-- A query parameter: the driver sends undefined as NULL. -/
def parameter (v : Option Value) : Value := v.getD .null

/-- `v ?? default`. -/
def nullish (v : Option Value) (default : Value) : Value :=
  match v with
  | none => default
  | some .null => default
  | some v => v

/-- What `v ? ... : ...` tests, for the JavaScript value that the driver makes of a column. -/
def Value.truthy : Value → Bool
  | .null => false
  | .text s => s ≠ ""
  | .integer n => n ≠ 0
  | .boolean b => b
  | .jsonb json => json ∉ ["null","false","0","\"\""]

def truthy (v : Option Value) : Bool := (parameter v).truthy

def statusInsert : List StatusColumn :=
  [.workflow_uuid,.status,.name,.authenticated_user,.assumed_role,
    .authenticated_roles,.request,.output,.error,.executor_id,
    .created_at,.updated_at,.application_version,.application_id,
    .class_name,.config_name,.recovery_attempts,.queue_name,
    .workflow_timeout_ms,.workflow_deadline_epoch_ms,.started_at_epoch_ms,
    .deduplication_id,.inputs,.priority,.queue_partition_key,.forked_from,
    .parent_workflow_id,.serialization,.delay_until_epoch_ms,
    .was_forked_from,.rate_limited,.completed_at,.attributes,.schedule_name,
    .debounce_deadline_epoch_ms,.is_debounced]

def statusValues (status : StatusColumn → Option Value) : List Value :=
  [parameter (status .workflow_uuid),
    parameter (status .status),
    parameter (status .name),
    parameter (status .authenticated_user),
    parameter (status .assumed_role),
    parameter (status .authenticated_roles),
    parameter (status .request),
    parameter (status .output),
    parameter (status .error),
    parameter (status .executor_id),
    parameter (status .created_at),
    parameter (status .updated_at),
    parameter (status .application_version),
    parameter (status .application_id),
    parameter (status .class_name),
    parameter (status .config_name),
    parameter (status .recovery_attempts),
    parameter (status .queue_name),
    parameter (status .workflow_timeout_ms),
    parameter (status .workflow_deadline_epoch_ms),
    parameter (status .started_at_epoch_ms),
    parameter (status .deduplication_id),
    parameter (status .inputs),
    parameter (status .priority),
    parameter (status .queue_partition_key),
    parameter (status .forked_from),
    parameter (status .parent_workflow_id),
    parameter (status .serialization),
    nullish (status .delay_until_epoch_ms) .null,
    -- NOT NULL columns: payloads exported before these fields were included fall back to FALSE.
    nullish (status .was_forked_from) (.boolean false),
    nullish (status .rate_limited) (.boolean false),
    nullish (status .completed_at) .null,
    if truthy (status .attributes) then parameter (status .attributes) else .null,
    nullish (status .schedule_name) .null,
    nullish (status .debounce_deadline_epoch_ms) .null,
    nullish (status .is_debounced) (.boolean false)]

def Child.insert : (c : Child) → List c.Column
  | .operation_outputs =>
    [OutputColumn.workflow_uuid,.function_id,.function_name,.output,.error,
      .child_workflow_id,.started_at_epoch_ms,.completed_at_epoch_ms,
      .serialization]
  | .workflow_events => [EventColumn.workflow_uuid,.key,.value,.serialization]
  | .workflow_events_history => [HistoryColumn.workflow_uuid,.function_id,.key,.value,.serialization]
  | .streams => [StreamColumn.workflow_uuid,.key,.value,.offset,.function_id,.serialization]

def Child.values : (c : Child) → (c.Column → Option Value) → List Value
  | .operation_outputs,output =>
    [parameter (output OutputColumn.workflow_uuid),
      parameter (output .function_id),
      parameter (output .function_name),
      parameter (output .output),
      parameter (output .error),
      parameter (output .child_workflow_id),
      parameter (output .started_at_epoch_ms),
      parameter (output .completed_at_epoch_ms),
      parameter (output .serialization)]
  | .workflow_events,event =>
    [parameter (event EventColumn.workflow_uuid),parameter (event .key),parameter (event .value),parameter (event .serialization)]
  | .workflow_events_history,history =>
    [parameter (history HistoryColumn.workflow_uuid),parameter (history .function_id),parameter (history .key),
      parameter (history .value),parameter (history .serialization)]
  | .streams,stream =>
    [parameter (stream StreamColumn.workflow_uuid),parameter (stream .key),parameter (stream .value),
      parameter (stream .offset),parameter (stream .function_id),parameter (stream .serialization)]

/-- The columns that an INSERT does not list: `owner_xid`, whose default is NULL. -/
def unlisted {χ : Type} (_ : χ) : Value := .null

inductive Insert
  | status (row : StatusRow)
  | child (c : Child) (row : c.Row)

def importedStatus (status : StatusColumn → Option Value) : StatusRow := positional unlisted statusInsert (statusValues status)

def importedChild (c : Child) (row : c.Column → Option Value) : c.Row := positional unlisted c.insert (c.values row)

/-- The statements of one round of the loop of `importWorkflow`. -/
def importOne (workflow : ExportedWorkflow) : List Insert :=
  .status (importedStatus workflow.workflow_status) ::
    Child.all.flatMap fun c => (workflow.children c).map fun row => .child c (importedChild c row)

def execute (db : Database) : Insert → Except DbosError Database
  | .status row =>
    match db.workflow_status.insert row with
    | .ok t =>
      .ok ⟨t.1,db.children,fun c r member => by
        obtain ⟨s,there,same⟩ := db.owned c r member
        exact ⟨s,by rw [t.2]; exact List.mem_append_left _ there,same⟩⟩
    | .error code => .error (.DatabaseError code)
  | .child c row =>
    if owner : ∃ s ∈ db.workflow_status.rows,s .workflow_uuid = row c.workflow_uuid then
      match (db.children c).insert row with
      | .ok t =>
        .ok ⟨db.workflow_status,Function.update db.children c t.1,fun d r member => by
          by_cases same : d = c
          · subst same
            rw [Function.update_self,t.2] at member
            rcases List.mem_append.mp member with old | new
            · exact db.owned d r old
            · rw [List.mem_singleton.mp new]; exact owner
          · rw [Function.update_of_ne same] at member
            exact db.owned d r member⟩
      | .error code => .error (.DatabaseError code)
    else .error (.DatabaseError "23503")

/-- The statements up to the first that fails, with what the transaction sees after them. -/
def runAll (db : Database) : List Insert → Except DbosError Unit × Database
  | [] => (.ok (),db)
  | statement :: rest =>
    match execute db statement with
    | .ok db' => runAll db' rest
    | .error e => (.error e,db)

/-- The outcome for the caller, and the committed tables after it. -/
def importWorkflow (db : Database) (workflows : List ExportedWorkflow) : Except DbosError Unit × Database :=
  match runAll db (workflows.flatMap importOne) with
  | (.ok u,working) => (.ok u,working)
  -- ROLLBACK
  | (.error e,_) => (.error e,db)

end Dbos.ExportImport
