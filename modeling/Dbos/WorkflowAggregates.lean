import Std.Data.String.ToInt
import Dbos.Pg.Group
import Dbos.Js.Number
import Dbos.WorkflowList

/-!
`getWorkflowAggregates` of `src/system_database.ts`: counts of workflows by group, over the filters of `listWorkflows` written a second
time. The same filters let the same rows pass, so the counts are those of the listing. The bucket of a time is another matter:
`FLOOR(created_at / n)` divides whole numbers, which rounds toward zero before there is anything to floor.
-/
namespace Dbos.WorkflowAggregates
open Dbos.Pg Dbos.WorkflowList

structure GetWorkflowAggregatesInput (J : Type) where
  groupByStatus : Bool := false
  groupByName : Bool := false
  groupByQueueName : Bool := false
  groupByExecutorId : Bool := false
  groupByApplicationVersion : Bool := false
  selectCount : Bool := false
  selectMinCreatedAt : Bool := false
  selectMaxQueueWaitMs : Bool := false
  selectMaxTotalLatencyMs : Bool := false
  timeBucketSizeMs : Option Int := none
  status : Option (List String) := none
  startTime : Option String := none
  endTime : Option String := none
  completedAfter : Option String := none
  completedBefore : Option String := none
  dequeuedAfter : Option String := none
  dequeuedBefore : Option String := none
  name : Option (List String) := none
  appVersion : Option (List String) := none
  executorId : Option (List String) := none
  queueName : Option (List String) := none
  workflowIdPrefix : Option (List String) := none
  workflowIDs : Option (List String) := none
  authenticatedUser : Option (List String) := none
  forkedFrom : Option (List String) := none
  wasForkedFrom : Option Bool := none
  parentWorkflowID : Option (List String) := none
  hasParent : Option Bool := none
  queuesOnly : Bool := false
  attributes : Option J := none
  scheduleName : Option (List String) := none

structure WorkflowAggregateRow where
  group : List (String × Option String)
  count : Option Nat
  minCreatedAt : Option Int
  maxQueueWaitMs : Option Int
  maxTotalLatencyMs : Option Int

inductive Failure
  | refused (message : String)
  | statement

section
variable {J : Type} (host : Host J) (input : GetWorkflowAggregatesInput J)

/-! ### Groups -/

def groupByFlags : List (String × Bool × (Row J → Option String)) :=
  [("status",input.groupByStatus,Row.status),("name",input.groupByName,Row.name),("queue_name",input.groupByQueueName,Row.queue_name),
    ("executor_id",input.groupByExecutorId,Row.executor_id),
    ("application_version",input.groupByApplicationVersion,Row.application_version)]

def groupColumns : List (String × (Row J → Option String)) :=
  (groupByFlags input).filterMap fun flag => if flag.2.1 then some (flag.1,flag.2.2) else none

def isBigint (n : Int) : Bool := -2 ^ 63 ≤ n ∧ n < 2 ^ 63

/-- `FLOOR(created_at / n)`. A literal within `bigint` divides whole numbers, and the quotient is floored as a double; a larger literal is
    `numeric`, whose quotients are precise enough to be floored. -/
def floorOf (n created_at : Int) : Int :=
  if n < 2 ^ 63 then
    let quotient := created_at.tdiv n
    let double := (Js.roundDouble quotient.natAbs).getD 0
    if quotient < 0 then -double else double
  else created_at / n

/-- `(CAST(FLOOR(created_at / n) AS BIGINT) * n)`. -/
def bucketExpr (n created_at : Int) : Int := floorOf n created_at * n

/-- The CAST or the product overflows. -/
def bucketFails (n created_at : Int) : Bool := n < 2 ^ 63 ∧ (isBigint (floorOf n created_at) = false ∨ isBigint (bucketExpr n created_at) = false)

abbrev Key := List (String × Option String) × Option Int

/-- The columns and the bucket of a row, the times being put in buckets as they are told. -/
def keyOf (bucket : Int → Int → Int) (e : String × Row J) : Key :=
  ((groupColumns input).map fun column => (column.1,column.2 e.2),input.timeBucketSizeMs.map fun n => bucket n e.2.created_at)

/-- `group`, with `String` of the bucket. -/
def record (k : Key) : List (String × Option String) := k.1 ++ k.2.toList.map fun n => ("time_bucket",some n.repr)

/-! ### Statements -/

/-- `IN`, unless there is nothing to look for. -/
def addFilter (column : Column) (values : Option (List String)) : Where Column J → Where Column J :=
  match values with
  | none => id
  | some l => if l.length = 0 then id else Where.many .equals column (l.map .text)

def addPrefix (workflowIdPrefix : Option (List String)) : Where Column J → Where Column J :=
  match workflowIdPrefix with
  | none => id
  | some ps => if 0 < ps.length then Where.many .like .workflow_uuid (ps.map fun p => .text (p ++ "%")) else id

/-- The WHERE clause, in the order of the source. -/
def whereOf : Where Column J :=
  [addFilter .status input.status,
    addFilter .name input.name,
    addFilter .application_version input.appVersion,
    addFilter .executor_id input.executorId,
    addFilter .queue_name input.queueName,
    addPrefix input.workflowIdPrefix,
    addFilter .workflow_uuid input.workflowIDs,
    addFilter .authenticated_user input.authenticatedUser,
    addFilter .forked_from input.forkedFrom,
    addFilter .parent_workflow_id input.parentWorkflowID,
    addFilter .schedule_name input.scheduleName,
    addQueuesOnly input.queuesOnly,
    addWasForkedFrom input.wasForkedFrom,
    addHasParent input.hasParent,
    addAttributes host input.attributes,
    addTime host .atLeast .created_at input.startTime,
    addTime host .atMost .created_at input.endTime,
    addTime host .atLeast .completed_at input.completedAfter,
    addTime host .atMost .completed_at input.completedBefore,
    addTime host .atLeast .started_at_epoch_ms input.dequeuedAfter,
    addTime host .atMost .started_at_epoch_ms input.dequeuedBefore].foldl (fun w piece => piece w) {}

/-- The errors of the function itself. -/
def refusal : Option String :=
  if input.timeBucketSizeMs.any (· ≤ 0) then some "time_bucket_size_ms must be > 0"
  else if (groupColumns input).isEmpty && input.timeBucketSizeMs.isNone then some "At least one group_by flag must be set to True"
  else if !(input.selectCount || input.selectMinCreatedAt || input.selectMaxQueueWaitMs || input.selectMaxTotalLatencyMs) then
    some "At least one select_ flag must be set to True"
  else none

def passing (table : Rows J) : List (String × Row J) :=
  table.select fun k row => (whereOf host input).matches host.toJsonb (read (k,row))

/-- `started_at_epoch_ms - created_at`. -/
def queueWait (row : Row J) : Option Int := row.started_at_epoch_ms.map (· - row.created_at)

/-- `completed_at - created_at`. -/
def totalLatency (row : Row J) : Option Int := row.completed_at.map (· - row.created_at)

/-- An expression overflows on the row. -/
def rowFails (row : Row J) : Bool :=
  input.timeBucketSizeMs.any (bucketFails · row.created_at) ||
    (input.selectMaxQueueWaitMs && (queueWait row).any fun n => !isBigint n) ||
    (input.selectMaxTotalLatencyMs && (totalLatency row).any fun n => !isBigint n)

def aggregate (rows : List (String × Row J)) (k : Key) : WorkflowAggregateRow where
  group := record k
  count := if input.selectCount then some rows.length else none
  minCreatedAt := if input.selectMinCreatedAt then (rows.map fun e => e.2.created_at).min? else none
  maxQueueWaitMs := if input.selectMaxQueueWaitMs then (rows.filterMap fun e => queueWait e.2).max? else none
  maxTotalLatencyMs := if input.selectMaxTotalLatencyMs then (rows.filterMap fun e => totalLatency e.2).max? else none

/-- What the call can give: an error, or the groups in any order. -/
def Aggregates (table : Rows J) (result : Except Failure (List WorkflowAggregateRow)) : Prop :=
  match refusal input with
  | some message => result = .error (.refused message)
  | none =>
    if (whereOf host input).fails host.toJsonb || (whereOf host input).tooMany || (passing host input table).any fun e => rowFails input e.2
    then result = .error .statement
    else ∃ keys,GroupKeys (keyOf input bucketExpr) (passing host input table) keys ∧
      result = .ok (keys.map fun k => aggregate input (members (keyOf input bucketExpr) (passing host input table) k) k)

/-! ### The listing of the same filters -/

def listing : GetWorkflowsInput J where
  workflowIDs := input.workflowIDs
  workflowName := input.name.map .many
  status := input.status.map .many
  startTime := input.startTime
  endTime := input.endTime
  completedAfter := input.completedAfter
  completedBefore := input.completedBefore
  dequeuedAfter := input.dequeuedAfter
  dequeuedBefore := input.dequeuedBefore
  authenticatedUser := input.authenticatedUser.map .many
  applicationVersion := input.appVersion.map .many
  executorId := input.executorId.map .many
  workflow_id_prefix := input.workflowIdPrefix.map .many
  queueName := input.queueName.map .many
  queuesOnly := input.queuesOnly
  forkedFrom := input.forkedFrom.map .many
  wasForkedFrom := input.wasForkedFrom
  parentWorkflowID := input.parentWorkflowID.map .many
  hasParent := input.hasParent
  attributes := input.attributes
  scheduleName := input.scheduleName.map .many

/-- The filters on texts. -/
def GetWorkflowAggregatesInput.lists : List (Option (List String)) :=
  [input.status,input.name,input.appVersion,input.executorId,input.queueName,input.workflowIdPrefix,input.workflowIDs,
    input.authenticatedUser,input.forkedFrom,input.parentWorkflowID,input.scheduleName]

/-- No list is empty. -/
def Filled : Prop := ∀ values ∈ input.lists,values ≠ some []

/-- The bucket that a time belongs to. -/
def floorBucket (n created_at : Int) : Int := created_at / n * n

/-- The counts are those of the listed rows, with times in the given buckets, and each listed row is counted in its bucket. -/
structure Counts (bucket : Int → Int → Int) (listed : List (String × Row J)) (rows : List WorkflowAggregateRow) : Prop where
  distinct : (rows.map WorkflowAggregateRow.group).Nodup
  total : (rows.map fun r => r.count.getD 0).sum = listed.length
  counts : ∀ r ∈ rows,r.count = some (listed.countP fun e => record (keyOf input bucket e) = r.group)
  counted : ∀ e ∈ listed,∃ r ∈ rows,record (keyOf input bucketExpr e) = r.group ∧ record (keyOf input bucket e) = r.group

/-- Whatever the listing gives, the aggregates are its counts. -/
def Agrees (table : Rows J) : Prop :=
  ∀ listed,Lists host (listing input) table (.ok listed) → ∀ result,Aggregates host input table result →
    ∃ rows,result = .ok rows ∧ Counts input floorBucket listed rows

/-- A time that is rounded to its bucket: the quotient toward zero, as a double, is the one toward minus infinity. -/
def Fair (n created_at : Int) : Prop :=
  2 ^ 63 ≤ n ∨ (Js.roundDouble (created_at.tdiv n).natAbs = some (created_at / n).natAbs ∧ isBigint (floorBucket n created_at) = true)

/-- The bucket is fair to the row, and differences of times are no overflow. -/
def FineRow (row : Row J) : Prop :=
  (∀ n ∈ input.timeBucketSizeMs,Fair n row.created_at) ∧
    (input.selectMaxQueueWaitMs = true → ∀ n ∈ queueWait row,isBigint n = true) ∧
    (input.selectMaxTotalLatencyMs = true → ∀ n ∈ totalLatency row,isBigint n = true)

/-- When the aggregates are right. -/
def Fine (table : Rows J) : Prop := ∀ e ∈ table.entries,Reads host (listing input) (read e) → FineRow input e.2

end

/-! ### Buckets -/

section
variable {n c : Int}

theorem isBigint_iff : isBigint n = true ↔ -2 ^ 63 ≤ n ∧ n < 2 ^ 63 := by simp [isBigint]

/-- The quotient toward zero is the floor, but for a negative time that is no multiple. -/
theorem tdiv_floor (positive : 0 < n) (c : Int) : c.tdiv n = c / n ∨ (c.tdiv n = c / n + 1 ∧ c / n < 0) := by
  have quotient := Int.tdiv_eq_ediv (a := c) (b := n)
  by_cases whole : 0 ≤ c ∨ n ∣ c
  · rw [if_pos whole,add_zero] at quotient
    exact .inl quotient
  · rw [if_neg whole,Int.sign_eq_one_of_pos positive] at quotient
    exact .inr ⟨quotient,Int.ediv_neg_of_neg_of_pos (by omega) positive⟩

theorem signed_eq {quotient floor : Int} {double : Option Nat} (near : quotient = floor ∨ (quotient = floor + 1 ∧ floor < 0))
    (zero : quotient = 0 → double = some 0) :
    (if quotient < 0 then -((double.getD 0 : Nat) : Int) else (double.getD 0 : Nat)) = floor ↔ double = some floor.natAbs := by
  cases double with
  | none =>
    have other : quotient ≠ 0 := fun h => nomatch zero h
    simp only [Option.getD_none,reduceCtorEq,iff_false]
    omega
  | some m =>
    have zero : quotient = 0 → m = 0 := fun h => Option.some.inj (zero h)
    simp only [Option.getD_some,Option.some.injEq]
    omega

theorem floorOf_eq (positive : 0 < n) (small : n < 2 ^ 63) :
    floorOf n c = c / n ↔ Js.roundDouble (c.tdiv n).natAbs = some (c / n).natAbs := by
  rw [floorOf,if_pos small]
  refine signed_eq (tdiv_floor positive c) fun zero => ?_
  rw [zero]
  exact Js.roundDouble_small (by decide)

/-- A multiple of a whole number is at least as far from zero. -/
theorem bigint_of_mul (positive : 0 < n) {q : Int} (product : isBigint (q * n) = true) : isBigint q = true := by
  rw [isBigint_iff] at *
  by_cases negative : q < 0
  · have far : q * n ≤ q * 1 := Int.mul_le_mul_of_nonpos_left negative.le positive
    omega
  · have far : q * 1 ≤ q * n := Int.mul_le_mul_of_nonneg_left positive (by omega)
    omega

/-- The bucket is the right one and nothing overflows. -/
theorem fair_iff (positive : 0 < n) (c : Int) : Fair n c ↔ bucketFails n c = false ∧ bucketExpr n c = floorBucket n c := by
  by_cases small : n < 2 ^ 63
  · have same : bucketExpr n c = floorBucket n c ↔ floorOf n c = c / n := by
      rw [bucketExpr,floorBucket,Int.mul_eq_mul_right_iff positive.ne']
    have fails : bucketFails n c = false ↔ isBigint (floorOf n c) = true ∧ isBigint (bucketExpr n c) = true := by
      simp only [bucketFails,small,true_and,decide_eq_false_iff_not,not_or,Bool.not_eq_false]
    rw [Fair,or_iff_right (Int.not_le.mpr small),← floorOf_eq positive small,fails,same]
    constructor
    · rintro ⟨floor,fits⟩
      rw [floor,same.mpr floor]
      exact ⟨⟨bigint_of_mul positive fits,fits⟩,rfl⟩
    · rintro ⟨⟨_,fits⟩,floor⟩
      rw [same.mpr floor] at fits
      exact ⟨floor,fits⟩
  · have large : floorOf n c = c / n := if_neg small
    have fails : bucketFails n c = false := by simp only [bucketFails,small,false_and,decide_false]
    rw [Fair,bucketExpr,large,fails]
    exact iff_of_true (.inl (Int.not_lt.mp small)) ⟨rfl,rfl⟩

/-- As long as the quotient is a double, a bucket is fair to the times from 1970 on and to its multiples. -/
theorem fair_small (positive : 0 < n) (small : n < 2 ^ 63) (fits : isBigint c = true) (double : (c.tdiv n).natAbs ≤ 2 ^ 53) :
    Fair n c ↔ 0 ≤ c ∨ n ∣ c := by
  rw [Fair,or_iff_right (Int.not_le.mpr small),Js.roundDouble_small double,Option.some.injEq]
  have quotient := Int.tdiv_eq_ediv (a := c) (b := n)
  constructor
  · rintro ⟨same,_⟩
    by_contra partly
    rw [if_neg partly,Int.sign_eq_one_of_pos positive] at quotient
    have below : c / n < 0 := Int.ediv_neg_of_neg_of_pos (by omega) positive
    omega
  · intro whole
    rw [if_pos whole,add_zero] at quotient
    refine ⟨by rw [quotient],?_⟩
    rw [isBigint_iff] at *
    rw [floorBucket]
    rcases whole with past | multiple
    · have low : 0 ≤ c / n * n := Int.mul_nonneg (Int.ediv_nonneg past positive.le) positive.le
      have high : c / n * n ≤ c := Int.ediv_mul_le c positive.ne'
      omega
    · rw [Int.ediv_mul_cancel multiple]
      exact fits

end

/-! ### The same filters -/

section
variable {J : Type} {host : Host J} {input : GetWorkflowAggregatesInput J}

theorem addFilter_filled {values : Option (List String)} (filled : values ≠ some []) (column : Column) :
    (addFilter column values : Where Column J → Where Column J) = WorkflowList.addFilter column (values.map .many) := by
  rcases values with _ | _ | ⟨s,l⟩
  · rfl
  · exact absurd rfl filled
  · rfl

theorem addPrefix_filled {ps : Option (List String)} (filled : ps ≠ some []) :
    (addPrefix ps : Where Column J → Where Column J) = WorkflowList.addPrefix (ps.map .many) := by
  rcases ps with _ | _ | ⟨p,ps⟩
  · rfl
  · exact absurd rfl filled
  · rfl

theorem addIDs_filled {ids : Option (List String)} (filled : ids ≠ some []) :
    (addFilter .workflow_uuid ids : Where Column J → Where Column J) = addIDs ids := by
  rcases ids with _ | _ | ⟨id,ids⟩
  · rfl
  · exact absurd rfl filled
  · rfl

/-- The pieces of the listing, in the order of the aggregates. -/
def piecesOf (host : Host J) (input : GetWorkflowsInput J) : List (Where Column J → Where Column J) :=
  [WorkflowList.addFilter .status input.status,WorkflowList.addFilter .name input.workflowName,
    WorkflowList.addFilter .application_version input.applicationVersion,WorkflowList.addFilter .executor_id input.executorId,
    WorkflowList.addFilter .queue_name input.queueName,WorkflowList.addPrefix input.workflow_id_prefix,addIDs input.workflowIDs,
    WorkflowList.addFilter .authenticated_user input.authenticatedUser,WorkflowList.addFilter .forked_from input.forkedFrom,
    WorkflowList.addFilter .parent_workflow_id input.parentWorkflowID,WorkflowList.addFilter .schedule_name input.scheduleName,
    addQueuesOnly input.queuesOnly,addWasForkedFrom input.wasForkedFrom,addHasParent input.hasParent,addAttributes host input.attributes,
    addTime host .atLeast .created_at input.startTime,addTime host .atMost .created_at input.endTime,
    addTime host .atLeast .completed_at input.completedAfter,addTime host .atMost .completed_at input.completedBefore,
    addTime host .atLeast .started_at_epoch_ms input.dequeuedAfter,addTime host .atMost .started_at_epoch_ms input.dequeuedBefore]

theorem whereOf_pieces (filled : Filled input) :
    whereOf host input = (piecesOf host (listing input)).foldl (fun w piece => piece w) {} := by
  simp only [Filled,GetWorkflowAggregatesInput.lists,List.forall_mem_cons] at filled
  obtain ⟨status,name,version,executor,queue,start,ids,user,forked,parent,schedule,_⟩ := filled
  rw [whereOf,addFilter_filled status,addFilter_filled name,addFilter_filled version,addFilter_filled executor,addFilter_filled queue,
    addPrefix_filled start,addIDs_filled ids,addFilter_filled user,addFilter_filled forked,addFilter_filled parent,
    addFilter_filled schedule]
  rfl

/-- The parts of the listing, in the order of the aggregates. -/
def partsOf (host : Host J) (input : GetWorkflowsInput J) : List (WherePart J) :=
  [filterPart .status input.status,filterPart .name input.workflowName,filterPart .application_version input.applicationVersion,
    filterPart .executor_id input.executorId,filterPart .queue_name input.queueName,prefixPart input.workflow_id_prefix,
    idsPart input.workflowIDs,filterPart .authenticated_user input.authenticatedUser,filterPart .forked_from input.forkedFrom,
    filterPart .parent_workflow_id input.parentWorkflowID,filterPart .schedule_name input.scheduleName,queuesPart input.queuesOnly,
    forkedPart input.wasForkedFrom,parentPart input.hasParent,attributesPart host input.attributes,
    timePart host .atLeast .created_at input.startTime,timePart host .atMost .created_at input.endTime,
    timePart host .atLeast .completed_at input.completedAfter,timePart host .atMost .completed_at input.completedBefore,
    timePart host .atLeast .started_at_epoch_ms input.dequeuedAfter,timePart host .atMost .started_at_epoch_ms input.dequeuedBefore]

theorem mem_partsOf (host : Host J) (input : GetWorkflowsInput J) (part : WherePart J) :
    part ∈ partsOf host input ↔ part ∈ WorkflowList.partsOf host input := by
  simp only [partsOf,WorkflowList.partsOf,List.mem_cons,List.not_mem_nil,or_false]
  apply iff_of_eq
  ac_rfl

/-- The WHERE clause means what that of the listing means. -/
theorem whereOf_means (filled : Filled input) :
    Means host.toJsonb (whereOf host input) (Reads host (listing input)) (BadWhere host (listing input)) := by
  have parts : Means host.toJsonb (whereOf host input) (fun row => True ∧ ∀ part ∈ partsOf host (listing input),part.1 row)
      (False ∨ ∃ part ∈ partsOf host (listing input),part.2) := by
    rw [whereOf_pieces filled]
    refine means_pieces ?_ means_start
    exact .cons (adds_filter _ _) <| .cons (adds_filter _ _) <| .cons (adds_filter _ _) <| .cons (adds_filter _ _) <|
      .cons (adds_filter _ _) <| .cons (adds_prefixes _) <| .cons (adds_ids _) <| .cons (adds_filter _ _) <| .cons (adds_filter _ _) <|
      .cons (adds_filter _ _) <| .cons (adds_filter _ _) <| .cons (adds_queuesOnly _) <| .cons (adds_wasForkedFrom _) <|
      .cons (adds_hasParent _) <| .cons (adds_attributes _) <|
      .cons (adds_time (.inl rfl) _ _) <| .cons (adds_time (.inr rfl) _ _) <| .cons (adds_time (.inl rfl) _ _) <|
      .cons (adds_time (.inr rfl) _ _) <| .cons (adds_time (.inl rfl) _ _) <| .cons (adds_time (.inr rfl) _ _) .nil
  refine parts.congr (fun row => ?_) ?_
  · simp only [true_and,mem_partsOf,partsOf_reads]
  · simp only [false_or,mem_partsOf,partsOf_bad]

/-- The statement has as many parameters as that of the listing. -/
theorem whereOf_length (filled : Filled input) :
    (whereOf host input).params.length = (WorkflowList.whereOf host (listing input)).params.length := by
  have each : List.Forall₂ Sends (piecesOf host (listing input)) _ :=
    .cons (sends_filter _ _) <| .cons (sends_filter _ _) <| .cons (sends_filter _ _) <| .cons (sends_filter _ _) <|
      .cons (sends_filter _ _) <| .cons (sends_prefixes _) <| .cons (sends_ids _) <| .cons (sends_filter _ _) <| .cons (sends_filter _ _) <|
      .cons (sends_filter _ _) <| .cons (sends_filter _ _) <| .cons (sends_queuesOnly _) <| .cons (sends_wasForkedFrom _) <|
      .cons (sends_hasParent _) <| .cons (sends_attributes _) <| .cons (sends_time _ _ _) <| .cons (sends_time _ _ _) <|
      .cons (sends_time _ _ _) <| .cons (sends_time _ _ _) <| .cons (sends_time _ _ _) <| .cons (sends_time _ _ _) .nil
  rw [whereOf_pieces filled,sends_pieces each,WorkflowList.whereOf_length]
  simp only [numbersOf,List.sum_cons,List.sum_nil,List.length_nil]
  omega

/-! ### Counts -/

variable {table : Rows J}

/-- Different keys have different records. -/
theorem record_inj {bucket bucket' : Int → Int → Int} {e e' : String × Row J}
    (same : record (keyOf input bucket e) = record (keyOf input bucket' e')) : keyOf input bucket e = keyOf input bucket' e' := by
  cases given : input.timeBucketSizeMs with
  | none => simpa [record,keyOf,given] using same
  | some n =>
    simp only [record,keyOf,given,Option.map_some,Option.toList_some,List.map_cons,List.map_nil] at same
    obtain ⟨columns,buckets⟩ := List.append_inj' same rfl
    have numbers := Int.repr_injective (Option.some.inj (Prod.mk.inj (List.cons.inj buckets).1).2)
    rw [keyOf,keyOf,given,columns,Option.map_some,Option.map_some,numbers]

theorem mem_passing (filled : Filled input) (e : String × Row J) :
    e ∈ passing host input table ↔ e ∈ table.entries ∧ Reads host (listing input) (read e) := by
  rw [passing,Table.select,List.mem_filter,(whereOf_means filled).matches]

theorem passing_nodup : (passing host input table).Nodup := (entries_nodup table).filter _

/-- The rows that pass are the listed ones. -/
theorem listed_perm (filled : Filled input) (fine : ¬Faulty host (listing input)) {listed : List (String × Row J)} :
    Lists host (listing input) table (.ok listed) → listed.Perm (passing host input table) := by
  intro lists
  obtain ⟨sorted,answer,ok⟩ := (lists_fine fine).mp lists
  cases ok
  refine (List.perm_ext_iff_of_nodup answer.1 passing_nodup).mpr fun e => ?_
  rw [mem_passing filled,← mem_selected]
  exact answer_all answer e

theorem counts_of_groups {bucket : Int → Int → Int} {keys : List Key} {listed : List (String × Row J)} (counting : input.selectCount = true)
    (grouped : GroupKeys (keyOf input bucketExpr) (passing host input table) keys) (perm : listed.Perm (passing host input table))
    (same : ∀ e ∈ passing host input table,keyOf input bucketExpr e = keyOf input bucket e) :
    Counts input bucket listed
      (keys.map fun k => aggregate input (members (keyOf input bucketExpr) (passing host input table) k) k) := by
  refine ⟨?_,?_,?_,?_⟩
  · rw [List.map_map]
    refine (groupKeys_nodup grouped).map_on fun k given k' given' records => ?_
    obtain ⟨e,_,rfl⟩ := (mem_groupKeys grouped k).mp given
    obtain ⟨e',_,rfl⟩ := (mem_groupKeys grouped k').mp given'
    exact record_inj records
  · rw [perm.length_eq,← sum_members grouped,List.map_map]
    simp [Function.comp_def,aggregate,counting]
  · intro r row
    obtain ⟨k,given,rfl⟩ := List.mem_map.mp row
    obtain ⟨e,_,rfl⟩ := (mem_groupKeys grouped k).mp given
    simp only [aggregate,counting,if_true,members,← List.countP_eq_length_filter,perm.countP_eq]
    refine congrArg some (List.countP_congr fun e' passes => ?_)
    rw [← same e' passes,decide_eq_true_eq,decide_eq_true_eq]
    exact ⟨congrArg record,record_inj⟩
  · intro e member
    have passes := perm.mem_iff.mp member
    have key := (mem_groupKeys grouped _).mpr ⟨e,passes,rfl⟩
    exact ⟨_,List.mem_map_of_mem key,rfl,by rw [← same e passes]; rfl⟩

/-- The listing has no limit and no offset. -/
theorem faulty_iff (filled : Filled input) :
    Faulty host (listing input) ↔ ((whereOf host input).fails host.toJsonb || (whereOf host input).tooMany) = true := by
  have fails : (whereOf host input).fails host.toJsonb = true ↔ BadWhere host (listing input) := (whereOf_means filled).fails
  have many : (whereOf host input).tooMany = (WorkflowList.whereOf host (listing input)).tooMany := by
    rw [Where.tooMany,Where.tooMany,whereOf_length filled]
  have unlimited : outOfRange (limitOf (listing input).limit) = false ∧ outOfRange (listing input).offset = false := ⟨rfl,rfl⟩
  rw [Faulty,unlimited.1,unlimited.2,Bool.or_eq_true,fails,many]
  simp

theorem aggregates_faulty (filled : Filled input) (accepted : refusal input = none) (faulty : Faulty host (listing input))
    {result : Except Failure (List WorkflowAggregateRow)} : Aggregates host input table result ↔ result = .error .statement := by
  rw [Aggregates,accepted]
  dsimp only
  rw [if_pos]
  rw [(faulty_iff filled).mp faulty,Bool.true_or]

theorem aggregates_fine (filled : Filled input) (accepted : refusal input = none) (fine : ¬Faulty host (listing input))
    {result : Except Failure (List WorkflowAggregateRow)} : Aggregates host input table result ↔
    if (passing host input table).any fun e => rowFails input e.2 then result = .error .statement
    else ∃ keys,GroupKeys (keyOf input bucketExpr) (passing host input table) keys ∧
      result = .ok (keys.map fun k => aggregate input (members (keyOf input bucketExpr) (passing host input table) k) k) := by
  have runs : ((whereOf host input).fails host.toJsonb || (whereOf host input).tooMany) = false := by
    rw [← Bool.not_eq_true,← faulty_iff filled]
    exact fine
  rw [Aggregates,accepted]
  dsimp only
  rw [runs,Bool.false_or]

theorem exists_aggregates (host : Host J) (input : GetWorkflowAggregatesInput J) (table : Rows J) :
    ∃ result,Aggregates host input table result := by
  simp only [Aggregates]
  cases refusal input with
  | some message => exact ⟨_,rfl⟩
  | none =>
    dsimp only
    split
    · exact ⟨_,rfl⟩
    · exact ⟨_,_,groupKeys_dedup _ _,rfl⟩

/-- There is a listing unless the statement fails. -/
theorem exists_listing (fine : ¬Faulty host (listing input)) (table : Rows J) :
    ∃ listed,Lists host (listing input) table (.ok listed) := by
  obtain ⟨sorted,answer⟩ := exists_sorted (listing input).sortDesc (selected_nodup host (listing input) table)
  exact ⟨_,(lists_fine fine).mpr ⟨sorted,answer,rfl⟩⟩

theorem bucket_positive (accepted : refusal input = none) : ∀ n ∈ input.timeBucketSizeMs,0 < n := by
  intro n given
  by_contra small
  have bad : input.timeBucketSizeMs.any (· ≤ 0) = true := by
    rw [Option.mem_def.mp given,Option.any_some,decide_eq_true_eq]
    omega
  rw [refusal,if_pos bad] at accepted
  cases accepted

theorem fineRow_iff (accepted : refusal input = none) (e : String × Row J) :
    FineRow input e.2 ↔ rowFails input e.2 = false ∧ keyOf input bucketExpr e = keyOf input floorBucket e := by
  have keys : keyOf input bucketExpr e = keyOf input floorBucket e ↔
      ∀ n ∈ input.timeBucketSizeMs,bucketExpr n e.2.created_at = floorBucket n e.2.created_at := by
    rw [keyOf,keyOf,Prod.mk.injEq,and_iff_right rfl]
    cases input.timeBucketSizeMs <;> simp
  have fair : (∀ n ∈ input.timeBucketSizeMs,Fair n e.2.created_at) ↔
      input.timeBucketSizeMs.any (bucketFails · e.2.created_at) = false ∧
        ∀ n ∈ input.timeBucketSizeMs,bucketExpr n e.2.created_at = floorBucket n e.2.created_at := by
    have positive := bucket_positive accepted
    cases given : input.timeBucketSizeMs with
    | none => simp
    | some n => simpa using fair_iff (positive n given) e.2.created_at
  have overflow : ∀ (flag : Bool) (difference : Option Int),
      (flag && difference.any fun n => !isBigint n) = false ↔ (flag = true → ∀ n ∈ difference,isBigint n = true) := by
    intro flag difference
    cases flag <;> cases difference <;> simp
  rw [FineRow,fair,keys,rowFails,Bool.or_eq_false_iff,Bool.or_eq_false_iff,overflow,overflow]
  tauto

theorem fine_iff (filled : Filled input) (accepted : refusal input = none) :
    Fine host input table ↔ ∀ e ∈ passing host input table,
      rowFails input e.2 = false ∧ keyOf input bucketExpr e = keyOf input floorBucket e := by
  simp only [Fine,mem_passing filled,and_imp,fineRow_iff accepted]

/-- The statement runs unless an expression overflows on a row. -/
theorem aggregates_ok (filled : Filled input) (accepted : refusal input = none) (fine : ¬Faulty host (listing input))
    {rows : List WorkflowAggregateRow} (ok : Aggregates host input table (.ok rows)) :
    (∀ e ∈ passing host input table,rowFails input e.2 = false) ∧
      ∃ keys,GroupKeys (keyOf input bucketExpr) (passing host input table) keys ∧
        rows = keys.map fun k => aggregate input (members (keyOf input bucketExpr) (passing host input table) k) k := by
  rw [aggregates_fine filled accepted fine] at ok
  split at ok
  · cases ok
  · next runs =>
    obtain ⟨keys,grouped,same⟩ := ok
    refine ⟨fun e passes => ?_,keys,grouped,Except.ok.inj same⟩
    by_contra fails
    exact runs (List.any_eq_true.mpr ⟨e,passes,Bool.eq_true_of_not_eq_false fails⟩)

/-- The counts by the buckets that the statement forms. -/
theorem counts_formed (filled : Filled input) (accepted : refusal input = none) (counting : input.selectCount = true)
    (fine : ¬Faulty host (listing input)) {listed : List (String × Row J)} {rows : List WorkflowAggregateRow}
    (lists : Lists host (listing input) table (.ok listed)) (ok : Aggregates host input table (.ok rows)) :
    Counts input bucketExpr listed rows := by
  obtain ⟨_,keys,grouped,rfl⟩ := aggregates_ok filled accepted fine ok
  exact counts_of_groups counting grouped (listed_perm filled fine lists) fun _ _ => rfl

theorem agrees_of_fine (filled : Filled input) (accepted : refusal input = none) (counting : input.selectCount = true)
    (running : ¬Faulty host (listing input)) (fine : Fine host input table) : Agrees host input table := by
  rw [fine_iff filled accepted] at fine
  intro listed lists result aggregates
  have runs : ((passing host input table).any fun e => rowFails input e.2) = false := by
    rw [List.any_eq_false]
    intro e passes
    rw [(fine e passes).1]
    exact Bool.false_ne_true
  rw [aggregates_fine filled accepted running,runs] at aggregates
  obtain ⟨keys,grouped,rfl⟩ := aggregates
  exact ⟨_,rfl,counts_of_groups counting grouped (listed_perm filled running lists) fun e passes => (fine e passes).2⟩

theorem fine_of_agrees (filled : Filled input) (accepted : refusal input = none) (running : ¬Faulty host (listing input))
    (agrees : Agrees host input table) : Fine host input table := by
  rw [fine_iff filled accepted]
  obtain ⟨listed,lists⟩ := exists_listing running table
  obtain ⟨result,aggregates⟩ := exists_aggregates host input table
  obtain ⟨rows,rfl,counts⟩ := agrees listed lists result aggregates
  intro e passes
  obtain ⟨r,_,formed,floor⟩ := counts.counted e ((listed_perm filled running lists).mem_iff.mpr passes)
  exact ⟨(aggregates_ok filled accepted running aggregates).1 e passes,record_inj (formed.trans floor.symm)⟩

/-- The aggregates are the counts of the listing, by the buckets that the statement forms. They are the right buckets, and nothing
    overflows, exactly when the rows that pass are fine. -/
theorem aggregates_agree (host : Host J) (input : GetWorkflowAggregatesInput J) (table : Rows J) (filled : Filled input)
    (accepted : refusal input = none) (counting : input.selectCount = true) :
    (∃ result,Aggregates host input table result) ∧
      (Faulty host (listing input) → ∀ result,Aggregates host input table result → result = .error .statement) ∧
      (¬Faulty host (listing input) →
        (∀ listed rows,Lists host (listing input) table (.ok listed) → Aggregates host input table (.ok rows) →
          Counts input bucketExpr listed rows) ∧
        (Agrees host input table ↔ Fine host input table)) := by
  refine ⟨exists_aggregates host input table,fun faulty result => (aggregates_faulty filled accepted faulty).mp,fun running => ⟨?_,?_⟩⟩
  · intro listed rows lists ok
    exact counts_formed filled accepted counting running lists ok
  · exact ⟨fine_of_agrees filled accepted running,agrees_of_fine filled accepted counting running⟩

def sampleInput : GetWorkflowAggregatesInput Unit :=
  { groupByStatus := true,selectCount := true,timeBucketSizeMs := some 10,workflowIdPrefix := some ["a"] }

theorem sampleInput_filled : Filled sampleInput := by simp [Filled,GetWorkflowAggregatesInput.lists,sampleInput]

theorem sampleInput_runs : ¬Faulty sampleHost (listing sampleInput) := by
  have few : (WorkflowList.whereOf sampleHost (listing sampleInput)).tooMany = false := by decide
  have unlimited : outOfRange (limitOf (listing sampleInput).limit) = false ∧ outOfRange (listing sampleInput).offset = false := ⟨rfl,rfl⟩
  rw [Faulty,few,unlimited.1,unlimited.2]
  simp [BadWhere,BadTexts,GetWorkflowsInput.texts,GetWorkflowsInput.times,listing,sampleInput,OneOrMany.list]

theorem aggregates_agree_sample : Agrees sampleHost sampleInput sampleTable := by
  refine ((aggregates_agree sampleHost sampleInput sampleTable sampleInput_filled rfl rfl).2.2 sampleInput_runs).2.mpr fun e member _ => ?_
  refine ⟨?_,nofun,nofun⟩
  rintro _ ⟨⟩
  simp only [sampleTable,List.mem_cons,List.not_mem_nil,or_false] at member
  rcases member with rfl | rfl
  · exact (fair_small (by decide) (by decide) rfl (by decide)).mpr (.inl (by decide))
  · exact (fair_small (by decide) (by decide) rfl (by decide)).mpr (.inl (by decide))

/-- A millisecond before 1970 is counted in the bucket after it. -/
theorem bucket_before_1970 : ¬Agrees sampleHost sampleInput ⟨[("ab",{ created_at := -1 })],by decide⟩ := by
  intro agrees
  have fine := fine_of_agrees sampleInput_filled rfl sampleInput_runs agrees
  have reads : Reads sampleHost (listing sampleInput) (read ("ab",({ created_at := -1 } : Row Unit))) := by
    refine (reads_iff (fun bad => sampleInput_runs (.inl bad)) _).mpr ⟨⟨nofun,nofun,nofun,nofun,nofun,?_⟩,?_,?_⟩
    · simp [GetWorkflowsInput.times,listing,sampleInput]
    · simp [GetWorkflowsInput.texts,listing,sampleInput,Among,truthy]
    · rintro _ ⟨⟩
      exact ⟨"a",List.mem_cons_self,"ab",rfl,by decide⟩
  have fair := (fine _ List.mem_cons_self reads).1 10 rfl
  rw [fair_small (by decide) (by decide) rfl (by decide)] at fair
  exact absurd fair (by decide)

end

end Dbos.WorkflowAggregates
