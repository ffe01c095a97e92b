import Dbos.Pg.Run

/-!
Concurrent runs of `runSysMigrationsPg`. All builds have initial parts of one list of
migrations. A run goes from one statement to the next; every statement commits on its own. What a
migration does to the other tables is left to the outcome of its statements; that it may create
`dbos_migrations` is not. Between any two statements a run may crash.
-/
namespace Dbos.Migrations
open Dbos.Pg

/-! ### Errors -/

/-- What `client.query` throws. -/
inductive Thrown
  | pgErrorLike (code message : Option String)
  | other
  deriving DecidableEq

def DEFAULT_IGNORABLE_CODES : List String := ["42P07","42710","42701","42P06","23505"]

/-- A test such as `/duplicate/i.test(msg)`, for a text and a message in lower case. -/
def occurs (text : String) (msg : List Char) : Bool := msg.tails.any fun t => text.toList.isPrefixOf t

/-- What `.` does not match. -/
def lineTerminators : List Char := ['\n','\r','\u2028','\u2029']

/-- `/multiple.*?not allowed/i`. -/
def multipleNotAllowed (msg : List Char) : Bool :=
  msg.tails.any fun t => "multiple".toList.isPrefixOf t &&
    occurs "not allowed" ((t.drop "multiple".length).takeWhile fun c => c ∉ lineTerminators)

def isDDLAlreadyAppliedPgError (err : Thrown) (ignoreCodes : List String) : Bool :=
  match err with
  | .other => false
  | .pgErrorLike code message =>
    let msg := (message.getD "").toList.map Char.toLower
    (code.any fun c => c ≠ "" && c ∈ ignoreCodes) || occurs "already exists" msg || occurs "duplicate" msg ||
      multipleNotAllowed msg

/-! ### Runs -/

structure DBMigration where
  pg : List String := []
  online : Bool := false

/-- The next statement of a run. -/
inductive Phase
  -- `getCurrentSysDBVersion`: is there a table, and which version is the highest
  | reading
  | selecting
  -- `cleanupInvalidIndexes` and the statements of the migration at index `i`
  | cleaning (i : Nat)
  | running (i k : Nat)
  -- `bumpMigrationVersion`: is there a table, UPDATE, INSERT
  | bumping (i : Nat)
  | updating (i : Nat)
  | inserting (i : Nat)
  | returned
  | threw
  deriving DecidableEq

/-- A call of `runSysMigrationsPg` by a build that knows so many migrations. -/
structure Run where
  build : Nat
  isCockroach : Bool := false
  ignoreErrorCodes : List String := DEFAULT_IGNORABLE_CODES
  current : Nat := 0
  phase : Phase := .reading
  deriving DecidableEq

/-- The loop over the migrations from index `i` on, up to its next statement. -/
def enter (isCockroach : Bool) (current : Nat) : Nat → List DBMigration → Phase
  | _,[] => .returned
  | i,m :: rest =>
    if i + 1 ≤ current then enter isCockroach current (i + 1) rest
    else if m.pg.isEmpty then .bumping i
    else if m.online && !isCockroach then .cleaning i
    else .running i 0

inductive Outcome
  | ok
  | error (e : Thrown)
  deriving DecidableEq

/-- A statement of a migration that a run has executed. -/
structure Executed where
  run : Nat
  migration : Nat
  statement : Nat
  ignoreErrorCodes : List String
  outcome : Outcome
  deriving DecidableEq

/-- It was successful, or it failed with an error that says that it was applied before. -/
def Executed.accepted (e : Executed) : Bool :=
  match e.outcome with
  | .ok => true
  | .error err => isDDLAlreadyAppliedPgError err e.ignoreErrorCodes

/-- The rows of `dbos_migrations`, if there is such a table, the runs, and what they have executed. -/
structure State where
  table : Option (List Nat)
  runs : List Run := []
  log : List Executed := []
  deriving DecidableEq

/-- What `getCurrentSysDBVersion` returns. -/
def version (table : Option (List Nat)) : Nat := (table.getD []).foldl max 0

section System
variable (allMigrations : List DBMigration) (createsTable : String → Bool)

/-- The list of the build. -/
def Run.migrations (r : Run) : List DBMigration := allMigrations.take r.build

def Run.loop (r : Run) (i : Nat) : Phase := enter r.isCockroach r.current i ((r.migrations allMigrations).drop i)

/-- The version is read: the loop starts, unless the database is ahead of the build. -/
def Run.start (r : Run) (current : Nat) : Run :=
  let r := { r with current := current }
  { r with phase := if (r.migrations allMigrations).length < current then .returned else r.loop allMigrations 0 }

def Run.throw (r : Run) : Run := { r with phase := .threw }

/-- The rest of a migration after the statement with index `k`. -/
def Run.after (r : Run) (m : DBMigration) (i k : Nat) : Run :=
  { r with phase := if k + 1 < m.pg.length then .running i (k + 1) else .bumping i }

/-- The table after a statement of a migration. -/
def created (statement : String) (table : Option (List Nat)) : Option (List Nat) :=
  if createsTable statement then some (table.getD []) else table

/-- The next statement of a run, with the outcome that the database gives it. The statements on
    `dbos_migrations` behave as its primary key has them, or fail for another reason. -/
def Run.advance (table : Option (List Nat)) (r : Run) (outcome : Outcome) : Option (Option (List Nat) × Run) :=
  match r.phase,outcome with
  | .running i k,outcome =>
    match (r.migrations allMigrations)[i]? with
    | none => none
    | some m =>
      match m.pg[k]?,outcome with
      | none,_ => none
      | some statement,.ok => some (created createsTable statement table,r.after m i k)
      | some _,.error e =>
        if m.online && !r.isCockroach then some (table,r.throw)
        else if isDDLAlreadyAppliedPgError e r.ignoreErrorCodes then some (table,r.after m i k)
        else some (table,r.throw)
  | .returned,_ => none
  | .threw,_ => none
  | _,.error _ => some (table,r.throw)
  | .reading,.ok => some (table,if table.isSome then { r with phase := .selecting } else r.start allMigrations 0)
  | .selecting,.ok => some (table,r.start allMigrations (version table))
  | .cleaning i,.ok => some (table,{ r with phase := .running i 0 })
  | .bumping i,.ok => some (table,{ r with phase := if table.isSome then .updating i else r.loop allMigrations (i + 1) })
  | .updating i,.ok =>
    match table with
    | some [] => some (table,{ r with phase := .inserting i })
    | some [_] => some (some [i + 1],{ r with phase := r.loop allMigrations (i + 1) })
    -- two rows cannot have one version: 23505
    | _ => some (table,r.throw)
  | .inserting i,.ok =>
    match table with
    | some rows =>
      if i + 1 ∈ rows then some (table,r.throw)
      else some (some (rows ++ [i + 1]),{ r with phase := r.loop allMigrations (i + 1) })
    | none => some (table,r.throw)

/-- What the statement leaves in the log. -/
def Run.executed (number : Nat) (r : Run) (outcome : Outcome) : List Executed :=
  match r.phase with
  | .running i k => [⟨number,i,k,r.ignoreErrorCodes,outcome⟩]
  | _ => []

inductive Event
  | start (build : Nat) (isCockroach : Bool) (ignoreErrorCodes : List String)
  | statement (number : Nat) (outcome : Outcome)
  | crash (number : Nat)

def step (s : State) : Event → Option State
  | .start build isCockroach codes => some { s with runs := s.runs ++ [{ build := build,isCockroach := isCockroach,ignoreErrorCodes := codes }] }
  | .statement number outcome =>
    match s.runs[number]? with
    | none => none
    | some r =>
      match r.advance allMigrations createsTable s.table outcome with
      | none => none
      | some (table,r') => some ⟨table,s.runs.set number r',s.log ++ r.executed number outcome⟩
  | .crash number =>
    match s.runs[number]? with
    | none => none
    | some r => some { s with runs := s.runs.set number r.throw }

/-- There is no `dbos_migrations` yet. -/
def init : State := { table := none }

end System
end Dbos.Migrations
