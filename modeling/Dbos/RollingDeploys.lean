import Dbos.QueueConfig

/-!
Application versions and the registration of queues while versions are deployed: `createApplicationVersion`,
`updateApplicationVersionTimestamp` and `getLatestApplicationVersion` of `src/system_database.ts`, and `registerQueue` of `src/dbos.ts` and
of `src/client.ts`. A registration asks for the latest version in one statement and upserts the queue in another one; processes of any
versions register, are launched and are promoted in between.
-/
namespace Dbos.RollingDeploys
open Dbos.Pg Dbos.Schema Dbos.QueueConfig

/-! ### Application versions -/

/-- A row of `application_versions`; the name is unique. -/
structure VersionInfo where
  versionId : String
  versionTimestamp : Int
  createdAt : Int

abbrev Versions := Table String VersionInfo

/-- INSERT ... ON CONFLICT DO NOTHING, with the clock of the database as the default of both times. -/
def createApplicationVersion (versions : Versions) (versionName versionId : String) (now : Int) : Versions :=
  versions.insert versionName ⟨versionId,now,now⟩

def updateApplicationVersionTimestamp (versions : Versions) (versionName : String) (newTimestamp : Int) : Versions :=
  versions.update (fun k _ => k = versionName) fun _ version => { version with versionTimestamp := newTimestamp }

/-- What `getLatestApplicationVersion` may return: of equal timestamps any may come first. -/
def isLatest (versions : Versions) (versionName : String) : Bool :=
  (versions.get? versionName).any fun version => versions.entries.all fun e => e.2.versionTimestamp ≤ version.versionTimestamp

/-! ### Registrations -/

inductive QueueConflictResolution
  | update_if_latest_version
  | always_update
  | never_update
  deriving DecidableEq

/-- Where a call of `registerQueue` stands: before the look-up of the latest version, before the upsert, and before the retrieval. -/
inductive Phase
  | asking
  | upserting (updateExisting : Bool)
  | retrieving (inserted : Bool)
  | registered (queue : QueueConfig.WorkflowQueue)
  | failed (e : DbosError)

/-- A call, of a process of some version or of a client. -/
structure Call where
  appVersion : Option String
  name : String
  params : QueueParameters
  onConflict : QueueConflictResolution
  phase : Phase

/-- `DBOS.registerQueue` up to its first statement. -/
def registerQueue (appVersion name : String) (params : QueueParameters) (onConflict : QueueConflictResolution) : Call where
  appVersion := some appVersion
  name := name
  params := params
  onConflict := onConflict
  phase :=
    match validateQueueParams params with
    | .error e => .failed e
    | .ok _ =>
      match onConflict with
      | .always_update => .upserting true
      | .never_update => .upserting false
      | .update_if_latest_version => .asking

/-- `DBOSClient.registerQueue` up to its first statement. -/
def clientRegisterQueue (name : String) (params : QueueParameters) (onConflict : QueueConflictResolution) : Call where
  appVersion := none
  name := name
  params := params
  onConflict := onConflict
  phase :=
    if onConflict = .update_if_latest_version then
      .failed (.Error ("DBOSClient.registerQueue does not support onConflict='update_if_latest_version' " ++
        "because clients are not associated with an application version. Use 'always_update' or 'never_update'."))
    else
      match validateQueueParams params with
      | .error e => .failed e
      | .ok _ => .upserting (onConflict = .always_update)

structure System where
  versions : Versions := Table.empty
  queues : Queues := Table.empty
  calls : List Call := []

/-- A process is launched and registers its version; a version is promoted; the statements of a registration; the statements of others on
    `queues`. -/
inductive Event
  | launch (appVersion versionId : String) (now : Int)
  | setLatestApplicationVersion (versionName : String) (now : Int)
  | register (appVersion name : String) (params : QueueParameters) (onConflict : QueueConflictResolution)
  | clientRegister (name : String) (params : QueueParameters) (onConflict : QueueConflictResolution)
  | ask (i : Nat) (latest : Option String)
  | upsert (i : Nat)
  | retrieve (i : Nat)
  | updateQueue (name : String) (fields : QueueRecordUpdate)
  | deleteQueue (name : String)

def System.set (s : System) (i : Nat) (call : Call) (phase : Phase) : System := { s with calls := s.calls.set i { call with phase := phase } }

/-- The answer to the look-up of the latest version. -/
def Call.answered (call : Call) (latest : Option String) : Phase :=
  match latest with
  | none => .failed (.DBOSError "No application versions found")
  | some versionName => .upserting (some versionName = call.appVersion)

def step (s : System) : Event → Option System
  | .launch appVersion versionId now => some { s with versions := createApplicationVersion s.versions appVersion versionId now }
  | .setLatestApplicationVersion versionName now =>
    some { s with versions := updateApplicationVersionTimestamp s.versions versionName now }
  | .register appVersion name params onConflict => some { s with calls := s.calls ++ [registerQueue appVersion name params onConflict] }
  | .clientRegister name params onConflict => some { s with calls := s.calls ++ [clientRegisterQueue name params onConflict] }
  | .ask i latest =>
    match s.calls[i]? with
    | none => none
    | some call =>
      match call.phase with
      | .asking =>
        if latest.elim (s.versions.entries.isEmpty) fun versionName => isLatest s.versions versionName then
          some (s.set i call (call.answered latest))
        else none
      | _ => none
  | .upsert i =>
    match s.calls[i]? with
    | none => none
    | some call =>
      match call.phase with
      | .upserting updateExisting =>
        match upsertQueue s.queues call.name (recordFromParams call.params) updateExisting with
        | .error e => some (s.set i call (.failed e))
        | .ok (inserted,queues) => some { s.set i call (.retrieving inserted) with queues := queues }
      | _ => none
  | .retrieve i =>
    match s.calls[i]? with
    | none => none
    | some call =>
      match call.phase with
      | .retrieving _ =>
        match s.queues.get? call.name with
        | none => some (s.set i call (.failed (.Error ("Queue '" ++ call.name ++ "' missing from database after upsert"))))
        | some record => some (s.set i call (.registered (fromRecord call.name record)))
      | _ => none
  | .updateQueue name fields =>
    match QueueConfig.updateQueue s.queues name fields with
    | .error _ => some s
    | .ok queues => some { s with queues := queues }
  | .deleteQueue name => some { s with queues := s.queues.delete fun k _ => k = name }

/-- The call will overwrite. -/
def Phase.overwrites : Phase → Bool
  | .upserting updateExisting => updateExisting
  | _ => false

/-- The call has upserted, and has not missed its row since. -/
def Phase.upserted : Phase → Bool
  | .retrieving _ | .registered _ => true
  | .asking | .upserting _ | .failed _ => false

/-- What an event does: it changes the versions, begins a call, moves a call, or is a statement of others. -/
inductive Moves (s : System) : Event → System → Prop
  | launch (appVersion versionId : String) (now : Int) :
      Moves s (.launch appVersion versionId now) { s with versions := createApplicationVersion s.versions appVersion versionId now }
  | promote (versionName : String) (now : Int) : Moves s (.setLatestApplicationVersion versionName now)
      { s with versions := updateApplicationVersionTimestamp s.versions versionName now }
  | begin (e : Event) (call : Call) (lasting : call.phase.overwrites = true → call.onConflict = .always_update)
      (quiet : ∀ i, e ≠ .upsert i) : Moves s e { s with calls := s.calls ++ [call] }
  | ask (i : Nat) (call : Call) (latest : Option String) (found : s.calls[i]? = some call) (ready : call.phase = .asking)
      (answer : ∀ versionName, latest = some versionName → isLatest s.versions versionName = true) :
      Moves s (.ask i latest) (s.set i call (call.answered latest))
  | refused (i : Nat) (call : Call) (updateExisting : Bool) (e : DbosError) (found : s.calls[i]? = some call)
      (ready : call.phase = .upserting updateExisting) : Moves s (.upsert i) (s.set i call (.failed e))
  | upsert (i : Nat) (call : Call) (updateExisting inserted : Bool) (queues : Queues) (found : s.calls[i]? = some call)
      (ready : call.phase = .upserting updateExisting)
      (upserts : upsertQueue s.queues call.name (recordFromParams call.params) updateExisting = .ok (inserted,queues)) :
      Moves s (.upsert i) { s.set i call (.retrieving inserted) with queues := queues }
  | retrieve (i : Nat) (call : Call) (phase : Phase) (found : s.calls[i]? = some call) (stops : phase.overwrites = false)
      (reads : (s.queues.get? call.name).isSome → phase.upserted = true) : Moves s (.retrieve i) (s.set i call phase)
  | updateQueue (name : String) (fields : QueueRecordUpdate) (queues : Queues) (frame : ∀ k,k ≠ name → queues.get? k = s.queues.get? k) :
      Moves s (.updateQueue name fields) { s with queues := queues }
  | deleteQueue (name : String) : Moves s (.deleteQueue name) { s with queues := s.queues.delete fun k _ => k = name }

theorem registerQueue_lasting (appVersion name : String) (params : QueueParameters) (onConflict : QueueConflictResolution) :
    (registerQueue appVersion name params onConflict).phase.overwrites = true → onConflict = .always_update := by
  intro phase
  simp only [registerQueue] at phase
  split at phase
  · cases phase
  · cases onConflict with
    | always_update => rfl
    | never_update | update_if_latest_version => cases phase

theorem clientRegisterQueue_lasting (name : String) (params : QueueParameters) (onConflict : QueueConflictResolution) :
    (clientRegisterQueue name params onConflict).phase.overwrites = true → onConflict = .always_update := by
  intro phase
  simp only [clientRegisterQueue] at phase
  split at phase
  · cases phase
  · split at phase
    · cases phase
    · exact of_decide_eq_true phase

theorem step_moves {s s' : System} {e : Event} (taken : step s e = some s') : Moves s e s' := by
  cases e with
  | launch appVersion versionId now =>
    cases taken
    exact .launch appVersion versionId now
  | setLatestApplicationVersion versionName now =>
    cases taken
    exact .promote versionName now
  | register appVersion name params onConflict =>
    cases taken
    refine .begin _ _ (registerQueue_lasting appVersion name params onConflict) ?_
    intro i same
    cases same
  | clientRegister name params onConflict =>
    cases taken
    refine .begin _ _ (clientRegisterQueue_lasting name params onConflict) ?_
    intro i same
    cases same
  | ask i latest =>
    simp only [step] at taken
    split at taken
    · cases taken
    rename_i call found
    split at taken
    · rename_i ready
      split at taken <;> cases taken
      rename_i answer
      refine .ask i call latest found ready ?_
      rintro versionName rfl
      exact answer
    · cases taken
  | upsert i =>
    simp only [step] at taken
    split at taken
    · cases taken
    rename_i call found
    split at taken
    · rename_i updateExisting ready
      split at taken
      · cases taken
        exact .refused i call updateExisting _ found ready
      · rename_i inserted queues upserts
        cases taken
        exact .upsert i call updateExisting inserted queues found ready upserts
    · cases taken
  | retrieve i =>
    simp only [step] at taken
    split at taken
    · cases taken
    rename_i call found
    split at taken
    · split at taken
      · rename_i missing
        cases taken
        refine .retrieve i call _ found rfl ?_
        intro there
        rw [missing] at there
        cases there
      · cases taken
        exact .retrieve i call _ found rfl fun _ => rfl
    · cases taken
  | updateQueue name fields =>
    simp only [step] at taken
    split at taken <;> cases taken
    · exact .updateQueue name fields s.queues fun _ _ => rfl
    · rename_i queues updates
      refine .updateQueue name fields queues ?_
      intro k other
      unfold QueueConfig.updateQueue at updates
      split at updates <;> cases updates
      simp [other]
  | deleteQueue name =>
    cases taken
    exact .deleteQueue name

/-! ### Deployments -/

/-- The version that an event deploys: one that is launched for the first time, or promoted. -/
def promotes (s : System) : Event → Option (String × Int)
  | .launch appVersion _ now => if (s.versions.get? appVersion).isNone then some (appVersion,now) else none
  | .setLatestApplicationVersion versionName now => if (s.versions.get? versionName).isSome then some (versionName,now) else none
  | _ => none

/-- The version is the only one with the greatest timestamp. -/
def Leads (V : String) (versions : Versions) : Prop :=
  ∃ version, versions.get? V = some version ∧
    ∀ other version', other ≠ V → versions.get? other = some version' → version'.versionTimestamp < version.versionTimestamp

theorem Leads.same {V : String} {versions versions' : Versions} (leads : Leads V versions)
    (same : ∀ k, versions'.get? k = versions.get? k) : Leads V versions' := by
  obtain ⟨version,found,ahead⟩ := leads
  refine ⟨version,(same V).trans found,?_⟩
  intro other version' apart found'
  exact ahead other version' apart ((same other).symm.trans found')

theorem Leads.isLatest_iff {V : String} {versions : Versions} (leads : Leads V versions) (W : String) :
    isLatest versions W = true ↔ W = V := by
  obtain ⟨version,found,ahead⟩ := leads
  constructor
  · intro latest
    obtain ⟨other,found',greatest⟩ := (Option.any_eq_true _ _).mp latest
    by_contra apart
    have behind := ahead W other apart found'
    have before := List.all_eq_true.mp greatest (V,version) ((Table.get?_eq_some _ _ _).mp found)
    simp only [decide_eq_true_eq] at before
    omega
  · rintro rfl
    refine (Option.any_eq_true _ _).mpr ⟨version,found,List.all_eq_true.mpr ?_⟩
    rintro ⟨other,version'⟩ member
    have found' := (Table.get?_eq_some _ _ _).mpr member
    rw [decide_eq_true_eq]
    by_cases same : other = W
    · subst same
      cases found.symm.trans found'
      exact Int.le_refl _
    · exact Int.le_of_lt (ahead other version' same found')

theorem leads_promoted {s s' : System} {e : Event} {V : String} {now : Int} (deploys : promotes s e = some (V,now))
    (ahead : ∀ other version, other ≠ V → s.versions.get? other = some version → version.versionTimestamp < now)
    (taken : step s e = some s') : Leads V s'.versions := by
  cases e with
  | launch appVersion versionId at_ =>
    simp only [promotes] at deploys
    split at deploys <;> cases deploys
    rename_i new
    cases taken
    have free := Option.isNone_iff_eq_none.mp new
    refine ⟨⟨versionId,now,now⟩,by simp [createApplicationVersion,free],?_⟩
    intro other version' apart found
    simp only [createApplicationVersion,Table.get?_insert,if_neg apart] at found
    exact ahead other version' apart found
  | setLatestApplicationVersion versionName at_ =>
    simp only [promotes] at deploys
    split at deploys <;> cases deploys
    rename_i there
    cases taken
    obtain ⟨version,found⟩ := Option.isSome_iff_exists.mp there
    refine ⟨{ version with versionTimestamp := now },by simp [updateApplicationVersionTimestamp,found],?_⟩
    intro other version' apart found'
    simp only [updateApplicationVersionTimestamp,Table.get?_update,decide_eq_true_eq,if_neg apart,Option.map_id'] at found'
    exact ahead other version' apart found'
  | register _ _ _ _ | clientRegister _ _ _ | ask _ _ | upsert _ | retrieve _ | updateQueue _ _ | deleteQueue _ => cases deploys

/-- What deploys no version leaves the versions as they are. -/
theorem versions_kept {s s' : System} {e : Event} (moves : Moves s e s') (stays : promotes s e = none) (k : String) :
    s'.versions.get? k = s.versions.get? k := by
  cases moves with
  | launch appVersion versionId now =>
    simp only [promotes] at stays
    split at stays
    · cases stays
    · rename_i known
      rw [Option.isNone_iff_eq_none] at known
      obtain ⟨version,found⟩ := Option.ne_none_iff_exists'.mp known
      simp only [createApplicationVersion,Table.get?_insert]
      split
      · rename_i same
        rw [same,found]
        rfl
      · rfl
  | promote versionName now =>
    simp only [promotes] at stays
    split at stays
    · cases stays
    · rename_i unknown
      simp only [Bool.not_eq_true,Option.isSome_eq_false_iff,Option.isNone_iff_eq_none] at unknown
      simp only [updateApplicationVersionTimestamp,Table.get?_update,decide_eq_true_eq]
      by_cases same : k = versionName
      · rw [same,unknown]
        rfl
      · simp [same]
  | begin | ask | refused | upsert | retrieve | updateQueue | deleteQueue => rfl

/-! ### Who overwrites a queue -/

/-- The call is one of the version, or one that always updates. -/
def Call.entitled (V : String) (call : Call) : Prop := call.appVersion = some V ∨ call.onConflict = .always_update

/-- The call is for a queue that an earlier state already had it about to overwrite. -/
def Call.inFlight (s : System) (i : Nat) (call : Call) : Prop :=
  ∃ old, s.calls[i]? = some old ∧ old.phase.overwrites = true ∧ old.name = call.name

/-- What holds as long as the version leads that has been deployed in `s`. -/
structure Follows (V : String) (s u : System) : Prop where
  leads : Leads V u.versions
  calls : ∀ (i : Nat) call, u.calls[i]? = some call → call.phase.overwrites = true → call.entitled V ∨ call.inFlight s i

/-- The queue has a record that it had, or that an entitled call has upserted. -/
def Written (V queue : String) (record : QueueRecord) (u : System) : Prop :=
  ∃ record', u.queues.get? queue = some record' ∧ (record' = record ∨ ∃ (i : Nat) (call : Call), u.calls[i]? = some call ∧
    call.name = queue ∧ call.entitled V ∧ call.phase.upserted = true ∧ record' = recordFromParams call.params)

/-- The event is no write of others to the queue, and not the upsert of a call that had its answer in `s`. -/
def undisturbed (s : System) (queue : String) : Event → Bool
  | .upsert i => s.calls[i]?.all fun call => !call.phase.overwrites || call.name ≠ queue
  | .updateQueue name _ => name ≠ queue
  | .deleteQueue name => name ≠ queue
  | _ => true

variable {V queue : String} {s u u' : System} {record : QueueRecord}

/-- A call moves. -/
theorem Follows.set (follows : Follows V s u) {i : Nat} {call : Call} (found : u.calls[i]? = some call) (phase : Phase)
    (lasting : phase.overwrites = true → call.entitled V ∨ call.inFlight s i) : Follows V s (u.set i call phase) where
  leads := follows.leads
  calls := by
    intro j other listed ready
    rcases party_set_cases found listed with ⟨rfl,rfl⟩ | ⟨_,old⟩
    · exact lasting ready
    · exact follows.calls j other old ready

/-- Whoever overwrites is entitled to it or has been about to when the version was deployed. -/
theorem Follows.step {e : Event} (follows : Follows V s u) (stays : promotes u e = none) (taken : RollingDeploys.step u e = some u') :
    Follows V s u' := by
  have moves := step_moves taken
  have versions := versions_kept moves stays
  cases moves with
  | launch appVersion versionId now => exact { follows with leads := follows.leads.same versions }
  | promote versionName now => exact { follows with leads := follows.leads.same versions }
  | begin _ call lasting _ =>
    refine ⟨follows.leads,?_⟩
    intro i other listed ready
    rcases party_append listed with old | ⟨rfl,rfl⟩
    · exact follows.calls i other old ready
    · exact .inl (.inr (lasting ready))
  | ask i call latest found _ answer =>
    refine follows.set found _ ?_
    intro overwrites
    cases latest with
    | none => cases overwrites
    | some versionName =>
      -- The answer is the version that leads.
      have mine := (follows.leads.isLatest_iff versionName).mp (answer versionName rfl)
      subst mine
      exact .inl (.inl (of_decide_eq_true overwrites).symm)
  | refused i call _ e found => exact follows.set found _ (by intro overwrites; cases overwrites)
  | upsert i call updateExisting inserted queues found =>
    have moved := follows.set found (.retrieving inserted) (by intro overwrites; cases overwrites)
    exact ⟨moved.leads,moved.calls⟩
  | retrieve i call phase found stops =>
    refine follows.set found phase ?_
    intro overwrites
    cases stops.symm.trans overwrites
  | updateQueue name fields queues frame => exact ⟨follows.leads,follows.calls⟩
  | deleteQueue name => exact ⟨follows.leads,follows.calls⟩

/-- A call moves that has not upserted or is still known to have. -/
theorem Written.set (written : Written V queue record u) {i : Nat} {call : Call} (found : u.calls[i]? = some call) (phase : Phase)
    (stays : call.name = queue → call.phase.upserted = true → phase.upserted = true) : Written V queue record (u.set i call phase) := by
  obtain ⟨record',stored,same | ⟨j,other,listed,named,entitled,upserted,stores⟩⟩ := written
  · exact ⟨record',stored,.inl same⟩
  · refine ⟨record',stored,.inr ?_⟩
    by_cases mine : j = i
    · subst mine
      cases found.symm.trans listed
      exact ⟨j,{ call with phase := phase },by simp only [System.set,party_set found,if_true],named,entitled,stays named upserted,stores⟩
    · exact ⟨j,other,by simp only [System.set,party_set found,if_neg mine]; exact listed,named,entitled,upserted,stores⟩

theorem Written.frame (written : Written V queue record u) {queues : Queues} (same : queues.get? queue = u.queues.get? queue) :
    Written V queue record { u with queues := queues } := by
  obtain ⟨record',stored,writer⟩ := written
  exact ⟨record',same.trans stored,writer⟩

/-- What an upsert makes of a queue that is there. -/
theorem upsertQueue_there {queues queues' : Queues} {name : String} {new old : QueueRecord} {updateExisting inserted : Bool}
    (upserts : upsertQueue queues name new updateExisting = .ok (inserted,queues')) (there : queues.get? queue = some old) :
    queues'.get? queue = some (if updateExisting = true ∧ queue = name then new else old) := by
  unfold upsertQueue at upserts
  split at upserts <;> cases upserts
  by_cases mine : queue = name
  · subst mine
    cases updateExisting <;> simp [there]
  · cases updateExisting <;> simp [mine,there]

/-- A registration that changes the record of a queue stores its own, and is entitled to it or was in flight. -/
theorem Follows.overwrites (follows : Follows V s u) {i : Nat} (taken : RollingDeploys.step u (.upsert i) = some u') {old new : QueueRecord}
    (there : u.queues.get? queue = some old) (stored : u'.queues.get? queue = some new) (changed : new ≠ old) :
    ∃ call, u.calls[i]? = some call ∧ call.name = queue ∧ new = recordFromParams call.params ∧ (call.entitled V ∨ call.inFlight s i) := by
  have same : u'.queues.get? queue = u.queues.get? queue → False := by
    intro same
    rw [stored,there] at same
    exact changed (Option.some.inj same)
  cases step_moves taken with
  | begin _ call lasting quiet => exact absurd rfl (quiet i)
  | refused i call _ e found => exact (same rfl).elim
  | upsert i call updateExisting inserted queues found ready upserts =>
    have after := upsertQueue_there upserts there
    cases after.symm.trans (show queues.get? queue = some new from stored)
    by_cases mine : updateExisting = true ∧ queue = call.name
    · obtain ⟨rfl,rfl⟩ := mine
      rw [if_pos ⟨rfl,rfl⟩]
      exact ⟨call,found,rfl,rfl,follows.calls i call found (by rw [ready]; rfl)⟩
    · exact absurd (if_neg mine) changed

theorem Written.step {e : Event} (written : Written V queue record u) (follows : Follows V s u) (quiet : undisturbed s queue e = true)
    (taken : RollingDeploys.step u e = some u') : Written V queue record u' := by
  cases step_moves taken with
  | launch | promote => exact written
  | begin _ call _ _ =>
    obtain ⟨record',stored,same | ⟨j,old,listed,rest⟩⟩ := written
    · exact ⟨record',stored,.inl same⟩
    · exact ⟨record',stored,.inr ⟨j,old,(List.getElem?_append_left (List.getElem?_eq_some_iff.mp listed).1).trans listed,rest⟩⟩
  | ask i call latest found ready =>
    refine written.set found _ ?_
    rw [ready]
    intro _ upserted
    cases upserted
  | refused i call _ e found ready =>
    refine written.set found _ ?_
    rw [ready]
    intro _ upserted
    cases upserted
  | upsert i call updateExisting inserted queues found ready upserts =>
    obtain ⟨record',stored,writer⟩ := written.set found (.retrieving inserted) fun _ _ => rfl
    have after := upsertQueue_there upserts (show u.queues.get? queue = some record' from stored)
    refine ⟨_,after,?_⟩
    split
    · rename_i overwrites
      obtain ⟨rfl,mine⟩ := overwrites
      have entitled : call.entitled V := by
        rcases follows.calls i call found (by rw [ready]; rfl) with entitled | ⟨old,listed,lasting,named⟩
        · exact entitled
        · simp only [undisturbed,listed,Option.all_some,lasting,named,Bool.not_true,Bool.false_or,decide_eq_true_eq] at quiet
          exact absurd mine.symm quiet
      exact .inr ⟨i,{ call with phase := .retrieving inserted },by simp only [System.set,party_set found,if_true],mine.symm,entitled,rfl,rfl⟩
    · exact writer
  | retrieve i call phase found stops reads =>
    refine written.set found phase ?_
    rintro rfl _
    obtain ⟨_,stored,_⟩ := written
    exact reads (by rw [stored]; rfl)
  | updateQueue name fields queues frame => exact written.frame (frame queue (Ne.symm (of_decide_eq_true quiet)))
  | deleteQueue name =>
    refine written.frame ?_
    have other : queue ≠ name := Ne.symm (of_decide_eq_true quiet)
    cases found : u.queues.get? queue <;> simp [other,found]

/-- From the deployment of a version, with a clock that is ahead of the others' timestamps, until another deployment: it is the only one
    that `getLatestApplicationVersion` returns; a registration that changes a record is one of that version, one that always updates, or
    one that had its answer before; and as long as none of the latter, no setter and no deletion writes to a queue, it has the record that it
    had, or that of an entitled registration. -/
theorem deploy_prevails {e : Event} {rest : List Event} {V queue : String} {now : Int} {s s₁ s' : System}
    (deploys : promotes s e = some (V,now))
    (ahead : ∀ other version, other ≠ V → s.versions.get? other = some version → version.versionTimestamp < now)
    (taken : step s e = some s₁) (run : Runs step s₁ rest s') (last : Along step (fun u e => (promotes u e).isNone = true) s₁ rest) :
    (∀ W, isLatest s'.versions W = true ↔ W = V) ∧
    (∀ i s'' old new, step s' (.upsert i) = some s'' → s'.queues.get? queue = some old → s''.queues.get? queue = some new → new ≠ old →
      ∃ call, s'.calls[i]? = some call ∧ call.name = queue ∧ new = recordFromParams call.params ∧ (call.entitled V ∨ call.inFlight s i)) ∧
    (Along step (fun _ e => undisturbed s queue e = true) s₁ rest → ∀ record, s.queues.get? queue = some record →
      Written V queue record s') := by
  have leads := leads_promoted deploys ahead taken
  have same : s₁.queues = s.queues ∧ s₁.calls = s.calls := by
    cases e with
    | launch _ _ _ | setLatestApplicationVersion _ _ => cases taken; exact ⟨rfl,rfl⟩
    | register _ _ _ _ | clientRegister _ _ _ | ask _ _ | upsert _ | retrieve _ | updateQueue _ _ | deleteQueue _ => cases deploys
  have begins : Follows V s s₁ := ⟨leads,fun i call found ready => .inr ⟨call,by rw [← same.2]; exact found,ready,rfl⟩⟩
  have follows : Follows V s s' :=
    along_invariant (fun u e u' follows stays taken => follows.step (Option.isNone_iff_eq_none.mp stays) taken) begins last run
  refine ⟨follows.leads.isLatest_iff,fun i s'' old new upserts => follows.overwrites upserts,?_⟩
  intro quiet record there
  have meets : Along step (fun u e => (promotes u e).isNone = true ∧ undisturbed s queue e = true) s₁ rest :=
    along_iff.mpr fun first e after t split reached => ⟨along_iff.mp last first e after t split reached,
      along_iff.mp quiet first e after t split reached⟩
  have both := along_invariant (I := fun u => Follows V s u ∧ Written V queue record u)
    (fun u e u' holds meets taken => ⟨holds.1.step (Option.isNone_iff_eq_none.mp meets.1) taken,holds.2.step holds.1 meets.2 taken⟩)
    ⟨begins,record,by rw [same.1]; exact there,.inl rfl⟩ meets run
  exact both.2

/-- The first version is launched and registers the queue `q`. -/
def firstVersion : List Event :=
  [.launch "v1" "a" 1,.register "v1" "q" { concurrency := some 1 } .update_if_latest_version,.ask 0 (some "v1"),.upsert 0]

/-- The second version registers the queue, and then a process of the first version does. -/
def bothRegister : List Event :=
  [.register "v2" "q" { concurrency := some 2 } .update_if_latest_version,.ask 1 (some "v2"),.upsert 1,
    .register "v1" "q" { concurrency := some 1 } .update_if_latest_version,.ask 2 (some "v2"),.upsert 2]

theorem deploy_prevails_second : ∃ s s₁ s' old new, Runs step {} firstVersion s ∧ step s (.launch "v2" "b" 2) = some s₁ ∧
    Runs step s₁ bothRegister s' ∧ (∀ W, isLatest s'.versions W = true ↔ W = "v2") ∧ Written "v2" "q" old s' ∧
    s'.queues.get? "q" = some new ∧ new.concurrency = some 2 := by
  obtain ⟨s,s₁,s',old,new,first,taken,run,deploys,older,last,quiet,there,stored,two⟩ : ∃ s s₁ s' old new, Runs step {} firstVersion s ∧
      step s (.launch "v2" "b" 2) = some s₁ ∧ Runs step s₁ bothRegister s' ∧ promotes s (.launch "v2" "b" 2) = some ("v2",2) ∧
      s.versions.entries.all (fun e => e.2.versionTimestamp < 2) = true ∧
      Along step (fun u e => (promotes u e).isNone = true) s₁ bothRegister ∧
      Along step (fun _ e => undisturbed s "q" e = true) s₁ bothRegister ∧ s.queues.get? "q" = some old ∧
      s'.queues.get? "q" = some new ∧ new.concurrency = some 2 :=
    ⟨_,_,_,_,_,rfl,rfl,rfl,rfl,rfl,of_decide_eq_true rfl,of_decide_eq_true rfl,rfl,rfl,rfl⟩
  have ahead : ∀ other version, other ≠ "v2" → s.versions.get? other = some version → version.versionTimestamp < 2 := by
    intro other version _ found
    exact of_decide_eq_true (List.all_eq_true.mp older (other,version) ((Table.get?_eq_some _ _ _).mp found))
  obtain ⟨latest,_,written⟩ := @deploy_prevails _ _ _ "q" _ _ _ _ deploys ahead taken run last
  exact ⟨s,s₁,s',old,new,first,taken,run,latest,written quiet old there,stored,two⟩

/-- A process of the first version that had its answer before the second one was launched overwrites what the second one registers. -/
def staleAnswer : List Event :=
  [.register "v1" "q" { concurrency := some 1 } .update_if_latest_version,.ask 1 (some "v1"),.launch "v2" "b" 2,
    .register "v2" "q" { concurrency := some 2 } .update_if_latest_version,.ask 2 (some "v2"),.upsert 2,.upsert 1]

theorem staleAnswer_overwrites : ∃ s record, Runs step {} (firstVersion ++ staleAnswer) s ∧ isLatest s.versions "v2" = true ∧
    s.queues.get? "q" = some record ∧ record.concurrency = some 1 := ⟨_,_,rfl,rfl,rfl,rfl⟩

end Dbos.RollingDeploys
