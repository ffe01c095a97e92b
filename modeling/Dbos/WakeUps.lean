import Dbos.Registrations

/-!
No wake-up is missed: a call that sleeps while what it waits for is in the database has a notification on its way, unless something
has gone wrong since it began to wait. The callback is registered before the database is looked into, and a notification is sent
only after the row is committed; whatever happens between two events, one of the two is seen.
-/
namespace Dbos.WakeUps
open Dbos.Pg Dbos.Schema Dbos.Communication Dbos.Callbacks Dbos.Notifications Dbos.Registrations
open Dbos.Writers (Call StreamWrite deleteCascade)

/-! ### What a statement raises -/

/-- Whom the row of a statement is for. -/
def raises : Statement → Option Notice
  | .upsertEvent workflowID key _ => some (.dbos_workflow_events_channel,payloadOf workflowID key)
  | .insertStream workflowID key _ _ => some (.dbos_streams_channel,payloadOf workflowID key)
  | statement => triggered statement

theorem there_recv {db : Database} {workflowID topic : String} :
    (Target.recv workflowID topic).there db = true ↔
      ∃ k row, db.notifications.get? k = some row ∧ unconsumedHits workflowID topic k row = true := by
  rw [← Table.count_pos]
  exact decide_eq_true_iff

/-- A statement makes somebody find what it raises, and nothing else. -/
theorem there_apply {db : Database} {statement : Statement} {target : Target} (now : target.there (statement.apply db) = true) :
    target.there db = true ∨ raises statement = some target.notice := by
  cases target with
  | recv workflowID topic =>
    obtain ⟨k,row,found,waiting⟩ := there_recv.mp now
    cases statement with
    | insertNotification messageUUID new =>
      rcases db.notifications.insert_cases messageUUID new k with same | ⟨rfl,_,inserted⟩
      · exact .inl (there_recv.mpr ⟨k,row,same ▸ found,waiting⟩)
      · right
        obtain rfl := Option.some.inj (inserted.symm.trans found)
        have hits := of_decide_eq_true waiting
        simp only [raises,triggered,Target.notice,Target.channel,Target.payload,hits.1,hits.2.1]
    | consume messageUUID =>
      left
      rcases db.notifications.update_cases (consumeHits messageUUID) (fun _ row => { row with consumed := true }) k with
        same | ⟨old,_,_,updated⟩
      · exact there_recv.mpr ⟨k,row,same ▸ found,waiting⟩
      · obtain rfl := Option.some.inj (updated.symm.trans found)
        have hits := of_decide_eq_true waiting
        simp at hits
    | _ => exact .inl (there_recv.mpr ⟨k,row,found,waiting⟩)
  | getEvent workflowID key callerWorkflow =>
    cases statement with
    | upsertEvent workflowID' key' event =>
      by_cases here : (workflowID,key) = (workflowID',key')
      · right
        cases here
        rfl
      · left
        simpa [Target.there,Statement.apply,here] using now
    | _ => exact .inl now
  | readStream workflowID key offset =>
    cases statement with
    | insertStream workflowID' key' offset' entry =>
      by_cases here : (workflowID,key,offset) = (workflowID',key',offset')
      · right
        cases here
        rfl
      · left
        simpa [Target.there,Statement.apply,here] using now
    | _ => exact .inl now

theorem there_applyAll {db : Database} {statements : List Statement} {target : Target}
    (now : target.there (applyAll db statements) = true) :
    target.there db = true ∨ ∃ statement ∈ statements,raises statement = some target.notice := by
  induction statements generalizing db with
  | nil => exact .inl now
  | cons statement rest ih =>
    rcases ih now with before | ⟨later,member,raised⟩
    · rcases there_apply before with before | raised
      · exact .inl before
      · exact .inr ⟨statement,List.mem_cons_self,raised⟩
    · exact .inr ⟨later,List.mem_cons_of_mem _ member,raised⟩

/-! ### What a call signals -/

/-- What the call signals when it has written. -/
def noticeOf : Call → Option Notice
  | .invocation inv _ =>
    match inv.op with
    | .setEvent key _ _ => some (.dbos_workflow_events_channel,payloadOf inv.workflowID key)
    | .writeStream key _ _ => some (.dbos_streams_channel,payloadOf inv.workflowID key)
    | .closeStream key => some (.dbos_streams_channel,payloadOf inv.workflowID key)
    | _ => none
  | .streamWrite w _ => some (.dbos_streams_channel,payloadOf w.workflowID w.key)

/-- What the call has written and what it is about to write. -/
def statementsOf : Call → List Statement
  | .invocation _ (.acting _ todo done _) => done ++ todo
  | call => call.writes

theorem writes_subset {call : Call} {statement : Statement} (member : statement ∈ call.writes) : statement ∈ statementsOf call := by
  cases call with
  | invocation inv phase =>
    cases phase with
    | acting startTime todo done value => exact List.mem_append_left _ member
    | _ => exact member
  | streamWrite w phase => exact member

/-- What a statement raises is sent by the trigger or signalled by its call. -/
def Told (call : Call) (statement : Statement) : Prop :=
  ∀ notice, raises statement = some notice → triggered statement = some notice ∨ noticeOf call = some notice

def Tells (call : Call) : Prop := ∀ statement ∈ statementsOf call,Told call statement

theorem tells_nil {call : Call} (nothing : statementsOf call = []) : Tells call := by
  simp [Tells,nothing]

theorem told_quiet {call : Call} {statement : Statement} (quiet : raises statement = none) : Told call statement := by
  intro notice raised
  rw [quiet] at raised
  cases raised

theorem firstStatement_tells (db : Database) (inv : Invocation) (input : Input) (startTime : Int) :
    Tells (.invocation inv (firstStatement db inv input startTime)) := by
  unfold firstStatement
  split
  · split
    · rename_i writes
      obtain ⟨text,_,⟨rfl,_⟩ | ⟨rfl,_⟩⟩ := insertMessage_ok writes
      · exact tells_nil rfl
      · intro statement member notice raised
        rw [List.mem_singleton.mp member] at raised ⊢
        exact .inl raised
    · exact tells_nil rfl
  · rename_i key message serialization op
    split
    · exact tells_nil rfl
    · intro statement member notice raised
      right
      rcases List.mem_cons.mp member with rfl | history
      · rw [← raised]
        simp [noticeOf,op,raises]
      · rw [List.mem_singleton.mp history] at raised
        cases raised
  · rename_i key value serialization op
    intro statement member notice raised
    right
    rw [List.mem_singleton.mp member] at raised
    rw [← raised]
    simp [noticeOf,op,raises]
  · rename_i key op
    intro statement member notice raised
    right
    rw [List.mem_singleton.mp member] at raised
    rw [← raised]
    simp [noticeOf,op,raises]
  · split
    · exact tells_nil rfl
    · exact tells_nil rfl

theorem tells_after {inv : Invocation} {phase phase' : Communication.Phase} (extra : List Statement)
    (tells : Tells (.invocation inv phase)) (quiet : ∀ statement ∈ extra,raises statement = none)
    (grows : ∀ statement ∈ statementsOf (.invocation inv phase'),
      statement ∈ statementsOf (.invocation inv phase) ∨ statement ∈ extra) : Tells (.invocation inv phase') := by
  intro statement member
  rcases grows statement member with old | new
  · exact tells statement old
  · exact told_quiet (quiet statement new)

theorem advance_tells {db : Database} {input : Input} {call call' : Call} {auto : List Statement} (tells : Tells call)
    (taken : call.advance db input = some (call',auto)) : Tells call' ∧ ∀ statement ∈ auto,raises statement = none := by
  cases call with
  | invocation inv phase =>
    obtain ⟨⟨phase',auto'⟩,advances,same⟩ := Option.map_eq_some_iff.mp taken
    cases same
    cases advance_cases advances with
    | starts startTime => exact ⟨firstStatement_tells db inv input startTime,by simp⟩
    | sleeps startTime endTimeMs phase after =>
      refine ⟨?_,by simp [raises,triggered]⟩
      rcases after with rfl | rfl
      · exact tells_nil rfl
      · exact tells_nil rfl
    | sleepClaims => exact ⟨tells_nil rfl,by simp [raises,triggered]⟩
    | takes startTime messageUUID row found waiting =>
      refine ⟨?_,by simp⟩
      intro statement member
      rw [List.mem_singleton.mp member]
      exact told_quiet rfl
    | executes startTime statement rest done value =>
      refine ⟨tells_after [] tells (by simp) ?_,by simp⟩
      intro st member
      left
      simpa [statementsOf] using member
    | records startTime done value mine =>
      refine ⟨tells_after [.insertCheckpoint inv.key (inv.checkpoint startTime input.now value)] tells
        (by simp [raises,triggered]) ?_,by simp⟩
      intro st member
      simpa [statementsOf,Call.writes,Phase.writes] using member
    | claims done value =>
      refine ⟨tells_after [.claimExecutor inv.executorID inv.workflowID] tells (by simp [raises,triggered]) ?_,by simp⟩
      intro st member
      simpa [statementsOf,Call.writes,Phase.writes] using member
    | _ => exact ⟨tells_nil rfl,by simp⟩
  | streamWrite w phase =>
    cases phase with
    | called =>
      cases taken
      exact ⟨tells_nil rfl,by simp⟩
    | chosen offset =>
      simp only [Call.advance] at taken
      split at taken <;> cases taken
      · exact ⟨tells_nil rfl,by simp⟩
      · refine ⟨?_,by simp⟩
        intro statement member notice raised
        rw [List.mem_singleton.mp member] at raised
        exact .inr raised
    | _ => cases taken

theorem commit_tells {call call' : Call} {acknowledged : Bool} {done : List Statement}
    (commits : call.commit acknowledged = some (call',done)) :
    Tells call' ∧ done = call.writes ∧ (done ≠ [] → signalOf call = noticeOf call) := by
  unfold Call.commit at commits
  split at commits
  · cases commits
    exact ⟨by cases acknowledged <;> exact tells_nil rfl,rfl,fun _ => rfl⟩
  · cases commits
    exact ⟨by cases acknowledged <;> exact tells_nil rfl,rfl,fun some_ => absurd rfl some_⟩
  · cases commits
    exact ⟨by cases acknowledged <;> exact tells_nil rfl,rfl,fun _ => rfl⟩
  · cases commits

theorem restart_tells (call : Call) : Tells call.restart := by cases call <;> exact tells_nil rfl

theorem fail_tells (call : Call) (e : DbosError) : Tells (call.fail e) := by cases call <;> exact tells_nil rfl

/-- Each call tells what it writes. -/
theorem step_tells {s s' : Writers.System} {e : Writers.Event} (tell : ∀ call ∈ s.calls,Tells call)
    (taken : Writers.step s e = some s') : ∀ call ∈ s'.calls,Tells call := by
  cases Writers.step_moves taken with
  | begin call =>
    intro other member
    rcases List.mem_append.mp member with old | new
    · exact tell other old
    · rw [List.mem_singleton.mp new]
      exact restart_tells call
  | fails i input call found => exact all_set tell (fail_tells call _) i
  | next i input call call' auto found advances owned free =>
    exact all_set tell (advance_tells (tell call (List.mem_of_getElem? found)) advances).1 i
  | commit i acknowledged call call' done found commits => exact all_set tell (commit_tells commits).1 i
  | drop i call found => exact all_set tell (restart_tells call) i
  | _ => exact tell

/-- Copies: rows that come from elsewhere, for which nobody is told. -/
def copies : Writers.Event → Bool
  | .forkCommit _ => true
  | .importWorkflow _ => true
  | _ => false

/-- How something that was not there comes to be there. -/
theorem there_step {s s' : Writers.System} {e : Writers.Event} {target : Target} (tell : ∀ call ∈ s.calls,Tells call)
    (taken : Writers.step s e = some s') (now : target.there s'.db = true) :
    target.there s.db = true ∨ copies e = true ∨
      ∃ i acknowledged call, e = .commit i acknowledged ∧ s.calls[i]? = some call ∧
        (target.notice ∈ call.writes.filterMap triggered ∨ signalOf call = some target.notice) := by
  cases Writers.step_moves taken with
  | next i input call call' auto found advances owned free =>
    rcases there_applyAll now with before | ⟨statement,member,raised⟩
    · exact .inl before
    · have quiet := (advance_tells (tell call (List.mem_of_getElem? found)) advances).2 statement member
      rw [quiet] at raised
      cases raised
  | commit i acknowledged call call' done found commits =>
    rcases there_applyAll now with before | ⟨statement,member,raised⟩
    · exact .inl before
    · obtain ⟨_,rfl,signals⟩ := commit_tells commits
      have told := tell call (List.mem_of_getElem? found) statement (writes_subset member) _ raised
      refine .inr (.inr ⟨i,acknowledged,call,rfl,found,?_⟩)
      rcases told with sent | named
      · exact .inl (List.mem_filterMap.mpr ⟨statement,member,sent⟩)
      · exact .inr ((signals (List.ne_nil_of_mem member)).trans named)
  | forkCommit i f db found complete inserts => exact .inr (.inl rfl)
  | importWorkflow exports payloads db known complete inserts => exact .inr (.inl rfl)
  | deleteWorkflows allIds idle =>
    left
    cases target with
    | recv workflowID topic =>
      obtain ⟨k,row,found,waiting⟩ := there_recv.mp now
      simp only [deleteCascade,Table.get?_delete,Option.filter_eq_some_iff] at found
      exact there_recv.mpr ⟨k,row,found.1,waiting⟩
    | getEvent workflowID key callerWorkflow =>
      obtain ⟨row,found⟩ := Option.isSome_iff_exists.mp now
      simp only [deleteCascade,Table.get?_delete,Option.filter_eq_some_iff] at found
      exact Option.isSome_iff_exists.mpr ⟨row,found.1⟩
    | readStream workflowID key offset =>
      obtain ⟨row,found⟩ := Option.isSome_iff_exists.mp now
      simp only [deleteCascade,Table.get?_delete,Option.filter_eq_some_iff] at found
      exact Option.isSome_iff_exists.mpr ⟨row,found.1⟩
  | statuses t kept unreserved =>
    left
    cases target <;> exact now
  | _ => exact .inl now

/-! ### Where a notification is -/

/-- The batches that `#runNotifier` has taken and not sent. -/
def Notifier.left : Notifier → List (Channel × List String)
  | .flushing batches => batches
  | .final batches => batches
  | _ => []

/-- The notice is pending at the process. -/
def Pending (proc : Process) (notice : Notice) : Prop :=
  ∃ batch, proc.pendingNotifications.get? notice.1 = some batch ∧ notice.2 ∈ batch

/-- The notice is in one of the batches. -/
def Listed (batches : List (Channel × List String)) (notice : Notice) : Prop := ∃ batch ∈ batches,batch.1 = notice.1 ∧ notice.2 ∈ batch.2

/-- The process has the notice and will send it. -/
def Holds (proc : Process) (notice : Notice) : Prop :=
  (proc.notifier ≠ .ended ∧ Pending proc notice) ∨ Listed (Notifier.left proc.notifier) notice

/-- The notice is on its way to the process `p`: as the reply to a COMMIT, held by a process, or sent. -/
inductive OnTheWay (s : System) (p : Nat) (notice : Notice) : Prop
  | acked (q : Nat) (listed : (q,notice) ∈ s.acks)
  | held (q : Nat) (proc : Process) (found : s.processes[q]? = some proc) (holds : Holds proc notice)
  | sent (proc : Process) (found : s.processes[p]? = some proc) (listed : notice ∈ proc.inbox)

theorem OnTheWay.mono {s s' : System} {p : Nat} {notice : Notice} (way : OnTheWay s p notice)
    (acks : ∀ q, (q,notice) ∈ s.acks → (q,notice) ∈ s'.acks)
    (processes : ∀ (q : Nat) proc, s.processes[q]? = some proc → ∃ proc', s'.processes[q]? = some proc' ∧
      (Holds proc notice → Holds proc' notice) ∧ (q = p → notice ∈ proc.inbox → notice ∈ proc'.inbox)) : OnTheWay s' p notice := by
  cases way with
  | acked q listed => exact .acked q (acks q listed)
  | held q proc found holds =>
    obtain ⟨proc',found',keeps,_⟩ := processes q proc found
    exact .held q proc' found' (keeps holds)
  | sent proc found listed =>
    obtain ⟨proc',found',_,keeps⟩ := processes p proc found
    exact .sent proc' found' (keeps rfl listed)

theorem signal_holds (proc : Process) (notice : Notice) (uses : proc.shouldUseDBNotifications = true) (goes : proc.notifier ≠ .ended) :
    Holds (proc.signalNotification notice) notice := by
  left
  simp only [Process.signalNotification,uses,Bool.not_true,Bool.false_eq_true,if_false]
  refine ⟨goes,?_⟩
  simp only [Pending,Table.get?_upsert,if_true]
  refine ⟨_,rfl,?_⟩
  have member : ∀ batch, notice.2 ∈ addTo batch notice.2 := by
    intro batch
    unfold addTo
    split
    · assumption
    · simp
  cases proc.pendingNotifications.get? notice.1 with
  | none => exact member []
  | some batch => exact member batch

theorem signal_keeps (proc : Process) (other : Notice) {notice : Notice} (holds : Holds proc notice) :
    Holds (proc.signalNotification other) notice := by
  unfold Process.signalNotification
  split
  · exact holds
  · rcases holds with ⟨goes,batch,pending,member⟩ | listed
    · left
      refine ⟨goes,?_⟩
      simp only [Pending,Table.get?_upsert]
      by_cases same : notice.1 = other.1
      · rw [if_pos same,← same,pending]
        refine ⟨_,rfl,?_⟩
        simp only [Option.elim_some,addTo]
        split
        · exact member
        · exact List.mem_append_left _ member
      · rw [if_neg same]
        exact ⟨batch,pending,member⟩
    · exact .inr listed

theorem pending_batches {proc : Process} {notice : Notice} (pending : Pending proc notice) : Listed proc.batches notice := by
  obtain ⟨batch,found,member⟩ := pending
  exact ⟨(notice.1,batch),List.mem_filter.mpr ⟨(Table.get?_eq_some _ _ _).mp found,by simp [List.ne_nil_of_mem member]⟩,rfl,member⟩

/-- The final flush takes what is pending. -/
theorem finalFlush_takes {proc : Process} {notice : Notice} (pending : Pending proc notice) :
    Listed (Notifier.left proc.finalFlush.notifier) notice := by
  have listed := pending_batches pending
  unfold Process.finalFlush
  split
  · rename_i nothing
    rw [nothing] at listed
    obtain ⟨batch,member,_⟩ := listed
    cases member
  · exact listed

theorem wakeNotifier_takes {proc : Process} {notice : Notice} (pending : Pending proc notice) :
    Listed (Notifier.left proc.wakeNotifier.notifier) notice := by
  unfold Process.wakeNotifier
  split
  · exact finalFlush_takes pending
  · have listed := pending_batches pending
    split
    · rename_i nothing
      rw [nothing] at listed
      obtain ⟨batch,member,_⟩ := listed
      cases member
    · exact listed

theorem flushed_takes {proc : Process} {notice : Notice} (pending : Pending proc notice) :
    (proc.flushed.notifier = .sleeping ∧ Pending proc.flushed notice) ∨ Listed (Notifier.left proc.flushed.notifier) notice := by
  unfold Process.flushed
  split
  · exact .inl ⟨rfl,pending⟩
  · exact .inr (finalFlush_takes pending)

/-! ### What can go wrong -/

instance (batches : List (Channel × List String)) (notice : Notice) : Decidable (Listed batches notice) :=
  inferInstanceAs (Decidable (∃ batch ∈ batches,_))

instance (proc : Process) (notice : Notice) : Decidable (Pending proc notice) :=
  decidable_of_iff ((proc.pendingNotifications.get? notice.1).any fun batch => notice.2 ∈ batch)
    (by cases found : proc.pendingNotifications.get? notice.1 <;> simp [Pending,found])

/-- Nothing goes wrong with the notice at a process: no statement with it fails, and it is not signalled behind the final flush. -/
def processKeeps (proc : Process) (notice : Notice) : ProcessEvent → Bool
  | .notify succeeds =>
    match proc.notifier with
    | .flushing (batch :: _) => Listed [batch] notice → succeeds
    | .final (batch :: rest) => (Listed [batch] notice → succeeds) ∧ (rest = [] → ¬ Pending proc notice)
    | _ => true
  | _ => true

/-- Nothing goes wrong for a call that waits at the process `p`: no COMMIT of what it waits for loses its reply, no process drops its
    notice, its own listener is not lost, and nothing that it waits for is copied from elsewhere. -/
def keepsFor (s : System) (p : Nat) (target : Target) : Event → Bool
  | .writers (.commit j acknowledged) =>
    (s.writers.calls[j]?).all fun call => signalOf call = some target.notice → acknowledged
  | .writers e =>
    copies e → (Writers.step s.writers e).all fun writers => target.there writers.db → target.there s.writers.db
  | .acked k =>
    (s.acks[k]?).all fun ack => ack.2 = target.notice →
      (s.processes[ack.1]?).all fun proc => proc.shouldUseDBNotifications ∧ proc.notifier ≠ .ended
  | .process q e => (q = p → e ≠ .lose) ∧ (s.processes[q]?).all fun proc => processKeeps proc target.notice e
  | _ => true

/-- As `keepsFor`, for the call `i`. -/
def undisturbed (i : Nat) (s : System) (e : Event) : Bool := (s.waiters[i]?).all fun w => keepsFor s w.process w.target e

theorem listed_cons {batch : Channel × List String} {rest : List (Channel × List String)} {notice : Notice} :
    Listed (batch :: rest) notice ↔ Listed [batch] notice ∨ Listed rest notice := by
  simp [Listed]

theorem listed_sent {batch : Channel × List String} {notice : Notice} (listed : Listed [batch] notice) :
    notice ∈ batch.2.map (batch.1,·) := by
  obtain ⟨b,member,channel,payload⟩ := listed
  rw [List.mem_singleton.mp member] at channel payload
  exact List.mem_map.mpr ⟨notice.2,payload,by rw [channel]⟩

/-- What a process holds it still holds, or it has sent it. -/
theorem act_holds {proc proc' : Process} {e : ProcessEvent} {sent : List Notice} {notice : Notice} (holds : Holds proc notice)
    (acts : proc.act e = some (proc',sent)) (keeps : processKeeps proc notice e = true) : Holds proc' notice ∨ notice ∈ sent := by
  cases e with
  | wakeNotifier =>
    simp only [Process.act] at acts
    split at acts <;> cases acts
    rename_i sleeps
    rcases holds with ⟨_,pending⟩ | ⟨batch,member,_⟩
    · exact .inl (.inr (wakeNotifier_takes pending))
    · rw [sleeps] at member
      cases member
  | notify succeeds =>
    simp only [Process.act] at acts
    split at acts
    · rename_i batch rest flushing
      simp only [processKeeps,flushing,decide_eq_true_eq] at keeps
      cases acts
      rcases holds with ⟨goes,pending⟩ | listed
      · left
        by_cases last : rest = []
        · rw [if_pos last]
          rcases flushed_takes pending with ⟨sleeps,still⟩ | taken
          · exact .inl ⟨by rw [sleeps]; simp,still⟩
          · exact .inr taken
        · rw [if_neg last]
          exact .inl ⟨by simp,pending⟩
      · rw [flushing,Notifier.left,listed_cons] at listed
        rcases listed with first | later
        · right
          rw [keeps first,if_pos rfl]
          exact listed_sent first
        · left
          have more : rest ≠ [] := by
            rintro rfl
            obtain ⟨b,member,_⟩ := later
            cases member
          rw [if_neg more]
          exact .inr later
    · rename_i batch rest flushing
      simp only [processKeeps,flushing,decide_eq_true_eq] at keeps
      cases acts
      rcases holds with ⟨goes,pending⟩ | listed
      · left
        have more : rest ≠ [] := fun last => keeps.2 last pending
        rw [if_neg more]
        exact .inl ⟨by simp,pending⟩
      · rw [flushing,Notifier.left,listed_cons] at listed
        rcases listed with first | later
        · right
          rw [keeps.1 first,if_pos rfl]
          exact listed_sent first
        · left
          have more : rest ≠ [] := by
            rintro rfl
            obtain ⟨b,member,_⟩ := later
            cases member
          rw [if_neg more]
          exact .inr later
    · cases acts
  | destroy =>
    cases acts
    exact .inl holds
  | listen =>
    simp only [Process.act] at acts
    split at acts <;> cases acts <;> exact .inl holds
  | installHandler =>
    simp only [Process.act] at acts
    split at acts <;> cases acts
    exact .inl holds
  | lose =>
    cases acts
    exact .inl holds

/-! ### The invariant -/

/-- The notifications client of the process is subscribed and its handler installed. -/
def Listens (proc : Process) : Prop := proc.handler = true ∧ ∃ a b c, proc.listens = [a,b,c] ∧ ∀ channel, channel ∈ proc.listens

/-- The call has looked and will sleep, or sleeps. -/
def Asleep : Notifications.Phase → Prop
  | .looked _ (.absent _) => True
  | .waiting _ => True
  | _ => False

/-- What is kept for the call `i`, which waits at `p` for what `notice` tells of. -/
structure Covered (i p : Nat) (notice : Notice) (s : System) : Prop where
  registered : Registered s
  tell : ∀ call ∈ s.writers.calls,Tells call
  homes : s.homes.length = s.writers.calls.length
  trigger : notice.1 = .dbos_notifications_channel → s.trigger = true
  listens : ∃ proc, s.processes[p]? = some proc ∧ Listens proc
  waiter : ∃ w, s.waiters[i]? = some w ∧ w.process = p ∧ w.target.notice = notice ∧
    (Asleep w.phase → w.resolved = true ∨ (w.target.there s.writers.db = true → OnTheWay s p notice))

/-- The processes still hold what they held, and `p` listens. -/
structure Carries (p : Nat) (notice : Notice) (s s' : System) : Prop where
  listens : ∃ proc, s'.processes[p]? = some proc ∧ Listens proc
  processes : ∀ (q : Nat) proc, s.processes[q]? = some proc → ∃ proc', s'.processes[q]? = some proc' ∧
    (Holds proc notice → Holds proc' notice) ∧ (q = p → notice ∈ proc.inbox → notice ∈ proc'.inbox)

theorem mem_post {proc : Process} {notice : Notice} {notices : List Notice} (listens : Listens proc) (sent : notice ∈ notices) :
    notice ∈ (post notices proc).inbox := by
  obtain ⟨_,_,_,_,_,all⟩ := listens
  exact List.mem_append_right _ (List.mem_filter.mpr ⟨sent,by simp [all]⟩)

theorem getElem?_post (processes : List Process) (notices : List Notice) (q : Nat) :
    (processes.map (post notices))[q]? = processes[q]?.map (post notices) := List.getElem?_map ..

theorem carries_post {s : System} {p : Nat} (notice : Notice) (listens : ∃ proc, s.processes[p]? = some proc ∧ Listens proc)
    (s' : System) (notices : List Notice) (posted : s'.processes = s.processes.map (post notices)) : Carries p notice s s' where
  listens := by
    obtain ⟨proc,found,listening⟩ := listens
    exact ⟨post notices proc,by rw [posted,getElem?_post,found]; rfl,listening⟩
  processes := by
    intro q proc found
    exact ⟨post notices proc,by rw [posted,getElem?_post,found]; rfl,id,fun _ member => List.mem_append_left _ member⟩

/-- One process changes and keeps what it has. -/
theorem carries_set {s : System} {p : Nat} {notice : Notice} (listens : ∃ proc, s.processes[p]? = some proc ∧ Listens proc)
    {q : Nat} {proc proc' : Process} (found : s.processes[q]? = some proc) (s' : System)
    (same : s'.processes = s.processes.set q proc') (listening : q = p → Listens proc → Listens proc')
    (holds : Holds proc notice → Holds proc' notice) (inbox : q = p → notice ∈ proc.inbox → notice ∈ proc'.inbox) :
    Carries p notice s s' where
  listens := by
    obtain ⟨home,there,hears⟩ := listens
    rw [same,party_set found]
    by_cases here : p = q
    · subst here
      cases found.symm.trans there
      exact ⟨proc',by rw [if_pos rfl],listening rfl hears⟩
    · exact ⟨home,by rw [if_neg here,there],hears⟩
  processes := by
    intro r other there
    rw [same,party_set found]
    by_cases here : r = q
    · subst here
      cases found.symm.trans there
      exact ⟨proc',by rw [if_pos rfl],holds,inbox⟩
    · exact ⟨other,by rw [if_neg here,there],id,fun _ member => member⟩

theorem act_listens {proc proc' : Process} {e : ProcessEvent} {sent : List Notice} (listens : Listens proc)
    (acts : proc.act e = some (proc',sent)) (kept : e ≠ .lose) : Listens proc' := by
  have finals : Listens proc.finalFlush := by
    unfold Process.finalFlush
    split <;> exact listens
  cases e with
  | wakeNotifier =>
    simp only [Process.act] at acts
    split at acts <;> cases acts
    unfold Process.wakeNotifier
    split
    · exact finals
    · split <;> exact listens
  | notify succeeds =>
    simp only [Process.act] at acts
    split at acts
    · rename_i batch rest flushing
      cases acts
      by_cases last : rest = []
      · rw [if_pos last]
        unfold Process.flushed
        split
        · exact listens
        · exact finals
      · rw [if_neg last]
        exact listens
    · cases acts
      exact listens
    · cases acts
  | destroy =>
    cases acts
    exact listens
  | listen =>
    obtain ⟨_,a,b,c,three,_⟩ := listens
    simp only [Process.act,three] at acts
    cases acts
  | installHandler =>
    simp only [Process.act] at acts
    split at acts <;> cases acts
    exact ⟨rfl,listens.2⟩
  | lose => exact absurd rfl kept

theorem settle_keeps (proc : Process) (i : Nat) (w w' : Waiter) :
    (proc.settle i w w').inbox = proc.inbox ∧ (proc.settle i w w').handler = proc.handler ∧
      (proc.settle i w w').listens = proc.listens ∧ (proc.settle i w w').notifier = proc.notifier ∧
      (proc.settle i w w').pendingNotifications = proc.pendingNotifications := by
  unfold Process.settle
  dsimp only
  split <;> exact ⟨rfl,rfl,rfl,rfl,rfl⟩

theorem look_absent {db : Database} {target : Target} {active : Bool} (absent : target.look db = .absent active) :
    target.there db = false := by
  cases target with
  | readStream workflowID key offset =>
    simp only [Target.look,StreamDensity.readStreamValue] at absent
    cases row : db.statuses.get? workflowID with
    | none => simp [row] at absent
    | some status =>
      cases value : db.streams.get? (workflowID,key,offset) with
      | none => simp [Target.there,value]
      | some entry => simp [row,value] at absent
  | _ =>
    simp only [Target.look] at absent
    split at absent
    · cases absent
    · rename_i missing
      simpa using missing

/-- A call that sleeps after an event of its own slept before it, or has just seen that there is nothing. -/
theorem asleep_act {db : Database} {ck : Nat} {w w' : Waiter} {e : WaiterEvent} (acts : w.act db ck e = some w')
    (asleep : Asleep w'.phase) :
    (Asleep w.phase ∧ w'.resolved = w.resolved ∧ w'.target = w.target) ∨ w'.target.there db = false := by
  cases e with
  | register =>
    simp only [Waiter.act] at acts
    split at acts <;> cases acts
    dsimp only at asleep
    split at asleep <;> exact asleep.elim
  | check =>
    simp only [Waiter.act] at acts
    split at acts <;> cases acts
    dsimp only at asleep
    split at asleep <;> exact asleep.elim
  | look =>
    simp only [Waiter.act] at acts
    split at acts <;> cases acts
    right
    cases looked : w.target.look db with
    | absent active => exact look_absent looked
    | _ =>
      rw [looked] at asleep
      exact asleep.elim
  | answer now =>
    simp only [Waiter.act] at acts
    split at acts <;> cases acts
    rename_i here answer phase
    left
    cases answer with
    | absent active =>
      refine ⟨by rw [phase]; trivial,?_,(answered_spec w here now _).2.1⟩
      simp only [Waiter.answered]
      split
      · split
        · rfl
        · split <;> rfl
      · split <;> rfl
    | found last =>
      simp only [Waiter.answered] at asleep
      split at asleep
      · dsimp only at asleep
        split at asleep <;> exact asleep.elim
      · exact asleep.elim
    | noWorkflow => exact asleep.elim
  | wake =>
    simp only [Waiter.act] at acts
    split at acts
    · split at acts <;> cases acts
      exact asleep.elim
    · cases acts
  | timeout =>
    simp only [Waiter.act] at acts
    split at acts <;> cases acts
    exact asleep.elim
  | consume =>
    simp only [Waiter.act] at acts
    split at acts <;> cases acts
    exact asleep.elim
  | close =>
    simp only [Waiter.act] at acts
    split at acts <;> cases acts
    exact asleep.elim
  | fail again =>
    simp only [Waiter.act] at acts
    split at acts <;> cases acts
    · dsimp only at asleep
      split at asleep <;> exact asleep.elim
    · dsimp only at asleep
      split at asleep <;> exact asleep.elim
  | quit =>
    simp only [Waiter.act] at acts
    split at acts <;> cases acts
    exact asleep.elim

section
variable {i p : Nat} {notice : Notice} {s s' : System}

/-- The event concerns neither the database nor the call. -/
theorem Covered.carry (covered : Covered i p notice s) (registered : Registered s') (writers : s'.writers = s.writers)
    (homes : s'.homes = s.homes) (trigger : s'.trigger = s.trigger) (carries : Carries p notice s s')
    (acks : ∀ q, (q,notice) ∈ s.acks → (q,notice) ∈ s'.acks)
    (waiter : ∀ w, s.waiters[i]? = some w → s'.waiters[i]? = some w) : Covered i p notice s' where
  registered := registered
  tell := by
    rw [writers]
    exact covered.tell
  homes := by
    rw [writers,homes]
    exact covered.homes
  trigger := by
    rw [trigger]
    exact covered.trigger
  listens := carries.listens
  waiter := by
    obtain ⟨w,listed,process,same,awake⟩ := covered.waiter
    refine ⟨w,waiter w listed,process,same,?_⟩
    intro asleep
    rcases awake asleep with resolved | coming
    · exact .inl resolved
    · right
      rw [writers]
      exact fun there => (coming there).mono acks carries.processes

/-- The database changes, and who was waited for is told. -/
theorem Covered.grow (covered : Covered i p notice s) (registered : Registered s') (tell : ∀ call ∈ s'.writers.calls,Tells call)
    (homes : s'.homes.length = s'.writers.calls.length) (trigger : s'.trigger = s.trigger) (carries : Carries p notice s s')
    (acks : ∀ q, (q,notice) ∈ s.acks → (q,notice) ∈ s'.acks) (waiters : s'.waiters = s.waiters)
    (told : ∀ target : Target, target.notice = notice → (∀ w, s.waiters[i]? = some w → w.target = target) →
      target.there s'.writers.db = true → target.there s.writers.db = true ∨ OnTheWay s' p notice) : Covered i p notice s' where
  registered := registered
  tell := tell
  homes := homes
  trigger := by
    rw [trigger]
    exact covered.trigger
  listens := carries.listens
  waiter := by
    obtain ⟨w,listed,process,same,awake⟩ := covered.waiter
    refine ⟨w,by rw [waiters,listed],process,same,?_⟩
    intro asleep
    rcases awake asleep with resolved | coming
    · exact .inl resolved
    · right
      intro there
      have mine : ∀ w', s.waiters[i]? = some w' → w'.target = w.target := by
        intro w' listed'
        cases listed.symm.trans listed'
        rfl
      rcases told w.target same mine there with before | way
      · exact (coming before).mono acks carries.processes
      · exact way

theorem kept_behind {q : Nat} {proc : Process} {first : Notice} {inbox : List Notice} (head : proc.inbox = first :: inbox)
    (other : ¬ (q = p ∧ first = notice)) : q = p → notice ∈ proc.inbox → notice ∈ inbox := by
  intro here member
  rw [head] at member
  rcases List.mem_cons.mp member with same | later
  · exact absurd ⟨here,same.symm⟩ other
  · exact later

/-- The handler is given a notification. -/
theorem Covered.deliver (covered : Covered i p notice s) (registered : Registered s') {q : Nat} {proc : Process} {first : Notice}
    {inbox : List Notice} (found : s.processes[q]? = some proc) (head : proc.inbox = first :: inbox)
    (same : s' = { s with
      processes := s.processes.set q { proc with inbox := inbox }
      waiters := if proc.handler then resolveAll ((proc.maps first.1).callCallbacks first.2) s.waiters else s.waiters }) :
    Covered i p notice s' := by
  subst same
  obtain ⟨w,listed,process,target,awake⟩ := covered.waiter
  by_cases mine : q = p ∧ first = notice
  · -- The callback of the call is among those that are called.
    obtain ⟨rfl,rfl⟩ := mine
    obtain ⟨home,there,listens⟩ := covered.listens
    cases found.symm.trans there
    refine ⟨registered,covered.tell,covered.homes,covered.trigger,?_,?_⟩
    · refine ⟨{ proc with inbox := inbox },?_,listens⟩
      simp only [party_set found,if_true]
    · simp only [listens.1,if_true]
      by_cases inTry : InTry w
      · have called := (mem_called covered.registered found first.1 first.2 i).mpr ⟨w,listed,process,target,inTry⟩
        refine ⟨{ w with resolved := true },?_,process,target,fun _ => .inl rfl⟩
        rw [getElem?_resolveAll,listed]
        simp [called]
      · obtain ⟨w',listed',place⟩ := map_eq_some (resolveAll_places ((proc.maps first.1).callCallbacks first.2) s.waiters).symm listed
        simp only [Prod.mk.injEq] at place
        refine ⟨w',listed',place.1.trans process,place.2.1.trans target,?_⟩
        intro asleep
        rw [place.2.2] at asleep
        exfalso
        revert inTry asleep
        unfold InTry
        cases w.phase <;> simp [Asleep,Phase.callback]
  · have carries : ∀ s' : System, s'.processes = s.processes.set q { proc with inbox := inbox } → Carries p notice s s' :=
      fun s' same => carries_set covered.listens found s' same (fun _ listens => listens) id (kept_behind head mine)
    refine ⟨registered,covered.tell,covered.homes,covered.trigger,(carries _ rfl).listens,?_⟩
    obtain ⟨w',listed',same⟩ : ∃ w', (if proc.handler then resolveAll ((proc.maps first.1).callCallbacks first.2) s.waiters
        else s.waiters)[i]? = some w' ∧ (w' = w ∨ w' = { w with resolved := true }) := by
      cases proc.handler
      · exact ⟨w,listed,.inl rfl⟩
      · simp only [if_true,getElem?_resolveAll,listed,Option.map_some,Option.some.injEq,exists_eq_left']
        split
        · exact .inr rfl
        · exact .inl rfl
    rcases same with rfl | rfl
    · refine ⟨w',listed',process,target,?_⟩
      intro asleep
      rcases awake asleep with resolved | coming
      · exact .inl resolved
      · right
        intro there
        exact (coming there).mono (fun _ member => member) (carries _ rfl).processes
    · exact ⟨_,listed',process,target,fun _ => .inl rfl⟩

/-- A waiting call takes a step: the one that is covered, or another one. -/
theorem Covered.turn (covered : Covered i p notice s) (registered : Registered s') {j : Nat} {e : WaiterEvent} {w w' : Waiter}
    {proc : Process} (listed : s.waiters[j]? = some w) (found : s.processes[w.process]? = some proc)
    (acts : w.act s.writers.db (proc.maps w.target.channel).curCK e = some w')
    (same : s' = { s with waiters := s.waiters.set j w',processes := s.processes.set w.process (proc.settle j w w') }) :
    Covered i p notice s' := by
  subst same
  obtain ⟨inbox,handler,listens,notifier,pending⟩ := settle_keeps proc j w w'
  have holds : Holds proc notice → Holds (proc.settle j w w') notice := by
    intro held
    unfold Holds Pending
    rw [notifier,pending]
    exact held
  have carries : ∀ s' : System, s'.processes = s.processes.set w.process (proc.settle j w w') → Carries p notice s s' := by
    intro s' same
    refine carries_set covered.listens found s' same ?_ holds ?_
    · intro _ hears
      unfold Listens
      rw [handler,listens]
      exact hears
    · intro _ member
      rw [inbox]
      exact member
  by_cases mine : i = j
  · subst mine
    obtain ⟨w₀,listed₀,process,target,awake⟩ := covered.waiter
    cases listed.symm.trans listed₀
    obtain ⟨process',notice',_⟩ := act_spec acts
    refine ⟨registered,covered.tell,covered.homes,covered.trigger,(carries _ rfl).listens,w',?_,process'.trans process,
      notice'.trans target,?_⟩
    · simp only [party_set listed,if_true]
    · intro asleep
      rcases asleep_act acts asleep with ⟨before,resolved,same⟩ | missing
      · rcases awake before with already | coming
        · exact .inl (resolved.trans already)
        · right
          rw [same]
          exact fun there => (coming there).mono (fun _ member => member) (carries _ rfl).processes
      · right
        intro there
        rw [missing] at there
        cases there
  · refine covered.carry registered rfl rfl rfl (carries _ rfl) (fun _ member => member) ?_
    intro party there
    rw [party_set listed,if_neg mine,there]

theorem Covered.writers (covered : Covered i p notice s) (registered : Registered s') {e : Writers.Event} {writers : Writers.System}
    (other : ∀ call, e ≠ .begin call) (happens : Writers.step s.writers e = some writers)
    (keeps : undisturbed i s (.writers e) = true)
    (same : s' = { s with
      writers := writers
      acks := s.acks ++ (s.committed e).2
      processes := s.processes.map (post (s.committed e).1) }) : Covered i p notice s' := by
  have length : writers.calls.length = s.writers.calls.length := by
    cases Writers.step_moves happens with
    | begin call => exact absurd rfl (other call)
    | fails | next | commit | drop => exact List.length_set ..
    | _ => rfl
  have carries : Carries p notice s s' := carries_post notice covered.listens s' (s.committed e).1 (by rw [same])
  have hears := covered.listens
  refine covered.grow registered ?_ ?_ (by rw [same]) carries ?_ (by rw [same]) ?_
  · rw [same]
    exact step_tells covered.tell happens
  · rw [same]
    exact covered.homes.trans length.symm
  · intro q member
    rw [same]
    exact List.mem_append_left _ member
  · intro target named mine there
    rw [same] at there
    rcases there_step covered.tell happens there with before | copied | ⟨j,acknowledged,call,rfl,found,told⟩
    · exact .inl before
    · -- Nothing that is waited for is copied.
      left
      obtain ⟨w,listed,_⟩ := covered.waiter
      have kept : keepsFor s w.process target (.writers e) = true := by
        have all := keeps
        simp only [undisturbed,listed,Option.all_some] at all
        rwa [mine w listed] at all
      cases e with
      | forkCommit k => simpa [keepsFor,copies,happens,there] using kept
      | importWorkflow exports => simpa [keepsFor,copies,happens,there] using kept
      | _ => cases copied
    · right
      obtain ⟨w,listed,_⟩ := covered.waiter
      have bound : j < s.homes.length := by
        rw [covered.homes]
        exact (List.getElem?_eq_some_iff.mp found).1
      have home : s.homes[j]? = some s.homes[j] := List.getElem?_eq_getElem bound
      rcases told with sent | signals
      · -- The trigger has told: Postgres sends with the COMMIT.
        have channel : notice.1 = .dbos_notifications_channel := by
          obtain ⟨statement,_,raised⟩ := List.mem_filterMap.mp sent
          rw [← named]
          cases statement with
          | insertNotification messageUUID row =>
            rw [← Option.some.inj raised]
          | _ => cases raised
        obtain ⟨proc,there',listens⟩ := hears
        refine .sent (post (s.committed (.commit j acknowledged)).1 proc) ?_ ?_
        · rw [same,getElem?_post,there']
          rfl
        · refine mem_post listens ?_
          simp only [System.committed,found,home,System.triggers,covered.trigger channel,if_true]
          exact named ▸ sent
      · have kept : keepsFor s w.process target (.writers (.commit j acknowledged)) = true := by
          have all := keeps
          simp only [undisturbed,listed,Option.all_some] at all
          rwa [mine w listed] at all
        simp only [keepsFor,found,Option.all_some,signals,true_imp_iff,decide_eq_true_eq] at kept
        refine .acked s.homes[j] ?_
        rw [same]
        refine List.mem_append_right _ ?_
        simp only [System.committed,found,home,kept,if_true,signals,Option.toList_some,List.map_cons,List.map_nil,named]
        exact List.mem_singleton.mpr rfl

theorem act_inbox {proc proc' : Process} {e : ProcessEvent} {sent : List Notice} (acts : proc.act e = some (proc',sent))
    (kept : e ≠ .lose) : proc'.inbox = proc.inbox := by
  have finals : proc.finalFlush.inbox = proc.inbox := by
    unfold Process.finalFlush
    split <;> rfl
  cases e with
  | wakeNotifier =>
    simp only [Process.act] at acts
    split at acts <;> cases acts
    unfold Process.wakeNotifier
    split
    · exact finals
    · split <;> rfl
  | notify succeeds =>
    simp only [Process.act] at acts
    split at acts
    · rename_i batch rest flushing
      cases acts
      by_cases last : rest = []
      · rw [if_pos last]
        unfold Process.flushed
        split
        · rfl
        · exact finals
      · rw [if_neg last]
    · cases acts
      rfl
    · cases acts
  | destroy =>
    cases acts
    rfl
  | listen =>
    simp only [Process.act] at acts
    split at acts <;> cases acts <;> rfl
  | installHandler =>
    simp only [Process.act] at acts
    split at acts <;> cases acts
    rfl
  | lose => exact absurd rfl kept

/-- A process does something by itself: it keeps the notice or sends it. -/
theorem Covered.acts (covered : Covered i p notice s) (registered : Registered s') {q : Nat} {e : ProcessEvent}
    {proc proc' : Process} {sent : List Notice} (found : s.processes[q]? = some proc) (acts : proc.act e = some (proc',sent))
    (stays : q = p → e ≠ .lose) (keeps : processKeeps proc notice e = true)
    (same : s' = { s with processes := (s.processes.set q proc').map (post sent) }) : Covered i p notice s' := by
  subst same
  have listens : ∃ proc, (s.processes.set q proc')[p]? = some proc ∧ Listens proc := by
    obtain ⟨home,there,hears⟩ := covered.listens
    rw [party_set found]
    by_cases here : p = q
    · subst here
      cases found.symm.trans there
      exact ⟨proc',by rw [if_pos rfl],act_listens hears acts (stays rfl)⟩
    · exact ⟨home,by rw [if_neg here,there],hears⟩
  have heard : ∀ (r : Nat) other, (s.processes.set q proc')[r]? = some other →
      ((s.processes.set q proc').map (post sent))[r]? = some (post sent other) := by
    intro r other there
    rw [getElem?_post,there]
    rfl
  obtain ⟨home,there,hears⟩ := listens
  obtain ⟨w,listed,process,named,awake⟩ := covered.waiter
  refine ⟨registered,covered.tell,covered.homes,covered.trigger,⟨post sent home,heard p home there,hears⟩,w,listed,process,named,?_⟩
  intro asleep
  rcases awake asleep with resolved | coming
  · exact .inl resolved
  right
  intro present
  cases coming present with
  | acked r member => exact .acked r member
  | held r other found' holds =>
    by_cases here : r = q
    · subst here
      cases found.symm.trans found'
      rcases act_holds holds acts keeps with still | gone
      · exact .held r (post sent proc') (heard r proc' (by rw [party_set found,if_pos rfl])) still
      · exact .sent (post sent home) (heard p home there) (mem_post hears gone)
    · exact .held r (post sent other) (heard r other (by rw [party_set found,if_neg here,found'])) holds
  | sent other found' member =>
    refine .sent (post sent home) (heard p home there) (List.mem_append_left _ ?_)
    rw [party_set found] at there
    by_cases here : p = q
    · subst here
      cases found.symm.trans found'
      rw [if_pos rfl] at there
      cases there
      rw [act_inbox acts (stays rfl)]
      exact member
    · rw [if_neg here] at there
      cases found'.symm.trans there
      exact member

theorem Covered.step (covered : Covered i p notice s) {e : Event} (keeps : undisturbed i s e = true) (taken : step s e = some s') :
    Covered i p notice s' := by
  have registered := covered.registered.step taken
  obtain ⟨w,listed,process,named,awake⟩ := covered.waiter
  have kept : keepsFor s p w.target e = true := by
    have all := keeps
    simp only [undisturbed,listed,Option.all_some] at all
    rwa [process] at all
  cases step_moves taken with
  | launch shouldUseDBNotifications =>
    have stays : ∀ (q : Nat) proc, s.processes[q]? = some proc →
        (s.processes ++ [{ shouldUseDBNotifications := shouldUseDBNotifications }])[q]? = some proc := by
      intro q proc found
      rw [List.getElem?_append_left (List.getElem?_eq_some_iff.mp found).1,found]
    obtain ⟨proc,found,listens⟩ := covered.listens
    exact covered.carry registered rfl rfl rfl
      ⟨⟨proc,stays p proc found,listens⟩,fun q proc found => ⟨proc,stays q proc found,id,fun _ member => member⟩⟩
      (fun _ member => member) (fun _ there => there)
  | call q call writers known begins =>
    have tell := step_tells covered.tell begins
    cases begins
    refine covered.grow registered tell (by simp [covered.homes]) rfl
      ⟨covered.listens,fun q proc found => ⟨proc,found,id,fun _ member => member⟩⟩ (fun _ member => member) rfl ?_
    exact fun target _ _ there => .inl there
  | writers e writers other happens => exact covered.writers registered other happens keeps rfl
  | refused => exact covered
  | sendDirect destinationID message topic serialization idempotencyKey input statements inserts =>
    have carries := carries_post notice covered.listens
      { s with writers := { s.writers with db := applyAll s.writers.db statements }
               processes := s.processes.map (post (s.triggers statements)) } _ rfl
    refine covered.grow registered covered.tell covered.homes rfl carries (fun _ member => member) rfl ?_
    intro target same mine there
    rcases there_applyAll there with before | ⟨statement,member,raised⟩
    · exact .inl before
    · right
      obtain ⟨text,_,⟨rfl,_⟩ | ⟨rfl,_⟩⟩ := insertMessage_ok inserts
      · cases member
      · obtain ⟨proc,found,listens⟩ := covered.listens
        have inserted := List.mem_singleton.mp member
        have sent : triggered statement = some notice := by
          rw [inserted] at raised ⊢
          rw [← same]
          exact raised
        have channel : notice.1 = .dbos_notifications_channel := by
          rw [inserted] at sent
          rw [← Option.some.inj sent]
        refine .sent (post (s.triggers [_]) proc) (by rw [getElem?_post,found]; rfl) (mem_post listens ?_)
        simp only [System.triggers,covered.trigger channel,if_true]
        exact List.mem_filterMap.mpr ⟨statement,member,sent⟩
  | acked k q told proc first found =>
    have carries : Carries p notice s
        { s with acks := s.acks.eraseIdx k,processes := s.processes.set q (proc.signalNotification told) } := by
      refine carries_set covered.listens found _ rfl ?_ (signal_keeps proc told) ?_
      · intro _ listens
        unfold Process.signalNotification
        split <;> exact listens
      · intro _ member
        unfold Process.signalNotification
        split <;> exact member
    by_cases mine : told = notice
    · -- The reply has come: the notice is pending now.
      have uses : proc.shouldUseDBNotifications = true ∧ proc.notifier ≠ .ended := by
        simpa [keepsFor,first,found,named,mine] using kept
      have holds : Holds (proc.signalNotification told) notice := mine ▸ signal_holds proc told uses.1 uses.2
      refine ⟨registered,covered.tell,covered.homes,covered.trigger,carries.listens,w,listed,process,named,?_⟩
      intro asleep
      rcases awake asleep with resolved | coming
      · exact .inl resolved
      · right
        intro _
        exact .held q _ (by simp only [party_set found,if_true]) holds
    · refine covered.carry registered rfl rfl rfl carries ?_ (fun _ there => there)
      intro r member
      obtain ⟨n,at_⟩ := List.mem_iff_getElem?.mp member
      have apart : n ≠ k := by
        rintro rfl
        cases first.symm.trans at_
        exact mine rfl
      exact List.mem_eraseIdx_iff_getElem?.mpr ⟨n,apart,at_⟩
  | process q e proc proc' sent found uses acts =>
    have quiet : (q = p → e ≠ .lose) ∧ processKeeps proc notice e = true := by
      simpa only [keepsFor,found,Option.all_some,decide_eq_true_eq,named] using kept
    exact covered.acts registered found acts quiet.1 quiet.2 rfl
  | foreign notices =>
    exact covered.carry registered rfl rfl rfl (carries_post notice covered.listens _ notices rfl) (fun _ member => member)
      (fun _ there => there)
  | deliver q proc first inbox found head => exact covered.deliver registered found head rfl
  | wait q target finishTime known =>
    refine covered.carry registered rfl rfl rfl
      ⟨covered.listens,fun q proc found => ⟨proc,found,id,fun _ member => member⟩⟩ (fun _ member => member) ?_
    intro party there
    exact (List.getElem?_append_left (List.getElem?_eq_some_iff.mp there).1).trans there
  | waiter j e party party' proc there found acts => exact covered.turn registered there found acts rfl

end

/-- Each call of a reachable state tells what it writes and has a process. -/
theorem tells_runs {t : Statuses} {trigger : Bool} {events : List Event} {s : System}
    (run : Runs step (start t trigger) events s) :
    (∀ call ∈ s.writers.calls,Tells call) ∧ s.homes.length = s.writers.calls.length ∧ s.trigger = trigger := by
  refine runs_invariant (I := fun s => (∀ call ∈ s.writers.calls,Tells call) ∧ s.homes.length = s.writers.calls.length ∧
    s.trigger = trigger) ?_ ⟨by simp [start,Writers.start],rfl,rfl⟩ run
  rintro s e s' ⟨tell,homes,same⟩ taken
  cases step_moves taken with
  | call q call writers known begins =>
    have tell' := step_tells tell begins
    cases begins
    exact ⟨tell',by simp [homes],same⟩
  | writers e writers other happens =>
    refine ⟨step_tells tell happens,homes.trans (Eq.symm ?_),same⟩
    cases Writers.step_moves happens with
    | begin call => exact absurd rfl (other call)
    | fails | next | commit | drop => exact List.length_set ..
    | _ => rfl
  | _ => exact ⟨tell,homes,same⟩

/-- No wake-up is missed. Whatever has happened before, from a state in which the call `i` is at the head of its loop and the listener of
    its process is there, in every run in which nothing goes wrong for the call: if the call sleeps and what it waits for is in the
    database, its promise is resolved or its notice is on its way. -/
theorem wake_not_missed {t : Statuses} {trigger : Bool} {before after : List Event} {s s' : System}
    (reached : Runs step (start t trigger) before s) (run : Runs step s after s') {i : Nat} {w w' : Waiter} {proc : Process}
    (listed : s.waiters[i]? = some w) (begins : w.phase = .looping) (home : s.processes[w.process]? = some proc) (listens : Listens proc)
    (installed : w.target.channel = .dbos_notifications_channel → trigger = true)
    (keeps : Along step (fun s e => undisturbed i s e = true) s after) (listed' : s'.waiters[i]? = some w')
    (asleep : Asleep w'.phase) (there : w'.target.there s'.writers.db = true) :
    w'.resolved = true ∨ OnTheWay s' w.process w.target.notice := by
  obtain ⟨tell,homes,same⟩ := tells_runs reached
  have covered : Covered i w.process w.target.notice s :=
    { registered := registered_runs reached
      tell := tell
      homes := homes
      trigger := fun channel => same.trans (installed channel)
      listens := ⟨proc,home,listens⟩
      waiter := ⟨w,listed,rfl,rfl,by rw [begins]; exact False.elim⟩ }
  have covered' := along_invariant (I := Covered i w.process w.target.notice) (fun _ _ _ covered keeps taken => covered.step keeps taken)
    covered keeps run
  obtain ⟨w₁,listed₁,_,_,awake⟩ := covered'.waiter
  cases listed'.symm.trans listed₁
  rcases awake asleep with resolved | coming
  · exact .inl resolved
  · exact .inr (coming there)

/-- Two processes, and a call at the second that is about to wait for the event `k` of `w`. -/
def waits : List Event :=
  [.launch true,.launch true,.process 1 .listen,.process 1 .listen,.process 1 .listen,.process 1 .installHandler,
    .wait 1 (.getEvent "w" "k" none) none]

/-- The call looks and finds nothing, the first process sets the event, and then the call falls asleep. -/
def sets : List Event :=
  [Event.waiter 0 .register,.waiter 0 .look,.call 0 (.invocation ⟨"e","w",0,0,.setEvent "k" (some "v") none⟩ .called)] ++
    List.replicate 6 (Event.writers (.next 0 {})) ++ [Event.writers (.commit 0 true),.waiter 0 (.answer 0)]

theorem wake_not_missed_event : ∃ s s', Runs step (start Writers.running true) waits s ∧ Runs step s sets s' ∧
    (s'.waiters[0]?.map Waiter.phase = some (.waiting 0)) ∧ OnTheWay s' 1 (.dbos_workflow_events_channel,"w::k") := by
  obtain ⟨s,s',proc,w',reached,run,listed,home,hears,keeps,listed',asleep,there,unresolved⟩ : ∃ s s' proc w',
      Runs step (start Writers.running true) waits s ∧ Runs step s sets s' ∧
      s.waiters[0]? = some { process := 1,target := .getEvent "w" "k" none } ∧ s.processes[1]? = some proc ∧
      (proc.handler = true ∧ proc.listens = [.dbos_notifications_channel,.dbos_workflow_events_channel,.dbos_streams_channel]) ∧
      Along step (fun s e => undisturbed 0 s e = true) s sets ∧ s'.waiters[0]? = some w' ∧ w'.phase = .waiting 0 ∧
      w'.target.there s'.writers.db = true ∧ w'.resolved = false :=
    ⟨_,_,_,_,rfl,rfl,rfl,rfl,⟨rfl,rfl⟩,of_decide_eq_true rfl,rfl,rfl,rfl,rfl⟩
  have listens : Listens proc := by
    refine ⟨hears.1,_,_,_,hears.2,?_⟩
    intro channel
    rw [hears.2]
    cases channel <;> simp
  refine ⟨s,s',reached,run,by rw [listed',Option.map_some,asleep],?_⟩
  have missed := wake_not_missed reached run listed rfl home listens (by decide) keeps listed' (by rw [asleep]; trivial) there
  rw [unresolved] at missed
  exact missed.resolve_left (by decide)

end Dbos.WakeUps
