import Dbos.Writers

/-!
Events against their history. `setEvent` overwrites the current value and adds a row under its
function ID to the history, from which forks get their events. The current value is that of
the last commit, and a fork takes the greatest function ID: they agree as long as the events of a
key are committed in the order of their function IDs. A workflow reserves the IDs before it
waits for anything, but two calls that it does not await commit in any order.
-/
namespace Dbos.EventHistory
open Dbos.Pg Dbos.Schema Dbos.Status Dbos.Communication Dbos.Fork Dbos.Writers

abbrev EventRows := List ((String × String) × WorkflowEvent)
abbrev HistoryRows := List ((String × Nat × String) × WorkflowEvent)

/-! ### Rows -/

/-- The row with the greatest function ID has this event. -/
def Latest (history : HistoryRows) (w key : String) (event : WorkflowEvent) : Prop :=
  ∃ n, ((w,n,key),event) ∈ history ∧ ∀ n' event', ((w,n',key),event') ∈ history → n' ≤ n

/-- The events are the latest of the history. -/
def Agree (events : EventRows) (history : HistoryRows) : Prop :=
  ∀ w key event, ((w,key),event) ∈ events ↔ Latest history w key event

theorem agree_nil : Agree [] [] := by
  intro w key event
  simp [Latest]

theorem agree_iff {events : WorkflowEvents} {history : WorkflowEventsHistory} :
    Agree events.entries history.entries ↔ ∀ w key, events.get? (w,key) = latestEvent history w key fun _ => true := by
  have latest : ∀ w key event, Latest history.entries w key event ↔
      latestEvent history w key (fun _ => true) = some event := by
    intro w key event
    simp only [Latest,latestEvent_iff,← Table.get?_eq_some,Option.isSome_iff_exists,true_and,forall_exists_index,
      forall_const]
  simp only [Agree,latest,← Table.get?_eq_some]
  exact ⟨fun agree w key => Option.ext (agree w key),fun same w key event => by rw [same]⟩

/-- Rows of some workflows. -/
theorem agree_filter {events : EventRows} {history : HistoryRows} (agree : Agree events history) (owns : String → Bool) :
    Agree (events.filter fun e => owns e.1.1) (history.filter fun e => owns e.1.1) := by
  intro w key event
  simp only [List.mem_filter,Latest]
  rw [agree]
  constructor
  · rintro ⟨⟨n,listed,greatest⟩,own⟩
    exact ⟨n,⟨listed,own⟩,fun n' event' other => greatest n' event' other.1⟩
  · rintro ⟨n,⟨listed,own⟩,greatest⟩
    exact ⟨⟨n,listed,fun n' event' other => greatest n' event' ⟨other,own⟩⟩,own⟩

/-- New rows for workflows that have none. -/
theorem agree_inserts {events events' : WorkflowEvents} {history history' : WorkflowEventsHistory} {rows : EventRows}
    {rows' : HistoryRows} (owns : String → Prop) (agree : Agree events.entries history.entries) (new : Agree rows rows')
    (within : ∀ e ∈ rows',owns e.1.1) (fresh : ∀ w, owns w → ∀ k, history.get? (w,k) = none)
    (inserted : events.insertRows rows = some events') (inserted' : history.insertRows rows' = some history') :
    Agree events'.entries history'.entries := by
  have apart : ∀ w n key n' key' event event', ((w,n,key),event) ∈ history.entries → ((w,n',key'),event') ∉ rows' := by
    intro w n key n' key' event event' old added
    have stored := (history.get?_eq_some _ _).mpr old
    rw [fresh w (within _ added)] at stored
    cases stored
  intro w key event
  rw [← Table.get?_eq_some,Table.insertRows_get? inserted,Table.get?_eq_some,agree,new]
  simp only [Latest,← history'.get?_eq_some,Table.insertRows_get? inserted',history.get?_eq_some]
  constructor
  · rintro (⟨n,listed,greatest⟩ | ⟨n,listed,greatest⟩)
    · refine ⟨n,.inl listed,?_⟩
      rintro n' event' (old | added)
      · exact greatest n' event' old
      · exact absurd added (apart _ _ _ _ _ _ _ listed)
    · refine ⟨n,.inr listed,?_⟩
      rintro n' event' (old | added)
      · exact absurd listed (apart _ _ _ _ _ _ _ old)
      · exact greatest n' event' added
  · rintro ⟨n,listed | listed,greatest⟩
    · exact .inl ⟨n,listed,fun n' event' old => greatest n' event' (.inl old)⟩
    · exact .inr ⟨n,listed,fun n' event' added => greatest n' event' (.inr added)⟩

/-- `ON CONFLICT DO UPDATE` with the values of the new row. -/
theorem get?_overwrite {κ ρ : Type} [DecidableEq κ] (t : Table κ ρ) (k : κ) (new : ρ) (k' : κ) :
    (t.upsert k new fun _ => new).get? k' = if k' = k then some new else t.get? k' := by
  rw [Table.get?_upsert]
  cases t.get? k <;> rfl

/-- An event under a function ID that is not below those of its key. -/
theorem agree_upsert {events : WorkflowEvents} {history : WorkflowEventsHistory} (agree : Agree events.entries history.entries)
    (w key : String) (n : Nat) (event : WorkflowEvent)
    (last : ∀ e ∈ history.entries,e.1.1 = w → e.1.2.2 = key → e.1.2.1 ≤ n) :
    Agree (events.upsert (w,key) event fun _ => event).entries (history.upsert (w,n,key) event fun _ => event).entries := by
  intro w' key' event'
  simp only [Latest,← Table.get?_eq_some,get?_overwrite]
  by_cases here : (w',key') = (w,key)
  · cases here
    rw [if_pos rfl]
    constructor
    · intro same
      refine ⟨n,by rw [if_pos rfl]; exact same,?_⟩
      intro n' other present
      by_cases this : n' = n
      · exact Nat.le_of_eq this
      · rw [if_neg (by simpa using this)] at present
        exact last _ ((history.get?_eq_some _ _).mp present) rfl rfl
    · rintro ⟨n',stored,greatest⟩
      have above := greatest n event (by rw [if_pos rfl])
      by_cases this : n' = n
      · rw [if_pos (by rw [this])] at stored
        exact stored
      · rw [if_neg (by simpa using this)] at stored
        have under : n' ≤ n := last _ ((history.get?_eq_some _ _).mp stored) rfl rfl
        exact absurd (Nat.le_antisymm under above) this
  · have other : ∀ n', (w',n',key') ≠ (w,n,key) := fun n' same => here (by cases same; rfl)
    simp only [if_neg here,if_neg (other _)]
    have before := agree w' key' event'
    simpa only [Latest,← Table.get?_eq_some] using before

/-! ### What a fork copies -/

/-- The events of the forks are the latest of the history that they get. -/
theorem agree_copied {db : Database} {ms : List ForkMapping} {ranked : List RankedEvent} (fresh : Fresh ms (Owns db))
    (answer : FirstRanked partitionOf orderOf (historyJoin db.workflow_events_history ms) ranked)
    (apart : Apart db.workflow_events_history ms) :
    Agree (eventRows ranked) (copied db.workflow_events_history historyHits id ms) := by
  intro w key event
  by_cases target : ∃ m ∈ ms,m.target = w
  · obtain ⟨m,member,rfl⟩ := target
    have copies : ∀ n event', ((m.target,n,key),event') ∈ copied db.workflow_events_history historyHits id ms ↔
        db.workflow_events_history.get? (m.source,n,key) = some event' ∧ below m.bound n = true := by
      intro n event'
      constructor
      · intro listed
        obtain ⟨m',member',same,_,found,hit,rfl⟩ := mem_copied.mp listed
        cases mapping_unique fresh.distinct member' member same.symm
        exact ⟨found,hit⟩
      · rintro ⟨found,hit⟩
        exact mem_copied.mpr ⟨m,member,rfl,event',found,hit,rfl⟩
    obtain ⟨events,done⟩ := eventRows_insert fresh answer
    have stored := events_of_apart fresh answer done apart (m.target,key)
    rw [eventAt,find?_target fresh.distinct member] at stored
    have new : ((m.target,key),event) ∈ eventRows ranked ↔ events.get? (m.target,key) = some event := by
      rw [Table.insertRows_get? done]
      refine (or_iff_right ?_).symm
      intro old
      exact fresh.unowned m member (.inr (.inr (.inr (.inr ⟨key,by rw [old]; rfl⟩))))
    rw [new,stored,latestEvent_iff]
    simp only [Latest,copies,Option.isSome_iff_exists]
    constructor
    · rintro ⟨n,early,found,greatest⟩
      exact ⟨n,⟨found,early⟩,fun n' event' other => greatest n' other.2 ⟨event',other.1⟩⟩
    · rintro ⟨n,⟨found,early⟩,greatest⟩
      refine ⟨n,early,found,?_⟩
      rintro n' early' ⟨event',found'⟩
      exact greatest n' event' ⟨found',early'⟩
  · constructor
    · intro listed
      obtain ⟨e,chosen,same⟩ := List.mem_map.mp listed
      simp only [Prod.mk.injEq] at same
      exact absurd ⟨e.1,(mem_historyJoin.mp (answer.1 e chosen).1).1,same.1.1⟩ target
    · rintro ⟨n,listed,_⟩
      obtain ⟨m,member,same,_⟩ := mem_copied.mp listed
      exact absurd ⟨m,member,same.symm⟩ target

/-! ### Calls -/

def isEventWrite : Statement → Bool
  | .upsertEvent .. => true
  | .upsertHistory .. => true
  | _ => false

/-- The writes of events that a call has made or is about to make. -/
def eventWrites : Call → List Statement
  | .invocation _ (.acting _ todo done _) => (done ++ todo).filter isEventWrite
  | call => call.writes.filter isEventWrite

/-- No event, or an event with its history. -/
def Paired (writes : List Statement) : Prop :=
  writes = [] ∨ ∃ w n key event, writes = [.upsertEvent w key event,.upsertHistory w n key event]

theorem applyAll_events (db db' : Database) (statements : List Statement) (events : db.workflow_events = db'.workflow_events)
    (history : db.workflow_events_history = db'.workflow_events_history) :
    (applyAll db statements).workflow_events = (applyAll db' (statements.filter isEventWrite)).workflow_events ∧
      (applyAll db statements).workflow_events_history =
        (applyAll db' (statements.filter isEventWrite)).workflow_events_history := by
  induction statements generalizing db db' with
  | nil => exact ⟨events,history⟩
  | cons statement rest ih =>
    cases statement with
    | upsertEvent w key event => exact ih _ _ (by simp [Statement.apply,events]) (by simp [Statement.apply,history])
    | upsertHistory w n key event => exact ih _ _ (by simp [Statement.apply,events]) (by simp [Statement.apply,history])
    | _ => exact ih _ _ events history

theorem firstStatement_paired (db : Database) (inv : Invocation) (input : Input) (startTime : Int) :
    Paired (eventWrites (.invocation inv (firstStatement db inv input startTime))) := by
  unfold firstStatement
  split
  · split
    · rename_i writes
      obtain ⟨text,_,⟨rfl,_⟩ | ⟨rfl,_⟩⟩ := insertMessage_ok writes
      · exact .inl rfl
      · exact .inl rfl
    · exact .inl rfl
  · split
    · exact .inl rfl
    · exact .inr ⟨_,_,_,_,rfl⟩
  · exact .inl rfl
  · exact .inl rfl
  · split
    · exact .inl rfl
    · exact .inl rfl

theorem advance_paired {db : Database} {input : Input} {call call' : Call} {auto : List Statement}
    (paired : Paired (eventWrites call)) (taken : call.advance db input = some (call',auto)) :
    Paired (eventWrites call') ∧ auto.filter isEventWrite = [] := by
  cases call with
  | invocation inv phase =>
    obtain ⟨⟨phase',auto'⟩,advances,same⟩ := Option.map_eq_some_iff.mp taken
    cases same
    cases advance_cases advances with
    | starts startTime => exact ⟨firstStatement_paired db inv input startTime,rfl⟩
    | sleeps startTime endTimeMs phase after =>
      rcases after with rfl | rfl
      · exact ⟨.inl rfl,rfl⟩
      · exact ⟨.inl rfl,rfl⟩
    | executes startTime statement rest done value => exact ⟨by simpa [eventWrites] using paired,rfl⟩
    | records startTime done value mine =>
      exact ⟨by simpa [eventWrites,Call.writes,Phase.writes,isEventWrite] using paired,rfl⟩
    | claims done value => exact ⟨by simpa [eventWrites,Call.writes,Phase.writes,isEventWrite] using paired,rfl⟩
    | _ => exact ⟨.inl rfl,rfl⟩
  | streamWrite w phase =>
    cases phase with
    | called =>
      cases taken
      exact ⟨.inl rfl,rfl⟩
    | chosen offset =>
      simp only [Call.advance] at taken
      split at taken <;> cases taken
      · exact ⟨.inl rfl,rfl⟩
      · exact ⟨.inl rfl,rfl⟩
    | _ => cases taken

theorem commit_paired {call call' : Call} {acknowledged : Bool} {done : List Statement} (paired : Paired (eventWrites call))
    (commits : call.commit acknowledged = some (call',done)) : Paired (eventWrites call') ∧ Paired (done.filter isEventWrite) := by
  unfold Call.commit at commits
  split at commits
  · cases commits
    exact ⟨by cases acknowledged <;> exact .inl rfl,paired⟩
  · cases commits
    exact ⟨by cases acknowledged <;> exact .inl rfl,.inl rfl⟩
  · cases commits
    exact ⟨by cases acknowledged <;> exact .inl rfl,.inl rfl⟩
  · cases commits

theorem restart_paired (call : Call) : Paired (eventWrites call.restart) := by cases call <;> exact .inl rfl

theorem fail_paired (call : Call) (e : DbosError) : Paired (eventWrites (call.fail e)) := by cases call <;> exact .inl rfl

/-! ### Steps -/

instance decidableApart (history : WorkflowEventsHistory) (ms : List ForkMapping) : Decidable (Apart history ms) :=
  decidable_of_iff (∀ a ∈ ms,∀ b ∈ ms,a.target ≠ b.target → a.source = b.source → ∀ e ∈ history.entries,
      e.1.1 = a.source → below a.bound e.1.2.1 = true → ¬ below b.bound e.1.2.1 = true) (by
    constructor
    · intro disjoint a memberA b memberB targets sources n key earlyA earlyB
      by_contra present
      obtain ⟨event,found⟩ := Option.ne_none_iff_exists'.mp present
      exact disjoint a memberA b memberB targets sources _ ((history.get?_eq_some _ _).mp found) rfl earlyA earlyB
    · rintro apart a memberA b memberB targets sources ⟨⟨w,n,key⟩,event⟩ listed rfl earlyA earlyB
      have stored := (history.get?_eq_some _ _).mpr listed
      rw [apart a memberA b memberB targets sources n key earlyA earlyB] at stored
      cases stored)

/-- No event of the key has been set under a greater function ID. -/
def InOrder (history : WorkflowEventsHistory) : Statement → Prop
  | .upsertHistory w n key _ => ∀ e ∈ history.entries,e.1.1 = w → e.1.2.2 = key → e.1.2.1 ≤ n
  | _ => True

instance decidableInOrder (history : WorkflowEventsHistory) (statement : Statement) : Decidable (InOrder history statement) :=
  match statement with
  | .upsertHistory w n key _ => inferInstanceAs (Decidable (∀ e ∈ history.entries,e.1.1 = w → e.1.2.2 = key → e.1.2.1 ≤ n))
  | .insertNotification .. => isTrue trivial
  | .consume .. => isTrue trivial
  | .upsertEvent .. => isTrue trivial
  | .insertStream .. => isTrue trivial
  | .insertCheckpoint .. => isTrue trivial
  | .claimExecutor .. => isTrue trivial

/-- The condition on the steps: events of a key are committed in the order of their function
    IDs, no event is committed between the two statements by which a fork copies, or an export
    reads, events and history, and two forks of one call share no event. -/
def Orderly (s : System) : Event → Prop
  | .commit i _ => ∀ call ∈ s.calls[i]?,∀ st ∈ call.writes,InOrder s.db.workflow_events_history st
  | .forkNext i _ => ∀ f ∈ s.forks[i]?,f.stage = .history → Apart s.db.workflow_events_history f.call.copies ∧
      f.history = copied s.db.workflow_events_history historyHits id f.call.copies
  | .exportNext i => ∀ x ∈ s.exports[i]?,x.stage = .events → x.events = s.db.workflow_events.select fun k _ => k.1 = x.workflowID
  | _ => True

instance decidableOrderly (s : System) (event : Event) : Decidable (Orderly s event) :=
  match event with
  | .commit i _ =>
    inferInstanceAs (Decidable (∀ call ∈ s.calls[i]?,∀ st ∈ call.writes,InOrder s.db.workflow_events_history st))
  | .forkNext i _ =>
    inferInstanceAs (Decidable (∀ f ∈ s.forks[i]?,f.stage = .history → Apart s.db.workflow_events_history f.call.copies ∧
      f.history = copied s.db.workflow_events_history historyHits id f.call.copies))
  | .exportNext i =>
    inferInstanceAs (Decidable (∀ x ∈ s.exports[i]?,x.stage = .events →
      x.events = s.db.workflow_events.select fun k _ => k.1 = x.workflowID))
  | .begin .. => isTrue trivial
  | .next .. => isTrue trivial
  | .drop .. => isTrue trivial
  | .fork .. => isTrue trivial
  | .forkCommit .. => isTrue trivial
  | .forkDrop .. => isTrue trivial
  | .exportWorkflow .. => isTrue trivial
  | .importWorkflow .. => isTrue trivial
  | .deleteWorkflows .. => isTrue trivial
  | .statuses .. => isTrue trivial

structure Agreed (s : System) : Prop where
  linked : Linked s
  agree : Agree s.db.workflow_events.entries s.db.workflow_events_history.entries
  calls : ∀ call ∈ s.calls,Paired (eventWrites call)
  forks : ∀ f ∈ s.forks,f.stage = .events → Agree f.events f.history
  exports : ∀ x ∈ s.exports,x.stage = .history ∨ x.stage = .streams → Agree x.events x.history

/-- What a commit writes of events is in order. -/
theorem agree_commit {db : Database} {done : List Statement} (agree : Agree db.workflow_events.entries db.workflow_events_history.entries)
    (paired : Paired (done.filter isEventWrite)) (ordered : ∀ st ∈ done,InOrder db.workflow_events_history st) :
    Agree (applyAll db done).workflow_events.entries (applyAll db done).workflow_events_history.entries := by
  obtain ⟨events,history⟩ := applyAll_events db db done rfl rfl
  rw [events,history]
  rcases paired with nothing | ⟨w,n,key,event,pair⟩
  · rw [nothing]
    exact agree
  · have member : .upsertHistory w n key event ∈ done.filter isEventWrite := by simp [pair]
    rw [pair]
    exact agree_upsert agree w key n event (ordered _ (List.mem_of_mem_filter member))

/-- A workflow that does not exist has no history. -/
theorem fresh_history {db : Database} (owners : ∀ w, HasRows db w → (db.statuses.get? w).isSome) {w : String}
    (absent : db.statuses.get? w = none) (k : Nat × String) : db.workflow_events_history.get? (w,k) = none := by
  by_contra present
  have exists_ := owners w (.inr (.inr (.inl ⟨k,Option.isSome_iff_ne_none.mpr present⟩)))
  rw [absent] at exists_
  cases exists_

theorem owns_status {db : Database} (owners : ∀ w, HasRows db w → (db.statuses.get? w).isSome) {w : String} (owns : Owns db w) :
    (db.statuses.get? w).isSome := by
  rcases owns with status | rows
  · exact status
  · exact owners w rows

theorem forkNext_agree {s : System} (linked : Linked s) {f f' : Forking} {ranked : List RankedEvent} (member : f ∈ s.forks)
    (ordered : f.stage = .history → Apart s.db.workflow_events_history f.call.copies ∧
      f.history = copied s.db.workflow_events_history historyHits id f.call.copies)
    (advances : f.next s.db ranked = some f') (last : f'.stage = .events) : Agree f'.events f'.history := by
  unfold Forking.next at advances
  split at advances
  · cases advances
    cases last
  · cases advances
    cases last
  · cases advances
    cases last
  · rename_i stage
    split at advances
    · rename_i answer
      cases advances
      obtain ⟨apart,same⟩ := ordered stage
      have distinct := (List.nodup_flatMap.mp linked.distinct).1 f member
      rw [same]
      refine agree_copied ⟨distinct.sublist (List.filter_sublist.map _),?_⟩ answer apart
      -- The forks are not there before the commit.
      intro m listed owns
      have target : m.target ∈ f.call.targets := List.mem_map_of_mem (List.mem_of_mem_filter listed)
      have present := owns_status linked.owners owns
      rw [linked.absent _ (List.mem_flatMap.mpr ⟨f,member,target⟩)] at present
      cases present
    · cases advances
  · cases advances

theorem exportNext_agree {db : Database} {x x' : Export} (agree : Agree db.workflow_events.entries db.workflow_events_history.entries)
    (ordered : x.stage = .events → x.events = db.workflow_events.select fun k _ => k.1 = x.workflowID)
    (before : x.stage = .history ∨ x.stage = .streams → Agree x.events x.history) (advances : x.next db = some x')
    (late : x'.stage = .history ∨ x'.stage = .streams) : Agree x'.events x'.history := by
  unfold Export.next at advances
  split at advances
  · cases advances
    rcases late with impossible | impossible <;> cases impossible
  · cases advances
    rcases late with impossible | impossible <;> cases impossible
  · rename_i stage
    cases advances
    rw [ordered stage]
    exact agree_filter agree fun w => w = x.workflowID
  · rename_i stage
    cases advances
    exact before (.inl stage)
  · cases advances

/-- An import adds workflows whose events agree with their history. -/
theorem imports_agree {db db' : Database} {payloads : List Export} (inserts : payloads.foldlM importOne db = some db')
    (owned : ∀ x ∈ payloads,x.Owned) (agree : Agree db.workflow_events.entries db.workflow_events_history.entries)
    (rows : ∀ x ∈ payloads,Agree x.events x.history) (owners : ∀ w, HasRows db w → (db.statuses.get? w).isSome) :
    Agree db'.workflow_events.entries db'.workflow_events_history.entries := by
  induction payloads generalizing db with
  | nil =>
    cases inserts
    exact agree
  | cons x rest ih =>
    rw [List.foldlM_cons] at inserts
    obtain ⟨between,first,onward⟩ := Option.bind_eq_some_iff.mp inserts
    obtain ⟨absent,owners',_⟩ := importOne_linked first (owned x List.mem_cons_self) owners
    have here := insertOwned_inserts first
    have own := owned x List.mem_cons_self
    refine ih onward (fun y member => owned y (List.mem_cons_of_mem _ member)) ?_
      (fun y member => rows y (List.mem_cons_of_mem _ member)) owners'
    exact agree_inserts (· = x.workflowID) agree (rows x List.mem_cons_self) own.history
      (fun w same k => fresh_history owners (same ▸ absent) k) here.events here.history

theorem step_agreed {s s' : System} {event : Event} (agreed : Agreed s) (orderly : Orderly s event)
    (taken : step s event = some s') : Agreed s' := by
  have linked := step_linked agreed.linked taken
  have agree := agreed.agree
  cases step_moves taken with
  | begin call =>
    refine ⟨linked,agree,?_,agreed.forks,agreed.exports⟩
    intro other member
    rcases List.mem_append.mp member with old | new
    · exact agreed.calls other old
    · rw [List.mem_singleton.mp new]
      exact restart_paired call
  | fails i input call found =>
    exact ⟨linked,agree,all_set agreed.calls (fail_paired call _) i,agreed.forks,agreed.exports⟩
  | next i input call call' auto found advances owned free =>
    obtain ⟨paired,nothing⟩ := advance_paired (agreed.calls call (List.mem_of_getElem? found)) advances
    obtain ⟨events,history⟩ := applyAll_events s.db s.db auto rfl rfl
    refine ⟨linked,?_,all_set agreed.calls paired i,agreed.forks,agreed.exports⟩
    rw [events,history,nothing]
    exact agree
  | commit i acknowledged call call' done found commits =>
    obtain ⟨paired,committed⟩ := commit_paired (agreed.calls call (List.mem_of_getElem? found)) commits
    refine ⟨linked,agree_commit agree committed ?_,all_set agreed.calls paired i,agreed.forks,agreed.exports⟩
    exact fun st member => orderly call found st ((commit_writes commits).2 st member)
  | drop i call found => exact ⟨linked,agree,all_set agreed.calls (restart_paired call) i,agreed.forks,agreed.exports⟩
  | stays => exact agreed
  | fork call now ids statuses inserted unreserved =>
    refine ⟨linked,agree,agreed.calls,?_,agreed.exports⟩
    intro f member last
    rcases List.mem_append.mp member with old | new
    · exact agreed.forks f old last
    · rw [List.mem_singleton.mp new] at last
      cases last
  | forkNext i ranked f f' found advances =>
    refine ⟨linked,agree,agreed.calls,?_,agreed.exports⟩
    exact all_set agreed.forks (forkNext_agree agreed.linked (List.mem_of_getElem? found) (orderly f found) advances) i
  | forkCommit i f db found complete inserts =>
    have listed := List.mem_of_getElem? found
    obtain ⟨_,within⟩ := agreed.linked.forks f listed
    refine ⟨linked,?_,agreed.calls,fun g member => agreed.forks g (List.mem_of_mem_eraseIdx member),agreed.exports⟩
    refine agree_inserts (· ∈ f.call.targets) agree (agreed.forks f listed complete) within.history ?_ inserts.events
      inserts.history
    intro w target k
    exact fresh_history agreed.linked.owners (agreed.linked.absent w (List.mem_flatMap.mpr ⟨f,listed,target⟩)) k
  | forkDrop i =>
    exact ⟨linked,agree,agreed.calls,fun g member => agreed.forks g (List.mem_of_mem_eraseIdx member),agreed.exports⟩
  | exportWorkflow workflowID row found =>
    refine ⟨linked,agree,agreed.calls,agreed.forks,?_⟩
    intro x member late
    rcases List.mem_append.mp member with old | new
    · exact agreed.exports x old late
    · rw [List.mem_singleton.mp new] at late
      rcases late with impossible | impossible <;> cases impossible
  | exportNext i x x' found advances =>
    refine ⟨linked,agree,agreed.calls,agreed.forks,?_⟩
    have exported := agreed.exports x (List.mem_of_getElem? found)
    exact all_set agreed.exports (exportNext_agree agree (orderly x found) exported advances) i
  | importWorkflow exports payloads db known complete inserts =>
    refine ⟨linked,?_,agreed.calls,agreed.forks,agreed.exports⟩
    refine imports_agree inserts (fun x member => agreed.linked.exports x (known x member)) agree ?_ agreed.linked.owners
    exact fun x member => agreed.exports x (known x member) (.inr (complete x member).1)
  | deleteWorkflows allIds idle =>
    refine ⟨linked,?_,agreed.calls,agreed.forks,agreed.exports⟩
    have kept := agree_filter agree fun w => !decide (w ∈ allIds)
    exact kept
  | statuses t kept unreserved => exact ⟨linked,agree,agreed.calls,agreed.forks,agreed.exports⟩

theorem agreed_start (t : Statuses) : Agreed (start t) :=
  ⟨linked_start t,agree_nil,by simp [start],by simp [start],by simp [start]⟩

/-- A fork past the last event has the current events of the original. -/
theorem fork_events {s : System} (agreed : Agreed s) {m : ForkMapping} (original : (s.db.statuses.get? m.source).isSome)
    (new : s.db.statuses.get? m.target = none)
    (past : ∀ n key, (s.db.workflow_events_history.get? (m.source,n,key)).isSome → below m.bound n = true)
    {options : ForkOptions} {replacementChildren : List (String × String)} {now : Int} {ranked : List RankedEvent}
    {out : Except DbosError (List String) × Database}
    (called : bulkForkWorkflows s.db [m.source] [m.target] [m.bound] options replacementChildren now ranked = some out) :
    ∃ db, out = (.ok [m.target],db) ∧ ∀ key, db.workflow_events.get? (m.target,key) = s.db.workflow_events.get? (m.source,key) := by
  have fresh : Fresh [m] (Owns s.db) := by
    refine ⟨by simp,?_⟩
    intro m' member owns
    have present := owns_status agreed.linked.owners owns
    rw [List.mem_singleton.mp member,new] at present
    cases present
  have exist : ∀ m' ∈ [m],(s.db.statuses.get? m'.source).isSome := by
    intro m' member
    rw [List.mem_singleton.mp member]
    exact original
  have spec := (bulkFork_spec options replacementChildren now fresh exist).2 ranked out called
  obtain ⟨db,rfl,_,events⟩ := spec
  refine ⟨db,rfl,?_⟩
  intro key
  have alone : Apart s.db.workflow_events_history [m] := by
    intro a memberA b memberB targets
    rw [List.mem_singleton.mp memberA,List.mem_singleton.mp memberB] at targets
    exact absurd rfl targets
  rw [events.mpr alone,eventAt,find?_target fresh.distinct (List.mem_singleton_self m),agree_iff.mp agreed.agree m.source key]
  ext event
  simp only [latestEvent_iff,true_and,forall_const]
  constructor
  · rintro ⟨n,_,found,greatest⟩
    exact ⟨n,found,fun n' present => greatest n' (past n' key present) present⟩
  · rintro ⟨n,found,greatest⟩
    exact ⟨n,past n key (by rw [found]; rfl),found,fun n' _ present => greatest n' present⟩

/-- In every run whose steps are orderly the current events are those with the greatest function
    IDs in the history, and a fork past the last of them has the same events. -/
theorem events_agree {t : Statuses} {events : List Event} (orderly : Along step Orderly (start t) events) {s : System}
    (run : Runs step (start t) events s) :
    (∀ w key, s.db.workflow_events.get? (w,key) = latestEvent s.db.workflow_events_history w key fun _ => true) ∧
    ∀ (m : ForkMapping) options replacementChildren now, (s.db.statuses.get? m.source).isSome →
      s.db.statuses.get? m.target = none →
      (∀ n key, (s.db.workflow_events_history.get? (m.source,n,key)).isSome → below m.bound n = true) →
      ∀ ranked out, bulkForkWorkflows s.db [m.source] [m.target] [m.bound] options replacementChildren now ranked = some out →
        ∃ db, out = (.ok [m.target],db) ∧
          ∀ key, db.workflow_events.get? (m.target,key) = s.db.workflow_events.get? (m.source,key) := by
  have agreed := along_invariant (I := Agreed) (fun _ _ _ => step_agreed) (agreed_start t) orderly run
  refine ⟨agree_iff.mp agreed.agree,?_⟩
  intro m options replacementChildren now original new past ranked out called
  exact fork_events agreed original new past called

/-- The workflow `w` sets the event `k`. -/
def sets (functionID : Nat) (value : String) : Event :=
  .begin (.invocation ⟨"e","w",functionID,functionID,.setEvent "k" (some value) none⟩ .called)

/-- The statements of the `i`-th call. -/
def completes (i : Nat) : List Event := List.replicate 6 (Event.next i {}) ++ [Event.commit i true]

/-- A fork of `w` at step 2 that finds the event of function ID 1. -/
def forks : List Event :=
  [.fork { mapping := [⟨"w","f",2⟩] } 5,.forkNext 0 [],.forkNext 0 [],.forkNext 0 [],
    .forkNext 0 [(⟨"w","f",2⟩,("w",1,"k"),⟨"b",none⟩)],.forkCommit 0]

/-- Two calls that are awaited one after the other. -/
theorem events_agree_awaited : ∃ s, Runs step (start running)
      ([sets 0 "a"] ++ completes 0 ++ [sets 1 "b"] ++ completes 1 ++ forks) s ∧
    s.db.workflow_events.get? ("w","k") = some ⟨"b",none⟩ ∧ s.db.workflow_events.get? ("f","k") = some ⟨"b",none⟩ ∧
    ∀ w key, s.db.workflow_events.get? (w,key) = latestEvent s.db.workflow_events_history w key fun _ => true := by
  obtain ⟨s,run,current,forked⟩ : ∃ s, Runs step (start running)
      ([sets 0 "a"] ++ completes 0 ++ [sets 1 "b"] ++ completes 1 ++ forks) s ∧
      s.db.workflow_events.get? ("w","k") = some ⟨"b",none⟩ ∧ s.db.workflow_events.get? ("f","k") = some ⟨"b",none⟩ :=
    ⟨_,rfl,rfl,rfl⟩
  exact ⟨s,run,current,forked,(events_agree (by decide) run).1⟩

/-- Two calls that run side by side, and the second commits first: the current event is that of
    the first, and the fork has that of the second. -/
theorem event_behind_history :
    (∃ s, Runs step (start running) ([sets 0 "a",sets 1 "b"] ++ completes 1 ++ completes 0 ++ forks) s ∧
      s.db.workflow_events.get? ("w","k") = some ⟨"a",none⟩ ∧
      latestEvent s.db.workflow_events_history "w" "k" (fun _ => true) = some ⟨"b",none⟩ ∧
      s.db.workflow_events.get? ("f","k") = some ⟨"b",none⟩) ∧
    ¬ ∀ t events s, Runs step (start t) events s → ∀ w key,
      s.db.workflow_events.get? (w,key) = latestEvent s.db.workflow_events_history w key fun _ => true := by
  have behind : ∃ s, Runs step (start running) ([sets 0 "a",sets 1 "b"] ++ completes 1 ++ completes 0 ++ forks) s ∧
      s.db.workflow_events.get? ("w","k") = some ⟨"a",none⟩ ∧
      latestEvent s.db.workflow_events_history "w" "k" (fun _ => true) = some ⟨"b",none⟩ ∧
      s.db.workflow_events.get? ("f","k") = some ⟨"b",none⟩ := ⟨_,rfl,rfl,rfl,rfl⟩
  refine ⟨behind,?_⟩
  intro always
  obtain ⟨s,run,current,latest,_⟩ := behind
  have same := always _ _ s run "w" "k"
  rw [current,latest] at same
  exact absurd same (by decide)

end Dbos.EventHistory
