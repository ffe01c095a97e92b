import Dbos.Fork

/-!
Forks made in bulk against forks made one by one. `forkWorkflow` calls `bulkForkWorkflows` with
lists of one, and there it gives the fork what it is to have. With more of them the tables
agree unless two forks of one original have an event in common.
-/
namespace Dbos.BulkFork
open Dbos.Pg Dbos.Schema Dbos.Status Dbos.Communication Dbos.Fork

variable {db : Database} {ms : List ForkMapping} {options : ForkOptions} {replacementChildren : List (String × String)}
  {now : Int}

/-! ### One fork after the other -/

/-- The forks are made by one call each, with whatever clocks and answers. -/
inductive OneByOne (options : ForkOptions) (replacementChildren : List (String × String)) :
    Database → List ForkMapping → Database → Prop
  | done (db : Database) : OneByOne options replacementChildren db [] db
  | next (db between db' : Database) (m : ForkMapping) (rest : List ForkMapping) (now : Int) (ranked : List RankedEvent)
      (ids : List String) (called : bulkForkWorkflows db [m.source] [m.target] [m.bound] options replacementChildren now
        ranked = some (.ok ids,between)) (onward : OneByOne options replacementChildren between rest db') :
      OneByOne options replacementChildren db (m :: rest) db'

theorem apart_single (history : WorkflowEventsHistory) (m : ForkMapping) : Apart history [m] := by
  intro a memberA b memberB targets
  rw [List.mem_singleton.mp memberA,List.mem_singleton.mp memberB] at targets
  exact absurd rfl targets

theorem eventAt_cons {between : Database} {m : ForkMapping} {rest : List ForkMapping}
    (distinct : ((m :: rest).map Mapping.target).Nodup) (apart : ∀ m' ∈ rest,m'.source ≠ m.target)
    (first : Contents db [m] options replacementChildren between) (k : String × String) :
    eventAt between rest k = eventAt db (m :: rest) k := by
  have histories : ∀ k, k.1 ≠ m.target → between.workflow_events_history.get? k = db.workflow_events_history.get? k := by
    intro k other
    exact (first.history k).trans (copyAt_other (by simpa using other))
  rw [List.map_cons,List.nodup_cons] at distinct
  unfold eventAt
  by_cases here : m.target = k.1
  · rw [find?_later distinct.1 here]
    simp [here,first.events,eventAt]
  · simp only [List.find?_cons,here,decide_false]
    cases target : rest.find? fun m' => m'.target = k.1 with
    | none =>
      dsimp only
      rw [first.events,eventAt]
      simp [here]
    | some m' =>
      have elsewhere := apart m' (List.mem_of_find?_eq_some target)
      dsimp only
      ext event
      simp only [latestEvent_iff,fun n => histories (m'.source,n,k.2) elsewhere]

/-- A fork and then the rest is all of them. -/
theorem contents_cons {between db' : Database} {m : ForkMapping} {rest : List ForkMapping}
    (distinct : ((m :: rest).map Mapping.target).Nodup) (apart : ∀ m' ∈ rest,m'.source ≠ m.target)
    (first : Contents db [m] options replacementChildren between)
    (later : Contents between rest options replacementChildren db') :
    Contents db (m :: rest) options replacementChildren db' := by
  have notLater : m.target ∉ rest.map Mapping.target := (List.nodup_cons.mp distinct).1
  refine ⟨⟨?_,?_,?_,?_,?_,later.notifications.trans first.notifications⟩,?_⟩
  · intro m' member
    rcases List.mem_cons.mp member with rfl | listed
    · obtain ⟨ws,now,original,stored⟩ := first.forks m' List.mem_cons_self
      refine ⟨ws,now,original,?_⟩
      -- The first fork is no original of the rest.
      have unmarked : m'.target ∉ rest.map Mapping.source := by
        intro taken
        obtain ⟨m,listed,same⟩ := List.mem_map.mp taken
        exact apart m listed same
      rw [later.others _ notLater,stored,Option.map_some,marked,if_neg unmarked]
    · obtain ⟨ws,now,original,stored⟩ := later.forks m' listed
      rw [first.others m'.source (by simpa using apart m' listed)] at original
      obtain ⟨ws',before,rfl⟩ := Option.map_eq_some_iff.mp original
      refine ⟨ws',now,before,stored.trans ?_⟩
      unfold marked
      split <;> rfl
  · intro k elsewhere
    obtain ⟨here,others⟩ := not_or.mp (mt List.mem_cons.mpr elsewhere)
    rw [later.others k others,first.others k (by simpa using here),Option.map_map]
    congr 1
    funext row
    simp only [Function.comp_apply,marked,List.map_cons,List.map_nil,List.mem_cons,List.not_mem_nil,or_false]
    by_cases original : k ∈ rest.map Mapping.source
    · by_cases same : k = m.source <;> simp [original,same]
    · by_cases same : k = m.source <;> simp [original,same]
  · exact fun k => (later.outputs k).trans (copyAt_cons distinct apart first.outputs k)
  · exact fun k => (later.streams k).trans (copyAt_cons distinct apart first.streams k)
  · exact fun k => (later.history k).trans (copyAt_cons distinct apart first.history k)
  · exact fun k => (later.events k).trans (eventAt_cons distinct apart first k)

theorem copyAt_owner {κ ρ : Type} [DecidableEq κ] {t t' : Table (String × κ) ρ} {hit : Int → κ → ρ → Bool} {set : ρ → ρ}
    {m : ForkMapping} (copies : ∀ k, t'.get? k = copyAt t hit set [m] k) {w : String} (other : w ≠ m.target)
    (owned : ∃ k, (t'.get? (w,k)).isSome) : ∃ k, (t.get? (w,k)).isSome := by
  obtain ⟨k,present⟩ := owned
  rw [copies,copyAt_other (by simpa using other)] at present
  exact ⟨k,present⟩

/-- A fork gives rows to no other workflow. -/
theorem owns_after {between : Database} {m : ForkMapping} (first : Contents db [m] options replacementChildren between)
    {w : String} (other : w ≠ m.target) (owned : Owns between w) : Owns db w := by
  rcases owned with status | outputs | streams | history | ⟨k,event⟩
  · rw [first.others w (by simpa using other),Option.isSome_map] at status
    exact .inl status
  · exact .inr (.inl (copyAt_owner first.outputs other outputs))
  · exact .inr (.inr (.inl (copyAt_owner first.streams other streams)))
  · exact .inr (.inr (.inr (.inl (copyAt_owner first.history other history))))
  · rw [first.events,eventAt] at event
    simp only [List.find?_cons,Ne.symm other,decide_false,List.find?_nil] at event
    exact .inr (.inr (.inr (.inr ⟨k,event⟩)))

/-- What is needed of the first fork and what is left for the others. -/
theorem fresh_cons (options : ForkOptions) (replacementChildren : List (String × String)) {m : ForkMapping}
    {rest : List ForkMapping} (fresh : Fresh (m :: rest) (Owns db))
    (exist : ∀ m' ∈ m :: rest,(db.statuses.get? m'.source).isSome) :
    Fresh [m] (Owns db) ∧ (∀ m' ∈ [m],(db.statuses.get? m'.source).isSome) ∧ (∀ m' ∈ rest,m'.source ≠ m.target) ∧
    ∀ between, Contents db [m] options replacementChildren between →
      Fresh rest (Owns between) ∧ ∀ m' ∈ rest,(between.statuses.get? m'.source).isSome := by
  have distinct := fresh.distinct
  rw [List.map_cons,List.nodup_cons] at distinct
  have apart : ∀ m' ∈ rest,m'.source ≠ m.target := by
    intro m' member same
    exact source_ne_target fresh exist (List.mem_cons_of_mem _ member) (same ▸ List.mem_cons_self)
  refine ⟨⟨by simp,?_⟩,?_,apart,?_⟩
  · intro m' member
    rw [List.mem_singleton.mp member]
    exact fresh.unowned m List.mem_cons_self
  · intro m' member
    rw [List.mem_singleton.mp member]
    exact exist m List.mem_cons_self
  · intro between first
    refine ⟨⟨distinct.2,?_⟩,?_⟩
    · intro m' member owned
      have other : m'.target ≠ m.target := fun same => distinct.1 (same ▸ List.mem_map_of_mem member)
      exact fresh.unowned m' (List.mem_cons_of_mem _ member) (owns_after first other owned)
    · intro m' member
      rw [first.others _ (by simpa using apart m' member),Option.isSome_map]
      exact exist m' (List.mem_cons_of_mem _ member)

/-- Forks that are made one by one have what they are to have. -/
theorem oneByOne_contents {db' : Database} (fresh : Fresh ms (Owns db))
    (exist : ∀ m ∈ ms,(db.statuses.get? m.source).isSome) (forked : OneByOne options replacementChildren db ms db') :
    Contents db ms options replacementChildren db' := by
  induction forked with
  | done db => exact copies_nil
  | next db between db' m rest now ranked ids called onward ih =>
    obtain ⟨alone,exists_,apart,onwards⟩ := fresh_cons options replacementChildren fresh exist
    obtain ⟨between',same,copies,events⟩ := (bulkFork_spec options replacementChildren now alone exists_).2 ranked _ called
    cases same
    have first : Contents db [m] options replacementChildren between := ⟨copies,events.mpr (apart_single _ m)⟩
    obtain ⟨fresh',exist'⟩ := onwards between first
    exact contents_cons fresh.distinct apart first (ih fresh' exist')

theorem oneByOne_total (fresh : Fresh ms (Owns db)) (exist : ∀ m ∈ ms,(db.statuses.get? m.source).isSome) :
    ∃ db', OneByOne options replacementChildren db ms db' := by
  induction ms generalizing db with
  | nil => exact ⟨db,.done db⟩
  | cons m rest ih =>
    obtain ⟨alone,exists_,_,onwards⟩ := fresh_cons options replacementChildren fresh exist
    have spec := bulkFork_spec options replacementChildren 0 alone exists_
    obtain ⟨ranked,out,called⟩ := spec.1
    obtain ⟨between,rfl,copies,events⟩ := spec.2 ranked out called
    obtain ⟨fresh',exist'⟩ := onwards between ⟨copies,events.mpr (apart_single _ m)⟩
    obtain ⟨db',onward⟩ := ih fresh' exist'
    exact ⟨db',.next db between db' m rest 0 ranked _ called onward⟩

/-! ### Bulk forks against single forks -/

/-- A row without the columns that default to the clock. -/
def untimed (row : WorkflowStatus) : WorkflowStatus := { row with created_at := 0,updated_at := 0 }

/-- The same tables, default timestamps aside. -/
structure Agree (a b : Database) : Prop where
  statuses : ∀ k, (a.statuses.get? k).map untimed = (b.statuses.get? k).map untimed
  outputs : ∀ k, a.outputs.get? k = b.outputs.get? k
  notifications : ∀ k, a.notifications.get? k = b.notifications.get? k
  events : ∀ k, a.workflow_events.get? k = b.workflow_events.get? k
  history : ∀ k, a.workflow_events_history.get? k = b.workflow_events_history.get? k
  streams : ∀ k, a.streams.get? k = b.streams.get? k

theorem agree_iff {a b : Database} (first : Copies db ms options replacementChildren a)
    (second : Contents db ms options replacementChildren b) :
    Agree a b ↔ ∀ k, a.workflow_events.get? k = eventAt db ms k := by
  constructor
  · exact fun agree k => (agree.events k).trans (second.events k)
  · intro events
    refine ⟨?_,fun k => (first.outputs k).trans (second.outputs k).symm,?_,fun k => (events k).trans (second.events k).symm,
      fun k => (first.history k).trans (second.history k).symm,fun k => (first.streams k).trans (second.streams k).symm⟩
    · intro k
      by_cases forked : k ∈ ms.map Mapping.target
      · obtain ⟨m,member,rfl⟩ := List.mem_map.mp forked
        obtain ⟨ws,now,original,stored⟩ := first.forks m member
        obtain ⟨ws',now',original',stored'⟩ := second.forks m member
        cases original.symm.trans original'
        rw [stored,stored']
        rfl
      · rw [first.others k forked,second.others k forked]
    · intro k
      rw [first.notifications,second.notifications]

/-- A call that throws has changed nothing. -/
theorem bulkFork_failed {db db' : Database} {originals forks : List String} {startSteps : List Int} {ranked : List RankedEvent}
    {e : DbosError} (called : bulkForkWorkflows db originals forks startSteps options replacementChildren now ranked =
      some (.error e,db')) : db' = db := by
  unfold bulkForkWorkflows at called
  split at called
  · cases called
  split at called
  · cases called
    rfl
  split at called
  · cases called
    rfl
  · dsimp only at called
    split at called
    · cases called
      rfl
    · split at called
      · split at called
        · cases called
          rfl
        · cases called
      · cases called

/-- A call for an original that does not exist throws. -/
theorem bulkFork_missing {db : Database} {originals forks : List String} {startSteps : List Int} {ranked : List RankedEvent}
    {wid : String} (listed : wid ∈ originals) (missing : db.statuses.get? wid = none) :
    ∃ e, bulkForkWorkflows db originals forks startSteps options replacementChildren now ranked = some (.error e,db) := by
  have nonempty : originals ≠ [] := List.ne_nil_of_mem listed
  unfold bulkForkWorkflows
  rw [if_neg nonempty]
  split
  · exact ⟨_,rfl⟩
  · have fails : ∃ e t, bulkForkStatuses db.statuses originals forks options now = (.error e,t) := by
      unfold bulkForkStatuses
      split
      · exact ⟨_,_,rfl⟩
      · rename_i exist
        have present := List.find?_eq_none.mp exist wid listed
        simp [missing] at present
    obtain ⟨e,t,failed⟩ := fails
    rw [failed]
    exact ⟨e,rfl⟩

/-- Forks made in bulk agree with forks made one by one, and have exactly what they are to have,
    if and only if no two of them have the same original and an event of it before both start
    steps; and a call that throws, as it does for a missing original, changes nothing. -/
theorem bulk_fork_iff (options : ForkOptions) (replacementChildren : List (String × String)) (now : Int) :
    (∀ db ms, Fresh ms (Owns db) → (∀ m ∈ ms,(db.statuses.get? m.source).isSome) →
      (∃ ranked out, bulkForkWorkflows db (ms.map Mapping.source) (ms.map Mapping.target) (ms.map Mapping.bound) options
        replacementChildren now ranked = some out) ∧ (∃ db', OneByOne options replacementChildren db ms db') ∧
      ∀ ranked out db', bulkForkWorkflows db (ms.map Mapping.source) (ms.map Mapping.target) (ms.map Mapping.bound) options
          replacementChildren now ranked = some out → OneByOne options replacementChildren db ms db' →
        ∃ bulk, out = (.ok (ms.map Mapping.target),bulk) ∧
          (Agree bulk db' ∧ Contents db ms options replacementChildren bulk ↔ Apart db.workflow_events_history ms)) ∧
    (∀ db originals forks startSteps ranked e db', bulkForkWorkflows db originals forks startSteps options replacementChildren
      now ranked = some (.error e,db') → db' = db) ∧
    ∀ db originals forks startSteps ranked, (∃ wid ∈ originals,db.statuses.get? wid = none) →
      ∃ e, bulkForkWorkflows db originals forks startSteps options replacementChildren now ranked = some (.error e,db) := by
  refine ⟨?_,?_,?_⟩
  · intro db ms fresh exist
    have spec := bulkFork_spec options replacementChildren now fresh exist
    refine ⟨spec.1,oneByOne_total fresh exist,?_⟩
    intro ranked out db' called forked
    obtain ⟨bulk,rfl,copies,events⟩ := spec.2 ranked out called
    refine ⟨bulk,rfl,?_⟩
    rw [agree_iff copies (oneByOne_contents fresh exist forked),← events]
    exact ⟨And.left,fun right => ⟨right,copies,right⟩⟩
  · intro db originals forks startSteps ranked e db' called
    exact bulkFork_failed called
  · rintro db originals forks startSteps ranked ⟨wid,listed,missing⟩
    exact bulkFork_missing listed missing

/-- The workflow `o` has set the event `k` at function ID 0. -/
def oneEvent : Database where
  statuses := Table.empty.insert "o" { status := .SUCCESS,name := "f",created_at := 1,updated_at := 1 }
  workflow_events := Table.empty.insert ("o","k") ⟨"v",none⟩
  workflow_events_history := Table.empty.insert ("o",0,"k") ⟨"v",none⟩

theorem oneEvent_owns {w : String} (owned : Owns oneEvent w) : w = "o" := by
  rcases owned with status | ⟨k,output⟩ | ⟨k,entry⟩ | ⟨k,event⟩ | ⟨k,event⟩
  · by_contra other
    simp [oneEvent,other] at status
  · simp [oneEvent] at output
  · simp [oneEvent] at entry
  · by_contra other
    simp [oneEvent,other] at event
  · by_contra other
    simp [oneEvent,other] at event

/-- A fork from the start and a fork with the event: they are made in bulk as one by one. -/
theorem bulk_fork_apart : ∃ bulk db' : Database,
    bulkForkWorkflows oneEvent ["o","o"] ["a","b"] [0,1] {} [] 2 [(⟨"o","b",1⟩,("o",0,"k"),⟨"v",none⟩)] =
      some (.ok ["a","b"],bulk) ∧ OneByOne {} [] oneEvent [⟨"o","a",0⟩,⟨"o","b",1⟩] db' ∧ Agree bulk db' ∧
      bulk.workflow_events.get? ("b","k") = some ⟨"v",none⟩ := by
  have fresh : Fresh ([⟨"o","a",0⟩,⟨"o","b",1⟩] : List ForkMapping) (Owns oneEvent) := by
    refine ⟨by decide,?_⟩
    intro m member owned
    simp only [List.mem_cons,List.not_mem_nil,or_false] at member
    rcases member with rfl | rfl <;> exact absurd (oneEvent_owns owned) (by decide)
  have whole := (bulk_fork_iff {} [] 2).1 oneEvent [⟨"o","a",0⟩,⟨"o","b",1⟩] fresh (by simp [oneEvent])
  obtain ⟨db',forked⟩ := whole.2.1
  obtain ⟨bulk,called,stored⟩ : ∃ bulk, bulkForkWorkflows oneEvent ["o","o"] ["a","b"] [0,1] {} [] 2
      [(⟨"o","b",1⟩,("o",0,"k"),⟨"v",none⟩)] = some (.ok ["a","b"],bulk) ∧
      bulk.workflow_events.get? ("b","k") = some ⟨"v",none⟩ := ⟨_,rfl,rfl⟩
  obtain ⟨bulk',same,agrees⟩ := whole.2.2 _ _ db' called forked
  cases same
  refine ⟨bulk,db',called,forked,(agrees.mpr ?_).1,stored⟩
  -- The first fork starts at 0, so nothing is before both.
  intro a memberA b memberB targets _ n key earlyA earlyB
  simp only [List.mem_cons,List.not_mem_nil,or_false] at memberA memberB
  simp only [below,decide_eq_true_eq] at earlyA earlyB
  rcases memberA with rfl | rfl
  · dsimp only at earlyA
    omega
  · rcases memberB with rfl | rfl
    · dsimp only at earlyB
      omega
    · exact absurd rfl targets

/-- Of two forks with the event, one gets it when they are made in bulk and both do when they are
    made one by one. -/
theorem bulk_fork_loses_event : ∃ bulk db' : Database,
    bulkForkWorkflows oneEvent ["o","o"] ["a","b"] [1,1] {} [] 2 [(⟨"o","a",1⟩,("o",0,"k"),⟨"v",none⟩)] =
      some (.ok ["a","b"],bulk) ∧ OneByOne {} [] oneEvent [⟨"o","a",1⟩,⟨"o","b",1⟩] db' ∧
    bulk.workflow_events.get? ("b","k") = none ∧ db'.workflow_events.get? ("b","k") = some ⟨"v",none⟩ ∧ ¬ Agree bulk db' := by
  obtain ⟨bulk,between,db',called,first,second,lost,kept⟩ : ∃ bulk between db' : Database,
      bulkForkWorkflows oneEvent ["o","o"] ["a","b"] [1,1] {} [] 2 [(⟨"o","a",1⟩,("o",0,"k"),⟨"v",none⟩)] =
        some (.ok ["a","b"],bulk) ∧
      bulkForkWorkflows oneEvent ["o"] ["a"] [1] {} [] 2 [(⟨"o","a",1⟩,("o",0,"k"),⟨"v",none⟩)] = some (.ok ["a"],between) ∧
      bulkForkWorkflows between ["o"] ["b"] [1] {} [] 2 [(⟨"o","b",1⟩,("o",0,"k"),⟨"v",none⟩)] = some (.ok ["b"],db') ∧
      bulk.workflow_events.get? ("b","k") = none ∧ db'.workflow_events.get? ("b","k") = some ⟨"v",none⟩ :=
    ⟨_,_,_,rfl,rfl,rfl,rfl,rfl⟩
  refine ⟨bulk,db',called,.next _ _ _ _ _ _ _ _ first (.next _ _ _ _ _ _ _ _ second (.done _)),lost,kept,?_⟩
  intro agree
  have same := agree.events ("b","k")
  rw [lost,kept] at same
  cases same

end Dbos.BulkFork
