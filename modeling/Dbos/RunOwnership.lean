import Dbos.RunningMap

/-!
Who removes an entry of the map. A run removes what is under the ID of its workflow, once; that
this is its own entry holds as long as no run starts beside an older one of the same ID that
`deleteWorkflows` has taken out of the map and that has not released yet.
-/
namespace Dbos.RunningMap
open Dbos.Pg

/-- No two runs of one ID are registered and unreleased. -/
def Exclusive (s : Executor) : Prop :=
  ∀ (i j : Nat) (a b : Run),s.runs[i]? = some a → s.runs[j]? = some b → a.workflowID = b.workflowID →
    a.runningWorkflowReleased = false → b.runningWorkflowReleased = false → i = j

/-- An entry goes only in a turn of the run that has set it, or by `deleteWorkflows`. -/
def OwnRemoval (s : Executor) (event : Event) (s' : Executor) : Prop :=
  ∀ w entry,s.runningWorkflowMap.get? w = some entry → s'.runningWorkflowMap.get? w ≠ some entry →
    (∃ allIds,event = .deleteWorkflows allIds ∧ w ∈ allIds) ∨ event.actor = some entry.owner

/-- In every state and every step of the run of the executor. -/
def Owned (events : List Event) : Prop :=
  ∀ first event rest s s',events = first ++ event :: rest → Runs step {} first s → step s event = some s' →
    OwnRemoval s event s' ∧ Exclusive s'

/-- A run starts only after all runs of its ID that `deleteWorkflows` has dropped are released. -/
def InTurn (s : Executor) : Event → Prop
  | .internalWorkflow w _ _ => s.runningWorkflowMap.get? w = none →
    ∀ run ∈ s.runs,run.workflowID = w → run.dropped = true → run.runningWorkflowReleased = true
  | _ => True

instance (s : Executor) : (event : Event) → Decidable (InTurn s event)
  | .internalWorkflow .. => inferInstanceAs (Decidable (_ → ∀ run ∈ s.runs,_))
  | .returns _ | .throws .. | .serialized _ | .finishes _ | .fails _ | .settles _ | .deleteWorkflows _ => isTrue trivial

/-- The entries and the runs that are registered, neither released nor dropped, are the same. -/
structure Registered (s : Executor) : Prop where
  entry : ∀ w e,s.runningWorkflowMap.get? w = some e → ∃ run,s.runs[e.owner]? = some run ∧ run.workflowID = w ∧
    run.runningWorkflowReleased = false ∧ run.dropped = false
  run : ∀ (i : Nat) (r : Run),s.runs[i]? = some r → r.runningWorkflowReleased = false → r.dropped = false →
    ∃ e,s.runningWorkflowMap.get? r.workflowID = some e ∧ e.owner = i
  exclusive : Exclusive s

theorem registered_init : Registered {} :=
  ⟨fun w e found => by simp at found,fun i r found => by simp at found,fun i j a b found => by simp at found⟩

variable {s : Executor}

/-- A run that only moves on keeps what the others see of it. -/
theorem registered_move (registered : Registered s) {i : Nat} {run : Run} (found : s.runs[i]? = some run) (phase : Phase) :
    Registered (s.move i run phase) := by
  obtain ⟨entry,back,exclusive⟩ := registered
  have seen : ∀ (j : Nat) (r : Run),(s.move i run phase).runs[j]? = some r → ∃ old,s.runs[j]? = some old ∧ old.workflowID = r.workflowID ∧
      old.runningWorkflowReleased = r.runningWorkflowReleased ∧ old.dropped = r.dropped := by
    intro j r listed
    rcases party_set_cases found listed with ⟨rfl,rfl⟩ | ⟨_,old⟩
    · exact ⟨run,found,rfl,rfl,rfl⟩
    · exact ⟨r,old,rfl,rfl,rfl⟩
  refine ⟨fun w e at' => ?_,fun j r listed open' kept => ?_,fun j k a b left right same open' open'' => ?_⟩
  · obtain ⟨old,there,id,released,dropped⟩ := entry w e at'
    by_cases here : e.owner = i
    · rw [here] at there
      cases found.symm.trans there
      exact ⟨{ run with phase := phase },by rw [here]; exact (party_set found _ i).trans (if_pos rfl),id,released,dropped⟩
    · exact ⟨old,by rw [Executor.move,party_set found,if_neg here]; exact there,id,released,dropped⟩
  · obtain ⟨old,there,id,released,dropped⟩ := seen j r listed
    obtain ⟨e,at',owner⟩ := back j old there (released.trans open') (dropped.trans kept)
    exact ⟨e,id ▸ at',owner⟩
  · obtain ⟨a',there,id,released,_⟩ := seen j a left
    obtain ⟨b',there',id',released',_⟩ := seen k b right
    exact exclusive j k a' b' there there' (by rw [id,id',same]) (released.trans open') (released'.trans open'')

theorem release_again {i : Nat} {run : Run} (released : run.runningWorkflowReleased = true) (phase : Phase) :
    s.release i run phase = s.move i run phase := by
  simp [Executor.release,Executor.move,released]

/-- Under the ID of an unreleased run there is its own entry, or none. -/
theorem own_entry (registered : Registered s) {i : Nat} {run : Run} (found : s.runs[i]? = some run)
    (open' : run.runningWorkflowReleased = false) {e : Entry} (at' : s.runningWorkflowMap.get? run.workflowID = some e) : e.owner = i := by
  obtain ⟨other,there,id,released,_⟩ := registered.entry _ e at'
  exact registered.exclusive e.owner i other run there found id released open'

theorem release_removes (registered : Registered s) {i : Nat} {run : Run} (found : s.runs[i]? = some run) (phase : Phase) {w : String}
    {e : Entry} (at' : s.runningWorkflowMap.get? w = some e) (gone : (s.release i run phase).runningWorkflowMap.get? w ≠ some e) :
    e.owner = i := by
  cases open' : run.runningWorkflowReleased with
  | true => simp [Executor.release,open',at'] at gone
  | false =>
    by_cases same : w = run.workflowID
    · exact own_entry registered found open' (same ▸ at')
    · simp [Executor.release,open',same,at'] at gone

theorem registered_release (registered : Registered s) {i : Nat} {run : Run} (found : s.runs[i]? = some run) (phase : Phase) :
    Registered (s.release i run phase) := by
  cases open' : run.runningWorkflowReleased with
  | true => rw [release_again open']; exact registered_move registered found phase
  | false =>
    obtain ⟨entry,back,exclusive⟩ := registered
    have map : (s.release i run phase).runningWorkflowMap = s.runningWorkflowMap.delete fun k _ => k = run.workflowID := by
      simp [Executor.release,open']
    have others : ∀ (j : Nat) (r : Run),(s.release i run phase).runs[j]? = some r → r.runningWorkflowReleased = false →
        j ≠ i ∧ s.runs[j]? = some r := by
      intro j r listed unreleased
      rcases party_set_cases found listed with ⟨_,rfl⟩ | other
      · cases unreleased
      · exact other
    refine ⟨fun w e at' => ?_,fun j r listed unreleased kept => ?_,fun j k a b left right same unreleased unreleased' => ?_⟩
    · rw [map,Table.get?_delete] at at'
      obtain ⟨before,differ⟩ := Option.filter_eq_some_iff.mp at'
      simp only [Bool.not_eq_true',decide_eq_false_iff_not] at differ
      obtain ⟨old,there,id,rest⟩ := entry w e before
      have other : e.owner ≠ i := by
        intro here
        rw [here] at there
        cases found.symm.trans there
        exact differ id.symm
      exact ⟨old,by rw [Executor.release,party_set found,if_neg other]; exact there,id,rest⟩
    · obtain ⟨other,there⟩ := others j r listed unreleased
      obtain ⟨e,at',owner⟩ := back j r there unreleased kept
      have differ : r.workflowID ≠ run.workflowID := fun same => other (exclusive j i r run there found same unreleased open')
      exact ⟨e,by rw [map,Table.get?_delete,at']; simp [differ],owner⟩
    · exact exclusive j k a b (others j a left unreleased).2 (others k b right unreleased').2 same unreleased unreleased'

theorem registered_delete (registered : Registered s) (allIds : List String) : Registered (s.deleteWorkflows allIds) := by
  obtain ⟨entry,back,exclusive⟩ := registered
  have seen : ∀ (j : Nat) (r : Run),(s.deleteWorkflows allIds).runs[j]? = some r → ∃ old,s.runs[j]? = some old ∧
      old.workflowID = r.workflowID ∧ old.runningWorkflowReleased = r.runningWorkflowReleased ∧
        r.dropped = (old.dropped || !old.runningWorkflowReleased && decide (old.workflowID ∈ allIds)) := by
    intro j r listed
    simp only [Executor.deleteWorkflows,List.getElem?_map] at listed
    obtain ⟨old,there,rfl⟩ := Option.map_eq_some_iff.mp listed
    exact ⟨old,there,rfl,rfl,rfl⟩
  refine ⟨fun w e at' => ?_,fun j r listed unreleased kept => ?_,fun j k a b left right same unreleased unreleased' => ?_⟩
  · simp only [Executor.deleteWorkflows,Table.get?_delete] at at'
    obtain ⟨before,differ⟩ := Option.filter_eq_some_iff.mp at'
    simp only [Bool.not_eq_true',decide_eq_false_iff_not] at differ
    obtain ⟨old,there,id,released,dropped⟩ := entry w e before
    refine ⟨{ old with dropped := old.dropped || !old.runningWorkflowReleased && decide (old.workflowID ∈ allIds) },?_,id,released,?_⟩
    · simp only [Executor.deleteWorkflows,List.getElem?_map,there,Option.map_some]
    · simp [dropped,id,differ]
  · obtain ⟨old,there,id,released,dropped⟩ := seen j r listed
    rw [kept] at dropped
    simp only [Bool.false_eq,Bool.or_eq_false_iff,released,unreleased,Bool.not_false,Bool.true_and,decide_eq_false_iff_not] at dropped
    obtain ⟨e,at',owner⟩ := back j old there (released.trans unreleased) dropped.1
    exact ⟨e,by rw [← id]; simp [Executor.deleteWorkflows,at',dropped.2],owner⟩
  · obtain ⟨a',there,id,released,_⟩ := seen j a left
    obtain ⟨b',there',id',released',_⟩ := seen k b right
    exact exclusive j k a' b' there there' (by rw [id,id',same]) (released.trans unreleased) (released'.trans unreleased')

theorem registered_start (registered : Registered s) {w : String} {q k : Option String} (turn : InTurn s (.internalWorkflow w q k)) :
    Registered (s.start w q k) ∧ ∀ w' e,s.runningWorkflowMap.get? w' = some e → (s.start w q k).runningWorkflowMap.get? w' = some e := by
  unfold Executor.start
  split
  · exact ⟨registered,fun _ _ at' => at'⟩
  · rename_i vacant
    have free : s.runningWorkflowMap.get? w = none := by simpa using vacant
    obtain ⟨entry,back,exclusive⟩ := registered
    -- An unreleased run of the ID is either dropped, or its entry is in the map.
    have over' : ∀ (j : Nat) (r : Run),s.runs[j]? = some r → r.workflowID = w → r.runningWorkflowReleased = true := by
      intro j r there id
      by_contra unreleased
      rw [Bool.not_eq_true] at unreleased
      cases dropped : r.dropped with
      | true =>
        rw [turn free r (List.mem_of_getElem? there) id dropped] at unreleased
        cases unreleased
      | false =>
        obtain ⟨e,at',_⟩ := back j r there unreleased dropped
        rw [id,free] at at'
        cases at'
    refine ⟨⟨fun w' e at' => ?_,fun j r listed unreleased kept => ?_,fun j k a b left right same unreleased unreleased' => ?_⟩,?_⟩
    · rcases s.runningWorkflowMap.insert_cases w ⟨s.runs.length,q,k⟩ w' with old | ⟨rfl,_,new⟩
      · obtain ⟨r,there,rest⟩ := entry w' e (old ▸ at')
        refine ⟨r,?_,rest⟩
        rw [List.getElem?_append_left (List.getElem?_eq_some_iff.mp there).1]
        exact there
      · cases new.symm.trans at'
        exact ⟨{ workflowID := w' },by simp,rfl,rfl,rfl⟩
    · rcases party_append listed with old | ⟨rfl,rfl⟩
      · obtain ⟨e,at',owner⟩ := back j r old unreleased kept
        refine ⟨e,?_,owner⟩
        rw [Table.get?_insert,if_neg]
        · exact at'
        · intro same
          rw [over' j r old same] at unreleased
          cases unreleased
      · refine ⟨⟨s.runs.length,q,k⟩,?_,rfl⟩
        show (s.runningWorkflowMap.insert w _).get? w = _
        rw [Table.get?_insert,if_pos rfl,free]
        rfl
    · rcases party_append left with old | ⟨rfl,rfl⟩ <;> rcases party_append right with old' | ⟨rfl,rfl⟩
      · exact exclusive j k a b old old' same unreleased unreleased'
      · rw [over' j a old same] at unreleased; cases unreleased
      · rw [over' k b old' same.symm] at unreleased'; cases unreleased'
      · rfl
    · intro w' e at'
      rw [Table.get?_insert,if_neg]
      · exact at'
      · rintro rfl
        rw [free] at at'
        cases at'

/-- One event in turn. -/
theorem step_registered {s' : Executor} {event : Event} (registered : Registered s) (turn : InTurn s event)
    (taken : step s event = some s') : Registered s' ∧ OwnRemoval s event s' := by
  rcases step_cases taken with ⟨w,q,k,rfl,rfl⟩ | ⟨allIds,rfl,rfl⟩ | ⟨i,run,actor,found,⟨phase,rfl⟩ | ⟨phase,rfl⟩⟩
  · obtain ⟨registered',kept⟩ := registered_start registered turn
    exact ⟨registered',fun w e at' gone => absurd (kept w e at') gone⟩
  · refine ⟨registered_delete registered allIds,fun w e at' gone => .inl ⟨allIds,rfl,?_⟩⟩
    by_contra other
    simp [Executor.deleteWorkflows,at',other] at gone
  · exact ⟨registered_move registered found phase,fun w e at' gone => absurd at' gone⟩
  · refine ⟨registered_release registered found phase,fun w e at' gone => .inr ?_⟩
    rw [actor,release_removes registered found phase at' gone]

/-- A run that starts beside a dropped one is a second run of the ID. -/
theorem inTurn_of_exclusive {event : Event} (after : ∀ s',step s event = some s' → Exclusive s') : InTurn s event := by
  cases event with
  | internalWorkflow w q k =>
    intro free run member id dropped
    obtain ⟨j,bound,there⟩ := List.getElem_of_mem member
    by_contra unreleased
    rw [Bool.not_eq_true] at unreleased
    have started : step s (.internalWorkflow w q k) = some ⟨s.runningWorkflowMap.insert w ⟨s.runs.length,q,k⟩,s.runs ++ [{ workflowID := w }]⟩ := by
      simp [step,Executor.start,free]
    have old : (s.runs ++ [{ workflowID := w }])[j]? = some run := by
      rw [List.getElem?_append_left bound,List.getElem?_eq_getElem bound,there]
    have clash := after _ started j s.runs.length run { workflowID := w } old (by simp) id unreleased rfl
    omega
  | _ => trivial

/-- Exactly in the executions in which no run starts beside an unreleased one that `deleteWorkflows`
    has dropped, every entry is removed by its own run, and the runs of an ID exclude each other. -/
theorem owned_iff (events : List Event) : Owned events ↔ Along step InTurn {} events := by
  constructor
  · intro owned
    refine along_iff.mpr fun first event rest s split run => inTurn_of_exclusive fun s' taken => ?_
    exact (owned first event rest s s' split run taken).2
  · intro along first event rest s s' split run taken
    rw [split] at along
    obtain ⟨early,later⟩ := along_append along
    have registered : Registered s :=
      along_invariant (fun t a t' held turn taken => (step_registered held turn taken).1) registered_init early run
    obtain ⟨registered',own⟩ := step_registered registered (later s run).1 taken
    exact ⟨own,registered'.exclusive⟩

/-- A workflow is deleted while it runs, and created again; then the first run gets to its release. -/
def deletedAndCreated : List Event :=
  [.internalWorkflow "w" none none,.deleteWorkflows ["w"],.internalWorkflow "w" none none,.returns 0]

theorem deletedAndCreated_not_owned :
    (∃ s s',Runs step {} deletedAndCreated s ∧ step s (.serialized 0) = some s' ∧
      s.runningWorkflowMap.get? "w" = some ⟨1,none,none⟩ ∧ s'.runningWorkflowMap.get? "w" = none) ∧
    ¬ ∀ events,Owned events := by
  have removed : (deletedAndCreated.foldlM step {}).bind (fun s => (step s (.serialized 0)).map fun s' =>
      (s.runningWorkflowMap.get? "w",s'.runningWorkflowMap.get? "w")) = some (some ⟨1,none,none⟩,none) := by decide +kernel
  obtain ⟨s,run,taken⟩ := Option.bind_eq_some_iff.mp removed
  obtain ⟨s',taken,ends⟩ := Option.map_eq_some_iff.mp taken
  obtain ⟨before,after⟩ := Prod.mk.inj ends
  refine ⟨⟨s,s',run,taken,before,after⟩,fun claim => ?_⟩
  obtain ⟨own,_⟩ := claim (deletedAndCreated ++ [.serialized 0]) deletedAndCreated (.serialized 0) [] s s' rfl run taken
  rcases own "w" _ before (by rw [after]; simp) with ⟨_,other,_⟩ | actor
  · cases other
  · cases actor

end Dbos.RunningMap
