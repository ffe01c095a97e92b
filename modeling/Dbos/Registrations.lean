import Dbos.Notifications

/-!
Who is registered: a callback is in a `NotificationMap` for as long as the call that has registered it is in the `try` of its loop. So a
map is empty when nobody waits, which `awaitRunningWorkflows` takes for a clean shutdown, and calling the callbacks of a key resolves the
promises of exactly the calls that wait under that key.
-/
namespace Dbos.Registrations
open Dbos.Pg Dbos.Schema Dbos.Callbacks Dbos.Notifications

/-! ### What an event does to a waiting call -/

theorem getElem?_resolveAll (called : List Nat) (waiters : List Waiter) (i : Nat) :
    (resolveAll called waiters)[i]? =
      waiters[i]?.map fun w => if i ∈ called then { w with resolved := true } else w := by
  simp [resolveAll]

/-- How the callback of a call changes: `ck` is the number of a new one. -/
inductive Registers (ck : Nat) : Option Nat → Option Nat → Prop
  | enters : Registers ck none (some ck)
  | leaves (old : Nat) : Registers ck (some old) none
  | stays (callback : Option Nat) : Registers ck callback callback

theorem answered_spec (w : Waiter) (ck : Nat) (now : Int) (answer : Answer) :
    (w.answered ck now answer).process = w.process ∧ (w.answered ck now answer).target = w.target ∧
      ((w.answered ck now answer).phase.callback = none ∨ (w.answered ck now answer).phase.callback = some ck) := by
  unfold Waiter.answered
  split
  · rename_i last
    split
    · cases last
      · exact ⟨rfl,rfl,.inr rfl⟩
      · exact ⟨rfl,rfl,.inl rfl⟩
    · exact ⟨rfl,rfl,.inl rfl⟩
  · split
    · split
      · exact ⟨rfl,rfl,.inl rfl⟩
      · split
        · exact ⟨rfl,rfl,.inl rfl⟩
        · exact ⟨rfl,rfl,.inr rfl⟩
    · split
      · exact ⟨rfl,rfl,.inl rfl⟩
      · exact ⟨rfl,rfl,.inr rfl⟩
  · exact ⟨rfl,rfl,.inl rfl⟩

theorem next_notice (target : Target) : target.next.notice = target.notice := by cases target <;> rfl

theorem act_spec {db : Communication.Database} {ck : Nat} {w w' : Waiter} {e : WaiterEvent} (acts : w.act db ck e = some w') :
    w'.process = w.process ∧ w'.target.notice = w.target.notice ∧ Registers ck w.phase.callback w'.phase.callback := by
  cases e with
  | register =>
    simp only [Waiter.act] at acts
    split at acts <;> cases acts
    rename_i phase
    refine ⟨rfl,rfl,?_⟩
    rw [phase]
    by_cases checked : w.target.checked.isSome
    · simp only [checked,if_true]
      exact .enters
    · simp only [checked,Bool.false_eq_true,if_false]
      exact .enters
  | check =>
    simp only [Waiter.act] at acts
    split at acts <;> cases acts
    rename_i here workflowID phase checked
    refine ⟨rfl,rfl,?_⟩
    rw [phase]
    cases (Communication.checkIfCanceled db workflowID).isSome
    · exact .stays _
    · exact .leaves here
  | look =>
    simp only [Waiter.act] at acts
    split at acts <;> cases acts
    rename_i here phase
    refine ⟨rfl,rfl,?_⟩
    rw [phase]
    exact .stays _
  | answer now =>
    simp only [Waiter.act] at acts
    split at acts <;> cases acts
    rename_i here answer phase
    obtain ⟨process,target,callback⟩ := answered_spec w here now answer
    refine ⟨process,by rw [target],?_⟩
    rw [phase]
    rcases callback with left_ | stays
    · rw [left_]
      exact .leaves here
    · rw [stays]
      exact .stays _
  | wake =>
    simp only [Waiter.act] at acts
    split at acts
    · rename_i here phase
      split at acts <;> cases acts
      refine ⟨rfl,rfl,?_⟩
      rw [phase]
      exact .leaves here
    · cases acts
  | timeout =>
    simp only [Waiter.act] at acts
    split at acts <;> cases acts
    rename_i here phase
    refine ⟨rfl,rfl,?_⟩
    rw [phase]
    exact .leaves here
  | consume =>
    simp only [Waiter.act] at acts
    split at acts <;> cases acts
    rename_i here phase
    refine ⟨rfl,next_notice w.target,?_⟩
    rw [phase]
    exact .leaves here
  | close =>
    simp only [Waiter.act] at acts
    split at acts <;> cases acts
    rename_i here phase
    refine ⟨rfl,rfl,?_⟩
    rw [phase]
    exact .leaves here
  | fail again =>
    have leaves : ∀ here, Registers ck (some here) (if again ∧ w.target.retried then Phase.looping else .threw).callback := by
      intro here
      by_cases retries : again ∧ w.target.retried
      · rw [if_pos retries]
        exact .leaves here
      · rw [if_neg retries]
        exact .leaves here
    simp only [Waiter.act] at acts
    split at acts <;> cases acts
    · rename_i here phase
      refine ⟨rfl,rfl,?_⟩
      rw [phase]
      exact leaves here
    · rename_i here phase
      refine ⟨rfl,rfl,?_⟩
      rw [phase]
      exact leaves here
  | quit =>
    simp only [Waiter.act] at acts
    split at acts <;> cases acts
    rename_i phase
    refine ⟨rfl,rfl,?_⟩
    rw [phase]
    exact .stays _

/-! ### The callbacks of a process -/

/-- The call `w` has a callback under the key and the number at the process. -/
def HasCallback (w : Waiter) (q : Nat) (channel : Channel) (key : String) (ck : Nat) : Prop :=
  w.process = q ∧ w.target.notice = (channel,key) ∧ w.phase.callback = some ck

/-- Every call belongs to a process, and the maps hold the callbacks of the calls in their `try`. -/
structure Registered (s : System) : Prop where
  within : ∀ (i : Nat) w, s.waiters[i]? = some w → w.process < s.processes.length
  maps : ∀ (q : Nat) proc, s.processes[q]? = some proc → ∀ channel key ck i,
    (proc.maps channel).callback? key ck = some i ↔ ∃ w, s.waiters[i]? = some w ∧ HasCallback w q channel key ck

/-- The maps and the places of the calls are the same. -/
structure SamePlaces (s s' : System) : Prop where
  processes : s'.processes.map Process.maps = s.processes.map Process.maps
  waiters : s'.waiters.map (fun w => (w.process,w.target.notice,w.phase)) =
    s.waiters.map fun w => (w.process,w.target.notice,w.phase)

theorem map_eq_some {α β : Type} {f : α → β} {l l' : List α} (same : l'.map f = l.map f) {i : Nat} {a : α} (found : l'[i]? = some a) :
    ∃ b, l[i]? = some b ∧ f b = f a := by
  have here := congrArg (fun list => list[i]?) same
  simp only [List.getElem?_map,found,Option.map_some] at here
  obtain ⟨b,there,equal⟩ := Option.map_eq_some_iff.mp here.symm
  exact ⟨b,there,equal⟩

theorem Registered.same {s s' : System} (registered : Registered s) (same : SamePlaces s s') : Registered s' where
  within := by
    intro i w listed
    obtain ⟨w₀,before,equal⟩ := map_eq_some same.waiters listed
    have length : s'.processes.length = s.processes.length := by
      have := congrArg List.length same.processes
      simpa using this
    simp only [Prod.mk.injEq] at equal
    rw [length,← equal.1]
    exact registered.within i w₀ before
  maps := by
    intro q proc found channel key ck i
    obtain ⟨proc₀,before,equal⟩ := map_eq_some same.processes found
    rw [← equal,registered.maps q proc₀ before channel key ck i]
    constructor
    · rintro ⟨w,listed,at_⟩
      obtain ⟨w',there,place⟩ := map_eq_some same.waiters.symm listed
      simp only [Prod.mk.injEq] at place
      obtain ⟨process,notice,phase⟩ := place
      exact ⟨w',there,process.trans at_.1,notice.trans at_.2.1,phase ▸ at_.2.2⟩
    · rintro ⟨w,listed,at_⟩
      obtain ⟨w',there,place⟩ := map_eq_some same.waiters listed
      simp only [Prod.mk.injEq] at place
      obtain ⟨process,notice,phase⟩ := place
      exact ⟨w',there,process.trans at_.1,notice.trans at_.2.1,phase ▸ at_.2.2⟩

theorem resolveAll_places (called : List Nat) (waiters : List Waiter) :
    (resolveAll called waiters).map (fun w => (w.process,w.target.notice,w.phase)) =
      waiters.map fun w => (w.process,w.target.notice,w.phase) := by
  apply List.ext_getElem?
  intro i
  rw [List.getElem?_map,List.getElem?_map,getElem?_resolveAll,Option.map_map]
  congr 1
  funext w
  by_cases member : i ∈ called
  · simp [member]
  · simp [member]

theorem post_maps (notices : List Notice) (processes : List Process) :
    (processes.map (post notices)).map Process.maps = processes.map Process.maps := by
  simp [post,Function.comp_def]

theorem set_maps {processes : List Process} {q : Nat} {proc proc' : Process} (found : processes[q]? = some proc)
    (same : proc'.maps = proc.maps) : (processes.set q proc').map Process.maps = processes.map Process.maps := by
  apply List.ext_getElem?
  intro j
  rw [List.getElem?_map,List.getElem?_map,party_set found]
  by_cases here : j = q
  · subst here
    rw [if_pos rfl,found,Option.map_some,Option.map_some,same]
  · rw [if_neg here]

theorem signalNotification_maps (proc : Process) (notice : Notice) : (proc.signalNotification notice).maps = proc.maps := by
  unfold Process.signalNotification
  split <;> rfl

theorem finalFlush_maps (proc : Process) : proc.finalFlush.maps = proc.maps := by
  unfold Process.finalFlush
  split <;> rfl

theorem flushed_maps (proc : Process) : proc.flushed.maps = proc.maps := by
  unfold Process.flushed
  split
  · rfl
  · exact finalFlush_maps proc

theorem process_act_maps {proc proc' : Process} {e : ProcessEvent} {sent : List Notice} (acts : proc.act e = some (proc',sent)) :
    proc'.maps = proc.maps := by
  cases e with
  | wakeNotifier =>
    simp only [Process.act] at acts
    split at acts <;> cases acts
    unfold Process.wakeNotifier
    split
    · exact finalFlush_maps proc
    · split <;> rfl
  | notify succeeds =>
    simp only [Process.act] at acts
    split at acts
    · rename_i batch rest notifier
      cases acts
      by_cases last : rest = []
      · rw [if_pos last]
        exact flushed_maps proc
      · rw [if_neg last]
    · cases acts
      rfl
    · cases acts
  | destroy =>
    cases acts
    rfl
  | listen =>
    simp only [Process.act] at acts
    split at acts <;> cases acts <;> rfl
  | installHandler =>
    simp only [Process.act] at acts
    split at acts <;> cases acts
    rfl
  | lose =>
    cases acts
    rfl

theorem settle_enters (proc : Process) (i : Nat) {w w' : Waiter} (before : w.phase.callback = none) {here : Nat}
    (after : w'.phase.callback = some here) (channel : Channel) (key : String) (ck : Nat) :
    ((proc.settle i w w').maps channel).callback? key ck =
      if (channel,key) = w.target.notice ∧ ck = (proc.maps w.target.channel).curCK then some i
      else (proc.maps channel).callback? key ck := by
  unfold Process.settle
  simp only [before,after]
  by_cases same : channel = w.target.channel
  · subst same
    simp [NotificationMap.callback?_register,Target.notice]
  · rw [if_neg fun both => same (congrArg Prod.fst both.1),Function.update_of_ne same]

theorem settle_leaves (proc : Process) (i : Nat) {w w' : Waiter} {old : Nat} (before : w.phase.callback = some old)
    (after : w'.phase.callback = none) (channel : Channel) (key : String) (ck : Nat) :
    ((proc.settle i w w').maps channel).callback? key ck =
      if (channel,key) = w.target.notice ∧ ck = old then none else (proc.maps channel).callback? key ck := by
  unfold Process.settle
  simp only [before,after]
  by_cases same : channel = w.target.channel
  · subst same
    simp [NotificationMap.callback?_deregister,Target.notice]
  · rw [if_neg fun both => same (congrArg Prod.fst both.1),Function.update_of_ne same]

theorem settle_stays (proc : Process) (i : Nat) {w w' : Waiter} (same : w'.phase.callback = w.phase.callback) :
    proc.settle i w w' = proc := by
  unfold Process.settle
  rw [same]
  cases w.phase.callback <;> rfl

/-- Nobody else's callback changes. -/
theorem Registered.waiter {s : System} (registered : Registered s) {i : Nat} {w w' : Waiter} {proc : Process}
    (listed : s.waiters[i]? = some w) (found : s.processes[w.process]? = some proc) (process : w'.process = w.process)
    (notice : w'.target.notice = w.target.notice)
    (registers : Registers (proc.maps w.target.channel).curCK w.phase.callback w'.phase.callback) :
    Registered { s with waiters := s.waiters.set i w',processes := s.processes.set w.process (proc.settle i w w') } where
  within := by
    intro j party there
    rw [List.length_set]
    rcases party_set_cases listed there with ⟨_,rfl⟩ | ⟨_,there⟩
    · rw [process]
      exact registered.within i w listed
    · exact registered.within j party there
  maps := by
    intro q proc' found' channel key ck j
    rw [party_set found] at found'
    rw [party_set listed]
    by_cases home : q = w.process
    · subst home
      rw [if_pos rfl] at found'
      cases found'
      have self : (∃ party, some w' = some party ∧ HasCallback party w.process channel key ck) ↔
          (channel,key) = w.target.notice ∧ w'.phase.callback = some ck := by
        simp [HasCallback,process,notice,eq_comm]
      have old : (proc.maps channel).callback? key ck = some i ↔
          (channel,key) = w.target.notice ∧ w.phase.callback = some ck := by
        rw [registered.maps w.process proc found,listed]
        simp [HasCallback,eq_comm]
      have others := registered.maps w.process proc found channel key ck j
      generalize before : w.phase.callback = callback at registers old
      generalize after : w'.phase.callback = callback' at registers self
      by_cases same : j = i
      · subst same
        rw [if_pos rfl,self]
        cases registers with
        | enters =>
          rw [settle_enters proc j before after]
          by_cases here : (channel,key) = w.target.notice ∧ ck = (proc.maps w.target.channel).curCK
          · simp [here.1,here.2]
          · rw [if_neg here,old]
            simp only [reduceCtorEq,and_false,Option.some.injEq,false_iff]
            exact fun both => here ⟨both.1,both.2.symm⟩
        | leaves ck' =>
          rw [settle_leaves proc j before after]
          by_cases here : (channel,key) = w.target.notice ∧ ck = ck'
          · simp [here.1,here.2]
          · rw [if_neg here,old]
            simp only [reduceCtorEq,and_false,Option.some.injEq,iff_false]
            exact fun both => here ⟨both.1,both.2.symm⟩
        | stays => rw [settle_stays proc j (after.trans before.symm),old]
      · rw [if_neg same,← others]
        cases registers with
        | enters =>
          rw [settle_enters proc i before after]
          by_cases here : (channel,key) = w.target.notice ∧ ck = (proc.maps w.target.channel).curCK
          · have place : channel = w.target.channel := congrArg Prod.fst here.1
            have fresh : (proc.maps channel).callback? key ck = none := by
              rw [here.2,place]
              exact NotificationMap.callback?_cur _ key
            rw [if_pos here,fresh]
            simp [Ne.symm same]
          · rw [if_neg here]
        | leaves ck' =>
          rw [settle_leaves proc i before after]
          by_cases here : (channel,key) = w.target.notice ∧ ck = ck'
          · rw [if_pos here,old.mpr ⟨here.1,by rw [here.2]⟩]
            simp [Ne.symm same]
          · rw [if_neg here]
        | stays => rw [settle_stays proc i (after.trans before.symm)]
    · rw [if_neg home] at found'
      rw [registered.maps q proc' found' channel key ck j]
      by_cases same : j = i
      · subst same
        rw [if_pos rfl,listed]
        constructor
        · rintro ⟨party,there,at_⟩
          cases there
          exact absurd at_.1.symm home
        · rintro ⟨party,there,at_⟩
          cases there
          exact absurd (at_.1.symm.trans process) home
      · rw [if_neg same]

theorem resolved_places (s : System) (called : List Nat) (handler : Bool) :
    (if handler then resolveAll called s.waiters else s.waiters).map (fun w => (w.process,w.target.notice,w.phase)) =
      s.waiters.map fun w => (w.process,w.target.notice,w.phase) := by
  cases handler
  · rfl
  · exact resolveAll_places called s.waiters

theorem Registered.step {s s' : System} {e : Event} (registered : Registered s) (taken : step s e = some s') : Registered s' := by
  cases step_moves taken with
  | launch shouldUseDBNotifications =>
    refine ⟨?_,?_⟩
    · intro i w listed
      rw [List.length_append]
      have := registered.within i w listed
      omega
    · intro q proc found channel key ck i
      rcases party_append found with old | ⟨rfl,rfl⟩
      · exact registered.maps q proc old channel key ck i
      · have nobody : (({ shouldUseDBNotifications := shouldUseDBNotifications } : Process).maps channel).callback? key ck = none := rfl
        rw [nobody]
        simp only [reduceCtorEq,false_iff]
        rintro ⟨w,listed,has⟩
        exact absurd (registered.within i w listed) (by rw [has.1]; exact Nat.lt_irrefl _)
  | call q call writers known begins => exact registered.same ⟨rfl,rfl⟩
  | writers e writers other happens => exact registered.same ⟨post_maps _ _,rfl⟩
  | refused => exact registered
  | sendDirect destinationID message topic serialization idempotencyKey input statements inserts =>
    exact registered.same ⟨post_maps _ _,rfl⟩
  | acked k q notice proc listed found => exact registered.same ⟨set_maps found (signalNotification_maps proc notice),rfl⟩
  | process q e proc proc' sent found uses acts =>
    exact registered.same ⟨(post_maps _ _).trans (set_maps found (process_act_maps acts)),rfl⟩
  | foreign notices => exact registered.same ⟨post_maps _ _,rfl⟩
  | deliver q proc notice inbox found first => exact registered.same ⟨set_maps found rfl,resolved_places _ _ _⟩
  | wait q target finishTime known =>
    refine ⟨?_,?_⟩
    · intro i w listed
      rcases party_append listed with old | ⟨_,rfl⟩
      · exact registered.within i w old
      · exact known
    · intro q' proc found channel key ck i
      rw [registered.maps q' proc found channel key ck i]
      constructor
      · rintro ⟨w,listed,has⟩
        exact ⟨w,List.getElem?_append_left (List.getElem?_eq_some_iff.mp listed).1 ▸ listed,has⟩
      · rintro ⟨w,listed,has⟩
        rcases party_append listed with old | ⟨_,rfl⟩
        · exact ⟨w,old,has⟩
        · cases has.2.2
  | waiter i e w w' proc listed found acts =>
    obtain ⟨process,notice,registers⟩ := act_spec acts
    exact registered.waiter listed found process notice registers

theorem registered_start (t : Statuses) (trigger : Bool) : Registered (start t trigger) where
  within := by
    intro i w listed
    cases listed
  maps := by
    intro q proc found
    cases found

theorem registered_runs {t : Statuses} {trigger : Bool} {events : List Event} {s : System}
    (run : Runs step (start t trigger) events s) : Registered s :=
  runs_invariant (fun _ _ _ => Registered.step) (registered_start t trigger) run

/-! ### What the maps hold -/

/-- The call is in the `try` of its loop. -/
def InTry (w : Waiter) : Prop := w.phase.callback ≠ none

instance (w : Waiter) : Decidable (InTry w) := inferInstanceAs (Decidable (_ ≠ _))

theorem mem_called {s : System} (registered : Registered s) {q : Nat} {proc : Process} (found : s.processes[q]? = some proc)
    (channel : Channel) (key : String) (i : Nat) :
    i ∈ (proc.maps channel).callCallbacks key ↔
      ∃ w, s.waiters[i]? = some w ∧ w.process = q ∧ w.target.notice = (channel,key) ∧ InTry w := by
  rw [NotificationMap.mem_callCallbacks]
  constructor
  · rintro ⟨ck,callback⟩
    obtain ⟨w,listed,process,notice,here⟩ := (registered.maps q proc found channel key ck i).mp callback
    exact ⟨w,listed,process,notice,by rw [InTry,here]; simp⟩
  · rintro ⟨w,listed,process,notice,inTry⟩
    obtain ⟨ck,here⟩ := Option.ne_none_iff_exists'.mp inTry
    exact ⟨ck,(registered.maps q proc found channel key ck i).mpr ⟨w,listed,process,notice,here⟩⟩

theorem called_nodup {s : System} (registered : Registered s) {q : Nat} {proc : Process} (found : s.processes[q]? = some proc)
    (channel : Channel) (key : String) : ((proc.maps channel).callCallbacks key).Nodup := by
  unfold NotificationMap.callCallbacks
  cases there : (proc.maps channel).map.get? key with
  | none => exact List.nodup_nil
  | some sm =>
    refine List.Nodup.map_on ?_ (List.Nodup.of_map Prod.fst sm.distinct)
    rintro ⟨ck,i⟩ first ⟨ck',i'⟩ second same
    dsimp only at same
    subst same
    have registers : ∀ ck, (ck,i) ∈ sm.entries → (proc.maps channel).callback? key ck = some i := by
      intro ck member
      rw [NotificationMap.callback?,there]
      exact (Table.get?_eq_some _ _ _).mpr member
    obtain ⟨w,listed,_,_,here⟩ := (registered.maps q proc found channel key ck i).mp (registers ck first)
    obtain ⟨w',listed',_,_,here'⟩ := (registered.maps q proc found channel key ck' i).mp (registers ck' second)
    cases listed.symm.trans listed'
    cases here.symm.trans here'
    rfl

/-- In every reachable state the map of a channel is empty exactly when no call of the process is in the `try` of a loop on that channel,
    and `callCallbacks` resolves each call that is in its `try` under the key, once, and no other. -/
theorem callbacks_of_waiters {t : Statuses} {trigger : Bool} {events : List Event} {s : System}
    (run : Runs step (start t trigger) events s) {q : Nat} {proc : Process} (found : s.processes[q]? = some proc) (channel : Channel) :
    ((proc.maps channel).map.entries = [] ↔
      ∀ (i : Nat) w, s.waiters[i]? = some w → w.process = q → w.target.channel = channel → ¬ InTry w) ∧
    ∀ key, ((proc.maps channel).callCallbacks key).Nodup ∧ ∀ i, i ∈ (proc.maps channel).callCallbacks key ↔
      ∃ w, s.waiters[i]? = some w ∧ w.process = q ∧ w.target.notice = (channel,key) ∧ InTry w := by
  have registered := registered_runs run
  refine ⟨?_,fun key => ⟨called_nodup registered found channel key,fun i => mem_called registered found channel key i⟩⟩
  rw [NotificationMap.empty_iff]
  constructor
  · intro nobody i w listed process here inTry
    obtain ⟨ck,callback⟩ := Option.ne_none_iff_exists'.mp inTry
    have has := (registered.maps q proc found channel w.target.payload ck i).mpr
      ⟨w,listed,process,by rw [← here]; rfl,callback⟩
    rw [nobody] at has
    cases has
  · intro nobody key ck
    cases callback : (proc.maps channel).callback? key ck with
    | none => rfl
    | some i =>
      obtain ⟨w,listed,process,notice,here⟩ := (registered.maps q proc found channel key ck i).mp callback
      exact absurd (by rw [InTry,here]; simp) (nobody i w listed process (congrArg Prod.fst notice))

/-- Two calls of one process wait for an event of `w`, and a third one for a message. -/
def threeWait : List Event :=
  [.launch true,.wait 0 (.getEvent "w" "k" none) none,.wait 0 (.getEvent "w" "k" none) none,.wait 0 (.recv "w" "t") none,
    .waiter 0 .register,.waiter 1 .register,.waiter 2 .register,.waiter 0 .look,.waiter 0 (.answer 0)]

theorem callbacks_of_waiters_three : ∃ s proc, Runs step (start Writers.running true) threeWait s ∧ s.processes[0]? = some proc ∧
    (proc.maps .dbos_streams_channel).map.entries = [] ∧ (proc.maps .dbos_workflow_events_channel).map.entries ≠ [] ∧
    1 ∈ (proc.maps .dbos_workflow_events_channel).callCallbacks "w::k" := by
  obtain ⟨s,proc,run,found,second,nobody⟩ : ∃ s proc, Runs step (start Writers.running true) threeWait s ∧
      s.processes[0]? = some proc ∧
      s.waiters[1]? = some { process := 0,target := .getEvent "w" "k" none,phase := .checked 1 } ∧
      s.waiters.all (fun w => w.target.channel ≠ .dbos_streams_channel) = true := ⟨_,_,rfl,rfl,rfl,rfl⟩
  refine ⟨s,proc,run,found,?_,?_,?_⟩
  · refine (callbacks_of_waiters run found .dbos_streams_channel).1.mpr ?_
    intro i w listed _ channel
    have other := List.all_eq_true.mp nobody w (List.mem_of_getElem? listed)
    simp [channel] at other
  · intro empty
    exact (callbacks_of_waiters run found .dbos_workflow_events_channel).1.mp empty 1 _ second rfl rfl (by decide)
  · exact (((callbacks_of_waiters run found .dbos_workflow_events_channel).2 "w::k").2 1).mpr ⟨_,second,rfl,rfl,by decide⟩

end Dbos.Registrations
