import Mathlib.Data.List.Nodup
import Dbos.Scheduler

/-!
The firings that the loops come to. `nextWakeupTime` searches a bounded window; whoever calls it goes on from the instant it
returns, and keeps that instant when it matches. Windows of this kind, one after the other, cover all whole seconds
after the start exactly once.
-/
namespace Dbos.Occurrences
open Dbos.Crontab Dbos.Scheduler

variable (m : TimeMatcher)

/-! ### The loops -/

/-- What a turn of a loop fires, and its `lastExec` afterwards. -/
abbrev Turn := Int → Option Int × Int

/-- The firings of so many turns. -/
def firings (turn : Turn) : Nat → Int → List Int
  | 0,_ => []
  | turns + 1,lastExec => (turn lastExec).1.toList ++ firings turn turns (turn lastExec).2

/-- Where the loop stands after so many turns. -/
def reached (turn : Turn) : Nat → Int → Int
  | 0,lastExec => lastExec
  | turns + 1,lastExec => reached turn turns (turn lastExec).2

/-- The `while` of `#scheduleLoop`: whether there is a workflow already and whether the enqueue throws makes no difference
    to `lastExec`. -/
def scheduleTurn : Turn := fun lastExec =>
  let nextExec := m.nextWakeupTime lastExec
  if m.match_ nextExec = false then (none,nextExec) else (some nextExec,nextExec)

/-- `#setLastExecTime`, from the time that the database answers; there is none when the write throws. -/
def setLastExecTime (dbTime : Option Int) (time : Int) : Int :=
  match dbTime with
  | some dbTime => if dbTime ≠ 0 ∧ time < dbTime then dbTime else time
  | none => time

/-- The `while` of `#schedulerLoop`. -/
def schedulerTurn (dbTime : Int → Option Int) : Turn := fun lastExec =>
  let nextExec := m.nextWakeupTime lastExec
  if m.match_ nextExec = false then (none,nextExec) else (some nextExec,setLastExecTime (dbTime nextExec) nextExec)

/-! ### Windows -/

/-- The first so many instants at a distance of whole seconds. -/
def seconds (start : Int) (count : Nat) : List Int := (List.range count).map fun k : Nat => start + 1000 * (k + 1)

theorem seconds_add (start : Int) (a b : Nat) : seconds start (a + b) = seconds start a ++ seconds (start + 1000 * a) b := by
  unfold seconds
  rw [List.range_add,List.map_append,List.map_map]
  refine congrArg _ (List.map_congr_left fun k _ => ?_)
  simp only [Function.comp_apply]
  omega

theorem mem_seconds {start t : Int} {count : Nat} :
    t ∈ seconds start count ↔ start < t ∧ t ≤ start + 1000 * count ∧ t % 1000 = start % 1000 := by
  simp only [seconds,List.mem_map,List.mem_range]
  constructor
  · rintro ⟨k,less,rfl⟩
    omega
  · rintro ⟨after,before,phase⟩
    exact ⟨((t - start) / 1000 - 1).toNat,by omega,by omega⟩

theorem seconds_increasing (start : Int) (count : Nat) : (seconds start count).Pairwise (· < ·) := by
  unfold seconds
  rw [List.pairwise_map]
  exact List.pairwise_lt_range.imp fun less => by omega

variable {m}

theorem wakeup_le (iters : Nat) (time : Int) : m.wakeup iters time ≤ time + 1000 * iters := by
  induction iters generalizing time with
  | zero => simp [TimeMatcher.wakeup]
  | succ iters ih =>
    unfold TimeMatcher.wakeup
    split
    · omega
    · have rest := ih (time + 1000)
      omega

/-- A call gets ahead, and not by more than its window. -/
theorem nextWakeupTime_window (time : Int) : time < m.nextWakeupTime time ∧ m.nextWakeupTime time ≤ time + 3599 * 1000 := by
  have later := (nextWakeupTime_wakes (m := m) time).later
  have bound := wakeup_le (m := m) 3599 time
  unfold TimeMatcher.nextWakeupTime at later ⊢
  omega

/-- Of the seconds of a window only the last one can match. -/
theorem window_filter {time next : Int} (wakes : Wakes m time next) :
    ∃ count : Nat,1 ≤ count ∧ next = time + 1000 * count ∧
      (seconds time count).filter m.match_ = if m.match_ next = false then [] else [next] := by
  obtain ⟨phase,later,skipped⟩ := wakes
  obtain ⟨count,rfl⟩ : ∃ count : Nat,next = time + 1000 * (count + 1) := ⟨((next - time) / 1000 - 1).toNat,by omega⟩
  refine ⟨count + 1,by omega,by omega,?_⟩
  have before : (seconds time count).filter m.match_ = [] := by
    refine List.filter_eq_nil_iff.mpr fun t listed => ?_
    obtain ⟨after,inside,same⟩ := mem_seconds.mp listed
    rw [skipped t after (by omega) same]
    exact Bool.false_ne_true
  have last : seconds (time + 1000 * count) 1 = [time + 1000 * (count + 1)] := by
    simp only [seconds,List.range_one,List.map_cons,List.map_nil]
    exact congrArg (fun t => [t]) (by omega)
  rw [seconds_add,List.filter_append,before,last]
  cases fires : m.match_ (time + 1000 * (count + 1)) <;> simp [fires]

/-! ### Enumerations -/

/-- After any number of turns the loop has come a whole number of seconds ahead, at least one for each turn, and has fired
    the seconds on its way that match. -/
def Enumerates (m : TimeMatcher) (turn : Turn) : Prop :=
  ∀ (turns : Nat) (start : Int),∃ count : Nat,turns ≤ count ∧ reached turn turns start = start + 1000 * count ∧
    firings turn turns start = (seconds start count).filter m.match_

/-- A turn that goes on from the instant it has come to covers one window. -/
theorem enumerates_of_turn {turn : Turn} (turns_ : ∀ lastExec,turn lastExec = scheduleTurn m lastExec) : Enumerates m turn := by
  intro turns
  induction turns with
  | zero => exact fun start => ⟨0,Nat.le_refl 0,by simp [reached],by simp [firings,seconds]⟩
  | succ turns ih =>
    intro start
    obtain ⟨first,ahead,next,window⟩ := window_filter (nextWakeupTime_wakes (m := m) start)
    obtain ⟨rest,further,there,fired⟩ := ih (m.nextWakeupTime start)
    have moved : (turn start).2 = m.nextWakeupTime start := by
      rw [turns_]
      unfold scheduleTurn
      dsimp only
      split <;> rfl
    have now : (turn start).1.toList = (seconds start first).filter m.match_ := by
      rw [turns_,window]
      unfold scheduleTurn
      dsimp only
      split <;> rfl
    refine ⟨first + rest,by omega,?_,?_⟩
    · rw [reached,moved,there,next]
      push_cast
      omega
    · rw [firings,moved,fired,now,seconds_add,List.filter_append,← next]

theorem schedulerTurn_alone {dbTime : Int → Option Int} (alone : ∀ time answer,dbTime time = some answer → answer ≤ time) (lastExec : Int) :
    schedulerTurn m dbTime lastExec = scheduleTurn m lastExec := by
  unfold schedulerTurn scheduleTurn
  dsimp only
  have same : setLastExecTime (dbTime (m.nextWakeupTime lastExec)) (m.nextWakeupTime lastExec) = m.nextWakeupTime lastExec := by
    unfold setLastExecTime
    cases answered : dbTime (m.nextWakeupTime lastExec) with
    | none => rfl
    | some answer =>
      have early := alone _ answer answered
      exact if_neg fun later => by omega
  rw [same]

theorem backfillDates_increasing (m : TimeMatcher) (end_ : Int) (fuel : Nat) (current : Int) :
    (backfillDates m end_ fuel current).Pairwise (· < ·) ∧ ∀ date ∈ backfillDates m end_ fuel current,current < date := by
  induction fuel generalizing current with
  | zero => simp [backfillDates]
  | succ fuel ih =>
    have iterates := iteration_iterates m end_ current
    simp only [backfillDates]
    generalize iteration m end_ current = i at iterates
    cases iterates with
    | stop _ => simp
    | skip next wakes _ _ =>
      obtain ⟨increasing,after⟩ := ih next
      have later := wakes.later
      exact ⟨increasing,fun date listed => by have := after date listed; omega⟩
    | enqueue next wakes _ _ =>
      obtain ⟨increasing,after⟩ := ih next
      have later := wakes.later
      refine ⟨List.pairwise_cons.mpr ⟨after,increasing⟩,fun date listed => ?_⟩
      rcases List.mem_cons.mp listed with rfl | rest
      · omega
      · have := after date rest
        omega

/-- A backfill enqueues the part of the enumeration that lies before its end. -/
theorem backfillDates_eq (start end_ : Int) {count : Nat} (enough : end_ ≤ start + 1000 * count) :
    backfillDates m end_ (end_ - start).toNat start = (seconds start count).filter fun t => t < end_ && m.match_ t := by
  have distinct := (backfillDates_increasing m end_ (end_ - start).toNat start).1
  have distinct' : ((seconds start count).filter fun t => t < end_ && m.match_ t).Pairwise (· < ·) := (seconds_increasing start count).filter _
  refine List.Perm.eq_of_pairwise (fun a b (_ : a ∈ _) _ (less : a < b) (more : b < a) => by omega) distinct distinct' ?_
  rw [List.perm_ext_iff_of_nodup (distinct.imp fun less => by omega) (distinct'.imp fun less => by omega)]
  intro date
  rw [mem_backfillDates (Int.self_le_toNat _),List.mem_filter,mem_seconds]
  simp only [Bool.and_eq_true,decide_eq_true_eq]
  constructor
  · rintro ⟨after,before,phase,fires⟩
    exact ⟨⟨after,by omega,phase⟩,before,fires⟩
  · rintro ⟨⟨after,_,phase⟩,before,fires⟩
    exact ⟨after,before,phase,fires⟩

/-- Each call gets ahead by at most its window. The calls of the loops, one after the other, enumerate the instants that match, in
    increasing order and each once, however far they lie from one another. -/
theorem occurrences_enumerated (m : TimeMatcher) :
    (∀ time,time < m.nextWakeupTime time ∧ m.nextWakeupTime time ≤ time + 3599 * 1000) ∧
    Enumerates m (scheduleTurn m) ∧
    (∀ dbTime : Int → Option Int,(∀ time answer,dbTime time = some answer → answer ≤ time) → Enumerates m (schedulerTurn m dbTime)) ∧
    (∀ (start end_ : Int) (count : Nat),end_ ≤ start + 1000 * count →
      backfillDates m end_ (end_ - start).toNat start = (seconds start count).filter fun t => t < end_ && m.match_ t) ∧
    ∀ start count,(seconds start count).Pairwise (· < ·) := by
  refine ⟨nextWakeupTime_window,enumerates_of_turn fun _ => rfl,fun dbTime alone => ?_,fun start end_ count => backfillDates_eq start end_,
    seconds_increasing⟩
  exact enumerates_of_turn fun lastExec => schedulerTurn_alone alone lastExec

/-- The first three seconds of a day, as a backfill goes through them and as a process alone does. -/
theorem occurrences_enumerated_threeTimes : backfillDates threeTimes.matcher 5000 5000 0 = [1000,2000,3000] ∧
    Enumerates threeTimes.matcher (schedulerTurn threeTimes.matcher some) := by
  obtain ⟨-,-,alone,backfill,-⟩ := occurrences_enumerated threeTimes.matcher
  refine ⟨?_,alone some fun time answer same => by cases same; exact Int.le_refl time⟩
  exact (backfill 0 5000 5 (by decide)).trans (by decide)

end Dbos.Occurrences
