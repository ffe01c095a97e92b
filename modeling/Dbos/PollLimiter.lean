import Dbos.Js.Number
import Dbos.Pg.Run
import Mathlib.Data.List.Nodup
import Mathlib.Data.List.Range

/-!
The limiter of polling reads: `Semaphore` of `src/utils.ts`, which `#pollWithLimiter` of `src/system_database.ts` runs its queries under.
One thread runs everything, so what a call of `runExclusive` does between two awaits is one event, and other calls act at its awaits. A
permit that `release` hands to a waiter is never counted as available: the waiter holds it before it has resumed.
-/
namespace Dbos.PollLimiter
open Dbos.Pg Dbos.Js

/-! ### The semaphore -/

/-- `waiters` are `resolve` functions, of the type `ρ`. -/
structure Semaphore (ρ : Type) where
  available : Number
  waiters : List ρ
  enabled : Bool
  deriving DecidableEq

section
variable {ρ : Type}

def Semaphore.new (limit : Number) : Semaphore ρ :=
  let enabled := limit.isFinite && (Number.finite 0).lt limit
  { available := if enabled then limit else .finite 0,waiters := [],enabled := enabled }

/-- `acquire`, with the `resolve` of the promise it may make: whether the promise is resolved when it is returned. -/
def Semaphore.acquire (sem : Semaphore ρ) (resolve : ρ) : Bool × Semaphore ρ :=
  if !sem.enabled then (true,sem)
  else if (Number.finite 0).lt sem.available then (true,{ sem with available := sem.available.subOne })
  else (false,{ sem with waiters := sem.waiters ++ [resolve] })

/-- `release`, with the waiter that it wakes. -/
def Semaphore.release (sem : Semaphore ρ) : Option ρ × Semaphore ρ :=
  if !sem.enabled then (none,sem)
  else
    match sem.waiters with
    | next :: waiters => (some next,{ sem with waiters := waiters })
    | [] => (none,{ sem with available := sem.available.addOne })

theorem acquire_off {sem : Semaphore ρ} (off : sem.enabled = false) (resolve : ρ) : sem.acquire resolve = (true,sem) := by
  simp [Semaphore.acquire,off]

theorem release_off {sem : Semaphore ρ} (off : sem.enabled = false) : sem.release = (none,sem) := by simp [Semaphore.release,off]

end

/-- The limit of `pollLimiter`: by default, half of the pool. -/
def pollingLimit (pollingConcurrency : Option Number) (effectivePoolSize : Nat) : Number :=
  pollingConcurrency.getD (.finite (max 1 (effectivePoolSize / 2) : Nat))

/-! ### Calls of runExclusive -/

section
variable {ε τ : Type}

/-- Where a call stands: its `acquire` is pending, or is resolved and the call has not resumed; `fn` is pending; `fn` has returned or thrown
    and `finally` has not run; the call has returned or thrown. -/
inductive Phase (ε τ : Type)
  | waiting
  | granted
  | running
  | settled (outcome : Except ε τ)
  | ended (outcome : Except ε τ)
  deriving DecidableEq

/-- The call has a permit. -/
def Phase.holds : Phase ε τ → Bool
  | .granted | .running | .settled _ => true
  | _ => false

def Phase.isRunning : Phase ε τ → Bool
  | .running => true
  | _ => false

def Phase.isEnded : Phase ε τ → Bool
  | .ended _ => true
  | _ => false

/-- The calls are numbered as they arrive. `served` has them in the order in which their `acquire`s were resolved, and `released` in the
    order of their `release`s; nothing reads the two. -/
structure Limiter (ε τ : Type) where
  pollLimiter : Semaphore Nat
  calls : List (Phase ε τ) := []
  served : List Nat := []
  released : List Nat := []
  deriving DecidableEq

def Limiter.new (limit : Number) : Limiter ε τ := { pollLimiter := .new limit }

def Limiter.holders (s : Limiter ε τ) : Nat := s.calls.countP Phase.holds

def Limiter.running (s : Limiter ε τ) : Nat := s.calls.countP Phase.isRunning

/-- A call is made; a call whose `acquire` is resolved resumes and calls `fn`; `fn` returns or throws, at once or later; the call resumes
    and runs `finally`. -/
inductive Event (ε τ : Type)
  | runExclusive
  | resume (i : Nat)
  | settle (i : Nat) (outcome : Except ε τ)
  | finish (i : Nat)

/-- The `resolve` of a waiter is called. -/
def Limiter.wake (s : Limiter ε τ) : Option Nat → Limiter ε τ
  | some j => { s with calls := s.calls.set j .granted,served := s.served ++ [j] }
  | none => s

def step (s : Limiter ε τ) : Event ε τ → Option (Limiter ε τ)
  | .runExclusive =>
    let acquired := s.pollLimiter.acquire s.calls.length
    some { s with
      pollLimiter := acquired.2
      calls := s.calls ++ [if acquired.1 then .granted else .waiting]
      served := if acquired.1 then s.served ++ [s.calls.length] else s.served }
  | .resume i =>
    match s.calls[i]? with
    | some .granted => some { s with calls := s.calls.set i .running }
    | _ => none
  | .settle i outcome =>
    match s.calls[i]? with
    | some .running => some { s with calls := s.calls.set i (.settled outcome) }
    | _ => none
  | .finish i =>
    match s.calls[i]? with
    | some (.settled outcome) =>
      let released := s.pollLimiter.release
      let ended := { s with pollLimiter := released.2,calls := s.calls.set i (.ended outcome),released := s.released ++ [i] }
      some (ended.wake released.1)
    | _ => none

/-! ### What an event does -/

/-- What becomes of a limiter that is on. -/
inductive Moved (s : Limiter ε τ) : Event ε τ → Limiter ε τ → Prop
  | passes (free : (Number.finite 0).lt s.pollLimiter.available = true) :
      Moved s .runExclusive { s with
        pollLimiter := { s.pollLimiter with available := s.pollLimiter.available.subOne }
        calls := s.calls ++ [.granted],served := s.served ++ [s.calls.length] }
  | waits (taken : (Number.finite 0).lt s.pollLimiter.available = false) :
      Moved s .runExclusive { s with
        pollLimiter := { s.pollLimiter with waiters := s.pollLimiter.waiters ++ [s.calls.length] }
        calls := s.calls ++ [.waiting] }
  | resumes (i : Nat) (found : s.calls[i]? = some .granted) : Moved s (.resume i) { s with calls := s.calls.set i .running }
  | settles (i : Nat) (outcome : Except ε τ) (found : s.calls[i]? = some .running) :
      Moved s (.settle i outcome) { s with calls := s.calls.set i (.settled outcome) }
  | hands (i : Nat) (outcome : Except ε τ) (next : Nat) (waiters : List Nat) (found : s.calls[i]? = some (.settled outcome))
      (first : s.pollLimiter.waiters = next :: waiters) :
      Moved s (.finish i) { s with
        pollLimiter := { s.pollLimiter with waiters := waiters }
        calls := (s.calls.set i (.ended outcome)).set next .granted
        served := s.served ++ [next],released := s.released ++ [i] }
  | returns (i : Nat) (outcome : Except ε τ) (found : s.calls[i]? = some (.settled outcome)) (nobody : s.pollLimiter.waiters = []) :
      Moved s (.finish i) { s with
        pollLimiter := { s.pollLimiter with available := s.pollLimiter.available.addOne }
        calls := s.calls.set i (.ended outcome),released := s.released ++ [i] }

theorem step_moved {s s' : Limiter ε τ} {e : Event ε τ} (enabled : s.pollLimiter.enabled = true) (taken : step s e = some s') :
    Moved s e s' := by
  cases e with
  | runExclusive =>
    cases taken
    by_cases free : (Number.finite 0).lt s.pollLimiter.available = true
    · have passes := Moved.passes free
      simpa [Semaphore.acquire,enabled,free] using passes
    · rw [Bool.not_eq_true] at free
      have waits := Moved.waits free
      simpa [Semaphore.acquire,enabled,free] using waits
  | resume i =>
    simp only [step] at taken
    split at taken
    · cases taken
      exact .resumes i ‹_›
    · cases taken
  | settle i outcome =>
    simp only [step] at taken
    split at taken
    · cases taken
      exact .settles i outcome ‹_›
    · cases taken
  | finish i =>
    simp only [step] at taken
    split at taken
    · rename_i outcome found
      cases taken
      cases waiters : s.pollLimiter.waiters with
      | nil =>
        have returns := Moved.returns i outcome found waiters
        simpa [Semaphore.release,enabled,waiters,Limiter.wake] using returns
      | cons next rest =>
        have hands := Moved.hands i outcome next rest found waiters
        simpa [Semaphore.release,enabled,waiters,Limiter.wake] using hands
    · cases taken

/-! ### The line of the calls -/

/-- What holds of a limiter that is on, whatever its limit is. -/
structure Orderly (s : Limiter ε τ) : Prop where
  enabled : s.pollLimiter.enabled = true
  count : s.pollLimiter.available.Count
  line : s.served ++ s.pollLimiter.waiters = List.range s.calls.length
  waiting : ∀ i : Nat,s.calls[i]? = some .waiting ↔ i ∈ s.pollLimiter.waiters
  exhausted : s.pollLimiter.waiters ≠ [] → s.pollLimiter.available = .finite 0
  once : s.released.Nodup
  returned : ∀ i : Nat,i ∈ s.released ↔ ∃ outcome,s.calls[i]? = some (.ended outcome)
  balance : s.holders + s.released.length = s.served.length

theorem positive_enabled {limit : Nat} (positive : 0 < limit) : (Limiter.new (ε := ε) (τ := τ) (.finite limit)).pollLimiter.enabled = true := by
  simp [Limiter.new,Semaphore.new,Number.isFinite,positive_finite,positive]

theorem new_available {limit : Nat} (positive : 0 < limit) :
    (Limiter.new (ε := ε) (τ := τ) (.finite limit)).pollLimiter.available = .finite limit := by
  simp [Limiter.new,Semaphore.new,Number.isFinite,positive_finite,positive]

theorem orderly_new {limit : Nat} (positive : 0 < limit) : Orderly (Limiter.new (ε := ε) (τ := τ) (.finite limit)) where
  enabled := positive_enabled positive
  count := by
    rw [new_available positive]
    exact .finite limit
  line := rfl
  waiting := by simp [Limiter.new,Semaphore.new]
  exhausted := fun some_ => absurd rfl some_
  once := List.nodup_nil
  returned := by simp [Limiter.new]
  balance := rfl

theorem ended_other {calls : List (Phase ε τ)} {i : Nat} {old new : Phase ε τ} (found : calls[i]? = some old) (was : old.isEnded = false)
    (becomes : new.isEnded = false) (k : Nat) :
    (∃ outcome,(calls.set i new)[k]? = some (.ended outcome)) ↔ ∃ outcome,calls[k]? = some (.ended outcome) := by
  refine exists_congr fun outcome => party_set_other found ?_ ?_ k
  · rintro rfl
    cases was
  · rintro rfl
    cases becomes

theorem ended_set {calls : List (Phase ε τ)} {i : Nat} {outcome : Except ε τ} (found : calls[i]? = some (.settled outcome)) (k : Nat) :
    (∃ outcome',(calls.set i (.ended outcome))[k]? = some (.ended outcome')) ↔ k = i ∨ ∃ outcome',calls[k]? = some (.ended outcome') := by
  rw [party_set found]
  by_cases here : k = i
  · simp [here]
  · simp [here]

/-- A call goes on and keeps its permit. -/
theorem Orderly.goes {s : Limiter ε τ} (inv : Orderly s) {i : Nat} {old new : Phase ε τ} (found : s.calls[i]? = some old)
    (held : old.holds = true) (holds : new.holds = true) : Orderly { s with calls := s.calls.set i new } where
  enabled := inv.enabled
  count := inv.count
  line := by
    rw [List.length_set]
    exact inv.line
  waiting := by
    intro k
    rw [← inv.waiting k]
    refine party_set_other found ?_ ?_ k
    · rintro rfl
      cases held
    · rintro rfl
      cases holds
  exhausted := inv.exhausted
  once := inv.once
  returned := by
    intro k
    rw [inv.returned k]
    refine (ended_other found ?_ ?_ k).symm
    · cases old <;> simp_all [Phase.holds,Phase.isEnded]
    · cases new <;> simp_all [Phase.holds,Phase.isEnded]
  balance := by
    have counts := party_count found new Phase.holds
    simp only [held,holds,if_true] at counts
    have balance := inv.balance
    simp only [Limiter.holders] at balance ⊢
    omega

theorem Orderly.passes {s : Limiter ε τ} (inv : Orderly s) (free : (Number.finite 0).lt s.pollLimiter.available = true) :
    Orderly { s with
      pollLimiter := { s.pollLimiter with available := s.pollLimiter.available.subOne }
      calls := s.calls ++ [.granted],served := s.served ++ [s.calls.length] } := by
  have nobody : s.pollLimiter.waiters = [] := by
    by_contra some_
    rw [inv.exhausted some_] at free
    cases free
  have line := inv.line
  rw [nobody,List.append_nil] at line
  refine ⟨inv.enabled,inv.count.subOne free,?_,?_,?_,inv.once,?_,?_⟩
  · simp [nobody,line,List.range_succ]
  · intro k
    rw [← inv.waiting k]
    exact party_concat_other (by simp) k
  · exact fun some_ => absurd nobody some_
  · intro k
    rw [inv.returned k]
    exact exists_congr fun outcome => (party_concat_other (by simp) k).symm
  · have balance := inv.balance
    simp only [Limiter.holders,List.countP_append,List.length_append] at balance ⊢
    simp [Phase.holds]
    omega

theorem Orderly.waits {s : Limiter ε τ} (inv : Orderly s) (taken : (Number.finite 0).lt s.pollLimiter.available = false) :
    Orderly { s with
      pollLimiter := { s.pollLimiter with waiters := s.pollLimiter.waiters ++ [s.calls.length] }
      calls := s.calls ++ [.waiting] } := by
  refine ⟨inv.enabled,inv.count,?_,?_,fun _ => inv.count.zero taken,inv.once,?_,?_⟩
  · rw [List.length_append,List.length_singleton,List.range_succ,← inv.line,List.append_assoc]
  · intro k
    rw [party_concat,List.mem_append,← inv.waiting k]
    by_cases here : k = s.calls.length
    · simp [here]
    · simp [here]
  · intro k
    rw [inv.returned k]
    exact exists_congr fun outcome => (party_concat_other (by simp) k).symm
  · have balance := inv.balance
    simp only [Limiter.holders,List.countP_append] at balance ⊢
    simp [Phase.holds]
    omega

/-- The permit of a call that ends goes to the first waiter. -/
theorem Orderly.hands {s : Limiter ε τ} (inv : Orderly s) {i next : Nat} {outcome : Except ε τ} {waiters : List Nat}
    (found : s.calls[i]? = some (.settled outcome)) (first : s.pollLimiter.waiters = next :: waiters) :
    Orderly { s with
      pollLimiter := { s.pollLimiter with waiters := waiters }
      calls := (s.calls.set i (.ended outcome)).set next .granted
      served := s.served ++ [next],released := s.released ++ [i] } := by
  have line := inv.line
  rw [first] at line
  have distinct : (s.served ++ next :: waiters).Nodup := line ▸ List.nodup_range
  have fresh : next ∉ waiters := (List.nodup_cons.mp (List.nodup_append.mp distinct).2.1).1
  have pending : s.calls[next]? = some .waiting := (inv.waiting next).mpr (first ▸ List.mem_cons_self)
  have apart : next ≠ i := by
    rintro rfl
    rw [found] at pending
    cases pending
  have pending' : (s.calls.set i (.ended outcome))[next]? = some .waiting := by rw [party_set found,if_neg apart,pending]
  have unended : i ∉ s.released := by
    rw [inv.returned i,found]
    simp
  refine ⟨inv.enabled,inv.count,?_,?_,?_,?_,?_,?_⟩
  · simpa using line
  · intro k
    rw [party_set pending']
    by_cases here : k = next
    · simp [here,fresh]
    · rw [if_neg here,party_set_other found (by simp) (by simp),inv.waiting k,first,List.mem_cons]
      simp [here]
  · exact fun _ => inv.exhausted (first ▸ List.cons_ne_nil next waiters)
  · exact List.nodup_append_comm.mp (List.nodup_cons.mpr ⟨unended,inv.once⟩)
  · intro k
    rw [ended_other pending' rfl rfl,ended_set found,← inv.returned k,List.mem_append,List.mem_singleton]
    exact Or.comm
  · have ends := party_count found (.ended outcome) Phase.holds
    have wakes := party_count pending' .granted Phase.holds
    have balance := inv.balance
    simp only [Phase.holds,if_true,Bool.false_eq_true,if_false] at ends wakes
    simp only [Limiter.holders,List.length_append,List.length_singleton] at balance ⊢
    omega

theorem Orderly.returns {s : Limiter ε τ} (inv : Orderly s) {i : Nat} {outcome : Except ε τ} (found : s.calls[i]? = some (.settled outcome))
    (nobody : s.pollLimiter.waiters = []) :
    Orderly { s with
      pollLimiter := { s.pollLimiter with available := s.pollLimiter.available.addOne }
      calls := s.calls.set i (.ended outcome),released := s.released ++ [i] } := by
  have unended : i ∉ s.released := by
    rw [inv.returned i,found]
    simp
  refine ⟨inv.enabled,inv.count.addOne,?_,?_,?_,?_,?_,?_⟩
  · rw [List.length_set]
    exact inv.line
  · intro k
    rw [← inv.waiting k]
    exact party_set_other found (by simp) (by simp) k
  · exact fun some_ => absurd nobody some_
  · exact List.nodup_append_comm.mp (List.nodup_cons.mpr ⟨unended,inv.once⟩)
  · intro k
    rw [ended_set found,← inv.returned k,List.mem_append,List.mem_singleton]
    exact Or.comm
  · have ends := party_count found (.ended outcome) Phase.holds
    have balance := inv.balance
    simp only [Phase.holds,if_true,Bool.false_eq_true,if_false] at ends
    simp only [Limiter.holders,List.length_append,List.length_singleton] at balance ⊢
    omega

theorem Orderly.step {s s' : Limiter ε τ} {e : Event ε τ} (inv : Orderly s) (taken : step s e = some s') : Orderly s' := by
  cases step_moved inv.enabled taken with
  | passes free => exact inv.passes free
  | waits free => exact inv.waits free
  | resumes i found => exact inv.goes found rfl rfl
  | settles i outcome found => exact inv.goes found rfl rfl
  | hands i outcome next waiters found first => exact inv.hands found first
  | returns i outcome found nobody => exact inv.returns found nobody

theorem orderly_runs {limit : Nat} (positive : 0 < limit) {events : List (Event ε τ)} {s : Limiter ε τ}
    (run : Runs PollLimiter.step (.new (.finite limit)) events s) : Orderly s :=
  runs_invariant (fun _ _ _ inv taken => inv.step taken) (orderly_new positive) run

/-! ### The permits -/

/-- Every permit of the limit is held or available. -/
def Exact (limit : Nat) (s : Limiter ε τ) : Prop :=
  ∃ available : Nat,s.pollLimiter.available = .finite available ∧ s.holders + available = limit

theorem exact_iff {limit : Nat} {s : Limiter ε τ} (inv : Orderly s) : Exact limit s ↔
    ∃ available : Nat,s.pollLimiter.available = .finite available ∧ s.served.length + available = limit + s.released.length := by
  have balance := inv.balance
  constructor
  · rintro ⟨available,value,sum⟩
    exact ⟨available,value,by omega⟩
  · rintro ⟨available,value,sum⟩
    exact ⟨available,value,by omega⟩

/-- Up to `2 ^ 53`, where the doubles have no gaps, no permit is lost. -/
theorem exact_step {limit : Nat} (small : limit ≤ 2 ^ 53) {s s' : Limiter ε τ} {e : Event ε τ} (inv : Orderly s) (exact_ : Exact limit s)
    (taken : step s e = some s') : Exact limit s' := by
  have held := inv.balance
  have held' := (inv.step taken).balance
  rw [exact_iff (inv.step taken)]
  obtain ⟨available,value,sum⟩ := (exact_iff inv).mp exact_
  cases step_moved inv.enabled taken with
  | passes free =>
    rw [value,positive_finite,decide_eq_true_eq] at free
    obtain ⟨rest,rfl⟩ := Nat.exists_eq_add_of_lt free
    rw [Nat.zero_add] at value sum
    refine ⟨rest,?_,?_⟩
    · show s.pollLimiter.available.subOne = _
      rw [value,subOne_finite,ofNat_small (by omega)]
    · simp only [List.length_append,List.length_singleton]
      omega
  | waits _ => exact ⟨available,value,sum⟩
  | resumes i _ => exact ⟨available,value,sum⟩
  | settles i outcome _ => exact ⟨available,value,sum⟩
  | hands i outcome next waiters found first =>
    refine ⟨available,value,?_⟩
    simp only [List.length_append,List.length_singleton]
    omega
  | returns i outcome found nobody =>
    simp only [List.length_append,List.length_singleton] at held'
    refine ⟨available + 1,?_,?_⟩
    · show s.pollLimiter.available.addOne = _
      rw [value,addOne_finite,ofNat_small (by omega)]
    · simp only [List.length_append,List.length_singleton]
      omega

theorem exact_runs {limit : Nat} (positive : 0 < limit) (small : limit ≤ 2 ^ 53) {events : List (Event ε τ)} {s : Limiter ε τ}
    (run : Runs step (.new (.finite limit)) events s) : Exact limit s := by
  have start : Orderly (Limiter.new (ε := ε) (τ := τ) (.finite limit)) ∧ Exact limit (Limiter.new (ε := ε) (τ := τ) (.finite limit)) :=
    ⟨orderly_new positive,limit,new_available positive,by simp [Limiter.new,Limiter.holders]⟩
  have keeps : ∀ s e (s' : Limiter ε τ),Orderly s ∧ Exact limit s → step s e = some s' → Orderly s' ∧ Exact limit s' :=
    fun s e s' both taken => ⟨both.1.step taken,exact_step small both.1 both.2 taken⟩
  exact (runs_invariant keeps start run).2

theorem running_le_holders (s : Limiter ε τ) : s.running ≤ s.holders := by
  refine List.countP_mono_left ?_
  intro phase _ runs
  cases phase <;> simp_all [Phase.isRunning,Phase.holds]

/-- A call waits only while others hold every permit, so when nobody holds one no call is left. -/
theorem all_ended {limit : Nat} (positive : 0 < limit) {s : Limiter ε τ} (inv : Orderly s) (exact_ : Exact limit s) (free : s.holders = 0) :
    (∀ phase ∈ s.calls,phase.isEnded = true) ∧ s.pollLimiter.available = .finite limit := by
  obtain ⟨available,value,sum⟩ := exact_
  obtain rfl : available = limit := by omega
  refine ⟨?_,value⟩
  intro phase listed
  have idle : phase.holds = false := by
    have none_ := List.countP_eq_zero.mp free phase listed
    simpa using none_
  cases phase with
  | waiting =>
    obtain ⟨i,found⟩ := List.mem_iff_getElem?.mp listed
    have zero := inv.exhausted (List.ne_nil_of_mem ((inv.waiting i).mp found))
    rw [value,Number.finite.injEq] at zero
    omega
  | granted => cases idle
  | running => cases idle
  | settled outcome => cases idle
  | ended outcome => rfl

/-! ### Any run of calls -/

/-- Calls are served in the order of their arrival, wait only while no permit is available, and release once, when they end. Up to
    `2 ^ 53`, no more bodies run than the limit allows, what is held and what is available is the limit, and all of it is available again
    once nobody holds a permit, which is when every call has ended. -/
theorem limited {limit : Nat} (positive : 0 < limit) {events : List (Event ε τ)} {s : Limiter ε τ}
    (run : Runs step (.new (.finite limit)) events s) :
    s.served ++ s.pollLimiter.waiters = List.range s.calls.length ∧
      (∀ i : Nat,s.calls[i]? = some .waiting ↔ i ∈ s.pollLimiter.waiters) ∧
      (s.pollLimiter.waiters ≠ [] → s.pollLimiter.available = .finite 0) ∧
      s.released.Nodup ∧ (∀ i : Nat,i ∈ s.released ↔ ∃ outcome,s.calls[i]? = some (.ended outcome)) ∧
      (limit ≤ 2 ^ 53 → s.running ≤ limit ∧ (∃ available : Nat,s.pollLimiter.available = .finite available ∧ s.holders + available = limit) ∧
        (s.holders = 0 → (∀ phase ∈ s.calls,phase.isEnded = true) ∧ s.pollLimiter.available = .finite limit)) := by
  have inv := orderly_runs positive run
  refine ⟨inv.line,inv.waiting,inv.exhausted,inv.once,inv.returned,?_⟩
  intro small
  have exact_ := exact_runs positive small run
  refine ⟨?_,exact_,all_ended positive inv exact_⟩
  obtain ⟨available,_,sum⟩ := exact_
  have few := running_le_holders s
  omega

/-- A second call waits while the first one's body runs, and has its permit when that has thrown. -/
theorem limited_one :
    let s : Limiter String Nat :=
      { pollLimiter := { available := .finite 0,waiters := [],enabled := true },calls := [.ended (.error "boom"),.granted]
        served := [0,1],released := [0] }
    Runs step (.new (.finite (1 : Nat))) [.runExclusive,.runExclusive,.resume 0,.settle 0 (.error "boom"),.finish 0] s ∧
      s.served ++ s.pollLimiter.waiters = List.range 2 ∧ s.running ≤ 1 := by
  intro s
  have run : Runs step (.new (.finite (1 : Nat))) [.runExclusive,.runExclusive,.resume 0,.settle 0 (.error "boom"),.finish 0] s := by
    decide +kernel
  have all := limited (Nat.zero_lt_succ 0) run
  exact ⟨run,all.1,(all.2.2.2.2.2 (by decide)).1⟩

/-- Above `2 ^ 53` the decrement is rounded: after the first call, the permits do not add up to the limit any more. -/
theorem rounded_limit : roundDouble 9007199254740994 = some 9007199254740994 ∧ ∃ s : Limiter String Nat,
    Runs step (.new (.finite (9007199254740994 : Nat))) [.runExclusive] s ∧ s.pollLimiter.available = .finite (9007199254740992 : Nat) ∧
      ¬ ∃ available : Nat,s.pollLimiter.available = .finite available ∧ s.holders + available = 9007199254740994 := by
  refine ⟨by decide +kernel,{ pollLimiter := { available := .finite (9007199254740992 : Nat),waiters := [],enabled := true }
                              calls := [.granted],served := [0] },by decide +kernel,rfl,?_⟩
  rintro ⟨available,value,sum⟩
  simp only [Number.finite.injEq,Nat.cast_inj] at value
  simp [Limiter.holders,Phase.holds] at sum
  omega

theorem first_call (less : Nat) : step (Limiter.new (ε := ε) (τ := τ) (.finite (less + 1 : Nat))) .runExclusive =
    some { pollLimiter := { available := .ofNat false less,waiters := [],enabled := true },calls := [.granted],served := [0] } := by
  have enabled := positive_enabled (ε := ε) (τ := τ) (Nat.succ_pos less)
  have available := new_available (ε := ε) (τ := τ) (Nat.succ_pos less)
  have free : (Number.finite 0).lt (.finite (less + 1 : Nat)) = true := by
    rw [positive_finite]
    simp
  have rounded := subOne_finite less
  simp only [step,Semaphore.acquire,enabled,available,free,rounded]
  rfl

/-- The permits add up in every run of a limiter with the limits up to `2 ^ 53`, and with no other. -/
theorem exact_small {limit : Nat} (positive : 0 < limit) (double : roundDouble limit = some limit) :
    (∀ (events : List (Event ε τ)) (s : Limiter ε τ),Runs step (.new (.finite limit)) events s → Exact limit s) ↔ limit ≤ 2 ^ 53 := by
  constructor
  · intro all
    by_contra large
    rw [Nat.not_le] at large
    obtain ⟨less,rfl⟩ := Nat.exists_eq_add_of_lt positive
    rw [Nat.zero_add] at double large all
    have run := runs_cons.mpr ⟨_,first_call (ε := ε) (τ := τ) less,runs_nil.mpr rfl⟩
    obtain ⟨available,value,sum⟩ := all [.runExclusive] _ run
    have one : available = less := by
      simp only [Limiter.holders,List.countP_singleton,Phase.holds,if_true] at sum
      omega
    rw [one] at value
    dsimp only at value
    have less_even := double_even (round_of_ofNat value) (by omega)
    have even := double_even double (by omega)
    omega
  · intro small events s run
    exact exact_runs positive small run

/-- The semaphore as a function of two counts: the calls that have arrived and those that have released. -/
theorem by_counts {limit : Nat} (positive : 0 < limit) (small : limit ≤ 2 ^ 53) {events : List (Event ε τ)} {s : Limiter ε τ}
    (run : Runs step (.new (.finite limit)) events s) :
    s.served = List.range (min s.calls.length (s.released.length + limit)) ∧
      s.pollLimiter.waiters = (List.range s.calls.length).drop (s.released.length + limit) ∧
      s.pollLimiter.available = .finite (s.released.length + limit - s.calls.length : Nat) := by
  have inv := orderly_runs positive run
  obtain ⟨available,value,sum⟩ := (exact_iff inv).mp (exact_runs positive small run)
  have lengths : s.served.length + s.pollLimiter.waiters.length = s.calls.length := by
    rw [← List.length_append,inv.line,List.length_range]
  have served : s.served = (List.range s.calls.length).take s.served.length := by rw [← inv.line,List.take_left]
  have waiters : s.pollLimiter.waiters = (List.range s.calls.length).drop s.served.length := by rw [← inv.line,List.drop_left]
  by_cases nobody : s.pollLimiter.waiters = []
  · rw [nobody,List.length_nil] at lengths
    refine ⟨?_,?_,?_⟩
    · rw [served,List.take_range]
      congr 1
      omega
    · rw [nobody,List.drop_of_length_le (by rw [List.length_range]; omega)]
    · rw [value]
      congr 2
      omega
  · have zero := inv.exhausted nobody
    rw [value,Number.finite.injEq] at zero
    refine ⟨?_,?_,?_⟩
    · rw [served,List.take_range]
      congr 1
      omega
    · rw [waiters]
      congr 1
      omega
    · rw [value]
      congr 2
      omega

/-! ### The order of the bodies -/

/-- The call has called `fn`. -/
def Phase.started : Phase ε τ → Bool
  | .waiting | .granted => false
  | _ => true

/-- Promise jobs run in the order in which their promises were resolved: the calls that were served first resume first. -/
def InOrder (s : Limiter ε τ) (e : Event ε τ) : Prop := ∀ i,e = .resume i → ∀ j,j < i → s.calls[j]? ≠ some .granted

/-- A call whose body has started has none before it whose body has not. -/
def Sequenced (s : Limiter ε τ) : Prop :=
  ∀ (i j : Nat) earlier later,i < j → s.calls[i]? = some earlier → s.calls[j]? = some later → later.started = true → earlier.started = true

theorem Orderly.served_first {s : Limiter ε τ} (inv : Orderly s) {i j : Nat} (served : i ∈ s.served) (waits : j ∈ s.pollLimiter.waiters) :
    i < j := by
  have sorted : (s.served ++ s.pollLimiter.waiters).Pairwise (· < ·) := by
    rw [inv.line]
    exact List.pairwise_lt_range
  exact (List.pairwise_append.mp sorted).2.2 i served j waits

theorem Orderly.mem_served {s : Limiter ε τ} (inv : Orderly s) {i : Nat} {phase : Phase ε τ} (found : s.calls[i]? = some phase)
    (served : phase ≠ .waiting) : i ∈ s.served := by
  have listed : i ∈ s.served ++ s.pollLimiter.waiters := by
    rw [inv.line,List.mem_range]
    exact (List.getElem?_eq_some_iff.mp found).1
  rcases List.mem_append.mp listed with here | waits
  · exact here
  · rw [← inv.waiting i,found] at waits
    exact absurd (Option.some.inj waits) served

theorem sequenced_append {s : Limiter ε τ} (sequenced : Sequenced s) {new : Phase ε τ} (unstarted : new.started = false) (t : Limiter ε τ)
    (calls : t.calls = s.calls ++ [new]) : Sequenced t := by
  intro i j earlier later before found found' started
  rw [calls] at found found'
  rcases party_append found' with old' | ⟨rfl,rfl⟩
  · rcases party_append found with old | ⟨rfl,rfl⟩
    · exact sequenced i j earlier later before old old' started
    · have := (List.getElem?_eq_some_iff.mp old').1
      omega
  · rw [unstarted] at started
    cases started

/-- A call goes on whose body had started or that comes after none whose body has not. -/
theorem sequenced_set {s : Limiter ε τ} (sequenced : Sequenced s) {k : Nat} {old new : Phase ε τ} (found : s.calls[k]? = some old)
    (starts : new.started = true) (turn : ∀ (i : Nat) earlier,i < k → s.calls[i]? = some earlier → earlier.started = true) (t : Limiter ε τ)
    (calls : t.calls = s.calls.set k new) : Sequenced t := by
  intro i j earlier later before listed listed' started
  rw [calls] at listed listed'
  rcases party_set_cases found listed with ⟨_,rfl⟩ | ⟨_,here⟩
  · exact starts
  · rcases party_set_cases found listed' with ⟨rfl,_⟩ | ⟨_,there⟩
    · exact turn i earlier before here
    · exact sequenced i j earlier later before here there started

theorem sequenced_wake {s : Limiter ε τ} (sequenced : Sequenced s) {k : Nat} (found : s.calls[k]? = some .waiting) (t : Limiter ε τ)
    (calls : t.calls = s.calls.set k .granted) : Sequenced t := by
  intro i j earlier later before listed listed' started
  rw [calls] at listed listed'
  rcases party_set_cases found listed' with ⟨_,rfl⟩ | ⟨_,there⟩
  · cases started
  · rcases party_set_cases found listed with ⟨rfl,_⟩ | ⟨_,here⟩
    · exact absurd (sequenced i j .waiting later before found there started) (by simp [Phase.started])
    · exact sequenced i j earlier later before here there started

theorem sequenced_step {s s' : Limiter ε τ} {e : Event ε τ} (inv : Orderly s) (sequenced : Sequenced s) (order : InOrder s e)
    (taken : step s e = some s') : Sequenced s' := by
  cases step_moved inv.enabled taken with
  | passes _ => exact sequenced_append sequenced rfl _ rfl
  | waits _ => exact sequenced_append sequenced rfl _ rfl
  | resumes k found =>
    refine sequenced_set sequenced found rfl ?_ _ rfl
    intro i earlier before listed
    cases earlier with
    | waiting =>
      have served := inv.mem_served found (by simp)
      have := inv.served_first served ((inv.waiting i).mp listed)
      omega
    | granted => exact absurd listed (order k rfl i before)
    | running => rfl
    | settled _ => rfl
    | ended _ => rfl
  | settles k outcome found =>
    exact sequenced_set sequenced found rfl (fun i earlier before listed => sequenced i k earlier _ before listed found rfl) _ rfl
  | hands k outcome next waiters found first =>
    have pending : s.calls[next]? = some .waiting := (inv.waiting next).mpr (first ▸ List.mem_cons_self)
    have apart : next ≠ k := by
      rintro rfl
      rw [found] at pending
      cases pending
    have ended : Sequenced { s with calls := s.calls.set k (.ended outcome) } :=
      sequenced_set sequenced found rfl (fun i earlier before listed => sequenced i k earlier _ before listed found rfl) _ rfl
    exact sequenced_wake ended (by rw [party_set found,if_neg apart,pending]) _ rfl
  | returns k outcome found nobody =>
    exact sequenced_set sequenced found rfl (fun i earlier before listed => sequenced i k earlier _ before listed found rfl) _ rfl

/-- Bodies start in the order in which the calls arrived. -/
theorem bodies_in_order {limit : Nat} (positive : 0 < limit) {events : List (Event ε τ)} {s : Limiter ε τ}
    (order : Along step InOrder (.new (.finite limit)) events) (run : Runs step (.new (.finite limit)) events s) : Sequenced s := by
  have start : Orderly (Limiter.new (ε := ε) (τ := τ) (.finite limit)) ∧ Sequenced (Limiter.new (ε := ε) (τ := τ) (.finite limit)) := by
    refine ⟨orderly_new positive,?_⟩
    intro i j earlier later _ found
    cases found
  have keeps : ∀ s e (s' : Limiter ε τ),Orderly s ∧ Sequenced s → InOrder s e → step s e = some s' → Orderly s' ∧ Sequenced s' :=
    fun s e s' both order taken => ⟨both.1.step taken,sequenced_step both.1 both.2 order taken⟩
  exact (along_invariant keeps start order run).2

/-! ### The limiter that is off -/

/-- Without a positive limit, nobody ever waits. -/
theorem never_waits {limit : Number} (off : (Semaphore.new (ρ := Nat) limit).enabled = false) {events : List (Event ε τ)} {s : Limiter ε τ}
    (run : Runs step (.new limit) events s) : s.pollLimiter.waiters = [] ∧ s.served = List.range s.calls.length := by
  have start : (Limiter.new (ε := ε) (τ := τ) limit).pollLimiter.enabled = false ∧
      (Limiter.new (ε := ε) (τ := τ) limit).pollLimiter.waiters = [] ∧ (Limiter.new (ε := ε) (τ := τ) limit).served = List.range 0 :=
    ⟨off,rfl,rfl⟩
  refine (runs_invariant (I := fun s : Limiter ε τ => s.pollLimiter.enabled = false ∧ s.pollLimiter.waiters = [] ∧
    s.served = List.range s.calls.length) ?_ start run).2
  rintro s e s' ⟨disabled,nobody,served⟩ taken
  cases e with
  | runExclusive =>
    cases taken
    simp [acquire_off disabled,disabled,nobody,served,List.range_succ]
  | resume i =>
    simp only [step] at taken
    split at taken
    · cases taken
      exact ⟨disabled,nobody,by rw [List.length_set]; exact served⟩
    · cases taken
  | settle i outcome =>
    simp only [step] at taken
    split at taken
    · cases taken
      exact ⟨disabled,nobody,by rw [List.length_set]; exact served⟩
    · cases taken
  | finish i =>
    simp only [step,release_off disabled,Limiter.wake] at taken
    split at taken
    · cases taken
      exact ⟨disabled,nobody,by rw [List.length_set]; exact served⟩
    · cases taken

/-- The limiter is on by default, whatever the size of the pool. -/
theorem default_enabled (effectivePoolSize : Nat) : (Semaphore.new (ρ := Nat) (pollingLimit none effectivePoolSize)).enabled = true := by
  have positive : 0 < max 1 (effectivePoolSize / 2) := Nat.lt_of_lt_of_le Nat.one_pos (Nat.le_max_left _ _)
  exact positive_enabled (ε := Empty) (τ := Empty) positive

end

end Dbos.PollLimiter
