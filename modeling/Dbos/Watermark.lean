import Dbos.Scheduler

/-!
The watermark of a schedule with `automaticBackfill`: `lastFiredAt`, from which the next process backfills. No firing up to it
is missing as long as no enqueue is given up and none falls between the end of a backfill, which is the time of the poll, and
the start of the live loop, which is the time the backfill is done.
-/
namespace Dbos.Watermark
open Dbos.Pg Dbos.Schema Dbos.Status Dbos.Crontab Dbos.Scheduler

variable (sched : Schedule) (T0 : Int)

/-- Every firing after `T0` up to an instant has its workflow. -/
def Covered (s : System) (upTo : Int) : Prop := ∀ t, T0 < t → t ≤ upTo → Firing sched t → s.Has sched t

/-- No firing is given up: when an enqueue or the look before it fails, the workflow is there all the same (for a backfill, those
    of the rest of its window are), and so are the workflows of the firings between a poll and its live loop. -/
def NothingMissed (s : System) : Event → Prop
  | .poll i now => AlignedWindow sched s (.poll i now)
  | .iterate i attempt =>
    ∀ start end_ current, s.loops[i]? = some (.backfill start end_ current true) →
      ∀ next, iteration sched.matcher end_ current = .enqueue next →
        (s.enqueue sched (some (start,end_)) next attempt).1 = false →
        ∀ t, T0 < t → next ≤ t → t < end_ → Firing sched t → (s.enqueue sched (some (start,end_)) next attempt).2.Has sched t
  | .startLoop i now =>
    ∀ lastFired polled, s.loops[i]? = some (.polled lastFired polled) →
      ∀ t, T0 < t → lastFired < t → polled ≤ t → t ≤ secondOf now → Firing sched t → s.Has sched t
  | .existing i fails => ∀ nextExec, s.loops[i]? = some (.due nextExec) → fails = true → T0 < nextExec → s.Has sched nextExec
  | .enqueue i attempt =>
    ∀ nextExec, s.loops[i]? = some (.missing nextExec) → (s.enqueue sched none nextExec attempt).1 = false → T0 < nextExec →
      (s.enqueue sched none nextExec attempt).2.Has sched nextExec
  | _ => True

/-- How far the firings are covered where a loop stands. -/
def Behind (s : System) : Phase → Prop
  | .listed lastFiredAt => ∃ lastFired, lastFiredAt = some lastFired ∧ Covered sched T0 s lastFired
  | .backfill start end_ current true =>
    Aligned sched start end_ ∧ start ≤ current ∧ current % 1000 = start % 1000 ∧ Covered sched T0 s start ∧
      ∀ t, T0 < t → t ≤ current → t < end_ → Firing sched t → s.Has sched t
  | .backfill _ _ _ false => True
  | .polled lastFired polled => Covered sched T0 s lastFired ∧ Covered sched T0 s (polled - 1)
  | .live lastExec => lastExec % 1000 = 0 ∧ Covered sched T0 s lastExec
  | .due nextExec => Firing sched nextExec ∧ Covered sched T0 s (nextExec - 1)
  | .missing nextExec => Firing sched nextExec ∧ Covered sched T0 s (nextExec - 1)
  | .enqueued nextExec => Firing sched nextExec ∧ Covered sched T0 s nextExec
  | .stopped => True

/-- The watermark is not ahead of the firings, nor is a loop. -/
structure Watermarked (s : System) : Prop where
  stored : ∃ lastFired, s.lastFiredAt = some lastFired ∧ Covered sched T0 s lastFired
  behind : ∀ phase ∈ s.loops, Behind sched T0 s phase

variable {sched T0}

theorem Covered.mono {s s' : System} {upTo : Int} (covered : Covered sched T0 s upTo)
    (keeps : ∀ t, s.Has sched t → s'.Has sched t) : Covered sched T0 s' upTo :=
  fun t after before firing => keeps t (covered t after before firing)

theorem Behind.mono {s s' : System} {phase : Phase} (behind : Behind sched T0 s phase)
    (keeps : ∀ t, s.Has sched t → s'.Has sched t) : Behind sched T0 s' phase := by
  cases phase with
  | listed lastFiredAt =>
    obtain ⟨lastFired,listed,covered⟩ := behind
    exact ⟨lastFired,listed,covered.mono keeps⟩
  | backfill start end_ current polled =>
    cases polled with
    | false => trivial
    | true =>
      obtain ⟨window,begun,phase,before,covered⟩ := behind
      exact ⟨window,begun,phase,before.mono keeps,fun t after upTo inside firing => keeps t (covered t after upTo inside firing)⟩
  | polled lastFired polled => exact ⟨behind.1.mono keeps,behind.2.mono keeps⟩
  | live lastExec => exact ⟨behind.1,behind.2.mono keeps⟩
  | due nextExec | missing nextExec | enqueued nextExec => exact ⟨behind.1,behind.2.mono keeps⟩
  | stopped => trivial

/-- A firing that has its workflow extends what is covered. -/
theorem Covered.next {s : System} {date : Int} (covered : Covered sched T0 s (date - 1)) (there : T0 < date → s.Has sched date) :
    Covered sched T0 s date := by
  intro t after upTo firing
  by_cases here : t = date
  · rw [here]
    exact there (by omega)
  · exact covered t after (by omega) firing

/-- Between two instants at which a live loop stands nothing fires. -/
theorem Covered.wakes {s : System} {time next : Int} (covered : Covered sched T0 s time) (whole : time % 1000 = 0)
    (wakes : Wakes sched.matcher time next) : Covered sched T0 s (next - 1) := by
  intro t after before firing
  by_cases passed : t ≤ time
  · exact covered t after passed firing
  · have fires := firing.2
    rw [wakes.skipped t (by omega) (by omega) (by have := firing.1; omega)] at fires
    cases fires

theorem Watermarked.mono {s s' : System} (marked : Watermarked sched T0 s) (keeps : ∀ t, s.Has sched t → s'.Has sched t)
    (stored : s'.lastFiredAt = s.lastFiredAt) (loops : s'.loops = s.loops) : Watermarked sched T0 s' := by
  obtain ⟨lastFired,found,covered⟩ := marked.stored
  refine ⟨⟨lastFired,stored.trans found,covered.mono keeps⟩,?_⟩
  rw [loops]
  exact fun phase listed => (marked.behind phase listed).mono keeps

theorem Watermarked.move {s : System} (marked : Watermarked sched T0 s) (i : Nat) {phase : Phase} (behind : Behind sched T0 s phase) :
    Watermarked sched T0 (s.move i phase) :=
  ⟨marked.stored,all_set marked.behind behind i⟩

theorem Watermarked.append {s : System} (marked : Watermarked sched T0 s) {phase : Phase} (behind : Behind sched T0 s phase) :
    Watermarked sched T0 { s with loops := s.loops ++ [phase] } := by
  refine ⟨marked.stored,?_⟩
  intro p listed
  rcases List.mem_append.mp listed with old | new
  · exact marked.behind p old
  · cases List.mem_singleton.mp new
    exact behind

theorem Watermarked.enqueue {s : System} (marked : Watermarked sched T0 s) (window : Option (Int × Int)) (date : Int)
    (attempt : Attempt) : Watermarked sched T0 (s.enqueue sched window date attempt).2 := by
  have enqueues : Enqueues sched s window date _ := enqueue_enqueues s window date attempt
  exact marked.mono (fun t there => enqueues.keeps _ there) enqueues.lastFiredAt enqueues.loops

/-- An iteration of the backfill of a process. -/
theorem Watermarked.iterate {s : System} (marked : Watermarked sched T0 s) {i : Nat} {start end_ current : Int} {attempt : Attempt}
    (found : s.loops[i]? = some (.backfill start end_ current true)) (missed : NothingMissed sched T0 s (.iterate i attempt)) :
    Watermarked sched T0 (s.iterate sched i start end_ current true attempt) := by
  obtain ⟨window,begun,phase,before,covered⟩ := marked.behind _ (List.mem_of_getElem? found)
  have progress := iteration_progress window begun phase
  have missed := missed start end_ current found
  simp only [System.iterate]
  generalize iteration sched.matcher end_ current = it at progress missed
  cases progress with
  | stop rest =>
    have stopped : Watermarked sched T0 { s with windows := s.windows ++ [(start,end_)] } := marked.mono (fun _ there => there) rfl rfl
    refine stopped.move i ⟨before,?_⟩
    intro t after inside firing
    by_cases passed : t ≤ current
    · exact covered t after passed (by omega) firing
    · exact absurd firing (rest t (by omega) (by omega))
  | skip next later same quiet =>
    refine marked.move i ⟨window,by omega,by omega,before,?_⟩
    intro t after upTo inside firing
    by_cases passed : t ≤ current
    · exact covered t after passed inside firing
    · exact absurd firing (quiet t (by omega) upTo inside)
  | enqueue next later same inside firing quiet =>
    have enqueued := marked.enqueue (some (start,end_)) next attempt
    have enqueues : Enqueues sched s (some (start,end_)) next _ := enqueue_enqueues s _ next attempt
    have missed := missed next rfl
    dsimp only
    generalize s.enqueue sched (some (start,end_)) next attempt = result at enqueued enqueues missed
    obtain ⟨done,s'⟩ := result
    have keeps : ∀ t, s.Has sched t → s'.Has sched t := fun t there => enqueues.keeps _ there
    -- the firings before `next` are covered, whether this one is enqueued or not
    have earlier : ∀ t, T0 < t → t < next → Firing sched t → s'.Has sched t := by
      intro t after upTo fires
      by_cases passed : t ≤ current
      · exact keeps t (covered t after passed (by omega) fires)
      · exact absurd fires (quiet t (by omega) upTo)
    refine enqueued.move i ?_
    cases done with
    | false =>
      refine ⟨before.mono keeps,?_⟩
      intro t after upTo fires
      by_cases passed : t < next
      · exact earlier t after passed fires
      · exact missed rfl t after (by omega) (by omega) fires
    | true =>
      refine ⟨window,by omega,by omega,before.mono keeps,?_⟩
      intro t after upTo inside' fires
      by_cases here : t = next
      · rw [here]
        exact enqueues.there rfl
      · exact earlier t after (by omega) fires

theorem step_watermarked {s s' : System} {e : Event} (marked : Watermarked sched T0 s) (missed : NothingMissed sched T0 s e)
    (taken : step sched s e = some s') : Watermarked sched T0 s' := by
  cases step_moves taken with
  | backfillSchedule start end_ => exact marked.append trivial
  | listSchedules => exact marked.append marked.stored
  | @poll i now lastFiredAt found =>
    obtain ⟨lastFired,rfl,covered⟩ := marked.behind _ (List.mem_of_getElem? found)
    refine marked.move i ?_
    simp only [pollPhase]
    by_cases before : lastFired < now
    · rw [if_pos before]
      exact ⟨missed lastFired found before,Int.le_refl _,rfl,covered,fun t after upTo _ firing => covered t after upTo firing⟩
    · rw [if_neg before]
      exact ⟨covered,fun t after upTo firing => covered t after (by omega) firing⟩
  | @iterate i attempt start end_ current polled found =>
    cases polled with
    | true => exact marked.iterate found missed
    | false =>
      -- a backfill that no process waits for only adds rows
      simp only [System.iterate]
      split
      · have stopped : Watermarked sched T0 { s with windows := s.windows ++ [(start,end_)] } :=
          marked.mono (fun _ there => there) rfl rfl
        exact stopped.move i trivial
      · exact marked.move i trivial
      · rename_i next _
        refine (marked.enqueue (some (start,end_)) next attempt).move i ?_
        split <;> trivial
  | @startLoop i now lastFired polled found =>
    obtain ⟨covered,window⟩ := marked.behind _ (List.mem_of_getElem? found)
    refine marked.move i ⟨secondOf_whole now,?_⟩
    intro t after upTo firing
    by_cases stored : t ≤ lastFired
    · exact covered t after stored firing
    · by_cases backfilled : t < polled
      · exact window t after (by omega) firing
      · exact missed lastFired polled found t after (by omega) (by omega) upTo firing
  | @wake i lastExec found =>
    obtain ⟨whole,covered⟩ := marked.behind _ (List.mem_of_getElem? found)
    have wakes : Wakes sched.matcher lastExec _ := nextWakeupTime_wakes lastExec
    have phase := wakes.phase
    have earlier := covered.wakes whole wakes
    refine marked.move i ?_
    by_cases fires : sched.matcher.match_ (sched.matcher.nextWakeupTime lastExec) = true
    · rw [if_pos fires]
      exact ⟨⟨by omega,fires⟩,earlier⟩
    · rw [if_neg fires]
      refine ⟨phase.trans whole,?_⟩
      intro t after upTo firing
      by_cases here : t = sched.matcher.nextWakeupTime lastExec
      · exact absurd (here ▸ firing.2) fires
      · exact earlier t after (by omega) firing
  | @existing i fails nextExec found =>
    obtain ⟨firing,covered⟩ := marked.behind _ (List.mem_of_getElem? found)
    refine marked.move i ?_
    by_cases goesOn : fails = true ∨ s.Has sched nextExec
    · rw [if_pos goesOn]
      refine ⟨firing.1,covered.next ?_⟩
      intro after
      rcases goesOn with failed | there
      · exact missed nextExec found failed after
      · exact there
    · rw [if_neg goesOn]
      exact ⟨firing,covered⟩
  | @enqueue i attempt nextExec found =>
    obtain ⟨firing,covered⟩ := marked.behind _ (List.mem_of_getElem? found)
    have enqueued := marked.enqueue none nextExec attempt
    have enqueues : Enqueues sched s none nextExec _ := enqueue_enqueues s none nextExec attempt
    have missed := missed nextExec found
    generalize s.enqueue sched none nextExec attempt = result at enqueued enqueues missed
    obtain ⟨done,s'⟩ := result
    have earlier : Covered sched T0 s' (nextExec - 1) := covered.mono fun t there => enqueues.keeps _ there
    refine enqueued.move i ?_
    cases done with
    | true => exact ⟨firing,earlier.next fun _ => enqueues.there rfl⟩
    | false => exact ⟨firing.1,earlier.next fun after => missed rfl after⟩
  | @update i fails nextExec found =>
    obtain ⟨firing,covered⟩ := marked.behind _ (List.mem_of_getElem? found)
    have live : Behind sched T0 s (.live nextExec) := ⟨firing.1,covered⟩
    cases fails with
    | true => exact marked.move i live
    | false => exact ⟨⟨nextExec,rfl,covered⟩,all_set marked.behind live i⟩
  | stop i => exact marked.move i trivial
  | @other op keepsOp => exact marked.mono (step_keeps taken) rfl rfl

/-- In every run in which no firing is given up, no firing after `T0` up to the watermark is without its workflow. -/
theorem watermark_covers (t : Statuses) (events : List Event) (s : System)
    (missed : Along (step sched) (NothingMissed sched T0) { table := t,lastFiredAt := some T0 } events)
    (run : Runs (step sched) { table := t,lastFiredAt := some T0 } events s) (lastFired : Int) (stored : s.lastFiredAt = some lastFired) :
    Covered sched T0 s lastFired := by
  have begins : Watermarked sched T0 { table := t,lastFiredAt := some T0 } := by
    refine ⟨⟨T0,rfl,?_⟩,?_⟩
    · intro t after upTo
      omega
    · intro phase listed
      cases listed
  obtain ⟨_,found,covered⟩ :=
    (along_invariant (fun _ _ _ marked missed taken => step_watermarked marked missed taken) begins missed run).stored
  cases stored.symm.trans found
  exact covered

/-- Enough for `NothingMissed`, and decided. -/
def unfailing (sched : Schedule) (s : System) : Event → Bool
  | .poll i _ =>
    match s.loops[i]? with
    | some (.listed (some lastFired)) => lastFired % 1000 = 0
    | _ => true
  | .iterate i attempt =>
    match s.loops[i]? with
    | some (.backfill start end_ current _) =>
      match iteration sched.matcher end_ current with
      | .enqueue next => (s.enqueue sched (some (start,end_)) next attempt).1
      | _ => true
    | _ => true
  | .startLoop i now =>
    match s.loops[i]? with
    | some (.polled _ polled) => secondOf now < polled
    | _ => true
  | .existing _ fails => !fails
  | .enqueue i attempt =>
    match s.loops[i]? with
    | some (.missing nextExec) => (s.enqueue sched none nextExec attempt).1
    | _ => true
  | _ => true

theorem nothingMissed_of_unfailing (s : System) (e : Event) (works : unfailing sched s e = true) : NothingMissed sched T0 s e := by
  cases e with
  | poll i now =>
    intro lastFired found before
    simp only [unfailing,found,decide_eq_true_eq] at works
    exact .inl works
  | iterate i attempt =>
    intro start end_ current found next here failed
    simp only [unfailing,found,here] at works
    rw [works] at failed
    cases failed
  | startLoop i now =>
    intro lastFired polled found t after later from_ upTo
    simp only [unfailing,found,decide_eq_true_eq] at works
    omega
  | existing i fails =>
    intro nextExec found failed
    simp [unfailing,failed] at works
  | enqueue i attempt =>
    intro nextExec found failed
    simp only [unfailing,found] at works
    rw [works] at failed
    cases failed
  | _ => trivial

/-- A process polls, backfills the first firing and starts its live loop. -/
def backfilled (now started : Int) : List Event :=
  [.listSchedules,.poll 0 now,.iterate 0 (.sent "1" 7 true),.iterate 0 .failed,.startLoop 0 started]

/-- The live loop comes to a firing. -/
def fires : List Event := [.wake 0,.existing 0 false,.enqueue 0 (.sent "1" 8 true),.update 0 false]

theorem watermark_covers_backfilled : ∃ s,
    Runs (step threeTimes) { lastFiredAt := some 0 } (backfilled 1500 1700 ++ fires) s ∧ s.lastFiredAt = some 2000 ∧
      Covered threeTimes 0 s 2000 := by
  have ran : ((backfilled 1500 1700 ++ fires).foldlM (step threeTimes) { lastFiredAt := some 0 }).map System.lastFiredAt =
      some (some 2000) := by decide +kernel
  obtain ⟨s,run,stored⟩ := Option.map_eq_some_iff.mp ran
  have works : Along (step threeTimes) (fun s e => unfailing threeTimes s e = true) { lastFiredAt := some 0 }
      (backfilled 1500 1700 ++ fires) := by decide +kernel
  exact ⟨s,run,stored,watermark_covers Table.empty _ s (along_imp nothingMissed_of_unfailing works) run 2000 stored⟩

/-- The firing at 2000 falls between the poll and a live loop that starts at 2500. -/
def late : List Event := backfilled 1500 2500 ++ fires

/-- The enqueue of the firing at 2000 fails. -/
def failed : List Event := backfilled 1500 1700 ++ [Event.wake 0,.existing 0 false,.enqueue 0 .failed] ++ fires

theorem watermark_skips :
    (∃ s, Runs (step threeTimes) { lastFiredAt := some 0 } late s ∧ s.lastFiredAt = some 3000 ∧ ¬ s.Has threeTimes 2000) ∧
    (∃ s, Runs (step threeTimes) { lastFiredAt := some 0 } failed s ∧ s.lastFiredAt = some 3000 ∧ ¬ s.Has threeTimes 2000) ∧
    ¬ ∀ (sched : Schedule) T0 t events s lastFired, Runs (step sched) { table := t,lastFiredAt := some T0 } events s →
      s.lastFiredAt = some lastFired → Covered sched T0 s lastFired := by
  have skips : ∀ events, ((events.foldlM (step threeTimes) { lastFiredAt := some 0 }).map fun s =>
        (s.lastFiredAt,decide (s.Has threeTimes 2000))) = some (some 3000,false) →
      ∃ s, Runs (step threeTimes) { lastFiredAt := some 0 } events s ∧ s.lastFiredAt = some 3000 ∧ ¬ s.Has threeTimes 2000 := by
    intro events ran
    obtain ⟨s,run,ends⟩ := Option.map_eq_some_iff.mp ran
    obtain ⟨stored,absent⟩ := Prod.mk.inj ends
    exact ⟨s,run,stored,of_decide_eq_false absent⟩
  have skipped := skips late (by decide +kernel)
  refine ⟨skipped,skips failed (by decide +kernel),?_⟩
  obtain ⟨s,run,stored,absent⟩ := skipped
  intro always
  exact absent (always threeTimes 0 Table.empty late s 3000 run stored 2000 (by decide) (by decide) (by decide +kernel))

end Dbos.Watermark
