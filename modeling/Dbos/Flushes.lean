import Dbos.WakeUps

/-!
What is signalled is sent: the notifier of a process takes everything that is pending before each flush, `destroy` lets it flush once
more, and a statement that fails drops the batch of its channel alone. Signals that come close together are sent together: each flush
runs one statement for a channel, and a payload is in it once.
-/
namespace Dbos.Flushes
open Dbos.Pg Dbos.Schema Dbos.Notifications Dbos.WakeUps

/-! ### Nothing is left behind -/

/-- The event is the statement of the process `q` for a batch with the notice. -/
def attempts (q : Nat) (notice : Notice) (s : System) : Event → Bool
  | .process q' (.notify _) =>
    q' = q ∧ (s.processes[q]?).any fun proc => Listed ((Notifier.left proc.notifier).take 1) notice
  | _ => false

/-- The notifier goes on after what it does now. -/
def Goes (notifier : Notifier) : Prop := notifier = .sleeping ∨ ∃ batches, notifier = .flushing batches

/-- The notice is pending before a flush that is still to come, or it is in a batch that is still to be sent. -/
def Due (proc : Process) (notice : Notice) : Prop :=
  (Goes proc.notifier ∧ Pending proc notice) ∨ Listed (Notifier.left proc.notifier) notice

/-- Each payload is once in its batch. -/
def Coalesced (batches : List (Channel × List String)) : Prop := ∀ batch ∈ batches,batch.2.Nodup

/-- One statement for each channel, with each payload once and never with none. -/
structure Flush (batches : List (Channel × List String)) : Prop where
  channels : (batches.map Prod.fst).Nodup
  payloads : Coalesced batches
  filled : ∀ batch ∈ batches,batch.2 ≠ []

structure Tidy (proc : Process) : Prop where
  pending : Coalesced proc.pendingNotifications.entries
  flush : Flush (Notifier.left proc.notifier)

theorem flush_batches {proc : Process} (tidy : Tidy proc) : Flush proc.batches where
  channels := proc.pendingNotifications.distinct.sublist (List.filter_sublist.map _)
  payloads := fun batch member => tidy.pending batch (List.mem_filter.mp member).1
  filled := fun batch member => by simpa using (List.mem_filter.mp member).2

theorem flush_nil : Flush [] := ⟨List.nodup_nil,(fun _ member => nomatch member),fun _ member => nomatch member⟩

theorem flush_tail {batch : Channel × List String} {rest : List (Channel × List String)} (flush : Flush (batch :: rest)) : Flush rest where
  channels := (List.nodup_cons.mp flush.channels).2
  payloads := fun b member => flush.payloads b (List.mem_cons_of_mem _ member)
  filled := fun b member => flush.filled b (List.mem_cons_of_mem _ member)

theorem coalesced_empty : Coalesced (Table.empty : Table Channel (List String)).entries := fun _ member => nomatch member

theorem Tidy.finalFlush {proc : Process} (tidy : Tidy proc) : Tidy proc.finalFlush := by
  have batches := flush_batches tidy
  unfold Process.finalFlush
  split
  · exact ⟨tidy.pending,flush_nil⟩
  · exact ⟨coalesced_empty,batches⟩

theorem Tidy.act {proc proc' : Process} {e : ProcessEvent} {sent : List Notice} (tidy : Tidy proc)
    (acts : proc.act e = some (proc',sent)) : Tidy proc' := by
  cases e with
  | wakeNotifier =>
    simp only [Process.act] at acts
    split at acts <;> cases acts
    have batches := flush_batches tidy
    unfold Process.wakeNotifier
    split
    · exact tidy.finalFlush
    · split
      · exact tidy
      · exact ⟨coalesced_empty,batches⟩
  | notify succeeds =>
    have flush := tidy.flush
    simp only [Process.act] at acts
    split at acts
    · rename_i batch rest flushing
      cases acts
      rw [flushing,Notifier.left] at flush
      by_cases last : rest = []
      · rw [if_pos last]
        unfold Process.flushed
        split
        · exact ⟨tidy.pending,flush_nil⟩
        · exact tidy.finalFlush
      · rw [if_neg last]
        exact ⟨tidy.pending,flush_tail flush⟩
    · rename_i batch rest flushing
      cases acts
      rw [flushing,Notifier.left] at flush
      by_cases last : rest = []
      · rw [if_pos last]
        exact ⟨tidy.pending,flush_nil⟩
      · rw [if_neg last]
        exact ⟨tidy.pending,flush_tail flush⟩
    · cases acts
  | destroy =>
    cases acts
    exact ⟨tidy.pending,tidy.flush⟩
  | listen =>
    simp only [Process.act] at acts
    split at acts <;> cases acts <;> exact ⟨tidy.pending,tidy.flush⟩
  | installHandler =>
    simp only [Process.act] at acts
    split at acts <;> cases acts
    exact ⟨tidy.pending,tidy.flush⟩
  | lose =>
    cases acts
    exact ⟨tidy.pending,tidy.flush⟩

end Dbos.Flushes
