import Dbos.Kafka
import Dbos.Pg.Fields

/-!
The workflow IDs of Kafka messages. `#eachBatch` joins topic, partition, consumer group and offset with hyphens, which topics and
groups may have themselves, so that two messages can have one ID; the second one is then taken for a redelivery of the first. That
happens exactly when the partition and a part of the group of one message are read as the end of the topic of the other.
-/
namespace Dbos.KafkaIDs
open Dbos.Pg Dbos.Pg.Fields Dbos.Schema Dbos.Status Dbos.Kafka

/-- Where a message is: its offset within the partition, and the group that consumes it. -/
structure Coordinates where
  topic : String
  partition : Nat
  groupId : String
  offset : Nat
  deriving DecidableEq

/-- `message.offset` is the decimal number. -/
def Coordinates.workflowID (q : Coordinates) : String := Kafka.workflowID q.topic q.partition q.groupId (toString q.offset)

/-- The topic of `q'` goes on where the one of `q` ends, with the partition of `q` and perhaps more, and the group of `q` starts
    with what is left of the topic of `q'`, and its partition. -/
def Shifted (q q' : Coordinates) : Prop :=
  (q'.topic = q.topic ++ "-" ++ toString q.partition ∧ q.groupId = toString q'.partition ++ "-" ++ q'.groupId) ∨
    ∃ middle, q'.topic = q.topic ++ "-" ++ toString q.partition ++ "-" ++ middle ∧
      q.groupId = middle ++ "-" ++ toString q'.partition ++ "-" ++ q'.groupId

def Overlap (q q' : Coordinates) : Prop := q.offset = q'.offset ∧ (Shifted q q' ∨ Shifted q' q)

/-! ### The fields of an ID -/

/-- What stands between the topic and the offset. -/
def middle (q : Coordinates) : List Char := Nat.toDigits 10 q.partition ++ '-' :: q.groupId.toList

theorem workflowID_toList (q : Coordinates) : q.workflowID.toList =
    "kafkajs-".toList ++ ((q.topic.toList ++ '-' :: middle q) ++ '-' :: Nat.toDigits 10 q.offset) := by
  simp [Coordinates.workflowID,Kafka.workflowID,middle,toString]

theorem hyphen_not_digit : ('-').isDigit = false := rfl

theorem shifted_iff (q q' : Coordinates) :
    Shifted q q' ↔ ∃ m, q'.topic.toList = q.topic.toList ++ '-' :: m ∧ middle q = m ++ '-' :: middle q' := by
  unfold Shifted middle
  constructor
  · rintro (⟨topic,group⟩ | ⟨text,topic,group⟩)
    · refine ⟨Nat.toDigits 10 q.partition,?_,?_⟩
      · simp [topic]
      · simp [group]
    · refine ⟨Nat.toDigits 10 q.partition ++ '-' :: text.toList,?_,?_⟩
      · simp [topic]
      · simp [group]
  · rintro ⟨m,topic,rest⟩
    rcases split_cases.mp rest with ⟨rfl,group⟩ | ⟨text,rfl,group⟩ | ⟨text,digits,_⟩
    · refine .inl ⟨String.toList_inj.mp ?_,String.toList_inj.mp ?_⟩
      · simp [topic]
      · simp [group]
    · refine .inr ⟨String.ofList text,String.toList_inj.mp ?_,String.toList_inj.mp ?_⟩
      · simp [topic]
      · simp [group]
    · -- no hyphen is within the partition
      have inside : '-' ∈ Nat.toDigits 10 q.partition := digits ▸ List.mem_append_right _ List.mem_cons_self
      exact absurd inside (not_mem_digits hyphen_not_digit _)

theorem workflowID_eq_iff (q q' : Coordinates) : q.workflowID = q'.workflowID ↔ q = q' ∨ Overlap q q' := by
  rw [← String.toList_inj,workflowID_toList,workflowID_toList,List.append_cancel_left_eq,
    split_last (not_mem_digits hyphen_not_digit _) (not_mem_digits hyphen_not_digit _),split_cases]
  unfold Overlap
  rw [shifted_iff,shifted_iff]
  constructor
  · rintro ⟨⟨topic,rest⟩ | further | further,offset⟩
    · unfold middle at rest
      have ⟨partition,group⟩ := (split_first (not_mem_digits hyphen_not_digit _) (not_mem_digits hyphen_not_digit _)).mp rest
      refine .inl ?_
      cases q
      cases q'
      simp only [Coordinates.mk.injEq]
      exact ⟨String.toList_inj.mp topic,digits_injective partition,String.toList_inj.mp group,digits_injective offset⟩
    · exact .inr ⟨digits_injective offset,.inl further⟩
    · exact .inr ⟨digits_injective offset,.inr further⟩
  · rintro (rfl | ⟨offset,further | further⟩)
    · exact ⟨.inl ⟨rfl,rfl⟩,rfl⟩
    · exact ⟨.inr (.inl further),by rw [offset]⟩
    · exact ⟨.inr (.inr further),by rw [offset]⟩

/-- A shifted topic is longer. -/
theorem overlap_ne {q q' : Coordinates} (overlap : Overlap q q') : q ≠ q' := by
  have longer : ∀ a b : Coordinates, Shifted a b → a ≠ b := by
    rintro a b shifted rfl
    obtain ⟨m,topic,_⟩ := (shifted_iff a a).mp shifted
    have lengths := congrArg List.length topic
    simp at lengths
  rcases overlap with ⟨_,further | further⟩
  · exact longer q q' further
  · exact (longer q' q further).symm

/-- Two messages have IDs of their own exactly when they do not overlap. -/
theorem workflowIDs_distinct_iff (q q' : Coordinates) : (q ≠ q' → q.workflowID ≠ q'.workflowID) ↔ ¬ Overlap q q' := by
  constructor
  · intro distinct overlap
    exact distinct (overlap_ne overlap) ((workflowID_eq_iff q q').mpr (.inr overlap))
  · intro apart differ same
    rcases (workflowID_eq_iff q q').mp same with equal | overlap
    · exact differ equal
    · exact apart overlap

/-- Two topics of one application, each with one message, and two consumer groups. -/
def hyphened (topic : String) (partition : Nat) (groupId : String) : Payload where
  topic := topic
  partition := partition
  messages := [⟨"5"⟩]
  groupId := groupId
  batchSize := 250
  workflowName := "w"

def consumed (i : Nat) : List Event :=
  [.act i (.begin true),.act i (.prepare (.prepared (some "[]") none 7)),.act i .prepared,.enqueueWorkflows i [7],.insert i,.commit i .done,
    .act i .resolveOffset]

def collision : List Event :=
  [Event.deliver (hyphened "a-0" 1 "g"),.deliver (hyphened "a" 0 "1-g")] ++ consumed 0 ++ consumed 1

/-- Two messages share an ID, and the second one is resolved and has no workflow. -/
theorem workflowIDs_collide :
    (⟨"a-0",1,"g",5⟩ : Coordinates).workflowID = (⟨"a",0,"1-g",5⟩ : Coordinates).workflowID ∧
    (∃ s, Runs step { table := Table.empty } collision s ∧ s.consumers.map Consumer.resolved = [[0],[0]] ∧
      s.calls.map Call.inserted = [["kafkajs-a-0-1-g-5"],[]]) ∧
    ¬ ∀ q q' : Coordinates, q ≠ q' → q.workflowID ≠ q'.workflowID := by
  have same : (⟨"a-0",1,"g",5⟩ : Coordinates).workflowID = (⟨"a",0,"1-g",5⟩ : Coordinates).workflowID := by decide +kernel
  refine ⟨same,?_,fun distinct => distinct ⟨"a-0",1,"g",5⟩ ⟨"a",0,"1-g",5⟩ (by decide) same⟩
  have ran : (collision.foldlM step { table := Table.empty }).map (fun s => (s.consumers.map Consumer.resolved,s.calls.map Call.inserted)) =
      some ([[0],[0]],[["kafkajs-a-0-1-g-5"],[]]) := by decide +kernel
  obtain ⟨s,run,ends⟩ := Option.map_eq_some_iff.mp ran
  exact ⟨s,run,congrArg Prod.fst ends,congrArg Prod.snd ends⟩

end Dbos.KafkaIDs
