import Dbos.Pg.Loop
import Dbos.Pg.Search
import Dbos.RunningMap
import Dbos.Status

/-!
`cancelWorkflows` and `deleteWorkflows` with the children of the workflows. Both go down the tree that the `parent_workflow_id` of the
rows spans, level by level. Nothing keeps that tree from having cycles, and the finished workflows in it are passed like the others.
-/
namespace Dbos.Cascade
open Dbos.Pg Dbos.Schema StatusString

/-! ### The methods -/

/-- `#getDirectChildren`. -/
def getDirectChildren (t : Statuses) (workflowIDs : List String) : List String :=
  if workflowIDs = [] then [] else t.keys fun _ row => row.parent_workflow_id.any fun parent => parent ∈ workflowIDs

structure Descent where
  frontier : List String
  descendants : List String

/-- The loop of `getWorkflowChildren`. -/
def childrenTurn (t : Statuses) (s : Descent) : List String ⊕ Descent :=
  if s.frontier = [] then .inl s.descendants
  else
    let frontier := unseen (getDirectChildren t s.frontier) s.descendants
    .inr ⟨frontier,frontier.foldl addTo s.descendants⟩

def getWorkflowChildren (t : Statuses) (fuel : Nat) (workflowID : String) : Option (List String) :=
  loop (fun _ s => some (childrenTurn t s)) fuel ⟨[workflowID],[]⟩

structure Cancelling where
  workflow_status : Statuses
  level : Nat
  frontier : List String
  visited : List String

/-- The loop of `cancelWorkflows`. Each level is an UPDATE of its own, with a clock of its own. -/
def cancelTurn (now : Nat → Int) (s : Cancelling) : Statuses ⊕ Cancelling :=
  if s.frontier = [] then .inl s.workflow_status
  else
    let t := Status.cancelWorkflows s.workflow_status s.frontier (now s.level)
    let frontier := unseen (getDirectChildren t s.frontier) s.visited
    .inr ⟨t,s.level + 1,frontier,frontier.foldl addTo s.visited⟩

def cancelWorkflows (t : Statuses) (now : Nat → Int) (cancelChildren : Bool) (fuel : Nat) (workflowIDs : List String) : Option Statuses :=
  if cancelChildren then loop (fun _ s => some (cancelTurn now s)) fuel ⟨t,0,workflowIDs,workflowIDs.foldl addTo []⟩
  else some (Status.cancelWorkflows t workflowIDs (now 0))

/-- The table and the map of running workflows after `deleteWorkflows`. -/
def deleteWorkflows (t : Statuses) (executor : RunningMap.Executor) (deleteChildren : Bool) (fuel : Nat) (workflowIDs : List String) :
    Option (Statuses × RunningMap.Executor) := do
  let children ← if deleteChildren then workflowIDs.mapM (getWorkflowChildren t fuel) else some []
  let allIds := workflowIDs ++ children.flatten
  some (Status.deleteWorkflows t allIds,executor.deleteWorkflows allIds)

/-! ### The tree -/

def ChildOf (t : Statuses) (parent child : String) : Prop :=
  ∃ row,t.get? child = some row ∧ row.parent_workflow_id = some parent

/-- One of the workflows, or below one of them. -/
def Within (t : Statuses) (roots : List String) (id : String) : Prop := id ∈ roots ∨ Below (ChildOf t) roots id

def Unfinished (row : WorkflowStatus) : Prop := row.status ≠ SUCCESS ∧ row.status ≠ ERROR

/-- The unfinished rows among those of `P` are cancelled, and all other rows are as they were. -/
def CancelledIn (t t' : Statuses) (P : String → Prop) : Prop :=
  ∀ id,(∀ row,t.get? id = some row → P id → Unfinished row → ∃ now,t'.get? id = some (Status.cancelledRow now row)) ∧
    ((∀ row,t.get? id = some row → P id → ¬ Unfinished row) → t'.get? id = t.get? id)

theorem mem_getDirectChildren {t : Statuses} {frontier : List String} (child : String) :
    child ∈ getDirectChildren t frontier ↔ ∃ parent ∈ frontier,ChildOf t parent child := by
  unfold getDirectChildren
  split
  · rename_i nobody
    simp [nobody]
  · rw [Table.mem_keys]
    constructor
    · rintro ⟨row,found,under⟩
      obtain ⟨parent,named,listed⟩ := (Option.any_eq_true _ _).mp under
      exact ⟨parent,by simpa using listed,row,found,named⟩
    · rintro ⟨parent,listed,row,found,named⟩
      exact ⟨row,found,by simpa [named] using listed⟩

theorem mem_keys_of_child {t : Statuses} {frontier : List String} {child : String} (listed : child ∈ getDirectChildren t frontier) :
    child ∈ t.keys fun _ _ => true := by
  obtain ⟨_,_,row,found,_⟩ := (mem_getDirectChildren child).mp listed
  exact (t.mem_keys _ child).mpr ⟨row,found,rfl⟩

/-- A cancellation moves nobody in the tree. -/
theorem childOf_cancel (t : Statuses) (ids : List String) (now : Int) :
    ChildOf (Status.cancelWorkflows t ids now) = ChildOf t := by
  funext parent child
  unfold ChildOf Status.cancelWorkflows
  rw [Table.get?_update]
  cases t.get? child with
  | none => simp
  | some row =>
    by_cases hits : Status.unfinishedHits ids child row = true
    · simp [hits,Status.cancelledRow]
    · simp [hits]

/-! ### getWorkflowChildren -/

/-- `descendants` never counts the workflow itself as found unless some child leads back to it. -/
theorem getWorkflowChildren_ends (t : Statuses) (workflowID : String) :
    ∃ ids,Ends (getWorkflowChildren t) workflowID ids ∧ ids.Nodup ∧ ∀ id,id ∈ ids ↔ Below (ChildOf t) [workflowID] id := by
  let wanted (ids : List String) : Prop := ids.Nodup ∧ ∀ id,id ∈ ids ↔ Below (ChildOf t) [workflowID] id
  let I (s : Descent) : Prop :=
    Searched (ChildOf t) [workflowID] (Below (ChildOf t) [workflowID]) s.frontier s.descendants ∧ s.descendants.Nodup
  have start : I ⟨[workflowID],[]⟩ :=
    ⟨⟨fun id member => .inl member,by simp,fun id known => .inl (known.resolve_right (by simp))⟩,List.nodup_nil⟩
  refine loop_ends (Q := wanted) (grows_const (childrenTurn t)) (fun s => unsearched (t.keys fun _ _ => true) s.frontier s.descendants) ?_ start
  rintro s ⟨searched,distinct⟩
  by_cases nobody : s.frontier = []
  · refine .inl ⟨s.descendants,⟨0,by simp [childrenTurn,nobody]⟩,distinct,fun id => ⟨searched.sound id,fun below => ?_⟩⟩
    rw [nobody] at searched
    exact searched.complete below
  · have next : childrenTurn t s = .inr ⟨unseen (getDirectChildren t s.frontier) s.descendants,
        (unseen (getDirectChildren t s.frontier) s.descendants).foldl addTo s.descendants⟩ := if_neg nobody
    refine .inr ⟨_,⟨0,congrArg some next⟩,⟨?_,nodup_addAll distinct⟩,?_⟩
    · exact searched.next (fun _ below => below) mem_getDirectChildren
    · exact unsearched_next (fun child => mem_keys_of_child) nobody

/-! ### cancelWorkflows -/

theorem unfinishedHits_iff {ids : List String} {id : String} {row : WorkflowStatus} :
    Status.unfinishedHits ids id row = true ↔ id ∈ ids ∧ Unfinished row := by
  simp [Status.unfinishedHits,Unfinished]

/-- What `#cancelWorkflows` makes of a row. -/
theorem get?_cancelWorkflows (t : Statuses) (ids : List String) (id : String) (now : Int) :
    (∀ row,t.get? id = some row → id ∈ ids → Unfinished row →
      (Status.cancelWorkflows t ids now).get? id = some (Status.cancelledRow now row)) ∧
    ((∀ row,t.get? id = some row → id ∈ ids → ¬ Unfinished row) → (Status.cancelWorkflows t ids now).get? id = t.get? id) := by
  unfold Status.cancelWorkflows
  rw [Table.get?_update]
  constructor
  · intro row found listed unfinished
    rw [found,Option.map_some,if_pos (unfinishedHits_iff.mpr ⟨listed,unfinished⟩)]
  · intro finished
    cases found : t.get? id with
    | none => rfl
    | some row =>
      have misses : ¬ Status.unfinishedHits ids id row = true := by
        rw [unfinishedHits_iff]
        exact fun hit => finished row found hit.1 hit.2
      rw [Option.map_some,if_neg misses]

/-- A level is cancelled once, after those above it. -/
theorem cancelledIn_level {t t' : Statuses} {P : String → Prop} {frontier : List String} (before : CancelledIn t t' P)
    (new : ∀ id ∈ frontier,¬ P id) (now : Int) :
    CancelledIn t (Status.cancelWorkflows t' frontier now) fun id => P id ∨ id ∈ frontier := by
  intro id
  obtain ⟨cancelled,untouched⟩ := before id
  obtain ⟨hit,missed⟩ := get?_cancelWorkflows t' frontier id now
  by_cases here : id ∈ frontier
  · have same : t'.get? id = t.get? id := untouched fun _ _ above => absurd above (new id here)
    rw [same] at hit missed
    refine ⟨fun row found _ unfinished => ⟨now,hit row found here unfinished⟩,fun finished => ?_⟩
    exact missed fun row found _ => finished row found (.inr here)
  · rw [missed fun _ _ listed => absurd listed here]
    refine ⟨fun row found member => cancelled row found (member.resolve_right here),fun finished => ?_⟩
    exact untouched fun row found member => finished row found (.inl member)

theorem cancelledIn_congr {t t' : Statuses} {P Q : String → Prop} (same : ∀ id,P id ↔ Q id) (rows : CancelledIn t t' P) :
    CancelledIn t t' Q := by
  have equal : P = Q := funext fun id => propext (same id)
  exact equal ▸ rows

/-- The levels above the frontier are cancelled. The frontier counts as visited already. -/
structure Cascading (t : Statuses) (roots : List String) (s : Cancelling) : Prop where
  searched : Searched (ChildOf t) roots (Within t roots) s.frontier s.visited
  rooted : ∀ id ∈ roots,id ∈ s.visited
  waiting : ∀ id ∈ s.frontier,id ∈ s.visited
  tree : ChildOf s.workflow_status = ChildOf t
  rows : CancelledIn t s.workflow_status fun id => id ∈ s.visited ∧ id ∉ s.frontier

theorem cascading_start (t : Statuses) (roots : List String) : Cascading t roots ⟨t,0,roots,roots.foldl addTo []⟩ := by
  have listed : ∀ id,id ∈ roots.foldl addTo [] ↔ id ∈ roots := fun id => by simp [mem_addAll]
  refine ⟨⟨fun id root => .inl root,fun id member => .inl ((listed id).mp member),fun id known => .inl ?_⟩,
    fun id root => (listed id).mpr root,fun id root => (listed id).mpr root,rfl,fun id => ⟨?_,fun _ => rfl⟩⟩
  · rcases known with root | member
    · exact root
    · exact (listed id).mp member
  · rintro row _ ⟨member,above⟩
    exact absurd ((listed id).mp member) above

theorem cascading_next {t : Statuses} {roots : List String} {s : Cancelling} (holds : Cascading t roots s) (now : Int) :
    let t' := Status.cancelWorkflows s.workflow_status s.frontier now
    let frontier := unseen (getDirectChildren t' s.frontier) s.visited
    Cascading t roots ⟨t',s.level + 1,frontier,frontier.foldl addTo s.visited⟩ := by
  intro t' frontier
  have tree : ChildOf t' = ChildOf t := (childOf_cancel _ _ _).trans holds.tree
  refine ⟨?_,fun id root => mem_addAll.mpr (.inl (holds.rooted id root)),fun id new => mem_addAll.mpr (.inr new),tree,?_⟩
  · refine holds.searched.next (fun id below => .inr below) fun child => ?_
    rw [← tree]
    exact mem_getDirectChildren child
  refine cancelledIn_congr (fun id => ?_) (cancelledIn_level holds.rows (fun id member above => above.2 member) now)
  have old : id ∈ s.visited → id ∉ frontier := fun member new => (mem_unseen.mp new).2 member
  rw [mem_addAll]
  constructor
  · rintro (⟨member,_⟩ | waits)
    · exact ⟨.inl member,old member⟩
    · exact ⟨.inl (holds.waiting id waits),old (holds.waiting id waits)⟩
  · rintro ⟨member | new,above⟩
    · by_cases waits : id ∈ s.frontier
      · exact .inr waits
      · exact .inl ⟨member,waits⟩
    · exact absurd new above

theorem cascading_over {t : Statuses} {roots : List String} {s : Cancelling} (holds : Cascading t roots s) (nobody : s.frontier = []) :
    CancelledIn t s.workflow_status (Within t roots) := by
  obtain ⟨searched,rooted,_,_,rows⟩ := holds
  rw [nobody] at searched rows
  refine cancelledIn_congr (fun id => ⟨fun member => searched.sound id member.1,fun within => ⟨?_,List.not_mem_nil⟩⟩) rows
  rcases within with root | below
  · exact rooted id root
  · exact searched.complete below

theorem cancelWorkflows_ends (t : Statuses) (now : Nat → Int) (roots : List String) :
    ∃ t',Ends (cancelWorkflows t now true) roots t' ∧ CancelledIn t t' (Within t roots) := by
  -- Whom the search can still find does not change with the statuses.
  have everybody : ∀ s,Cascading t roots s → ∀ child ∈ getDirectChildren (Status.cancelWorkflows s.workflow_status s.frontier (now s.level)) s.frontier,
      child ∈ t.keys fun _ _ => true := by
    intro s holds child listed
    obtain ⟨parent,_,under⟩ := (mem_getDirectChildren child).mp listed
    rw [childOf_cancel,holds.tree] at under
    obtain ⟨row,found,_⟩ := under
    exact (t.mem_keys _ child).mpr ⟨row,found,rfl⟩
  refine loop_ends (Q := fun t' => CancelledIn t t' (Within t roots)) (grows_const (cancelTurn now))
    (fun s => unsearched (t.keys fun _ _ => true) s.frontier s.visited) ?_ (cascading_start t roots)
  intro s holds
  by_cases nobody : s.frontier = []
  · exact .inl ⟨s.workflow_status,⟨0,congrArg some (if_pos nobody)⟩,cascading_over holds nobody⟩
  · refine .inr ⟨_,⟨0,congrArg some (if_neg nobody)⟩,cascading_next holds (now s.level),?_⟩
    exact unsearched_next (everybody s holds) nobody

/-! ### deleteWorkflows -/

/-- Below the workflows of a list is below one of them. -/
theorem mem_flatten_children {t : Statuses} {roots : List String} {children : List (List String)}
    (each : List.Forall₂ (fun root ids => ids.Nodup ∧ ∀ id,id ∈ ids ↔ Below (ChildOf t) [root] id) roots children) (id : String) :
    id ∈ children.flatten ↔ Below (ChildOf t) roots id := by
  induction each with
  | nil => simp [Below]
  | @cons root ids roots children here _ ih =>
    rw [List.flatten_cons,List.mem_append,ih,here.2]
    simp [Below]

theorem deleteWorkflows_ends (t : Statuses) (executor : RunningMap.Executor) (roots : List String) :
    ∃ t' executor',Ends (deleteWorkflows t executor true) roots (t',executor') ∧
      ∀ id,(Within t roots id → t'.get? id = none) ∧ (¬ Within t roots id → t'.get? id = t.get? id) := by
  have grows : Grows (getWorkflowChildren t) := fun fuel id _ => loop_grows (grows_const (childrenTurn t)) fuel ⟨[id],[]⟩ _
  obtain ⟨fuel,children,found,each⟩ := mapM_ends grows roots fun root _ => getWorkflowChildren_ends t root
  have exactly := mem_flatten_children each
  refine ⟨_,_,⟨fuel,by simp only [deleteWorkflows,if_true,found]; rfl⟩,fun id => ?_⟩
  have listed : id ∈ roots ++ children.flatten ↔ Within t roots id := by
    rw [List.mem_append,exactly]
    rfl
  unfold Status.deleteWorkflows
  rw [Table.get?_delete]
  constructor
  · intro within
    cases t.get? id <;> simp [listed.mpr within]
  · intro apart
    cases t.get? id <;> simp [mt listed.mp apart]

/-- Both loops end on every tree, and the three methods reach the workflows with all that is below them, and nobody else. -/
theorem cascade_exact (t : Statuses) :
    (∀ workflowID,∃ ids,Ends (getWorkflowChildren t) workflowID ids ∧ ids.Nodup ∧ ∀ id,id ∈ ids ↔ Below (ChildOf t) [workflowID] id) ∧
    (∀ now roots,∃ t',Ends (cancelWorkflows t now true) roots t' ∧ CancelledIn t t' (Within t roots)) ∧
    ∀ executor roots,∃ t' executor',Ends (deleteWorkflows t executor true) roots (t',executor') ∧
      ∀ id,(Within t roots id → t'.get? id = none) ∧ (¬ Within t roots id → t'.get? id = t.get? id) :=
  ⟨getWorkflowChildren_ends t,cancelWorkflows_ends t,deleteWorkflows_ends t⟩

end Dbos.Cascade
