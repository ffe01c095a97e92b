import Mathlib.Data.List.Forall2
import Dbos.Pg.Search
import Dbos.ExportImport

/-!
When an import undoes an export. The IDs of an export are the workflow and its descendants;
the parameters of each INSERT are the columns of the exported row, except for what
`importWorkflow` makes of `attributes`; and an import succeeds if and only if its rows are apart
from one another and from those that are there.
-/
namespace Dbos.ExportImport
open Dbos.Pg Dbos.Schema

/-! ### Descendants -/

def ChildOf (db : Database) (parent child : String) : Prop :=
  ∃ row ∈ db.workflow_status.rows,row .parent_workflow_id = .text parent ∧ row .workflow_uuid = .text child

/-- A child, a child of a child, and so on. -/
def Descendant (db : Database) : String → String → Prop := Relation.TransGen (ChildOf db)

theorem asText_eq_some {v : Value} {s : String} : v.asText = some s ↔ v = .text s := by
  cases v <;> simp [Value.asText]

theorem mem_directChildren {db : Database} {frontier : List String} {child : String} :
    child ∈ directChildren db frontier ↔ ∃ parent ∈ frontier,ChildOf db parent child := by
  simp only [directChildren,List.mem_filterMap,List.mem_filter,decide_eq_true_eq,asText_eq_some]
  constructor
  · rintro ⟨row,⟨member,parent,listed,under⟩,named⟩
    exact ⟨parent,listed,row,member,under,named⟩
  · rintro ⟨parent,listed,row,member,under,named⟩
    exact ⟨row,⟨member,parent,listed,under⟩,named⟩

@[simp] theorem search_nil (db : Database) (rounds : Nat) (descendants : List String) : search db rounds [] descendants = descendants := by
  cases rounds <;> rfl

theorem search_nodup (db : Database) (rounds : Nat) (frontier : List String) {descendants : List String}
    (distinct : descendants.Nodup) : (search db rounds frontier descendants).Nodup := by
  induction rounds generalizing frontier descendants with
  | zero => exact distinct
  | succ rounds ih =>
    cases frontier with
    | nil => exact distinct
    | cons first rest => exact ih _ (nodup_addAll distinct)

/-- The IDs of the rows. -/
def rowIDs (db : Database) : List String := db.workflow_status.rows.filterMap fun row => (row .workflow_uuid).asText

theorem childOf_rowIDs {db : Database} {parent child : String} (under : ChildOf db parent child) : child ∈ rowIDs db := by
  obtain ⟨row,member,_,named⟩ := under
  exact List.mem_filterMap.mpr ⟨row,member,asText_eq_some.mpr named⟩

/-- The rounds suffice to get to the end of the search. -/
theorem search_searched {db : Database} {root : String} (rounds : Nat) {frontier descendants : List String}
    (searched : Searched (ChildOf db) [root] (Below (ChildOf db) [root]) frontier descendants)
    (enough : (unseen (rowIDs db) descendants).length < rounds) :
    Searched (ChildOf db) [root] (Below (ChildOf db) [root]) [] (search db rounds frontier descendants) := by
  induction rounds generalizing frontier descendants with
  | zero => omega
  | succ rounds ih =>
    cases frontier with
    | nil => exact searched
    | cons first rest =>
      have later := searched.next (fun _ below => below) fun child => mem_directChildren
      have listed : ∀ child ∈ directChildren db (first :: rest),child ∈ rowIDs db := by
        intro child member
        obtain ⟨_,_,under⟩ := mem_directChildren.mp member
        exact childOf_rowIDs under
      have fewer : ∀ id,id ∈ unseen (directChildren db (first :: rest)) descendants → (unseen (rowIDs db)
          ((unseen (directChildren db (first :: rest)) descendants).foldl Pg.addTo descendants)).length < (unseen (rowIDs db) descendants).length :=
        fun id => unseen_fewer listed
      change Searched _ _ _ [] (search db rounds (unseen (directChildren db (first :: rest)) descendants)
        ((unseen (directChildren db (first :: rest)) descendants).foldl Pg.addTo descendants))
      generalize unseen (directChildren db (first :: rest)) descendants = next at later fewer ⊢
      cases next with
      | nil => simpa using later
      | cons new others =>
        have less := fewer new List.mem_cons_self
        exact ih later (by omega)

theorem mem_getWorkflowChildren (db : Database) (workflowID id : String) :
    id ∈ getWorkflowChildren db workflowID ↔ Descendant db workflowID id := by
  have below : Descendant db workflowID id ↔ Below (ChildOf db) [workflowID] id := by simp [Below,Descendant]
  have searched : Searched (ChildOf db) [workflowID] (Below (ChildOf db) [workflowID]) [] (getWorkflowChildren db workflowID) := by
    refine search_searched _ ⟨fun id member => .inl member,by simp,fun id known => .inl (known.resolve_right (by simp))⟩ ?_
    have listed : (rowIDs db).length ≤ db.workflow_status.rows.length := List.length_filterMap_le _ _
    exact Nat.lt_succ_of_le (Nat.le_trans (List.length_filter_le _ _) listed)
  rw [below]
  exact ⟨searched.sound id,searched.complete⟩

theorem exportedIDs_nodup (db : Database) (workflowID : String) (exportChildren : Bool) :
    (exportedIDs db workflowID exportChildren).Nodup ↔ (exportChildren = true → ¬ Descendant db workflowID workflowID) := by
  cases exportChildren with
  | false => simp [exportedIDs]
  | true =>
    have distinct : (getWorkflowChildren db workflowID).Nodup := search_nodup db _ _ List.nodup_nil
    simp [exportedIDs,distinct,mem_getWorkflowChildren]

/-! ### What an import writes -/

/-- The row that an import writes for an exported row. -/
def restored (row : StatusRow) : StatusRow
  | .owner_xid => .null
  | .attributes => if (row .attributes).truthy then row .attributes else .null
  | c => row c

def withoutOwner (row : StatusRow) : StatusRow := Function.update row .owner_xid .null

/-- The attributes are NULL or, for JavaScript, something. -/
def Attributed (row : StatusRow) : Prop := row .attributes = .null ∨ (row .attributes).truthy = true

instance (row : StatusRow) : Decidable (Attributed row) := inferInstanceAs (Decidable (_ ∨ _))

theorem nullish_some (v default : Value) (some' : v ≠ .null) : nullish (some v) default = v := by
  cases v <;> first | exact absurd rfl some' | rfl

theorem nullish_null (v : Value) : nullish (some v) .null = v := by
  cases v <;> rfl

theorem importedStatus_selected {row : StatusRow} (typed : workflow_status.Admits row) :
    importedStatus (selected statusSelect row) = restored row := by
  have present : ∀ c ∈ workflow_status.columns,StatusColumn.admits c .null = false → row c ≠ .null := by
    intro c listed notNull null
    have := typed c listed
    rw [null] at this
    simp [workflow_status,notNull] at this
  have forked := nullish_some (row .was_forked_from) (.boolean false) (present _ (by decide) rfl)
  have limited := nullish_some (row .rate_limited) (.boolean false) (present _ (by decide) rfl)
  have debounced := nullish_some (row .is_debounced) (.boolean false) (present _ (by decide) rfl)
  have listed : statusValues (selected statusSelect row) = statusInsert.map (restored row) := by
    simp [statusValues,statusInsert,statusSelect,selected,restored,parameter,truthy,forked,limited,debounced,nullish_null]
  funext c
  rw [importedStatus,listed,positional_map]
  cases c <;> rfl

theorem importedChild_selected (c : Child) (row : c.Row) : importedChild c (selected c.select row) = row := by
  have listed : c.values (selected c.select row) = c.insert.map row := by
    cases c <;> simp [Child.values,Child.insert,Child.select,selected,parameter]
  funext column
  rw [importedChild,listed,positional_map,if_pos]
  cases c <;> cases column <;> decide

theorem restored_eq {row : StatusRow} (attributed : Attributed row) : restored row = withoutOwner row := by
  funext c
  unfold withoutOwner
  cases c <;> try rfl
  show (if (row .attributes).truthy then row .attributes else .null) = row .attributes
  rcases attributed with null | something
  · simp [null]
  · rw [if_pos something]

theorem attributed_of_restored {row : StatusRow} (same : restored row .attributes = row .attributes) : Attributed row := by
  by_cases something : (row .attributes).truthy
  · exact .inr something
  · exact .inl (by simpa [restored,something] using same.symm)

theorem restored_admits {row : StatusRow} (typed : workflow_status.Admits row) : workflow_status.Admits (restored row) := by
  intro c listed
  have fits := typed c listed
  cases c <;> try exact fits
  · rfl
  · show StatusColumn.admits .attributes (if (row .attributes).truthy then row .attributes else .null) = true
    split
    · exact fits
    · rfl

theorem restored_keys {key : StatusRow → Option (List Value)} (index : key ∈ workflow_status.keys) (row : StatusRow) :
    key (restored row) = key row := by
  rcases List.mem_cons.mp index with rfl | index
  · rfl
  · rw [List.mem_singleton.mp index]; rfl

/-! ### Statements -/

def statusRows (statements : List Insert) : List StatusRow :=
  statements.filterMap fun st =>
    match st with
    | .status row => some row
    | .child .. => none

def childRows (c : Child) (statements : List Insert) : List c.Row :=
  statements.filterMap fun st =>
    match st with
    | .status _ => none
    | .child d row => if same : d = c then some (same ▸ row) else none

@[simp] theorem statusRows_status (row : StatusRow) (rest : List Insert) : statusRows (.status row :: rest) = row :: statusRows rest := rfl

@[simp] theorem childRows_status (c : Child) (row : StatusRow) (rest : List Insert) : childRows c (.status row :: rest) = childRows c rest := rfl

@[simp] theorem childRows_self (c : Child) (row : c.Row) (rest : List Insert) : childRows c (.child c row :: rest) = row :: childRows c rest := by
  simp [childRows]

theorem childRows_other {c d : Child} (other : d ≠ c) (row : d.Row) (rest : List Insert) :
    childRows c (.child d row :: rest) = childRows c rest := by
  simp [childRows,other]

theorem execute_rows {db db' : Database} {statement : Insert} (done : execute db statement = .ok db') :
    db'.workflow_status.rows = db.workflow_status.rows ++ statusRows [statement] ∧
      ∀ c,(db'.children c).rows = (db.children c).rows ++ childRows c [statement] := by
  cases statement with
  | status row =>
    simp only [execute] at done
    split at done
    · rename_i t _
      cases done
      exact ⟨t.2,fun c => (List.append_nil _).symm⟩
    · cases done
  | child c row =>
    simp only [execute] at done
    split at done
    · split at done
      · rename_i t _
        cases done
        refine ⟨(List.append_nil _).symm,fun d => ?_⟩
        by_cases same : d = c
        · subst same
          simp only [Function.update_self,t.2,childRows_self]
          rfl
        · simp only [Function.update_of_ne same,childRows_other (Ne.symm same)]
          exact (List.append_nil _).symm
      · cases done
    · cases done

theorem statusRows_cons (statement : Insert) (rest : List Insert) : statusRows (statement :: rest) = statusRows [statement] ++ statusRows rest :=
  List.filterMap_append (l := [statement])

theorem childRows_cons (c : Child) (statement : Insert) (rest : List Insert) :
    childRows c (statement :: rest) = childRows c [statement] ++ childRows c rest :=
  List.filterMap_append (l := [statement])

theorem runAll_rows {db db' : Database} {statements : List Insert} (done : runAll db statements = (.ok (),db')) :
    db'.workflow_status.rows = db.workflow_status.rows ++ statusRows statements ∧
      ∀ c,(db'.children c).rows = (db.children c).rows ++ childRows c statements := by
  induction statements generalizing db with
  | nil =>
    cases done
    exact ⟨(List.append_nil _).symm,fun c => (List.append_nil _).symm⟩
  | cons statement rest ih =>
    unfold runAll at done
    split at done
    · rename_i mid first
      obtain ⟨status,children⟩ := execute_rows first
      obtain ⟨status',children'⟩ := ih done
      constructor
      · rw [status',status,statusRows_cons statement rest,List.append_assoc]
      · intro c
        rw [children',children,childRows_cons c statement rest,List.append_assoc]
    · cases done

/-- What the tables ask of a list of INSERTs. -/
structure Insertable (db : Database) (statements : List Insert) : Prop where
  typed : ∀ row ∈ statusRows statements,workflow_status.Admits row
  apart : ∀ key ∈ workflow_status.keys,(db.workflow_status.rows ++ statusRows statements).Pairwise (Apart key)
  childTyped : ∀ c,∀ row ∈ childRows c statements,c.table.Admits row
  childApart : ∀ c,∀ key ∈ c.table.keys,((db.children c).rows ++ childRows c statements).Pairwise (Apart key)
  owners : ∀ before c row after,statements = before ++ .child c row :: after →
    ∃ s ∈ db.workflow_status.rows ++ statusRows before,s .workflow_uuid = row c.workflow_uuid

theorem execute_total {db : Database} {statement : Insert} {rest : List Insert} (insertable : Insertable db (statement :: rest)) :
    ∃ db',execute db statement = .ok db' := by
  cases statement with
  | status row =>
    have free : ∀ key ∈ workflow_status.keys,∀ other ∈ db.workflow_status.rows,Apart key other row := fun key index other old =>
      (List.pairwise_append.mp (insertable.apart key index)).2.2 other old row List.mem_cons_self
    obtain ⟨t,inserts⟩ := db.workflow_status.insert_ok (insertable.typed row List.mem_cons_self) free
    simp only [execute,inserts]
    exact ⟨_,rfl⟩
  | child c row =>
    have first : row ∈ childRows c (.child c row :: rest) := by rw [childRows_self]; exact List.mem_cons_self
    have free : ∀ key ∈ c.table.keys,∀ other ∈ (db.children c).rows,Apart key other row := fun key index other old =>
      (List.pairwise_append.mp (insertable.childApart c key index)).2.2 other old row first
    have owner : ∃ s ∈ db.workflow_status.rows,s .workflow_uuid = row c.workflow_uuid := by
      obtain ⟨s,there,same⟩ := insertable.owners [] c row rest rfl
      exact ⟨s,by simpa [statusRows] using there,same⟩
    obtain ⟨t,inserts⟩ := (db.children c).insert_ok (insertable.childTyped c row first) free
    simp only [execute,inserts,dif_pos owner]
    exact ⟨_,rfl⟩

theorem insertable_rest {db db' : Database} {statement : Insert} {rest : List Insert} (insertable : Insertable db (statement :: rest))
    (done : execute db statement = .ok db') : Insertable db' rest := by
  obtain ⟨status,children⟩ := execute_rows done
  constructor
  · intro row member
    exact insertable.typed row (by rw [statusRows_cons]; exact List.mem_append_right _ member)
  · intro key index
    rw [status,List.append_assoc,← statusRows_cons]
    exact insertable.apart key index
  · intro c row member
    exact insertable.childTyped c row (by rw [childRows_cons]; exact List.mem_append_right _ member)
  · intro c key index
    rw [children,List.append_assoc,← childRows_cons]
    exact insertable.childApart c key index
  · intro before c row after split
    obtain ⟨s,there,same⟩ := insertable.owners (statement :: before) c row after (by rw [split]; rfl)
    exact ⟨s,by rwa [status,List.append_assoc,← statusRows_cons],same⟩

theorem runAll_total {db : Database} {statements : List Insert} (insertable : Insertable db statements) :
    ∃ db',runAll db statements = (.ok (),db') := by
  induction statements generalizing db with
  | nil => exact ⟨db,rfl⟩
  | cons statement rest ih =>
    obtain ⟨mid,done⟩ := execute_total insertable
    obtain ⟨db',all⟩ := ih (insertable_rest insertable done)
    exact ⟨db',by rw [runAll,done]; exact all⟩

/-! ### What an export reads -/

/-- The export of the workflow of a row. -/
def exported (db : Database) (row : StatusRow) : ExportedWorkflow where
  workflow_status := selected statusSelect row
  children := fun c => ((db.children c).rows.filter fun r => r c.workflow_uuid = row .workflow_uuid).map (selected c.select)

theorem status_unique (db : Database) {a b : StatusRow} (left : a ∈ db.workflow_status.rows) (right : b ∈ db.workflow_status.rows)
    (same : a .workflow_uuid = b .workflow_uuid) : a = b := by
  by_contra other
  have index : statusKey ∈ workflow_status.keys := List.mem_cons_self
  rcases db.workflow_status.apart index left right other with none | apart
  · cases none
  · exact apart (by rw [statusKey,statusKey,same])

theorem exportOne_row {db : Database} {row : StatusRow} (there : row ∈ db.workflow_status.rows) {wfID : String}
    (named : row .workflow_uuid = .text wfID) : exportOne db wfID = .ok (exported db row) := by
  have hit : row ∈ db.workflow_status.rows.filter fun r => r .workflow_uuid = .text wfID := by
    simpa [named] using there
  unfold exportOne exported
  rw [named]
  split
  · rename_i none
    rw [none] at hit
    cases hit
  · rename_i found rest hits
    have first : found ∈ db.workflow_status.rows.filter fun r => r .workflow_uuid = .text wfID := by
      rw [hits]; exact List.mem_cons_self
    obtain ⟨listed,same⟩ := List.mem_filter.mp first
    rw [status_unique db listed there (by rw [named]; simpa using same)]

/-- Rows of the workflows of an export, in its order. -/
structure Exporting (db : Database) (ids : List String) (rows : List StatusRow) : Prop where
  there : ∀ row ∈ rows,row ∈ db.workflow_status.rows
  named : rows.map (fun row => row .workflow_uuid) = ids.map .text

theorem exporting_exists {db : Database} {ids : List String} (all : ∀ id ∈ ids,∃ row ∈ db.workflow_status.rows,row .workflow_uuid = .text id) :
    ∃ rows,Exporting db ids rows ∧ ids.mapM (exportOne db) = .ok (rows.map (exported db)) := by
  induction ids with
  | nil => exact ⟨[],⟨by simp,rfl⟩,rfl⟩
  | cons id rest ih =>
    obtain ⟨row,there,named⟩ := all id List.mem_cons_self
    obtain ⟨rows,exporting,done⟩ := ih fun id' later => all id' (List.mem_cons_of_mem _ later)
    refine ⟨row :: rows,⟨?_,?_⟩,?_⟩
    · exact List.forall_mem_cons.mpr ⟨there,exporting.there⟩
    · simp [named,exporting.named]
    · rw [List.mapM_cons,exportOne_row there named,done]
      rfl

/-- The child rows of the workflows of the rows. -/
def childrenOf (db : Database) (rows : List StatusRow) (c : Child) : List c.Row :=
  rows.flatMap fun row => (db.children c).rows.filter fun r => r c.workflow_uuid = row .workflow_uuid

theorem childrenOf_cons (db : Database) (row : StatusRow) (rest : List StatusRow) (c : Child) :
    childrenOf db (row :: rest) c =
      ((db.children c).rows.filter fun r => r c.workflow_uuid = row .workflow_uuid) ++ childrenOf db rest c := rfl

theorem statusRows_append (first rest : List Insert) : statusRows (first ++ rest) = statusRows first ++ statusRows rest :=
  List.filterMap_append

theorem childRows_append (c : Child) (first rest : List Insert) : childRows c (first ++ rest) = childRows c first ++ childRows c rest :=
  List.filterMap_append

theorem statusRows_children (tables : List Child) (rows : (c : Child) → List c.Row) :
    statusRows (tables.flatMap fun c => (rows c).map (Insert.child c)) = [] := by
  induction tables with
  | nil => rfl
  | cons c rest ih => rw [List.flatMap_cons,statusRows_append,ih]; simp [statusRows]

theorem childRows_map (c d : Child) (rows : List d.Row) :
    childRows c (rows.map (Insert.child d)) = if same : d = c then same ▸ rows else [] := by
  by_cases same : d = c
  · subst same
    simp [childRows,List.filterMap_map]
  · simp [childRows,same]

theorem childRows_children {c : Child} {tables : List Child} (distinct : tables.Nodup) (listed : c ∈ tables) (rows : (c : Child) → List c.Row) :
    childRows c (tables.flatMap fun d => (rows d).map (Insert.child d)) = rows c := by
  have none : ∀ others : List Child,c ∉ others → childRows c (others.flatMap fun d => (rows d).map (Insert.child d)) = [] := by
    intro others absent
    induction others with
    | nil => rfl
    | cons d rest ih =>
      rw [List.mem_cons,not_or] at absent
      rw [List.flatMap_cons,childRows_append,ih absent.2,childRows_map,dif_neg (Ne.symm absent.1)]
      rfl
  induction tables with
  | nil => cases listed
  | cons d rest ih =>
    obtain ⟨alone,distinct⟩ := List.nodup_cons.mp distinct
    rw [List.flatMap_cons,childRows_append,childRows_map]
    by_cases same : d = c
    · subst same
      rw [none rest alone]
      simp
    · rw [dif_neg same,ih distinct ((List.mem_cons.mp listed).resolve_left (Ne.symm same))]
      rfl

theorem importOne_exported {db : Database} {row : StatusRow} (there : row ∈ db.workflow_status.rows) :
    importOne (exported db row) = .status (restored row) ::
      Child.all.flatMap fun c => ((db.children c).rows.filter fun r => r c.workflow_uuid = row .workflow_uuid).map (Insert.child c) := by
  unfold importOne exported
  rw [importedStatus_selected (db.workflow_status.admitted row there)]
  simp only [List.map_map,Function.comp_def,importedChild_selected]

theorem statusRows_import {db : Database} {rows : List StatusRow} (there : ∀ row ∈ rows,row ∈ db.workflow_status.rows) :
    statusRows ((rows.map (exported db)).flatMap importOne) = rows.map restored := by
  induction rows with
  | nil => rfl
  | cons row rest ih =>
    rw [List.map_cons,List.flatMap_cons,statusRows_append,ih fun r later => there r (List.mem_cons_of_mem _ later),
      importOne_exported (there row List.mem_cons_self),statusRows_status]
    rw [statusRows_children Child.all fun c => (db.children c).rows.filter fun r => r c.workflow_uuid = row .workflow_uuid]
    rfl

theorem childRows_import {db : Database} {rows : List StatusRow} (there : ∀ row ∈ rows,row ∈ db.workflow_status.rows) (c : Child) :
    childRows c ((rows.map (exported db)).flatMap importOne) = childrenOf db rows c := by
  induction rows with
  | nil => rfl
  | cons row rest ih =>
    rw [List.map_cons,List.flatMap_cons,childRows_append,ih fun r later => there r (List.mem_cons_of_mem _ later),
      importOne_exported (there row List.mem_cons_self),childRows_status,childrenOf_cons]
    congr 1
    exact childRows_children (by decide) (by cases c <;> decide) fun d => (db.children d).rows.filter fun r => r d.workflow_uuid = row .workflow_uuid

theorem mem_childrenOf {db : Database} {rows : List StatusRow} {c : Child} {r : c.Row} :
    r ∈ childrenOf db rows c ↔ r ∈ (db.children c).rows ∧ ∃ row ∈ rows,r c.workflow_uuid = row .workflow_uuid := by
  simp only [childrenOf,List.mem_flatMap,List.mem_filter,decide_eq_true_eq]
  constructor
  · rintro ⟨row,member,listed,same⟩
    exact ⟨listed,row,member,same⟩
  · rintro ⟨listed,row,member,same⟩
    exact ⟨row,member,listed,same⟩

/-- Every index of a child table starts with the workflow. -/
theorem child_key_owner {c : Child} {key : c.Row → Option (List Value)} (index : key ∈ c.table.keys) {a b : c.Row}
    (other : a c.workflow_uuid ≠ b c.workflow_uuid) : Apart key a b := by
  refine .inr fun same => other ?_
  cases c <;>
    · rw [List.mem_singleton.mp index] at same
      injection same with same
      injection same

/-! ### Imports of exports -/

theorem named_mem {ids : List String} {rows : List StatusRow} (named : rows.map (fun row => row .workflow_uuid) = ids.map .text)
    {v : Value} : (∃ row ∈ rows,row .workflow_uuid = v) ↔ Of ids v := by
  have same : v ∈ rows.map (fun row => row .workflow_uuid) ↔ v ∈ ids.map .text := by rw [named]
  simp only [List.mem_map] at same
  exact same.trans ⟨fun ⟨id,listed,h⟩ => ⟨id,listed,h.symm⟩,fun ⟨id,listed,h⟩ => ⟨id,listed,h.symm⟩⟩

theorem exporting_distinct {db : Database} {ids : List String} {rows : List StatusRow} (exporting : Exporting db ids rows) (distinct : ids.Nodup) :
    rows.Pairwise fun a b => a .workflow_uuid ≠ b .workflow_uuid := by
  have texts : (ids.map Value.text).Nodup := distinct.map fun a b same => by injection same
  rw [← exporting.named] at texts
  exact List.pairwise_map.mp texts

/-- The target holds none of the IDs, and none of the (queue, deduplication ID) pairs. -/
structure Room (source target : Database) (ids : List String) : Prop where
  absent : ∀ row ∈ target.workflow_status.rows,¬ Of ids (row .workflow_uuid)
  unclaimed : ∀ row ∈ source.workflow_status.rows,Of ids (row .workflow_uuid) →
    ∀ other ∈ target.workflow_status.rows,Apart dedupKey other row

/-- The statement before the children of a workflow inserts the workflow. -/
theorem owner_before {db : Database} {rows : List StatusRow} (there : ∀ row ∈ rows,row ∈ db.workflow_status.rows)
    {before after : List Insert} {c : Child} {r : c.Row}
    (split : (rows.map (exported db)).flatMap importOne = before ++ .child c r :: after) :
    ∃ s ∈ statusRows before,s .workflow_uuid = r c.workflow_uuid := by
  induction rows generalizing before with
  | nil => simp at split
  | cons row rest ih =>
    rw [List.map_cons,List.flatMap_cons,importOne_exported (there row List.mem_cons_self)] at split
    cases before with
    | nil => cases split
    | cons first before =>
      rw [List.cons_append,List.cons_append] at split
      obtain ⟨head,tail⟩ := List.cons.inj split
      rw [← head,statusRows_status]
      rcases List.append_eq_append_iff.mp tail with ⟨more,same,later⟩ | ⟨more,kids,later⟩
      · obtain ⟨s,listed,owner⟩ := ih (fun r' member => there r' (List.mem_cons_of_mem _ member)) later
        refine ⟨s,?_,owner⟩
        rw [same,statusRows_append]
        exact List.mem_cons_of_mem _ (List.mem_append_right _ listed)
      · cases more with
        | nil =>
          have none' : (rest.map (exported db)).flatMap importOne = [] ++ .child c r :: after := later.symm
          obtain ⟨s,listed,_⟩ := ih (fun r' member => there r' (List.mem_cons_of_mem _ member)) none'
          cases listed
        | cons own more =>
          refine ⟨restored row,List.mem_cons_self,?_⟩
          have mine : Insert.child c r ∈ Child.all.flatMap fun c =>
              ((db.children c).rows.filter fun r => r c.workflow_uuid = row .workflow_uuid).map (Insert.child c) := by
            rw [kids,(List.cons.inj later).1]
            exact List.mem_append_right _ List.mem_cons_self
          obtain ⟨d,_,member⟩ := List.mem_flatMap.mp mine
          obtain ⟨r',owned,same⟩ := List.mem_map.mp member
          cases same
          exact (by simpa using (List.mem_filter.mp owned).2 : r c.workflow_uuid = row .workflow_uuid).symm

variable {source target : Database} {ids : List String} {rows : List StatusRow}

theorem exporting_insertable (exporting : Exporting source ids rows) (room : Room source target ids) (distinct : ids.Nodup) :
    Insertable target ((rows.map (exported source)).flatMap importOne) := by
  have mine : ∀ row ∈ rows,Of ids (row .workflow_uuid) := fun row member => (named_mem exporting.named).mp ⟨row,member,rfl⟩
  have others := exporting_distinct exporting distinct
  constructor
  · intro row member
    rw [statusRows_import exporting.there] at member
    obtain ⟨old,listed,rfl⟩ := List.mem_map.mp member
    exact restored_admits (source.workflow_status.admitted old (exporting.there old listed))
  · intro key index
    rw [statusRows_import exporting.there,List.pairwise_append,List.pairwise_map]
    refine ⟨target.workflow_status.unique key index,?_,?_⟩
    · refine others.imp_of_mem fun {a b} left right other => ?_
      have apart := source.workflow_status.apart index (exporting.there a left) (exporting.there b right) fun same => other (by rw [same])
      rwa [Apart,restored_keys index,restored_keys index]
    · intro a old b new
      obtain ⟨row,member,rfl⟩ := List.mem_map.mp new
      rw [Apart,restored_keys index]
      rcases List.mem_cons.mp index with rfl | index
      · refine .inr fun same => room.absent a old ?_
        injection same with same
        injection same with same
        rw [same]
        exact mine row member
      · rw [List.mem_singleton.mp index]
        exact room.unclaimed row (exporting.there row member) (mine row member) a old
  · intro c r member
    rw [childRows_import exporting.there] at member
    exact (source.children c).admitted r (mem_childrenOf.mp member).1
  · intro c key index
    rw [childRows_import exporting.there,List.pairwise_append]
    refine ⟨(target.children c).unique key index,?_,?_⟩
    · rw [childrenOf,List.pairwise_flatMap]
      refine ⟨fun row _ => ((source.children c).unique key index).filter _,others.imp fun {a b} other => ?_⟩
      intro r left r' right
      refine child_key_owner index fun same => other ?_
      have owned := (List.mem_filter.mp left).2
      have owned' := (List.mem_filter.mp right).2
      simp only [decide_eq_true_eq] at owned owned'
      rw [← owned,← owned',same]
    · intro a old b new
      obtain ⟨s,there,owner⟩ := target.owned c a old
      obtain ⟨_,row,member,same⟩ := mem_childrenOf.mp new
      refine child_key_owner index fun equal => room.absent s there ?_
      rw [owner,equal,same]
      exact mine row member
  · intro before c r after split
    obtain ⟨s,listed,owner⟩ := owner_before exporting.there split
    exact ⟨s,List.mem_append_right _ listed,owner⟩

theorem importWorkflow_ok {db after : Database} {workflows : List ExportedWorkflow} :
    importWorkflow db workflows = (.ok (),after) ↔ runAll db (workflows.flatMap importOne) = (.ok (),after) := by
  unfold importWorkflow
  generalize runAll db (workflows.flatMap importOne) = out
  obtain ⟨result,working⟩ := out
  cases result <;> simp

/-- ROLLBACK. -/
theorem importWorkflow_error {db after : Database} {workflows : List ExportedWorkflow} {e : DbosError}
    (failed : importWorkflow db workflows = (.error e,after)) : after = db := by
  unfold importWorkflow at failed
  generalize runAll db (workflows.flatMap importOne) = out at failed
  obtain ⟨result,working⟩ := out
  cases result with
  | ok u => cases failed
  | error e => cases failed; rfl

/-- Beside what the target holds, the result has exactly the rows of the workflows in the source, but for `owner_xid`. -/
structure Reproduced (source target result : Database) (ids : List String) : Prop where
  status : ∀ row,row ∈ result.workflow_status.rows ↔ row ∈ target.workflow_status.rows ∨
    ∃ old ∈ source.workflow_status.rows,Of ids (old .workflow_uuid) ∧ row = withoutOwner old
  children : ∀ c row,row ∈ (result.children c).rows ↔ row ∈ (target.children c).rows ∨
    row ∈ (source.children c).rows ∧ Of ids (row c.workflow_uuid)

/-- What a successful import of an export has written. -/
theorem import_rows (exporting : Exporting source ids rows) {result : Database}
    (done : importWorkflow target (rows.map (exported source)) = (.ok (),result)) :
    result.workflow_status.rows = target.workflow_status.rows ++ rows.map restored ∧
      ∀ c,(result.children c).rows = (target.children c).rows ++ childrenOf source rows c := by
  obtain ⟨status,children⟩ := runAll_rows (importWorkflow_ok.mp done)
  rw [statusRows_import exporting.there] at status
  exact ⟨status,fun c => by rw [children c,childRows_import exporting.there]⟩

theorem exporting_mem (exporting : Exporting source ids rows) (row : StatusRow) :
    row ∈ rows ↔ row ∈ source.workflow_status.rows ∧ Of ids (row .workflow_uuid) := by
  constructor
  · exact fun member => ⟨exporting.there row member,(named_mem exporting.named).mp ⟨row,member,rfl⟩⟩
  · rintro ⟨there,mine⟩
    obtain ⟨other,member,same⟩ := (named_mem exporting.named).mpr mine
    rwa [← status_unique source (exporting.there other member) there same]

theorem import_reproduces (exporting : Exporting source ids rows) (room : Room source target ids) (distinct : ids.Nodup)
    (attributed : ∀ row ∈ rows,Attributed row) :
    ∃ result,importWorkflow target (rows.map (exported source)) = (.ok (),result) ∧ Reproduced source target result ids := by
  obtain ⟨result,done⟩ := runAll_total (exporting_insertable exporting room distinct)
  have done := importWorkflow_ok.mpr done
  obtain ⟨status,children⟩ := import_rows exporting done
  refine ⟨result,done,fun row => ?_,fun c r => ?_⟩
  · rw [status,List.mem_append,List.mem_map]
    refine or_congr_right ⟨?_,?_⟩
    · rintro ⟨old,member,rfl⟩
      exact ⟨old,((exporting_mem exporting old).mp member).1,((exporting_mem exporting old).mp member).2,restored_eq (attributed old member)⟩
    · rintro ⟨old,there,mine,rfl⟩
      have member := (exporting_mem exporting old).mpr ⟨there,mine⟩
      exact ⟨old,member,restored_eq (attributed old member)⟩
  · rw [children,List.mem_append,mem_childrenOf]
    refine or_congr_right (and_congr_right fun _ => ?_)
    rw [← named_mem exporting.named]
    exact ⟨fun ⟨row,member,same⟩ => ⟨row,member,same.symm⟩,fun ⟨row,member,same⟩ => ⟨row,member,same.symm⟩⟩

theorem import_distinct (exporting : Exporting source ids rows) {result : Database}
    (done : importWorkflow target (rows.map (exported source)) = (.ok (),result)) : ids.Nodup := by
  have unique := result.workflow_status.unique statusKey List.mem_cons_self
  rw [(import_rows exporting done).1,List.pairwise_append,List.pairwise_map] at unique
  have texts : (rows.map fun row => row .workflow_uuid).Nodup := by
    refine List.pairwise_map.mpr (unique.2.1.imp fun {a b} apart same => ?_)
    rcases apart with none | other
    · cases none
    · exact other (by show some [a .workflow_uuid] = some [b .workflow_uuid]; rw [same])
  rw [exporting.named] at texts
  exact texts.of_map _

theorem import_attributed (exporting : Exporting source ids rows) (room : Room source target ids) {result : Database}
    (done : importWorkflow target (rows.map (exported source)) = (.ok (),result)) (reproduced : Reproduced source target result ids) :
    ∀ row ∈ rows,Attributed row := by
  intro row member
  obtain ⟨there,mine⟩ := (exporting_mem exporting row).mp member
  have written := (reproduced.status (withoutOwner row)).mpr (.inr ⟨row,there,mine,rfl⟩)
  rw [(import_rows exporting done).1] at written
  rcases List.mem_append.mp written with old | new
  · exact (room.absent (withoutOwner row) old mine).elim
  · obtain ⟨other,member',same⟩ := List.mem_map.mp new
    have named : other .workflow_uuid = row .workflow_uuid := congrFun same .workflow_uuid
    obtain rfl := status_unique source (exporting.there other member') there named
    exact attributed_of_restored (congrFun same .attributes)

/-- Every exported ID has a row. -/
theorem exportedIDs_there {db : Database} {workflowID : String} (there : ∃ row ∈ db.workflow_status.rows,row .workflow_uuid = .text workflowID)
    (exportChildren : Bool) : ∀ id ∈ exportedIDs db workflowID exportChildren,∃ row ∈ db.workflow_status.rows,row .workflow_uuid = .text id := by
  intro id member
  rcases List.mem_cons.mp member with rfl | member
  · exact there
  · cases exportChildren with
    | false => simp at member
    | true =>
      rcases (mem_getWorkflowChildren db workflowID id).mp member with ⟨row,listed,_,named⟩ | ⟨_,row,listed,_,named⟩
      · exact ⟨row,listed,named⟩
      · exact ⟨row,listed,named⟩

/-- An import undoes an export unless the workflow is exported twice, as a descendant of itself, or
    `attributes` is a JSON value that JavaScript takes for nothing. -/
theorem import_undoes_export (source target : Database) (workflowID : String) (exportChildren : Bool)
    (there : ∃ row ∈ source.workflow_status.rows,row .workflow_uuid = .text workflowID)
    (room : Room source target (exportedIDs source workflowID exportChildren)) :
    ∃ payload,exportWorkflow source workflowID exportChildren = .ok payload ∧
      ((∃ result,importWorkflow target payload = (.ok (),result) ∧
          Reproduced source target result (exportedIDs source workflowID exportChildren)) ↔
        (exportChildren = true → ¬ Descendant source workflowID workflowID) ∧
          ∀ row ∈ source.workflow_status.rows,Of (exportedIDs source workflowID exportChildren) (row .workflow_uuid) → Attributed row) ∧
      ∀ db workflows e after,importWorkflow db workflows = (.error e,after) → after = db := by
  obtain ⟨rows,exporting,done⟩ := exporting_exists (exportedIDs_there there exportChildren)
  refine ⟨_,done,⟨?_,?_⟩,fun db workflows e after failed => importWorkflow_error failed⟩
  · rintro ⟨result,imported,reproduced⟩
    refine ⟨(exportedIDs_nodup source workflowID exportChildren).mp (import_distinct exporting imported),fun row listed mine => ?_⟩
    exact import_attributed exporting room imported reproduced row ((exporting_mem exporting row).mpr ⟨listed,mine⟩)
  · rintro ⟨noCycle,attributed⟩
    refine import_reproduces exporting room ((exportedIDs_nodup source workflowID exportChildren).mpr noCycle) fun row member => ?_
    obtain ⟨listed,mine⟩ := (exporting_mem exporting row).mp member
    exact attributed row listed mine

theorem room_empty (source : Database) (ids : List String) : Room source .empty ids :=
  ⟨by simp [Database.empty,Declared.empty],by simp [Database.empty,Declared.empty]⟩

/-- A finished workflow, with the other columns at their defaults. -/
def plainRow (id : String) (parent : Value) : StatusRow
  | .workflow_uuid => .text id
  | .status => .text "SUCCESS"
  | .parent_workflow_id => parent
  | .created_at | .updated_at | .priority => .integer 0
  | .was_forked_from | .rate_limited | .is_debounced => .boolean false
  | _ => .null

/-- A workflow with an event, and its child. -/
def family : Database :=
  (runAll .empty
    [.status (plainRow "a" .null),.status (plainRow "b" (.text "a")),
      .child .workflow_events fun c =>
        match c with
        | .workflow_uuid => .text "a"
        | .key => .text "k"
        | .value => .text "1"
        | .serialization => .null]).2

theorem import_undoes_export_family :
    ∃ payload,exportWorkflow family "a" true = .ok payload ∧
      ((∃ result,importWorkflow .empty payload = (.ok (),result) ∧ Reproduced family .empty result (exportedIDs family "a" true)) ↔
        (true = true → ¬ Descendant family "a" "a") ∧
          ∀ row ∈ family.workflow_status.rows,Of (exportedIDs family "a" true) (row .workflow_uuid) → Attributed row) ∧
      ∀ db workflows e after,importWorkflow db workflows = (.error e,after) → after = db :=
  import_undoes_export family .empty "a" true (by decide +kernel) (room_empty _ _)

/-- `b` is a child of `a`. After `a` was deleted, `b` has started a child with the ID `a`. -/
def cycle : Database := (runAll .empty [.status (plainRow "b" (.text "a")),.status (plainRow "a" (.text "b"))]).2

theorem cycle_not_imported :
    ¬ ∀ (source target : Database) (workflowID : String) (exportChildren : Bool),
      (∃ row ∈ source.workflow_status.rows,row .workflow_uuid = .text workflowID) →
      Room source target (exportedIDs source workflowID exportChildren) →
      ∃ payload,exportWorkflow source workflowID exportChildren = .ok payload ∧
        ∃ result,importWorkflow target payload = (.ok (),result) ∧
          Reproduced source target result (exportedIDs source workflowID exportChildren) := by
  intro claim
  obtain ⟨payload,exports,result,imports,_⟩ := claim cycle .empty "a" true (by decide +kernel) (room_empty _ _)
  have twice : (exportWorkflow cycle "a" true).toOption.map (fun payload => (importWorkflow .empty payload).1.toBool) = some false := by
    decide +kernel
  rw [exports,Except.toOption,Option.map_some,imports] at twice
  cases twice

end Dbos.ExportImport
