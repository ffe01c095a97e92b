import Dbos.Pg.Table

/-!
Callbacks under keys: `NotificationMap` of `src/system_database.ts`. A callback is registered under a key and a number that no other
callback gets, and the entry of a key is there as long as a callback is registered under it.
-/
namespace Dbos.Callbacks
open Dbos.Pg

theorem empty_occupied {ρ : Type} (key : String) (sm : Table Nat ρ) (found : Table.empty.get? key = some sm) : sm.entries ≠ [] := by
  simp at found

theorem empty_numbered {ρ : Type} {curCK : Nat} (key : String) (sm : Table Nat ρ) (found : Table.empty.get? key = some sm) (ck : Nat)
    (cb : ρ) (_ : sm.get? ck = some cb) : ck < curCK := by
  simp at found

/-- `Map<string, Map<number, cb>>`, with callbacks of the type `ρ`. -/
structure NotificationMap (ρ : Type) where
  map : Table String (Table Nat ρ) := Table.empty
  curCK : Nat := 0
  occupied : ∀ key sm, map.get? key = some sm → sm.entries ≠ [] := by exact empty_occupied
  numbered : ∀ key sm, map.get? key = some sm → ∀ ck cb, sm.get? ck = some cb → ck < curCK := by exact empty_numbered

namespace NotificationMap
variable {ρ : Type} (m : NotificationMap ρ)

/-- The callback under a key and a number. -/
def callback? (key : String) (ck : Nat) : Option ρ := (m.map.get? key).bind fun sm => sm.get? ck

theorem callback?_lt {m : NotificationMap ρ} {key : String} {ck : Nat} {cb : ρ} (registered : m.callback? key ck = some cb) :
    ck < m.curCK := by
  obtain ⟨sm,found,listed⟩ := Option.bind_eq_some_iff.mp registered
  exact m.numbered key sm found ck cb listed

theorem callback?_cur (key : String) : m.callback? key m.curCK = none := by
  cases found : m.callback? key m.curCK with
  | none => rfl
  | some cb => exact absurd (callback?_lt found) (Nat.lt_irrefl _)

/-! ### Registration -/

/-- The callbacks of a key after one more. -/
def added (key : String) (cb : ρ) : Table Nat ρ := ((m.map.get? key).getD Table.empty).insert m.curCK cb

theorem added_get? (key : String) (cb : ρ) (ck : Nat) :
    (m.added key cb).get? ck = if ck = m.curCK then some cb else m.callback? key ck := by
  have free := m.callback?_cur key
  unfold callback? at free ⊢
  unfold added
  cases found : m.map.get? key with
  | none => simp
  | some sm =>
    rw [found,Option.bind_some] at free
    simp [free]

theorem upsert_added {key key' : String} {cb : ρ} {sm : Table Nat ρ}
    (found : (m.map.upsert key (m.added key cb) fun _ => m.added key cb).get? key' = some sm) :
    sm = m.added key cb ∨ m.map.get? key' = some sm := by
  rw [Table.get?_upsert] at found
  split at found
  · refine .inl ?_
    cases old : m.map.get? key <;> simp [old] at found <;> exact found.symm
  · exact .inr found

theorem registered_occupied (key : String) (cb : ρ) (key' : String) (sm : Table Nat ρ)
    (found : (m.map.upsert key (m.added key cb) fun _ => m.added key cb).get? key' = some sm) : sm.entries ≠ [] := by
  rcases m.upsert_added found with rfl | old
  · have here : (m.added key cb).get? m.curCK = some cb := by rw [added_get?,if_pos rfl]
    exact List.ne_nil_of_mem ((Table.get?_eq_some _ _ _).mp here)
  · exact m.occupied key' sm old

theorem registered_numbered (key : String) (cb : ρ) (key' : String) (sm : Table Nat ρ)
    (found : (m.map.upsert key (m.added key cb) fun _ => m.added key cb).get? key' = some sm) (ck : Nat) (cb' : ρ)
    (listed : sm.get? ck = some cb') : ck < m.curCK + 1 := by
  rcases m.upsert_added found with rfl | old
  · rw [added_get?] at listed
    by_cases new : ck = m.curCK
    · omega
    · rw [if_neg new] at listed
      have := callback?_lt listed
      omega
  · have := m.numbered key' sm old ck cb' listed
    omega

/-- `registerCallback`, which returns `{ key, ck }`. -/
def registerCallback (key : String) (cb : ρ) : (String × Nat) × NotificationMap ρ :=
  ((key,m.curCK),
    { map := m.map.upsert key (m.added key cb) fun _ => m.added key cb
      curCK := m.curCK + 1
      occupied := m.registered_occupied key cb
      numbered := m.registered_numbered key cb })

theorem callback?_register (key key' : String) (cb : ρ) (ck : Nat) :
    (m.registerCallback key cb).2.callback? key' ck =
      if key' = key ∧ ck = m.curCK then some cb else m.callback? key' ck := by
  have new : (m.registerCallback key cb).2.callback? key' ck =
      ((m.map.upsert key (m.added key cb) fun _ => m.added key cb).get? key').bind fun sm => sm.get? ck := rfl
  rw [new,Table.get?_upsert]
  by_cases same : key' = key
  · subst same
    have merged : (m.map.get? key').elim (m.added key' cb) (fun _ => m.added key' cb) = m.added key' cb := by
      cases m.map.get? key' <;> rfl
    rw [if_pos rfl,merged,Option.bind_some,added_get?]
    by_cases here : ck = m.curCK
    · rw [if_pos here,if_pos ⟨rfl,here⟩]
    · rw [if_neg here,if_neg fun both => here both.2]
  · rw [if_neg same,if_neg fun both => same both.1]
    rfl

/-! ### Deregistration -/

/-- The callbacks of a key without one. -/
def without (sm : Table Nat ρ) (ck : Nat) : Table Nat ρ := sm.delete fun ck' _ => ck' = ck

theorem without_get? (sm : Table Nat ρ) (ck ck' : Nat) : (without sm ck).get? ck' = if ck' = ck then none else sm.get? ck' := by
  rw [without,Table.get?_delete]
  by_cases here : ck' = ck
  · rw [if_pos here]
    cases sm.get? ck' <;> simp [here]
  · rw [if_neg here]
    cases sm.get? ck' <;> simp [here]

theorem get?_none_of_nil {sm : Table Nat ρ} (nobody : sm.entries = []) (ck : Nat) : sm.get? ck = none := by
  simp [Table.get?,nobody]

/-- `deregisterCallback`. -/
def deregisterCallback (k : String × Nat) : NotificationMap ρ :=
  match found : m.map.get? k.1 with
  | none => m
  | some sm =>
    if (sm.get? k.2).isNone then m
    else if last : (without sm k.2).entries = [] then
      { map := m.map.delete fun key _ => key = k.1
        curCK := m.curCK
        occupied := by
          intro key sm' found'
          rw [Table.get?_delete] at found'
          exact m.occupied key sm' (Option.filter_eq_some_iff.mp found').1
        numbered := by
          intro key sm' found'
          rw [Table.get?_delete] at found'
          exact m.numbered key sm' (Option.filter_eq_some_iff.mp found').1 }
    else
      { map := m.map.update (fun key _ => key = k.1) fun _ _ => without sm k.2
        curCK := m.curCK
        occupied := by
          intro key sm' found'
          rw [Table.get?_update] at found'
          obtain ⟨old,there,new⟩ := Option.map_eq_some_iff.mp found'
          by_cases here : key = k.1
          · simp only [here,decide_true,if_true] at new
            rw [← new]
            exact last
          · simp only [here,decide_false,Bool.false_eq_true,if_false] at new
            exact new ▸ m.occupied key old there
        numbered := by
          intro key sm' found' ck cb listed
          rw [Table.get?_update] at found'
          obtain ⟨old,there,new⟩ := Option.map_eq_some_iff.mp found'
          by_cases here : key = k.1
          · simp only [here,decide_true,if_true] at new
            rw [← new,without_get?] at listed
            by_cases gone : ck = k.2
            · rw [if_pos gone] at listed
              cases listed
            · rw [if_neg gone] at listed
              exact m.numbered k.1 sm found ck cb listed
          · simp only [here,decide_false,Bool.false_eq_true,if_false] at new
            exact m.numbered key old there ck cb (new ▸ listed) }

theorem callback?_deregister (k : String × Nat) (key : String) (ck : Nat) :
    (m.deregisterCallback k).callback? key ck = if key = k.1 ∧ ck = k.2 then none else m.callback? key ck := by
  unfold deregisterCallback
  split
  · rename_i absent
    by_cases here : key = k.1 ∧ ck = k.2
    · rw [if_pos here,here.1,callback?,absent]
      rfl
    · rw [if_neg here]
  · rename_i sm found
    by_cases gone : (sm.get? k.2).isNone
    · rw [if_pos gone]
      by_cases here : key = k.1 ∧ ck = k.2
      · rw [if_pos here,here.1,here.2,callback?,found]
        exact Option.isNone_iff_eq_none.mp gone
      · rw [if_neg here]
    · rw [if_neg gone]
      split
      · rename_i last
        have new : ((m.map.delete fun key' _ => key' = k.1).get? key).bind (fun sm => sm.get? ck) =
            if key = k.1 ∧ ck = k.2 then none else m.callback? key ck := by
          rw [Table.get?_delete]
          by_cases same : key = k.1
          · subst same
            have rest : (if ck = k.2 then none else sm.get? ck) = none := by
              rw [← without_get?]
              exact get?_none_of_nil last ck
            have gone : ((m.map.get? k.1).filter fun _ => !decide (k.1 = k.1)) = none := by simp
            rw [gone,callback?,found,Option.bind_some]
            by_cases here : ck = k.2
            · simp [here]
            · rw [if_neg here] at rest
              rw [if_neg fun both => here both.2,rest]
              rfl
          · have kept : ((m.map.get? key).filter fun _ => !decide (key = k.1)) = m.map.get? key := by
              cases m.map.get? key <;> simp [same]
            rw [kept,if_neg fun both => same both.1,callback?]
        exact new
      · have new : ((m.map.update (fun key' _ => key' = k.1) fun _ _ => without sm k.2).get? key).bind (fun sm => sm.get? ck) =
            if key = k.1 ∧ ck = k.2 then none else m.callback? key ck := by
          rw [Table.get?_update]
          by_cases same : key = k.1
          · subst same
            simp [callback?,found,without_get?]
          · have kept : (m.map.get? key).map (fun r => if decide (key = k.1) then without sm k.2 else r) = m.map.get? key := by
              cases m.map.get? key <;> simp [same]
            rw [kept,if_neg fun both => same both.1,callback?]
        exact new

/-! ### Calls -/

/-- The callbacks that `callCallbacks` calls, in order. -/
def callCallbacks (key : String) : List ρ := ((m.map.get? key).elim [] fun sm => sm.entries).map Prod.snd

theorem mem_callCallbacks (key : String) (cb : ρ) : cb ∈ m.callCallbacks key ↔ ∃ ck, m.callback? key ck = some cb := by
  unfold callCallbacks callback?
  cases found : m.map.get? key with
  | none => simp
  | some sm => simp [Table.get?_eq_some]

/-- The map is empty when nobody has registered. -/
theorem empty_iff : m.map.entries = [] ↔ ∀ key ck, m.callback? key ck = none := by
  constructor
  · intro nobody key ck
    simp [callback?,Table.get?,nobody]
  · intro none_
    by_contra some_
    obtain ⟨⟨key,sm⟩,listed⟩ := List.exists_mem_of_ne_nil _ some_
    have found := (Table.get?_eq_some _ _ _).mpr listed
    obtain ⟨⟨ck,cb⟩,registered⟩ := List.exists_mem_of_ne_nil _ (m.occupied key sm found)
    have there := none_ key ck
    rw [callback?,found,Option.bind_some,(Table.get?_eq_some _ _ _).mpr registered] at there
    cases there

end NotificationMap
end Dbos.Callbacks
