import Mathlib.Data.List.Nodup
import Mathlib.Data.List.Perm.Subperm

/-!
Tables with a primary key, and the statements that SQL runs on them. A statement
is a total function on tables: `update` is UPDATE ... WHERE, `insert` is INSERT ...
ON CONFLICT DO NOTHING, `upsert` is INSERT ... ON CONFLICT DO UPDATE, `delete` is
DELETE ... WHERE and `select` a plain SELECT. What a statement does is said once,
by its effect on `get?`; `All` is the property of every row that a statement keeps.
-/
namespace Dbos.Pg

/-- Rows under distinct primary keys, in some physical order. -/
structure Table (κ ρ : Type) where
  entries : List (κ × ρ)
  distinct : (entries.map Prod.fst).Nodup

namespace Table
variable {κ ρ : Type}

def empty : Table κ ρ := ⟨[],List.nodup_nil⟩

/-- The entries that satisfy the condition, in physical order. -/
def select (t : Table κ ρ) (hit : κ → ρ → Bool) : List (κ × ρ) := t.entries.filter fun e => hit e.1 e.2

/-- The keys of the rows that satisfy the condition: RETURNING the key. -/
def keys (t : Table κ ρ) (hit : κ → ρ → Bool) : List κ := (t.select hit).map Prod.fst

/-- SELECT COUNT(*) WHERE. -/
def count (t : Table κ ρ) (hit : κ → ρ → Bool) : Nat := (t.keys hit).length

theorem map_fst_updated (l : List (κ × ρ)) (f : κ → ρ → ρ) :
    (l.map fun e => (e.1,f e.1 e.2)).map Prod.fst = l.map Prod.fst := by
  simp [Function.comp_def]

/-- UPDATE ... SET ... WHERE. -/
def update (t : Table κ ρ) (hit : κ → ρ → Bool) (set : κ → ρ → ρ) : Table κ ρ :=
  ⟨t.entries.map fun e => (e.1,if hit e.1 e.2 then set e.1 e.2 else e.2),
    by rw [map_fst_updated t.entries (fun k r => if hit k r then set k r else r)]; exact t.distinct⟩

/-- DELETE ... WHERE. -/
def delete (t : Table κ ρ) (hit : κ → ρ → Bool) : Table κ ρ :=
  ⟨t.entries.filter fun e => !hit e.1 e.2,t.distinct.sublist (List.filter_sublist.map _)⟩

theorem keys_nodup (t : Table κ ρ) (hit : κ → ρ → Bool) : (t.keys hit).Nodup :=
  t.distinct.sublist (List.filter_sublist.map _)

variable [DecidableEq κ]

/-- The row under a key. -/
def get? (t : Table κ ρ) (k : κ) : Option ρ := t.entries.lookup k

theorem fresh_append (t : Table κ ρ) {k : κ} (r : ρ) (free : t.get? k = none) :
    ((t.entries ++ [(k,r)]).map Prod.fst).Nodup := by
  rw [List.map_append,List.nodup_append]
  refine ⟨t.distinct,by simp,?_⟩
  intro a member b single
  simp only [List.map_cons,List.map_nil,List.mem_singleton] at single
  subst single
  rintro rfl
  obtain ⟨e,listed,same⟩ := List.mem_map.mp member
  have absent := List.lookup_eq_none_iff.mp free e listed
  simp [same] at absent

/-- INSERT ... ON CONFLICT DO NOTHING. -/
def insert (t : Table κ ρ) (k : κ) (r : ρ) : Table κ ρ :=
  if free : t.get? k = none then ⟨t.entries ++ [(k,r)],t.fresh_append r free⟩ else t

/-- INSERT ... ON CONFLICT (key) DO UPDATE: the new row, or the old one merged. -/
def upsert (t : Table κ ρ) (k : κ) (new : ρ) (merge : ρ → ρ) : Table κ ρ :=
  if (t.get? k).isSome then t.update (fun k' _ => k' = k) (fun _ r => merge r) else t.insert k new

private theorem lookup_eq_some {l : List (κ × ρ)} (distinct : (l.map Prod.fst).Nodup) (k : κ) (r : ρ) :
    l.lookup k = some r ↔ (k,r) ∈ l := by
  induction l with
  | nil => simp
  | cons e rest ih =>
    obtain ⟨k',r'⟩ := e
    rw [List.map_cons,List.nodup_cons] at distinct
    rw [List.lookup_cons]
    by_cases same : k = k'
    · subst same
      have absent : (k,r) ∉ rest := fun member => distinct.1 (List.mem_map.mpr ⟨_,member,rfl⟩)
      simp [absent,eq_comm]
    · have other : (k == k') = false := by simp [same]
      simp [other,same,ih distinct.2]

/-- The row under a key is the entry with that key. -/
theorem get?_eq_some (t : Table κ ρ) (k : κ) (r : ρ) : t.get? k = some r ↔ (k,r) ∈ t.entries :=
  lookup_eq_some t.distinct k r

@[simp] theorem get?_empty (k : κ) : (empty : Table κ ρ).get? k = none := rfl

@[simp] theorem get?_update (t : Table κ ρ) (hit : κ → ρ → Bool) (set : κ → ρ → ρ) (k : κ) :
    (t.update hit set).get? k = (t.get? k).map fun r => if hit k r then set k r else r := by
  ext r
  rw [get?_eq_some]
  simp only [update,List.mem_map,Option.map_eq_some_iff,get?_eq_some,Prod.mk.injEq]
  constructor
  · rintro ⟨⟨k',r'⟩,member,rfl,row⟩
    exact ⟨r',member,row⟩
  · rintro ⟨r',member,row⟩
    exact ⟨(k,r'),member,rfl,row⟩

@[simp] theorem get?_delete (t : Table κ ρ) (hit : κ → ρ → Bool) (k : κ) :
    (t.delete hit).get? k = (t.get? k).filter fun r => !hit k r := by
  ext r
  rw [get?_eq_some]
  simp [delete,List.mem_filter,Option.filter_eq_some_iff,get?_eq_some]

@[simp] theorem get?_insert (t : Table κ ρ) (k : κ) (r : ρ) (k' : κ) :
    (t.insert k r).get? k' = if k' = k then (t.get? k).or (some r) else t.get? k' := by
  unfold insert
  split
  · rename_i free
    ext r'
    rw [get?_eq_some]
    by_cases same : k' = k
    · subst same
      have absent : (k',r') ∉ t.entries := by rw [← get?_eq_some,free]; simp
      simp [absent,free,eq_comm]
    · simp [same,get?_eq_some]
  · rename_i present
    by_cases same : k' = k
    · subst same
      obtain ⟨r',found⟩ := Option.ne_none_iff_exists'.mp present
      simp [found]
    · simp [same]

@[simp] theorem get?_upsert (t : Table κ ρ) (k : κ) (new : ρ) (merge : ρ → ρ) (k' : κ) :
    (t.upsert k new merge).get? k' = if k' = k then some ((t.get? k).elim new merge) else t.get? k' := by
  unfold upsert
  by_cases same : k' = k
  · subst same
    cases found : t.get? k' <;> simp [found]
  · cases found : t.get? k <;> simp [same]

/-- A new row goes behind the others. -/
theorem entries_upsert_new {t : Table κ ρ} {k : κ} (free : t.get? k = none) (new : ρ) (merge : ρ → ρ) :
    (t.upsert k new merge).entries = t.entries ++ [(k,new)] := by
  unfold upsert insert
  simp [free]

/-- An UPDATE leaves a row alone or sets it where it hits. -/
theorem update_cases (t : Table κ ρ) (hit : κ → ρ → Bool) (set : κ → ρ → ρ) (k : κ) :
    (t.update hit set).get? k = t.get? k ∨
      ∃ r, t.get? k = some r ∧ hit k r = true ∧ (t.update hit set).get? k = some (set k r) := by
  rw [get?_update]
  cases found : t.get? k with
  | none => exact .inl rfl
  | some r =>
    cases hits : hit k r with
    | false => exact .inl (by simp [hits])
    | true => exact .inr ⟨r,rfl,hits,by simp [hits]⟩

/-- An INSERT leaves a row alone or adds the one it names. -/
theorem insert_cases (t : Table κ ρ) (k : κ) (r : ρ) (k' : κ) :
    (t.insert k r).get? k' = t.get? k' ∨ (k' = k ∧ t.get? k' = none ∧ (t.insert k r).get? k' = some r) := by
  rw [get?_insert]
  by_cases same : k' = k
  · subst same
    cases found : t.get? k' with
    | none => exact .inr ⟨rfl,rfl,by simp⟩
    | some r' => exact .inl (by simp)
  · exact .inl (if_neg same)

theorem mem_keys (t : Table κ ρ) (hit : κ → ρ → Bool) (k : κ) :
    k ∈ t.keys hit ↔ ∃ r, t.get? k = some r ∧ hit k r = true := by
  simp only [keys,select,List.mem_map,List.mem_filter,get?_eq_some]
  constructor
  · rintro ⟨⟨k',r⟩,found,rfl⟩
    exact ⟨r,found⟩
  · rintro ⟨r,found⟩
    exact ⟨(k,r),found,rfl⟩

theorem count_pos {t : Table κ ρ} {hit : κ → ρ → Bool} :
    0 < t.count hit ↔ ∃ k r, t.get? k = some r ∧ hit k r = true := by
  rw [count,List.length_pos_iff_exists_mem]
  exact exists_congr fun k => t.mem_keys hit k

/-- A statement that turns only the keys of `more` into hits adds at most that many. -/
theorem count_le_add {t t' : Table κ ρ} {hit : κ → ρ → Bool} (more : List κ)
    (hits : ∀ k r, t'.get? k = some r → hit k r = true → (∃ r', t.get? k = some r' ∧ hit k r' = true) ∨ k ∈ more) :
    t'.count hit ≤ t.count hit + more.length := by
  have included : t'.keys hit ⊆ t.keys hit ++ more := by
    intro k member
    obtain ⟨r,found,holds⟩ := (mem_keys t' hit k).mp member
    rcases hits k r found holds with before | listed
    · exact List.mem_append_left _ ((mem_keys t hit k).mpr before)
    · exact List.mem_append_right _ listed
  have bound := (List.subperm_of_subset (t'.keys_nodup hit) included).length_le
  rwa [List.length_append] at bound

/-- Every row of the table satisfies `P`. -/
def All (t : Table κ ρ) (P : κ → ρ → Prop) : Prop := ∀ k r, t.get? k = some r → P k r

variable {P : κ → ρ → Prop}

theorem all_empty : (empty : Table κ ρ).All P := by
  intro k r found
  simp at found

end Table
end Dbos.Pg
