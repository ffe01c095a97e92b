import Dbos.Pg.Table

/-!
INSERT ... SELECT ... FROM mapping JOIN ...: rows of tables whose key begins with an owner are
copied from the sources of a mapping to its targets. `copyAt` says what is in the table
afterwards. The last part is about the rows that ROW_NUMBER() ranks first in their partitions.
-/
namespace Dbos.Pg

namespace Table
variable {κ ρ : Type} [DecidableEq κ]

/-- INSERT of several rows with no ON CONFLICT clause: `none` when a key is taken or repeated. -/
def insertRows (t : Table κ ρ) : List (κ × ρ) → Option (Table κ ρ)
  | [] => some t
  | e :: rest => if (t.get? e.1).isSome then none else (t.insert e.1 e.2).insertRows rest

theorem insertRows_get? {t t' : Table κ ρ} {rows : List (κ × ρ)} (done : t.insertRows rows = some t') (k : κ) (r : ρ) :
    t'.get? k = some r ↔ t.get? k = some r ∨ (k,r) ∈ rows := by
  induction rows generalizing t with
  | nil =>
    cases done
    simp
  | cons e rest ih =>
    rw [insertRows] at done
    split at done
    · cases done
    · rename_i free
      have absent : t.get? e.1 = none := by simpa using free
      obtain ⟨k',r'⟩ := e
      rw [ih done,get?_insert,List.mem_cons]
      by_cases same : k = k'
      · subst same
        simp [absent,eq_comm]
      · simp [same]

theorem insertRows_total {t : Table κ ρ} {rows : List (κ × ρ)} (distinct : (rows.map Prod.fst).Nodup)
    (free : ∀ e ∈ rows, t.get? e.1 = none) : ∃ t', t.insertRows rows = some t' := by
  induction rows generalizing t with
  | nil => exact ⟨t,rfl⟩
  | cons e rest ih =>
    rw [List.map_cons,List.nodup_cons] at distinct
    have here := free e List.mem_cons_self
    rw [insertRows,here]
    refine ih distinct.2 ?_
    intro e' member
    have other : e'.1 ≠ e.1 := fun same => distinct.1 (same ▸ List.mem_map_of_mem member)
    simpa [other] using free e' (List.mem_cons_of_mem _ member)

end Table

/-! ### Copies along a mapping -/

/-- A row of a mapping: what is copied from `source` to `target`, up to `bound`. -/
structure Mapping (ω β : Type) where
  source : ω
  target : ω
  bound : β
  deriving DecidableEq

variable {ω κ ρ β : Type} [DecidableEq ω] [DecidableEq κ]

/-- The join of the mapping with the table, as the rows that are inserted. -/
def copied (t : Table (ω × κ) ρ) (hit : β → κ → ρ → Bool) (set : ρ → ρ) (mapping : List (Mapping ω β)) :
    List ((ω × κ) × ρ) :=
  mapping.flatMap fun m => (t.select fun k r => k.1 = m.source ∧ hit m.bound k.2 r).map fun e => ((m.target,e.1.2),set e.2)

/-- The row under a key after the copy. -/
def copyAt (t : Table (ω × κ) ρ) (hit : β → κ → ρ → Bool) (set : ρ → ρ) (mapping : List (Mapping ω β)) (k : ω × κ) :
    Option ρ :=
  match mapping.find? fun m => m.target = k.1 with
  | some m => ((t.get? (m.source,k.2)).filter (hit m.bound k.2)).map set
  | none => t.get? k

/-- The targets are distinct and own nothing yet. -/
structure Fresh (mapping : List (Mapping ω β)) (owns : ω → Prop) : Prop where
  distinct : (mapping.map Mapping.target).Nodup
  unowned : ∀ m ∈ mapping,¬ owns m.target

omit [DecidableEq ω] in
theorem Fresh.mono {mapping : List (Mapping ω β)} {owns owns' : ω → Prop} (fresh : Fresh mapping owns)
    (less : ∀ w, owns' w → owns w) : Fresh mapping owns' :=
  ⟨fresh.distinct,fun m member owned => fresh.unowned m member (less _ owned)⟩

theorem find?_target {mapping : List (Mapping ω β)} (distinct : (mapping.map Mapping.target).Nodup) {m : Mapping ω β}
    (member : m ∈ mapping) : mapping.find? (fun m' => m'.target = m.target) = some m := by
  induction mapping with
  | nil => cases member
  | cons first rest ih =>
    rw [List.map_cons,List.nodup_cons] at distinct
    rcases List.mem_cons.mp member with rfl | later
    · simp
    · have other : first.target ≠ m.target := fun same => distinct.1 (same ▸ List.mem_map_of_mem later)
      simpa [other] using ih distinct.2 later

theorem mem_copied {t : Table (ω × κ) ρ} {hit : β → κ → ρ → Bool} {set : ρ → ρ} {mapping : List (Mapping ω β)}
    {k : ω × κ} {r : ρ} : (k,r) ∈ copied t hit set mapping ↔ ∃ m ∈ mapping,k.1 = m.target ∧
      ∃ r', t.get? (m.source,k.2) = some r' ∧ hit m.bound k.2 r' = true ∧ r = set r' := by
  obtain ⟨w,k⟩ := k
  simp only [copied,List.mem_flatMap,List.mem_map,Table.select,List.mem_filter,decide_eq_true_eq,Prod.mk.injEq]
  constructor
  · rintro ⟨m,member,⟨⟨w',k'⟩,r'⟩,⟨found,rfl,hits⟩,⟨rfl,rfl⟩,rfl⟩
    exact ⟨m,member,rfl,r',(t.get?_eq_some _ _).mpr found,hits,rfl⟩
  · rintro ⟨m,member,rfl,r',found,hits,rfl⟩
    exact ⟨m,member,((m.source,k),r'),⟨(t.get?_eq_some _ _).mp found,rfl,hits⟩,⟨rfl,rfl⟩,rfl⟩

theorem copied_distinct (t : Table (ω × κ) ρ) (hit : β → κ → ρ → Bool) (set : ρ → ρ) {mapping : List (Mapping ω β)}
    (distinct : (mapping.map Mapping.target).Nodup) : ((copied t hit set mapping).map Prod.fst).Nodup := by
  rw [copied,List.map_flatMap,List.nodup_flatMap]
  refine ⟨?_,?_⟩
  · -- The rows of one source differ in the rest of their keys.
    intro m _
    rw [List.map_map]
    have keys := (t.keys_nodup fun k r => k.1 = m.source ∧ hit m.bound k.2 r).of_map
    refine List.Nodup.map_on ?_ keys
    rintro ⟨⟨w,k⟩,r⟩ member ⟨⟨w',k'⟩,r'⟩ member' same
    simp only [Table.select,List.mem_filter,decide_eq_true_eq] at member member'
    simp only [Function.comp_apply,Prod.mk.injEq,true_and] at same
    obtain ⟨found,rfl,_⟩ := member
    obtain ⟨found',rfl,_⟩ := member'
    cases same
    have rows := ((t.get?_eq_some _ _).mpr found).symm.trans ((t.get?_eq_some _ _).mpr found')
    cases rows
    rfl
  · refine (List.pairwise_map.mp distinct).imp ?_
    intro m m' differ
    refine List.disjoint_left.mpr ?_
    intro k first second
    simp only [List.mem_map] at first second
    obtain ⟨_,⟨_,_,rfl⟩,rfl⟩ := first
    obtain ⟨_,⟨_,_,rfl⟩,same⟩ := second
    exact differ (congrArg Prod.fst same).symm

/-- Nothing is copied over rows of owners that are no targets. -/
theorem copyAt_other {t : Table (ω × κ) ρ} {hit : β → κ → ρ → Bool} {set : ρ → ρ} {mapping : List (Mapping ω β)}
    {k : ω × κ} (other : k.1 ∉ mapping.map Mapping.target) : copyAt t hit set mapping k = t.get? k := by
  have missing : mapping.find? (fun m => m.target = k.1) = none := by
    rw [List.find?_eq_none]
    intro m member same
    exact other (List.mem_map.mpr ⟨m,member,by simpa using same⟩)
  rw [copyAt,missing]

/-- The copy goes through when the targets own no row. -/
theorem copy_total (t : Table (ω × κ) ρ) (hit : β → κ → ρ → Bool) (set : ρ → ρ) {mapping : List (Mapping ω β)}
    (fresh : Fresh mapping fun w => ∃ k, (t.get? (w,k)).isSome) : ∃ t', t.insertRows (copied t hit set mapping) = some t' := by
  refine Table.insertRows_total (copied_distinct t hit set fresh.distinct) ?_
  rintro ⟨⟨w,k⟩,r⟩ member
  obtain ⟨m,listed,rfl,_⟩ := mem_copied.mp member
  have unowned := fresh.unowned m listed
  simpa using fun taken => unowned ⟨k,taken⟩

/-- What the copy leaves in the table. -/
theorem copy_get? {t t' : Table (ω × κ) ρ} {hit : β → κ → ρ → Bool} {set : ρ → ρ} {mapping : List (Mapping ω β)}
    (fresh : Fresh mapping fun w => ∃ k, (t.get? (w,k)).isSome) (done : t.insertRows (copied t hit set mapping) = some t')
    (k : ω × κ) : t'.get? k = copyAt t hit set mapping k := by
  ext r
  rw [Table.insertRows_get? done,mem_copied,copyAt]
  cases target : mapping.find? fun m => m.target = k.1 with
  | none =>
    refine or_iff_left ?_
    rintro ⟨m,member,same,_⟩
    have other := List.find?_eq_none.mp target m member
    simp [same] at other
  | some m =>
    have member := List.mem_of_find?_eq_some target
    have same : m.target = k.1 := by simpa using List.find?_some target
    have absent : t.get? k ≠ some r := by
      intro present
      exact fresh.unowned m member ⟨k.2,by rw [same,present]; rfl⟩
    simp only [absent,false_or,Option.map_eq_some_iff,Option.filter_eq_some_iff]
    constructor
    · rintro ⟨m',member',same',r',found,hits,rfl⟩
      -- There is one row of the mapping for the target.
      have one : m' = m := by
        have first := find?_target fresh.distinct member
        have second := find?_target fresh.distinct member'
        rw [← same',← same] at second
        exact Option.some.inj (second.symm.trans first)
      subst one
      exact ⟨r',⟨found,hits⟩,rfl⟩
    · rintro ⟨r',⟨found,hits⟩,rfl⟩
      exact ⟨m,member,same.symm,r',found,hits,rfl⟩

/-- Targets are distinct: the copy of the first one is the only one with its target. -/
theorem find?_later {m : Mapping ω β} {rest : List (Mapping ω β)} (alone : m.target ∉ rest.map Mapping.target) {key : ω}
    (here : m.target = key) : rest.find? (fun m' => m'.target = key) = none := by
  rw [List.find?_eq_none]
  intro m' member
  have other : m'.target ≠ m.target := fun same => alone (same ▸ List.mem_map_of_mem member)
  simpa [← here] using other

/-- Copies along a mapping are copies along its first row and then along the others. -/
theorem copyAt_cons {t t' : Table (ω × κ) ρ} {hit : β → κ → ρ → Bool} {set : ρ → ρ} {m : Mapping ω β}
    {rest : List (Mapping ω β)} (distinct : ((m :: rest).map Mapping.target).Nodup)
    (apart : ∀ m' ∈ rest,m'.source ≠ m.target) (first : ∀ k, t'.get? k = copyAt t hit set [m] k) (k : ω × κ) :
    copyAt t' hit set rest k = copyAt t hit set (m :: rest) k := by
  have others : ∀ k : ω × κ, k.1 ≠ m.target → t'.get? k = t.get? k := by
    intro k other
    exact (first k).trans (copyAt_other (by simpa using other))
  rw [List.map_cons,List.nodup_cons] at distinct
  unfold copyAt
  by_cases here : m.target = k.1
  · rw [find?_later distinct.1 here]
    simp [here,first,copyAt]
  · simp only [List.find?_cons,here,decide_false]
    cases target : rest.find? fun m' => m'.target = k.1 with
    | none => exact others k (Ne.symm here)
    | some m' =>
      simp only [others (m'.source,k.2) (apart m' (List.mem_of_find?_eq_some target))]

/-! ### ROW_NUMBER() = 1 -/

section Ranked
variable {α π : Type} [DecidableEq α] [DecidableEq π] {part : α → π} {rank : α → Nat}

/-- `chosen` has one row of each partition, with the greatest rank of it. Rows of one partition
    with the same rank may be numbered in either order. -/
def FirstRanked (part : α → π) (rank : α → Nat) (rows chosen : List α) : Prop :=
  (∀ r ∈ chosen,r ∈ rows ∧ ∀ r' ∈ rows,part r' = part r → rank r' ≤ rank r) ∧
    (∀ r ∈ rows,∃ r' ∈ chosen,part r' = part r) ∧ (chosen.map part).Nodup

instance (rows chosen : List α) : Decidable (FirstRanked part rank rows chosen) :=
  inferInstanceAs (Decidable (_ ∧ _ ∧ _))

omit [DecidableEq α] [DecidableEq π] in
theorem firstRanked_congr {rows rows' chosen : List α} (same : ∀ r, r ∈ rows ↔ r ∈ rows') :
    FirstRanked part rank rows chosen ↔ FirstRanked part rank rows' chosen := by
  simp only [FirstRanked,same]

omit [DecidableEq α] in
theorem exists_firstRanked (part : α → π) (rank : α → Nat) (rows : List α) : ∃ chosen, FirstRanked part rank rows chosen := by
  induction rows with
  | nil => exact ⟨[],by simp [FirstRanked]⟩
  | cons r rest ih =>
    obtain ⟨chosen,best,covers,distinct⟩ := ih
    by_cases beaten : ∃ c ∈ chosen,part c = part r ∧ rank r ≤ rank c
    · obtain ⟨c,member,same,above⟩ := beaten
      refine ⟨chosen,?_,?_,distinct⟩
      · intro c' member'
        refine ⟨List.mem_cons_of_mem _ (best c' member').1,?_⟩
        intro r' listed here
        rcases List.mem_cons.mp listed with rfl | later
        · have equal := List.inj_on_of_nodup_map distinct member' member (here.symm.trans same.symm)
          exact equal ▸ above
        · exact (best c' member').2 r' later here
      · intro r' listed
        rcases List.mem_cons.mp listed with rfl | later
        · exact ⟨c,member,same⟩
        · exact covers r' later
    · -- The new row takes the place of the one of its partition, if there is one.
      have kept : ∀ c, c ∈ chosen.filter (fun c => part c ≠ part r) ↔ c ∈ chosen ∧ part c ≠ part r := by
        intro c
        rw [List.mem_filter,decide_eq_true_eq]
      refine ⟨r :: chosen.filter fun c => part c ≠ part r,?_,?_,?_⟩
      · intro c' member'
        rcases List.mem_cons.mp member' with rfl | old
        · refine ⟨List.mem_cons_self,?_⟩
          intro r' listed here
          rcases List.mem_cons.mp listed with rfl | later
          · exact Nat.le_refl _
          · obtain ⟨c,member,same⟩ := covers r' later
            have above := (best c member).2 r' later same.symm
            have below : ¬ rank c' ≤ rank c := fun le => beaten ⟨c,member,same.trans here,le⟩
            omega
        · obtain ⟨member,other⟩ := (kept c').mp old
          refine ⟨List.mem_cons_of_mem _ (best c' member).1,?_⟩
          intro r' listed here
          rcases List.mem_cons.mp listed with rfl | later
          · exact absurd here.symm other
          · exact (best c' member).2 r' later here
      · intro r' listed
        by_cases same : part r' = part r
        · exact ⟨r,List.mem_cons_self,same.symm⟩
        · rcases List.mem_cons.mp listed with rfl | later
          · exact absurd rfl same
          · obtain ⟨c,member,here⟩ := covers r' later
            exact ⟨c,List.mem_cons_of_mem _ ((kept c).mpr ⟨member,here ▸ same⟩),here⟩
      · rw [List.map_cons,List.nodup_cons]
        refine ⟨?_,distinct.sublist (List.filter_sublist.map _)⟩
        intro taken
        obtain ⟨c,old,same⟩ := List.mem_map.mp taken
        exact ((kept c).mp old).2 same

end Ranked

end Dbos.Pg
