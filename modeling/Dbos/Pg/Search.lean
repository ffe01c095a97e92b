import Mathlib.Data.List.Nodup
import Mathlib.Logic.Relation

/-!
Searches that follow a relation in rounds. A round looks up the children of the frontier; those that have not been found
before are the next frontier, and the search is over when there are none. It may count the roots as found from the start, or not.
-/
namespace Dbos.Pg
variable {κ : Type} {R : κ → κ → Prop} {roots frontier found children : List κ} {P : κ → Prop}

/-- Reached from a root by one step or more. -/
def Below (R : κ → κ → Prop) (roots : List κ) (id : κ) : Prop := ∃ root ∈ roots,Relation.TransGen R root id

/-- A search under way. `P` is what may be found: all that is below a root, at least. -/
structure Searched (R : κ → κ → Prop) (roots : List κ) (P : κ → Prop) (frontier found : List κ) : Prop where
  reached : ∀ id ∈ frontier,id ∈ roots ∨ Below R roots id
  sound : ∀ id ∈ found,P id
  settled : ∀ id,id ∈ roots ∨ id ∈ found → id ∈ frontier ∨ ∀ child,R id child → child ∈ found

/-- The children of the frontier are below a root. -/
theorem Searched.below (s : Searched R roots P frontier found)
    (mem : ∀ child,child ∈ children ↔ ∃ parent ∈ frontier,R parent child) : ∀ child ∈ children,Below R roots child := by
  intro child listed
  obtain ⟨parent,waiting,step⟩ := (mem child).mp listed
  rcases s.reached parent waiting with root | ⟨root,member,path⟩
  · exact ⟨parent,root,.single step⟩
  · exact ⟨root,member,path.tail step⟩

/-- At the end nothing is missing. -/
theorem Searched.complete (s : Searched R roots P [] found) {id : κ} (below : Below R roots id) : id ∈ found := by
  have closed : ∀ a b,a ∈ roots ∨ a ∈ found → R a b → b ∈ found := by
    intro a b known step
    exact (s.settled a known).resolve_left (by simp) b step
  obtain ⟨root,member,path⟩ := below
  induction path with
  | single step => exact closed _ _ (.inl member) step
  | tail _ step ih => exact closed _ _ (.inr ih) step

/-! ### Sets of what is found -/

variable [DecidableEq κ]

/-- `add`, for a set that is kept in the order of insertion. -/
def addTo (found : List κ) (id : κ) : List κ := if id ∈ found then found else found ++ [id]

theorem mem_addAll {found next : List κ} {id : κ} : id ∈ next.foldl addTo found ↔ id ∈ found ∨ id ∈ next := by
  induction next generalizing found with
  | nil => simp
  | cons first rest ih =>
    rw [List.foldl_cons,ih,List.mem_cons]
    by_cases old : first ∈ found
    · rw [addTo,if_pos old]
      constructor
      · rintro (there | later)
        · exact .inl there
        · exact .inr (.inr later)
      · rintro (there | rfl | later)
        · exact .inl there
        · exact .inl old
        · exact .inr later
    · rw [addTo,if_neg old,List.mem_append,List.mem_singleton,or_assoc]

theorem nodup_addAll {found next : List κ} (distinct : found.Nodup) : (next.foldl addTo found).Nodup := by
  induction next generalizing found with
  | nil => exact distinct
  | cons first rest ih =>
    refine ih ?_
    unfold addTo
    split
    · exact distinct
    · rename_i new
      refine List.nodup_append.mpr ⟨distinct,List.nodup_singleton _,fun a old b single => ?_⟩
      rintro rfl
      exact new (List.mem_singleton.mp single ▸ old)

/-- The children that have not been found before. -/
def unseen (children found : List κ) : List κ := children.filter fun id => id ∉ found

theorem mem_unseen {children found : List κ} {id : κ} : id ∈ unseen children found ↔ id ∈ children ∧ id ∉ found := by
  simp [unseen]

/-! ### Rounds -/

theorem Searched.next (s : Searched R roots P frontier found) (all : ∀ id,Below R roots id → P id)
    (mem : ∀ child,child ∈ children ↔ ∃ parent ∈ frontier,R parent child) :
    Searched R roots P (unseen children found) ((unseen children found).foldl addTo found) where
  reached id member := .inr (s.below mem id (mem_unseen.mp member).1)
  sound id member := by
    rcases mem_addAll.mp member with old | new
    · exact s.sound id old
    · exact all id (s.below mem id (mem_unseen.mp new).1)
  settled id known := by
    have before : id ∈ unseen children found ∨ id ∈ roots ∨ id ∈ found := by
      rcases known with root | member
      · exact .inr (.inl root)
      · rcases mem_addAll.mp member with old | new
        · exact .inr (.inr old)
        · exact .inl new
    rcases before with new | old
    · exact .inl new
    refine .inr fun child step => mem_addAll.mpr ?_
    rcases s.settled id old with waiting | done
    · by_cases seen : child ∈ found
      · exact .inl seen
      · exact .inr (mem_unseen.mpr ⟨(mem child).mpr ⟨id,waiting,step⟩,seen⟩)
    · exact .inl (done child step)

/-- A round that finds somebody leaves fewer to be found. -/
theorem unseen_fewer {everybody : List κ} (listed : ∀ child ∈ children,child ∈ everybody) {id : κ} (new : id ∈ unseen children found) :
    (unseen everybody ((unseen children found).foldl addTo found)).length < (unseen everybody found).length := by
  have left : unseen everybody ((unseen children found).foldl addTo found) = (unseen everybody found).filter fun id => id ∉ unseen children found := by
    unfold unseen
    rw [List.filter_filter]
    refine List.filter_congr fun id _ => ?_
    simp only [mem_addAll]
    by_cases old : id ∈ found <;> simp [old]
  rw [left,List.length_filter_lt_length_iff_exists]
  obtain ⟨child,fresh⟩ := mem_unseen.mp new
  exact ⟨id,mem_unseen.mpr ⟨listed id child,fresh⟩,by simpa using new⟩

/-- What is left of a search among so many: a round that finds nobody is the last one. -/
def unsearched (everybody frontier found : List κ) : Nat :=
  2 * (unseen everybody found).length + if frontier = [] then 0 else 1

theorem unsearched_next {everybody : List κ} (listed : ∀ child ∈ children,child ∈ everybody) (going : frontier ≠ []) :
    unsearched everybody (unseen children found) ((unseen children found).foldl addTo found) < unsearched everybody frontier found := by
  unfold unsearched
  rw [if_neg going]
  by_cases last : unseen children found = []
  · rw [last]
    simp
  · obtain ⟨id,new⟩ := List.exists_mem_of_ne_nil _ last
    have fewer := unseen_fewer listed new
    rw [if_neg last]
    omega

end Dbos.Pg
