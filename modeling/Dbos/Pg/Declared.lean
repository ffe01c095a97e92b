import Mathlib.Data.List.Pairwise
import Mathlib.Logic.Function.Basic

/-!
Tables as their DDL declares them. A row gives every column a value, and a table holds rows
that its columns admit and that its unique indexes keep apart. An INSERT lists its columns and
gives the values by position; the driver answers a SELECT with one property for each column
that it lists.
-/
namespace Dbos.Pg
variable {χ ν κ : Type}

section Rows
variable [DecidableEq χ]

/-- What the driver answers for a row: properties that the SELECT does not list are undefined. -/
def selected (columns : List χ) (row : χ → ν) : χ → Option ν := fun c => if c ∈ columns then some (row c) else none

/-- The row of INSERT INTO ... (columns) VALUES (values), with the default in all other columns. -/
def positional (default : χ → ν) : List χ → List ν → χ → ν
  | c :: columns,v :: values => Function.update (positional default columns values) c v
  | _,_ => default

theorem positional_map (default : χ → ν) (columns : List χ) (f : χ → ν) (c : χ) :
    positional default columns (columns.map f) c = if c ∈ columns then f c else default c := by
  induction columns with
  | nil => simp [positional]
  | cons first rest ih =>
    by_cases same : c = first
    · subst same; simp [positional]
    · simp [positional,same,ih]

end Rows

/-- The rows are not under one key of a unique index. A row under no key is in nobody's way. -/
def Apart (key : (χ → ν) → Option κ) (a b : χ → ν) : Prop := key a = none ∨ key a ≠ key b

instance [DecidableEq κ] (key : (χ → ν) → Option κ) (a b : χ → ν) : Decidable (Apart key a b) :=
  inferInstanceAs (Decidable (_ ∨ _))

theorem apart_symm {key : (χ → ν) → Option κ} {a b : χ → ν} (apart : Apart key a b) : Apart key b a := by
  unfold Apart at *
  by_cases none : key b = none
  · exact .inl none
  · refine .inr fun same => ?_
    rcases apart with absent | other
    · exact none (same.trans absent)
    · exact other same.symm

/-- What CREATE TABLE and CREATE UNIQUE INDEX say of a table. -/
structure Declaration (χ ν κ : Type) where
  columns : List χ
  admits : χ → ν → Bool
  keys : List ((χ → ν) → Option κ)

def Declaration.Admits (decl : Declaration χ ν κ) (row : χ → ν) : Prop := ∀ c ∈ decl.columns,decl.admits c (row c) = true

instance (decl : Declaration χ ν κ) (row : χ → ν) : Decidable (decl.Admits row) :=
  inferInstanceAs (Decidable (∀ c ∈ _,_))

structure Declared (decl : Declaration χ ν κ) where
  rows : List (χ → ν)
  admitted : ∀ row ∈ rows,decl.Admits row
  unique : ∀ key ∈ decl.keys,rows.Pairwise (Apart key)

namespace Declared
variable {decl : Declaration χ ν κ}

def empty : Declared decl := ⟨[],by simp,by simp⟩

theorem apart (t : Declared decl) {key : (χ → ν) → Option κ} (index : key ∈ decl.keys) {a b : χ → ν}
    (left : a ∈ t.rows) (right : b ∈ t.rows) (other : a ≠ b) : Apart key a b := by
  have : Std.Symm (Apart key) := ⟨fun _ _ => apart_symm⟩
  exact (t.unique key index).forall left right other

variable [DecidableEq κ]

/-- INSERT of one row: not_null_violation, unique_violation, or the table with the row. -/
def insert (t : Declared decl) (row : χ → ν) : Except String { t' : Declared decl // t'.rows = t.rows ++ [row] } :=
  if typed : decl.Admits row then
    if free : ∀ key ∈ decl.keys,∀ other ∈ t.rows,Apart key other row then
      .ok ⟨⟨t.rows ++ [row],
        by
          intro r member
          rcases List.mem_append.mp member with old | new
          · exact t.admitted r old
          · rw [List.mem_singleton.mp new]; exact typed,
        by
          intro key index
          rw [List.pairwise_append]
          refine ⟨t.unique key index,List.pairwise_singleton _ _,fun a old b new => ?_⟩
          rw [List.mem_singleton.mp new]
          exact free key index a old⟩,rfl⟩
    else .error "23505"
  else .error "23502"

theorem insert_ok (t : Declared decl) {row : χ → ν} (typed : decl.Admits row)
    (free : ∀ key ∈ decl.keys,∀ other ∈ t.rows,Apart key other row) : ∃ t',t.insert row = .ok t' := by
  unfold insert
  rw [dif_pos typed,dif_pos free]
  exact ⟨_,rfl⟩

end Declared
end Dbos.Pg
