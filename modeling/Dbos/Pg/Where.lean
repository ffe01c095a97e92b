import Mathlib.Data.List.Forall2
import Mathlib.Data.List.Range
import Mathlib.Algebra.Ring.Nat
import Dbos.Pg.Like

/-!
Statements that are put together piece by piece. A piece adds conditions to the WHERE clause and parameters to the list of parameters, and
numbers its placeholders from a counter that all pieces share. What the conditions mean does not depend on what is added later, so a
statement means what its pieces mean.
-/
namespace Dbos.Pg

/-! ### Conditions -/

/-- The value of a column. -/
inductive Datum (J : Type)
  | null
  | text (s : String)
  | bool (b : Bool)
  | int (n : Int)
  | json (j : J)

/-- A parameter; a time may be no number. -/
inductive Param (J : Type)
  | text (s : String)
  | bool (b : Bool)
  | int (n : Option Int)
  | json (j : J)

/-- What PostgreSQL does with JSON: `@>`, and whether `::jsonb` takes the text of a value. -/
structure Jsonb (J : Type) where
  contains : J → J → Bool
  accepts : J → Bool

inductive Test
  | equals
  | like
  | contains
  | atLeast
  | atMost

/-- `column = $i` and the like, `column IN ($i, ...)` or `(column LIKE $i OR ...)`, and `column IS NULL`. -/
inductive Clause (κ : Type)
  | test (t : Test) (column : κ) (i : Nat)
  | anyOf (t : Test) (column : κ) (is : List Nat)
  | isNull (column : κ)
  | isNotNull (column : κ)

section
variable {κ J : Type} (jsonb : Jsonb J)

def Datum.passes : Test → Datum J → Param J → Bool
  | .equals,.text s,.text t => s = t
  | .equals,.bool b,.bool c => b = c
  | .like,.text s,.text pattern => likeMatch pattern.toList s.toList
  | .contains,.json j,.json k => jsonb.contains j k
  | .atLeast,.int n,.int (some m) => m ≤ n
  | .atMost,.int n,.int (some m) => n ≤ m
  | _,_,_ => false

def Datum.isNull : Datum J → Bool
  | .null => true
  | _ => false

/-- The condition on a row, which is read column by column. Placeholders start at `$1`. -/
def Clause.holds (read : κ → Datum J) (params : List (Param J)) : Clause κ → Bool
  | .test t column i => params[i - 1]?.any ((read column).passes jsonb t)
  | .anyOf t column is => is.any fun i => params[i - 1]?.any ((read column).passes jsonb t)
  | .isNull column => (read column).isNull
  | .isNotNull column => !(read column).isNull

def Clause.placeholders : Clause κ → List Nat
  | .test _ _ i => [i]
  | .anyOf _ _ is => is
  | .isNull _ => []
  | .isNotNull _ => []

/-- `IN ()` and `()` are no SQL. -/
def Clause.malformed : Clause κ → Bool
  | .anyOf _ _ is => is = []
  | _ => false

/-- The server refuses the parameter. -/
def Param.refused : Param J → Bool
  | .text s => '\u0000' ∈ s.toList
  | .bool _ => false
  | .int n => n = none
  | .json j => !jsonb.accepts j

/-! ### Pieces -/

/-- `whereClauses`, `params` and `paramCounter`. -/
structure Where (κ J : Type) where
  clauses : List (Clause κ) := []
  params : List (Param J) := []
  paramCounter : Nat := 1

/-- A condition without a parameter. -/
def Where.bare (clause : Clause κ) (w : Where κ J) : Where κ J := { w with clauses := w.clauses ++ [clause] }

/-- A condition on one parameter. -/
def Where.one (t : Test) (column : κ) (p : Param J) (w : Where κ J) : Where κ J :=
  ⟨w.clauses ++ [.test t column w.paramCounter],w.params ++ [p],w.paramCounter + 1⟩

/-- A condition on any of some parameters. -/
def Where.many (t : Test) (column : κ) (ps : List (Param J)) (w : Where κ J) : Where κ J :=
  ⟨w.clauses ++ [.anyOf t column (List.range' w.paramCounter ps.length)],w.params ++ ps,w.paramCounter + ps.length⟩

def Where.matches (w : Where κ J) (read : κ → Datum J) : Bool := w.clauses.all fun c => c.holds jsonb read w.params

/-- The statement fails. -/
def Where.fails (w : Where κ J) : Bool := w.clauses.any Clause.malformed || w.params.any (Param.refused jsonb)

/-- The protocol counts the parameters of a statement in 16 bits. -/
def Where.tooMany (w : Where κ J) : Bool := 2 ^ 16 ≤ w.params.length

/-- The conditions mean `P` and go on meaning it, and the statement fails if `bad`. The placeholders are `$1`, `$2`, ... in the order
    of the parameters. -/
structure Means (w : Where κ J) (P : (κ → Datum J) → Prop) (bad : Prop) : Prop where
  counter : w.paramCounter = w.params.length + 1
  numbered : w.clauses.flatMap Clause.placeholders = List.range' 1 w.params.length
  meaning : ∀ more read,(∀ c ∈ w.clauses,c.holds jsonb read (w.params ++ more) = true) ↔ P read
  fails : w.fails jsonb = true ↔ bad

/-- The piece adds `Q` to what the conditions say. -/
def Adds (piece : Where κ J → Where κ J) (Q : (κ → Datum J) → Prop) (bad : Prop) : Prop :=
  ∀ w P fails,Means jsonb w P fails → Means jsonb (piece w) (fun read => P read ∧ Q read) (fails ∨ bad)

end

section
variable {κ J : Type} {jsonb : Jsonb J} {w : Where κ J} {P Q : (κ → Datum J) → Prop} {bad : Prop}

theorem means_start : Means jsonb ({} : Where κ J) (fun _ => True) False := ⟨rfl,rfl,by simp,by simp [Where.fails]⟩

theorem Means.congr {P' : (κ → Datum J) → Prop} {bad' : Prop} (means : Means jsonb w P bad) (meaning : ∀ read,P read ↔ P' read)
    (fails : bad ↔ bad') : Means jsonb w P' bad' :=
  ⟨means.counter,means.numbered,fun more read => (means.meaning more read).trans (meaning read),means.fails.trans fails⟩

theorem Means.matches (means : Means jsonb w P bad) (read : κ → Datum J) : w.matches jsonb read = true ↔ P read := by
  have meaning := means.meaning [] read
  rw [List.append_nil] at meaning
  rw [← meaning,Where.matches,List.all_eq_true]

theorem Adds.congr {piece : Where κ J → Where κ J} {Q' : (κ → Datum J) → Prop} {bad' : Prop} (adds : Adds jsonb piece Q bad)
    (meaning : ∀ read,Q read ↔ Q' read) (fails : bad ↔ bad') : Adds jsonb piece Q' bad' :=
  fun w P before means => (adds w P before means).congr (fun read => and_congr_right' (meaning read)) (or_congr_right fails)

theorem Adds.comp {first second : Where κ J → Where κ J} {R : (κ → Datum J) → Prop} {bad' : Prop} (earlier : Adds jsonb first Q bad)
    (later : Adds jsonb second R bad') : Adds jsonb (second ∘ first) (fun read => Q read ∧ R read) (bad ∨ bad') :=
  fun w P before means => (later _ _ _ (earlier w P before means)).congr (fun _ => and_assoc) or_assoc

theorem adds_nothing : Adds jsonb (id : Where κ J → Where κ J) (fun _ => True) False := by
  intro w P fails means
  exact means.congr (fun _ => by simp) (by simp)

theorem adds_bare {clause : Clause κ} (none_ : clause.placeholders = []) (formed : clause.malformed = false) (holds : (κ → Datum J) → Prop)
    (meaning : ∀ read params,clause.holds jsonb read params = true ↔ holds read) :
    Adds jsonb (Where.bare clause) holds False := by
  intro w P fails means
  refine ⟨means.counter,?_,?_,?_⟩
  · simpa [Where.bare,none_] using means.numbered
  · intro more read
    simp only [Where.bare,List.forall_mem_append,List.forall_mem_singleton,meaning]
    exact and_congr_left' (means.meaning more read)
  · rw [or_false,← means.fails]
    simp [Where.fails,Where.bare,formed]

/-- The placeholders of a piece stand for its parameters. -/
theorem any_placeholders {α : Type} (f : α → Bool) (before ps more : List α) :
    ((List.range' (before.length + 1) ps.length).any fun i => ((before ++ ps) ++ more)[i - 1]?.any f) = ps.any f := by
  induction ps generalizing before with
  | nil => rfl
  | cons p ps ih =>
    have here : ((before ++ p :: ps) ++ more)[before.length]? = some p := by
      rw [List.append_assoc,List.getElem?_append_right (Nat.le_refl _),Nat.sub_self]
      rfl
    have later := ih (before ++ [p])
    rw [List.length_append,List.append_assoc before [p] ps] at later
    rw [List.length_cons,List.range'_succ,List.any_cons,List.any_cons,Nat.add_sub_cancel,here]
    exact congrArg (f p || ·) later

theorem adds_many (t : Test) (column : κ) (ps : List (Param J)) :
    Adds jsonb (Where.many t column ps) (fun read => ∃ p ∈ ps,(read column).passes jsonb t p = true)
      (ps = [] ∨ ∃ p ∈ ps,p.refused jsonb = true) := by
  intro w P fails means
  have counter := means.counter
  refine ⟨?_,?_,?_,?_⟩
  · simp only [Where.many,List.length_append]
    omega
  · simp only [Where.many,List.flatMap_append,means.numbered,List.flatMap_singleton,Clause.placeholders,List.length_append,counter]
    rw [Nat.add_comm w.params.length 1,List.range'_append_1]
  · intro more read
    have here : (Clause.anyOf t column (List.range' w.paramCounter ps.length)).holds jsonb read ((w.params ++ ps) ++ more) =
        ps.any ((read column).passes jsonb t) := by
      rw [counter]
      exact any_placeholders _ w.params ps more
    have before := means.meaning (ps ++ more) read
    rw [← List.append_assoc] at before
    simp only [Where.many,List.forall_mem_append,List.forall_mem_singleton,here,before,List.any_eq_true]
  · have empty : (Clause.anyOf t column (List.range' w.paramCounter ps.length)).malformed = true ↔ ps = [] := by
      cases ps <;> simp [Clause.malformed,List.range'_succ]
    rw [← means.fails]
    simp only [Where.fails,Where.many,List.any_append,List.any_cons,List.any_nil,Bool.or_false,Bool.or_eq_true,empty,List.any_eq_true]
    exact or_or_or_comm

theorem adds_one (t : Test) (column : κ) (p : Param J) :
    Adds jsonb (Where.one t column p) (fun read => (read column).passes jsonb t p = true) (p.refused jsonb = true) := by
  intro w P fails means
  have counter := means.counter
  refine ⟨?_,?_,?_,?_⟩
  · simp only [Where.one,List.length_append,List.length_singleton]
    omega
  · simp only [Where.one,List.flatMap_append,means.numbered,List.flatMap_singleton,Clause.placeholders,List.length_append,counter,
      List.length_singleton]
    rw [List.range'_1_concat,Nat.add_comm 1]
  · intro more read
    have here : (Clause.test t column w.paramCounter).holds jsonb read ((w.params ++ [p]) ++ more) = (read column).passes jsonb t p := by
      have only := any_placeholders ((read column).passes jsonb t) w.params [p] more
      rw [← counter] at only
      simpa [Clause.holds] using only
    have before := means.meaning ([p] ++ more) read
    rw [← List.append_assoc] at before
    simp only [Where.one,List.forall_mem_append,List.forall_mem_singleton,here,before]
  · rw [← means.fails]
    simp only [Where.fails,Where.one,List.any_append,List.any_cons,List.any_nil,Bool.or_false,Bool.or_eq_true,Clause.malformed]
    simp [or_assoc]

/-- One piece after the other. -/
theorem means_pieces {pieces : List (Where κ J → Where κ J)} {parts : List (((κ → Datum J) → Prop) × Prop)}
    (each : List.Forall₂ (fun piece part => Adds jsonb piece part.1 part.2) pieces parts) (means : Means jsonb w P bad) :
    Means jsonb (pieces.foldl (fun w piece => piece w) w) (fun read => P read ∧ ∀ part ∈ parts,part.1 read)
      (bad ∨ ∃ part ∈ parts,part.2) := by
  induction each generalizing w P bad with
  | nil => exact means.congr (fun read => by simp) (by simp)
  | cons adds _ ih => exact (ih (adds w P bad means)).congr (fun read => by simp [and_assoc]) (by simp [or_assoc])

/-! ### The number of parameters -/

/-- The piece adds `n` parameters. -/
def Sends (piece : Where κ J → Where κ J) (n : Nat) : Prop := ∀ w,(piece w).params.length = w.params.length + n

theorem sends_nothing : Sends (id : Where κ J → Where κ J) 0 := fun _ => rfl

theorem sends_bare (clause : Clause κ) : Sends (Where.bare clause : Where κ J → Where κ J) 0 := fun _ => rfl

theorem sends_one (t : Test) (column : κ) (p : Param J) : Sends (Where.one t column p) 1 := fun _ => List.length_append

theorem sends_many (t : Test) (column : κ) (ps : List (Param J)) : Sends (Where.many t column ps) ps.length := fun _ => List.length_append

theorem sends_pieces {pieces : List (Where κ J → Where κ J)} {ns : List Nat} (each : List.Forall₂ Sends pieces ns) (w : Where κ J) :
    (pieces.foldl (fun w piece => piece w) w).params.length = w.params.length + ns.sum := by
  induction each generalizing w with
  | nil => rfl
  | cons sends _ ih =>
    rw [List.foldl_cons,ih,sends,List.sum_cons]
    omega

end

end Dbos.Pg
