import Mathlib.Data.List.Basic

/-!
Logs that are read from the front. An entry that is there stays as it is, so whoever reads up to the first gap, or to the first entry at
which reading stops, has a prefix of what anybody reads later.
-/
namespace Dbos.Pg
variable {α β ε : Type} {log log' : Nat → Option α} {stops : α → Bool} {l m : List α} {a : α}

/-- Entries are added and never changed. -/
def Extends (log log' : Nat → Option α) : Prop := ∀ i a,log i = some a → log' i = some a

theorem Extends.refl (log : Nat → Option α) : Extends log log := fun _ _ there => there

theorem Extends.trans {log'' : Nat → Option α} (first : Extends log log') (second : Extends log' log'') : Extends log log'' :=
  fun i a there => second i a (first i a there)

/-- The list stands at the front of the log, and nothing in it stops the reading. -/
def Front (log : Nat → Option α) (stops : α → Bool) (l : List α) : Prop := ∀ i a,l[i]? = some a → log i = some a ∧ stops a = false

/-- The list is all that can be read. -/
structure Whole (log : Nat → Option α) (stops : α → Bool) (l : List α) : Prop where
  front : Front log stops l
  last : ∀ a,log l.length = some a → stops a = true

theorem front_nil : Front log stops [] := by simp [Front]

theorem Front.extends (front : Front log stops l) (more : Extends log log') : Front log' stops l := by
  intro i a listed
  obtain ⟨there,goes⟩ := front i a listed
  exact ⟨more i a there,goes⟩

/-- The next entry is read. -/
theorem Front.concat (front : Front log stops l) (there : log l.length = some a) (goes : stops a = false) : Front log stops (l ++ [a]) := by
  intro i b listed
  rcases Nat.lt_trichotomy i l.length with before | rfl | beyond
  · rw [List.getElem?_append_left before] at listed
    exact front i b listed
  · cases (List.getElem?_concat_length).symm.trans listed
    exact ⟨there,goes⟩
  · rw [List.getElem?_eq_none (by simp; omega)] at listed
    cases listed

theorem Front.below (front : Front log stops l) (whole : Whole log stops m) : List.IsPrefix l m := by
  rw [List.prefix_iff_getElem?]
  intro i
  induction i using Nat.strongRecOn with
  | ind i ih =>
    intro within
    obtain ⟨there,goes⟩ := front i l[i] (List.getElem?_eq_getElem within)
    rcases Nat.lt_trichotomy i m.length with inside | rfl | beyond
    · obtain ⟨same,_⟩ := whole.front i m[i] (List.getElem?_eq_getElem inside)
      rw [there] at same
      rw [List.getElem?_eq_getElem inside,Option.some.inj same]
    · rw [whole.last _ there] at goes
      cases goes
    · have reached := ih m.length beyond (by omega)
      rw [List.getElem?_eq_none (Nat.le_refl _)] at reached
      cases reached

theorem Whole.unique (first : Whole log stops l) (second : Whole log stops m) : l = m := by
  have shorter : m <+: l := second.front.below first
  exact (first.front.below second).eq_of_length_le shorter.length_le

/-- What is to be read from `start` on, of `n` entries at most. -/
def readFrom (log : Nat → Option α) (stops : α → Bool) (start : Nat) : Nat → List α
  | 0 => []
  | n + 1 =>
    match log start with
    | some a => if stops a then [] else a :: readFrom log stops (start + 1) n
    | none => []

theorem readFrom_front (log : Nat → Option α) (stops : α → Bool) (n start : Nat) :
    Front (fun i => log (start + i)) stops (readFrom log stops start n) := by
  induction n generalizing start with
  | zero => exact front_nil
  | succ n ih =>
    unfold readFrom
    cases here : log start with
    | none => exact front_nil
    | some a =>
      cases halts : stops a with
      | true => simpa [halts] using front_nil
      | false =>
        intro i b listed
        cases i with
        | zero =>
          simp only [halts,Bool.false_eq_true,if_false,List.getElem?_cons_zero,Option.some.injEq] at listed
          subst listed
          exact ⟨here,halts⟩
        | succ i =>
          simp only [halts,Bool.false_eq_true,if_false,List.getElem?_cons_succ] at listed
          have later := ih (start + 1) i b listed
          simpa [Nat.add_assoc,Nat.add_comm 1 i] using later

variable (log stops) in
/-- A log without entries from `n` on is read whole. -/
theorem readFrom_whole (start n : Nat) (bounded : ∀ i,(log i).isSome → i < start + n) :
    Whole (fun i => log (start + i)) stops (readFrom log stops start n) := by
  refine ⟨readFrom_front log stops n start,?_⟩
  induction n generalizing start with
  | zero =>
    intro a there
    have small := bounded _ (by rw [show log (start + _) = some a from there]; rfl)
    simp [readFrom] at small
  | succ n ih =>
    intro a there
    unfold readFrom at there
    cases here : log start with
    | none =>
      rw [here] at there
      simp [here] at there
    | some b =>
      cases halts : stops b with
      | true =>
        simp only [here,halts,if_true,List.length_nil,Nat.add_zero,Option.some.injEq] at there
        rw [← there]
        exact halts
      | false =>
        refine ih (start + 1) (fun i there => by have := bounded i there; omega) a ?_
        simp only [here,halts,Bool.false_eq_true,if_false,List.length_cons] at there
        rw [← there]
        congr 1
        omega

/-! ### Decoded entries -/

/-- The entries that are decoded before the first that is not, and the error of that one. -/
def decodeAll (decode : α → Except ε β) : List α → List β × Option ε
  | [] => ([],none)
  | a :: l =>
    match decode a with
    | .ok b => (b :: (decodeAll decode l).1,(decodeAll decode l).2)
    | .error e => ([],some e)

variable {decode : α → Except ε β} {bs : List β}

theorem decodeAll_append (decoded : bs.map .ok = l.map decode) (m : List α) :
    decodeAll decode (l ++ m) = (bs ++ (decodeAll decode m).1,(decodeAll decode m).2) := by
  induction l generalizing bs with
  | nil =>
    cases List.map_eq_nil_iff.mp decoded
    rfl
  | cons a l ih =>
    cases bs with
    | nil => cases decoded
    | cons b bs =>
      obtain ⟨here,rest⟩ := List.cons.inj decoded
      simp only [List.cons_append,decodeAll,← here,ih rest]

theorem decodeAll_ok (decoded : bs.map .ok = l.map decode) : decodeAll decode l = (bs,none) := by
  simpa [decodeAll] using decodeAll_append decoded []

/-- What is decoded is decoded from the front, and without an error from everything. -/
theorem decodeAll_spec (decode : α → Except ε β) (l : List α) :
    ((decodeAll decode l).1.map .ok <+: l.map decode) ∧
      ((decodeAll decode l).2 = none ↔ ∀ a ∈ l,∃ b,decode a = .ok b) ∧
      ((decodeAll decode l).2 = none → (decodeAll decode l).1.map .ok = l.map decode) := by
  induction l with
  | nil => simp [decodeAll]
  | cons a l ih =>
    cases here : decode a with
    | ok b => simpa [decodeAll,here] using ih
    | error e => simp [decodeAll,here]

end Dbos.Pg
