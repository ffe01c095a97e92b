import Mathlib.Data.List.Infix

/-!
`LIKE`: `%` stands for any text, `_` for one character, and a backslash takes the next character as it is.
-/
namespace Dbos.Pg

def likeMatch : List Char → List Char → Bool
  | [],text => text = []
  | c :: pattern,text =>
    if c = '%' then text.tails.any (likeMatch pattern)
    else if c = '_' then text ≠ [] && likeMatch pattern text.tail
    else if c = '\\' then
      match pattern with
      | d :: pattern => text.head? = some d && likeMatch pattern text.tail
      | [] => false
    else text.head? = some c && likeMatch pattern text.tail

/-- The characters that stand for something else. -/
def isSpecial (c : Char) : Bool := c = '%' ∨ c = '_' ∨ c = '\\'

@[simp] theorem likeMatch_any (text : List Char) : likeMatch ['%'] text = true := by
  have last : ([] : List Char) ∈ text.tails := (List.mem_tails _ _).mpr List.nil_suffix
  rw [likeMatch,if_pos rfl,List.any_eq_true]
  exact ⟨[],last,rfl⟩

theorem likeMatch_plain {c : Char} (plain : isSpecial c = false) (pattern text : List Char) :
    likeMatch (c :: pattern) text = (text.head? = some c && likeMatch pattern text.tail) := by
  simp only [isSpecial,decide_eq_false_iff_not,not_or] at plain
  obtain ⟨any,one,escape⟩ := plain
  rw [likeMatch.eq_def]
  simp only [any,one,escape,if_false]

/-- A pattern of plain characters before `%` is a prefix. -/
theorem likeMatch_prefix {start : List Char} (plain : ∀ c ∈ start,isSpecial c = false) (text : List Char) :
    likeMatch (start ++ ['%']) text = start.isPrefixOf text := by
  induction start generalizing text with
  | nil => simp
  | cons c start ih =>
    rw [List.cons_append,likeMatch_plain (plain c List.mem_cons_self),ih fun c' listed => plain c' (List.mem_cons_of_mem _ listed)]
    cases text with
    | nil => rfl
    | cons d rest =>
      rw [List.isPrefixOf,List.head?_cons,List.tail_cons]
      by_cases same : c = d
      · simp [same]
      · simp [same,Ne.symm same]

/-- A backslash in the pattern is not one in the text. -/
example : likeMatch "a\\b%".toList "a\\bc".toList = false ∧ likeMatch "a\\b%".toList "abc".toList = true ∧
    likeMatch "a_%".toList "abc".toList = true := by decide

end Dbos.Pg
