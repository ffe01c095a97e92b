import Mathlib.Data.List.Infix

/-!
JSON values, and the text that `JSON.stringify` makes of them when no space is asked for. A number is known by the text of its
literal, which is the shortest one that reads as the number. The text of every member of an object stands in the text of the object.
-/
namespace Dbos.Js

/-! ### Values -/

def isNumberChar (c : Char) : Bool := c.isDigit || c = '-' || c = '+' || c = '.' || c = 'e'

structure NumberText where
  chars : List Char
  some_ : chars ≠ []
  literal : ∀ c ∈ chars,isNumberChar c = true
  deriving DecidableEq

inductive Json
  | null
  | boolean (b : Bool)
  | number (n : NumberText)
  | string (s : String)
  | array (items : List Json)
  | object (members : List (String × Json))

mutual
/-- No object has two members under one key: the values that JavaScript has. -/
def Json.Proper : Json → Prop
  | .array items => ItemsProper items
  | .object members => MembersProper members ∧ (members.map Prod.fst).Nodup
  | _ => True

def ItemsProper : List Json → Prop
  | [] => True
  | item :: rest => item.Proper ∧ ItemsProper rest

def MembersProper : List (String × Json) → Prop
  | [] => True
  | (_,value) :: rest => value.Proper ∧ MembersProper rest
end

/-- The member of an object; `undefined` is `none`. -/
def Json.member (key : String) : Json → Option Json
  | .object members => members.lookup key
  | _ => none

/-! ### JSON.stringify -/

def hexDigit (n : Nat) : Char := "0123456789abcdef".toList.getD n '0'

def escape (c : Char) : List Char :=
  if c = '"' then ['\\','"']
  else if c = '\\' then ['\\','\\']
  else if c = '\x08' then ['\\','b']
  else if c = '\x0c' then ['\\','f']
  else if c = '\n' then ['\\','n']
  else if c = '\r' then ['\\','r']
  else if c = '\t' then ['\\','t']
  else if c.toNat < 32 then ['\\','u','0','0',hexDigit (c.toNat / 16),hexDigit (c.toNat % 16)]
  else [c]

def quote (s : String) : List Char := '"' :: s.toList.flatMap escape ++ ['"']

mutual
def Json.text : Json → List Char
  | .null => "null".toList
  | .boolean b => if b then "true".toList else "false".toList
  | .number n => n.chars
  | .string s => quote s
  | .array items => '[' :: itemsText items ++ [']']
  | .object members => '\x7b' :: membersText members ++ ['\x7d']

def itemsText : List Json → List Char
  | [] => []
  | [item] => item.text
  | item :: next :: rest => item.text ++ ',' :: itemsText (next :: rest)

def membersText : List (String × Json) → List Char
  | [] => []
  | [(key,value)] => quote key ++ ':' :: value.text
  | (key,value) :: next :: rest => quote key ++ ':' :: value.text ++ ',' :: membersText (next :: rest)
end

def Json.stringify (j : Json) : String := String.ofList j.text

/-! ### What stands in a text -/

/-- `text.includes(part)`. -/
def includes (text part : String) : Bool := part.toList <:+: text.toList

theorem member_within {members : List (String × Json)} {key : String} {value : Json} (listed : (key,value) ∈ members) :
    quote key ++ ':' :: value.text <:+: membersText members := by
  induction members with
  | nil => cases listed
  | cons first rest ih =>
    obtain ⟨key',value'⟩ := first
    cases rest with
    | nil =>
      cases List.mem_singleton.mp listed
      exact List.infix_refl _
    | cons next rest =>
      unfold membersText
      rcases List.mem_cons.mp listed with same | later
      · cases same
        exact ⟨[],',' :: membersText (next :: rest),by simp⟩
      · exact (ih later).trans ⟨quote key' ++ ':' :: value'.text ++ [','],[],by simp⟩

/-- The text of an object shows each of its members. -/
theorem stringify_includes {members : List (String × Json)} {key : String} {value : Json} (listed : (key,value) ∈ members) :
    includes (Json.object members).stringify (String.ofList (quote key ++ ':' :: value.text)) = true := by
  unfold includes Json.stringify
  rw [decide_eq_true_eq,String.toList_ofList,String.toList_ofList]
  refine (member_within listed).trans ⟨['\x7b'],['\x7d'],?_⟩
  simp [Json.text]

theorem escape_length (c : Char) : 1 ≤ (escape c).length := by
  unfold escape
  split_ifs <;> simp

/-- A quoted text is longer than the text. -/
theorem quote_length (s : String) : s.toList.length < (quote s).length := by
  have each : ∀ chars : List Char,chars.length ≤ (chars.flatMap escape).length := by
    intro chars
    induction chars with
    | nil => simp
    | cons c rest ih =>
      have one := escape_length c
      rw [List.flatMap_cons,List.length_append,List.length_cons]
      omega
  have all := each s.toList
  simp only [quote,List.length_append,List.length_cons,List.length_nil]
  omega

/-- No text is the text of an object that has it for a member. -/
theorem stringify_ne_member {members : List (String × Json)} {key s : String} (listed : (key,.string s) ∈ members) :
    (Json.object members).stringify ≠ s := by
  intro same
  have inside := (member_within listed).length_le
  have longer := quote_length s
  have text : s.toList = (Json.object members).text := by rw [← same,Json.stringify,String.toList_ofList]
  have length := congrArg List.length text
  simp only [Json.text,List.length_append,List.length_cons,List.length_nil] at length inside
  omega

end Dbos.Js
