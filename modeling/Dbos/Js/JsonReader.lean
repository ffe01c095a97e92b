import Mathlib.Data.List.TakeWhile
import Mathlib.Tactic.IntervalCases
import Dbos.Js.Json

/-!
A reader for what `JSON.stringify` writes. It reads nothing else: no spaces, and none of the escapes that are never written. The budget
of the reader is the length of the text.
-/
namespace Dbos.Js

/-! ### Strings -/

def hexValue (c : Char) : Nat := "0123456789abcdef".toList.idxOf c

/-- What an escape of one letter stands for. -/
def unescape (c : Char) : Char :=
  if c = 'b' then '\x08' else if c = 'f' then '\x0c' else if c = 'n' then '\n' else if c = 'r' then '\r' else if c = 't' then '\t' else c

/-- What follows a backslash. -/
def readEscape : List Char → Option (Char × List Char)
  | [] => none
  | c :: rest =>
    if c = 'u' then
      match rest with
      | _ :: _ :: high :: low :: rest => some (Char.ofNat (16 * hexValue high + hexValue low),rest)
      | _ => none
    else some (unescape c,rest)

def readChar : List Char → Option (Char × List Char)
  | [] => none
  | c :: rest => if c = '\\' then readEscape rest else some (c,rest)

/-- The characters up to the closing quote, and what follows it. -/
def readChars : Nat → List Char → Option (List Char × List Char)
  | 0,_ => none
  | fuel + 1,text =>
    if text.head? = some '"' then some ([],text.tail)
    else match readChar text with
      | some (c,rest) => (readChars fuel rest).map fun r => (c :: r.1,r.2)
      | none => none

/-- The escapes of four digits are those of control characters. -/
theorem hexValue_digits {n : Nat} (control : n < 32) : 16 * hexValue (hexDigit (n / 16)) + hexValue (hexDigit (n % 16)) = n := by
  interval_cases n <;> rfl

theorem readChar_escape (c : Char) (rest : List Char) : readChar (escape c ++ rest) = some (c,rest) := by
  unfold escape
  split_ifs with quotes backslash backspace formFeed newline return_ tab control
  · rw [quotes]; rfl
  · rw [backslash]; rfl
  · rw [backspace]; rfl
  · rw [formFeed]; rfl
  · rw [newline]; rfl
  · rw [return_]; rfl
  · rw [tab]; rfl
  · have read : readChar (['\\','u','0','0',hexDigit (c.toNat / 16),hexDigit (c.toNat % 16)] ++ rest) =
        some (Char.ofNat (16 * hexValue (hexDigit (c.toNat / 16)) + hexValue (hexDigit (c.toNat % 16))),rest) := rfl
    rw [read,hexValue_digits control,Char.ofNat_toNat]
  · exact if_neg backslash

/-- No escape starts with a quote. -/
theorem escape_head (c : Char) (rest : List Char) : (escape c ++ rest).head? ≠ some '"' := by
  unfold escape
  split_ifs with quotes <;> simp [*]

theorem readChars_quote (chars rest : List Char) (fuel : Nat) (enough : chars.length < fuel) :
    readChars fuel (chars.flatMap escape ++ '"' :: rest) = some (chars,rest) := by
  induction chars generalizing fuel with
  | nil =>
    obtain ⟨fuel,rfl⟩ := Nat.exists_eq_add_of_lt enough
    rfl
  | cons c chars ih =>
    obtain ⟨fuel,rfl⟩ : ∃ n,fuel = n + 1 := ⟨fuel - 1,by rw [List.length_cons] at enough; omega⟩
    rw [List.flatMap_cons,List.append_assoc,readChars,if_neg (escape_head c _),readChar_escape]
    dsimp only
    rw [ih fuel (by rw [List.length_cons] at enough; omega)]
    rfl

/-! ### Values -/

/-- The characters of a number, and what follows them. -/
def readNumber (text : List Char) : Option (Json × List Char) :=
  if some_ : text.takeWhile isNumberChar = [] then none
  else some (.number ⟨_,some_,fun _ listed => List.mem_takeWhile_imp listed⟩,text.dropWhile isNumberChar)

def readKeyword (keyword : List Char) (value : Json) (text : List Char) : Option (Json × List Char) :=
  if keyword.isPrefixOf text then some (value,text.drop keyword.length) else none

mutual
def readValue : Nat → List Char → Option (Json × List Char)
  | 0,_ => none
  | _ + 1,[] => none
  | fuel + 1,c :: rest =>
    if c = '"' then (readChars (fuel + 1) rest).map fun r => (.string (.ofList r.1),r.2)
    else if c = '[' then (if rest.head? = some ']' then some (.array [],rest.tail) else (readItems fuel rest).map fun r => (.array r.1,r.2))
    else if c = '\x7b' then
      (if rest.head? = some '\x7d' then some (.object [],rest.tail) else (readMembers fuel rest).map fun r => (.object r.1,r.2))
    else if c = 'n' then readKeyword "null".toList .null (c :: rest)
    else if c = 't' then readKeyword "true".toList (.boolean true) (c :: rest)
    else if c = 'f' then readKeyword "false".toList (.boolean false) (c :: rest)
    else readNumber (c :: rest)

/-- The items of an array, with its closing bracket. -/
def readItems : Nat → List Char → Option (List Json × List Char)
  | 0,_ => none
  | fuel + 1,text =>
    match readValue fuel text with
    | some (item,c :: rest) =>
      if c = ',' then (readItems fuel rest).map fun r => (item :: r.1,r.2) else if c = ']' then some ([item],rest) else none
    | _ => none

/-- The members of an object, with its closing brace. -/
def readMembers : Nat → List Char → Option (List (String × Json) × List Char)
  | 0,_ => none
  | fuel + 1,text =>
    match readChars (fuel + 1) text.tail with
    | some (key,_ :: text) =>
      match readValue fuel text with
      | some (value,c :: rest) =>
        if c = ',' then (readMembers fuel rest).map fun r => ((.ofList key,value) :: r.1,r.2)
        else if c = '\x7d' then some ([(.ofList key,value)],rest)
        else none
      | _ => none
    | _ => none
end

def Json.read (text : String) : Option Json :=
  match readValue text.toList.length text.toList with
  | some (j,[]) => some j
  | _ => none

/-! ### Round trip -/

/-- A number ends here. -/
def Stops (rest : List Char) : Prop := ∀ c ∈ rest.head?,isNumberChar c = false

theorem readNumber_text (n : NumberText) {rest : List Char} (stops : Stops rest) : readNumber (n.chars ++ rest) = some (.number n,rest) := by
  have all : ∀ c ∈ n.chars,isNumberChar c = true := n.literal
  have last : rest.takeWhile isNumberChar = [] ∧ rest.dropWhile isNumberChar = rest := by
    cases rest with
    | nil => exact ⟨rfl,rfl⟩
    | cons c rest => simp [stops c rfl]
  have taken : (n.chars ++ rest).takeWhile isNumberChar = n.chars := by
    rw [List.takeWhile_append_of_pos all,last.1,List.append_nil]
  have dropped : (n.chars ++ rest).dropWhile isNumberChar = rest := by
    rw [List.dropWhile_append_of_pos all,last.2]
  unfold readNumber
  simp only [taken,dropped]
  rw [dif_neg n.some_]

theorem readKeyword_text (keyword rest : List Char) (value : Json) : readKeyword keyword value (keyword ++ rest) = some (value,rest) := by
  unfold readKeyword
  rw [if_pos (List.isPrefixOf_iff_prefix.mpr (List.prefix_append keyword rest)),List.drop_left]

/-- A number starts with none of the characters that start the other values. -/
theorem readValue_number (n : NumberText) {rest : List Char} (stops : Stops rest) (fuel : Nat) :
    readValue (fuel + 1) (n.chars ++ rest) = some (.number n,rest) := by
  have read := readNumber_text n stops
  obtain ⟨chars,some_,literal⟩ := n
  obtain ⟨c,more,rfl⟩ := List.exists_cons_of_ne_nil some_
  have digit : isNumberChar c = true := literal c List.mem_cons_self
  have apart : ∀ d : Char,isNumberChar d = false → c ≠ d := fun d other same => by rw [same,other] at digit; cases digit
  simp only [List.cons_append] at read ⊢
  unfold readValue
  rw [if_neg (apart _ (by decide)),if_neg (apart _ (by decide)),if_neg (apart _ (by decide)),if_neg (apart _ (by decide)),
    if_neg (apart _ (by decide)),if_neg (apart _ (by decide)),read]

/-- No value starts with a bracket that closes. -/
theorem text_head (j : Json) : ∃ c more,j.text = c :: more ∧ c ≠ ']' := by
  cases j with
  | null => exact ⟨'n',_,rfl,by decide⟩
  | boolean b => cases b <;> exact ⟨_,_,rfl,by decide⟩
  | number n =>
    obtain ⟨chars,some_,literal⟩ := n
    obtain ⟨c,more,rfl⟩ := List.exists_cons_of_ne_nil some_
    refine ⟨c,more,rfl,fun closing => ?_⟩
    have digit := literal c List.mem_cons_self
    rw [closing] at digit
    cases digit
  | string s => exact ⟨'"',_,rfl,by decide⟩
  | array items => exact ⟨'[',_,rfl,by decide⟩
  | object members => exact ⟨'\x7b',_,rfl,by decide⟩

theorem text_some (j : Json) : 1 ≤ j.text.length := by
  obtain ⟨c,more,text,-⟩ := text_head j
  rw [text,List.length_cons]
  omega

theorem itemsText_head (item : Json) (items : List Json) : ∃ c more,itemsText (item :: items) = c :: more ∧ c ≠ ']' := by
  obtain ⟨c,more,text,other⟩ := text_head item
  cases items with
  | nil => exact ⟨c,more,text,other⟩
  | cons next items => exact ⟨c,more ++ ',' :: itemsText (next :: items),by rw [itemsText,text,List.cons_append],other⟩

theorem membersText_head (member : String × Json) (members : List (String × Json)) :
    ∃ more,membersText (member :: members) = '"' :: more := by
  obtain ⟨key,value⟩ := member
  cases members with
  | nil => exact ⟨_,rfl⟩
  | cons next members => exact ⟨_,rfl⟩

theorem stops_of {c : Char} (other : isNumberChar c = false) (rest : List Char) : Stops (c :: rest) := by
  intro d first
  cases first
  exact other

mutual
theorem readValue_text (j : Json) (fuel : Nat) (rest : List Char) (enough : j.text.length ≤ fuel) (stops : Stops rest) :
    readValue fuel (j.text ++ rest) = some (j,rest) := by
  obtain ⟨fuel,rfl⟩ : ∃ n,fuel = n + 1 := ⟨fuel - 1,by have := text_some j; omega⟩
  match j with
  | .null => exact readKeyword_text "null".toList rest .null
  | .boolean true => exact readKeyword_text "true".toList rest (.boolean true)
  | .boolean false => exact readKeyword_text "false".toList rest (.boolean false)
  | .number n => exact readValue_number n stops fuel
  | .string s =>
    have longer := quote_length s
    have read := readChars_quote s.toList rest (fuel + 1) (by simp only [Json.text] at enough; omega)
    simp only [Json.text,quote,List.cons_append,List.append_assoc,List.nil_append]
    unfold readValue
    rw [if_pos rfl,read,Option.map_some,String.ofList_toList]
  | .array [] => rfl
  | .array (item :: items) =>
    have length : (itemsText (item :: items)).length + 1 ≤ fuel := by
      simp only [Json.text,List.length_append,List.length_cons,List.length_nil] at enough
      omega
    have read := readItems_text item items fuel rest length
    obtain ⟨c,more,text,other⟩ := itemsText_head item items
    have open_ : (itemsText (item :: items) ++ ']' :: rest).head? ≠ some ']' := by
      rw [text,List.cons_append,List.head?_cons]
      exact fun same => other (Option.some.inj same)
    simp only [Json.text,List.cons_append,List.append_assoc,List.nil_append]
    unfold readValue
    rw [if_neg (by decide),if_pos rfl,if_neg open_,read]
    rfl
  | .object [] => rfl
  | .object (member :: members) =>
    have length : (membersText (member :: members)).length + 1 ≤ fuel := by
      simp only [Json.text,List.length_append,List.length_cons,List.length_nil] at enough
      omega
    have read := readMembers_text member members fuel rest length
    obtain ⟨more,text⟩ := membersText_head member members
    have open_ : (membersText (member :: members) ++ '\x7d' :: rest).head? ≠ some '\x7d' := by
      rw [text,List.cons_append,List.head?_cons]
      exact fun same => absurd (Option.some.inj same) (by decide)
    simp only [Json.text,List.cons_append,List.append_assoc,List.nil_append]
    unfold readValue
    rw [if_neg (by decide),if_neg (by decide),if_pos rfl,if_neg open_,read]
    rfl
termination_by fuel

theorem readItems_text (item : Json) (items : List Json) (fuel : Nat) (rest : List Char)
    (enough : (itemsText (item :: items)).length + 1 ≤ fuel) :
    readItems fuel (itemsText (item :: items) ++ ']' :: rest) = some (item :: items,rest) := by
  obtain ⟨fuel,rfl⟩ : ∃ n,fuel = n + 1 := ⟨fuel - 1,by omega⟩
  match items with
  | [] =>
    have read := readValue_text item fuel (']' :: rest) (by simp only [itemsText] at enough; omega) (stops_of rfl rest)
    unfold readItems itemsText
    rw [read]
    rfl
  | next :: items =>
    have some_ := text_some item
    simp only [itemsText,List.length_append,List.length_cons] at enough
    have first := readValue_text item fuel (',' :: (itemsText (next :: items) ++ ']' :: rest)) (by omega) (stops_of rfl _)
    have later := readItems_text next items fuel rest (by omega)
    unfold readItems itemsText
    rw [List.append_assoc,List.cons_append,first]
    dsimp only
    rw [if_pos rfl,later]
    rfl
termination_by fuel

theorem readMembers_text (member : String × Json) (members : List (String × Json)) (fuel : Nat) (rest : List Char)
    (enough : (membersText (member :: members)).length + 1 ≤ fuel) :
    readMembers fuel (membersText (member :: members) ++ '\x7d' :: rest) = some (member :: members,rest) := by
  obtain ⟨fuel,rfl⟩ : ∃ n,fuel = n + 1 := ⟨fuel - 1,by omega⟩
  obtain ⟨key,value⟩ := member
  have key_ := quote_length key
  match members with
  | [] =>
    simp only [membersText,List.length_append,List.length_cons] at enough
    have name := readChars_quote key.toList (':' :: (value.text ++ '\x7d' :: rest)) (fuel + 1) (by omega)
    have read := readValue_text value fuel ('\x7d' :: rest) (by omega) (stops_of rfl rest)
    simp only [membersText,quote,List.cons_append,List.append_assoc,List.nil_append]
    unfold readMembers
    rw [List.tail_cons,name]
    dsimp only
    rw [read]
    dsimp only
    rw [if_neg (by decide),if_pos rfl,String.ofList_toList]
  | next :: members =>
    have some_ := text_some value
    simp only [membersText,List.length_append,List.length_cons] at enough
    have name := readChars_quote key.toList (':' :: (value.text ++ ',' :: (membersText (next :: members) ++ '\x7d' :: rest)))
      (fuel + 1) (by omega)
    have read := readValue_text value fuel (',' :: (membersText (next :: members) ++ '\x7d' :: rest)) (by omega)
      (stops_of rfl _)
    have later := readMembers_text next members fuel rest (by omega)
    simp only [membersText,quote,List.cons_append,List.append_assoc,List.nil_append]
    unfold readMembers
    rw [List.tail_cons,name]
    dsimp only
    rw [read]
    dsimp only
    rw [if_pos rfl,later,String.ofList_toList]
    rfl
termination_by fuel
end

/-- `JSON.parse` undoes `JSON.stringify`. -/
theorem read_stringify (j : Json) : Json.read j.stringify = some j := by
  have read := readValue_text j _ [] (Nat.le_refl _) (fun _ none_ => nomatch none_)
  rw [List.append_nil] at read
  unfold Json.read Json.stringify
  rw [String.toList_ofList,read]

end Dbos.Js
