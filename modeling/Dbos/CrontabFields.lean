import Dbos.CrontabRanges

/-!
What the conversion of a crontab makes of a field that is a list of numbers, ranges and asterisks, and may end with a step. The first
asterisk becomes a range, the ranges are written out, and the steps, the normalization and the folding of Sundays work on the list of
numbers that is then there.
-/
namespace Dbos.Crontab
open Dbos.Pg Dbos.Js

/-! ### Plain fields -/

/-- An item without names. -/
inductive Plain
  | number (digits : List Char)
  | range (first last : List Char)
  | asterisk

namespace Plain

def text : Plain → List Char
  | number digits => digits
  | range first last => first ++ '-' :: last
  | asterisk => ['*']

def tokens : Plain → List Token
  | number digits => [.digits digits]
  | range first last => [.digits first,.dash,.digits last]
  | asterisk => [.other '*']

/-- The numbers are counted one by one, and there is room for those of a range. -/
def Proper : Plain → Prop
  | number digits => Digits digits ∧ decimal digits < 2 ^ 53
  | range first last => (Digits first ∧ decimal first < 60) ∧ Digits last ∧ decimal last < 60
  | asterisk => True

/-- What is there of the item when the ranges are written out. -/
def pieces : Plain → List (List Char)
  | number digits => [digits]
  | range first last => rangeNumbers first last
  | asterisk => [['*']]

/-- What the pieces read as. -/
def nums : Plain → List Number
  | number digits => [.finite (decimal digits)]
  | range first last =>
    let low := min (decimal first) (decimal last)
    let high := max (decimal first) (decimal last)
    (List.range' low (high - low + 1)).map fun n : Nat => .finite n
  | asterisk => [.nan]

end Plain

def stepText (step : Option (List Char)) : List Char := step.elim [] ('/' :: ·)

def stepTokens (step : Option (List Char)) : List Token := step.elim [] fun digits => [.other '/',.digits digits]

def listTokens : List Plain → List Token
  | [] => []
  | [p] => p.tokens
  | p :: rest => p.tokens ++ .other ',' :: listTokens rest

variable {p : Plain} {ps : List Plain} {step : Option (List Char)}

theorem listTokens_cons (p : Plain) (some_ : ps ≠ []) : listTokens (p :: ps) = p.tokens ++ .other ',' :: listTokens ps := by
  obtain ⟨q,rest,rfl⟩ := List.exists_cons_of_ne_nil some_
  rfl

theorem render_tokens (p : Plain) : render p.tokens = p.text := by
  cases p <;> simp [Plain.tokens,Plain.text,render,Token.text]

theorem render_listTokens (ps : List Plain) : render (listTokens ps) = join ',' (ps.map Plain.text) := by
  induction ps using joined_induction with
  | nil => rfl
  | single p => exact (render_tokens p).trans (join_singleton ',' p.text).symm
  | cons p rest more ih =>
    have some_ : rest.map Plain.text ≠ [] := mt List.map_eq_nil_iff.mp more
    rw [listTokens_cons p more,render_append,render_tokens,List.map_cons,join_cons ',' _ some_,← ih]
    rfl

theorem render_stepTokens (step : Option (List Char)) : render (stepTokens step) = stepText step := by
  cases step with
  | none => rfl
  | some digits => simp [stepTokens,stepText,render,Token.text]

/-! ### Tokens -/

/-- A text is cut into its tokens in one way only. -/
theorem tokenize_render {tokens : List Token} (parted : Parted tokens) : tokenize (render tokens) = tokens := by
  induction tokens with
  | nil => rfl
  | cons token rest ih =>
    match token with
    | .dash => exact congrArg (addChar '-') (ih parted)
    | .other c =>
      obtain ⟨other,notDash,partedRest⟩ := parted
      refine (congrArg (addChar c) (ih partedRest)).trans ?_
      unfold addChar
      rw [if_neg (by simp [other]),if_neg notDash]
    | .digits text =>
      obtain ⟨⟨some_,all⟩,apart,partedRest⟩ := parted
      have after := ih partedRest
      have start : ∀ c : Char,c.isDigit = true → addChar c rest = .digits [c] :: rest := by
        intro c digit
        unfold addChar
        rw [if_pos digit]
        match rest with
        | .digits _ :: _ => exact absurd trivial apart
        | [] | .dash :: _ | .other _ :: _ => rfl
      change tokenize (text ++ render rest) = .digits text :: rest
      induction text with
      | nil => exact absurd rfl some_
      | cons c more more_ih =>
        have digit := all c List.mem_cons_self
        change addChar c (tokenize (more ++ render rest)) = _
        by_cases single : more = []
        · rw [single,List.nil_append,after,start c digit]
        · rw [more_ih single fun d listed => all d (List.mem_cons_of_mem _ listed)]
          unfold addChar
          rw [if_pos digit]

theorem parted_append {tokens rest : List Token} {c : Char} (parted : Parted tokens) (other : c.isDigit = false) (notDash : c ≠ '-')
    (partedRest : Parted rest) : Parted (tokens ++ .other c :: rest) := by
  induction tokens with
  | nil => exact ⟨other,notDash,partedRest⟩
  | cons token tokens ih =>
    match token with
    | .dash => exact ih parted
    | .other d => exact ⟨parted.1,parted.2.1,ih parted.2.2⟩
    | .digits text =>
      refine ⟨parted.1,fun starts => ?_,ih parted.2.2⟩
      match tokens with
      | [] => exact starts
      | .digits _ :: _ => exact parted.2.1 trivial
      | .dash :: _ | .other _ :: _ => exact starts

theorem headPair_append {token : Token} (tokens rest : List Token) (c : Char) : headPair (token :: tokens ++ .other c :: rest) =
    (headPair (token :: tokens)).map fun found => (found.1,found.2.1,found.2.2 ++ .other c :: rest) := by
  match token,tokens with
  | .dash,_ | .other _,_ => rfl
  | .digits _,[] | .digits _,.digits _ :: _ | .digits _,.other _ :: _ | .digits _,[.dash] | .digits _,.dash :: .dash :: _
  | .digits _,.dash :: .other _ :: _ | .digits _,.dash :: .digits _ :: _ => rfl

theorem pairs_append (tokens rest : List Token) (c : Char) : pairs (tokens ++ .other c :: rest) = pairs tokens ++ pairs rest := by
  induction tokens using tokens_induction with
  | nil => rw [List.nil_append,pairs_skip (by rfl),pairs_nil,List.nil_append]
  | pair init end_ more ih =>
    rw [pairs_found]
    exact (pairs_found init end_ (more ++ .other c :: rest)).trans (congrArg ((init,end_) :: ·) ih)
  | skip token tokens pair ih =>
    have both : headPair (token :: (tokens ++ .other c :: rest)) = none := by
      rw [← List.cons_append,headPair_append,pair]
      rfl
    rw [List.cons_append,pairs_skip both,pairs_skip pair,ih]

/-- No range goes across a character that is neither a digit nor a dash. -/
theorem spelled_append (tokens rest : List Token) (c : Char) : spelled (tokens ++ .other c :: rest) = spelled tokens ++ .other c :: spelled rest := by
  induction tokens using tokens_induction with
  | nil =>
    have nothing : spelled [] = [] := by rw [spelled]
    rw [nothing]
    exact spelled_skip rfl
  | pair init end_ more ih =>
    rw [spelled_found,List.append_assoc,← ih]
    exact spelled_found init end_ _
  | skip token tokens pair ih =>
    have both : headPair (token :: (tokens ++ .other c :: rest)) = none := by
      rw [← List.cons_append,headPair_append,pair]
      rfl
    rw [List.cons_append,spelled_skip both,spelled_skip pair,ih]
    rfl

/-! ### Writing out -/

theorem parted_tokens (proper : p.Proper) : Parted p.tokens := by
  cases p with
  | number digits => exact ⟨proper.1,id,trivial⟩
  | range first last => exact ⟨proper.1.1,id,proper.2.1,id,trivial⟩
  | asterisk => exact ⟨rfl,by decide,trivial⟩

theorem parted_listTokens (proper : ∀ p ∈ ps,p.Proper) : Parted (listTokens ps) := by
  induction ps using joined_induction with
  | nil => trivial
  | single p => exact parted_tokens (proper p List.mem_cons_self)
  | cons p rest more ih =>
    rw [listTokens_cons p more]
    exact parted_append (parted_tokens (proper p List.mem_cons_self)) rfl (by decide) (ih fun q listed => proper q (List.mem_cons_of_mem _ listed))

theorem ends_small {first last : List Char} (firstSmall : decimal first < 60) (lastSmall : decimal last < 60) :
    lowEnd first last = min (decimal first) (decimal last) ∧ highEnd first last = max (decimal first) (decimal last) :=
  ends_double (roundDouble_small (by omega)) (roundDouble_small (by omega))

theorem countable_small [Engine] {first last : List Char} (firstSmall : decimal first < 60) (lastSmall : decimal last < 60) :
    Countable first last := by
  have enough := Engine.enough
  exact ⟨_,_,roundDouble_small (by omega),roundDouble_small (by omega),.inl ⟨by omega,by omega,by omega⟩⟩

theorem pairs_single {token : Token} : pairs [token] = [] := by
  cases token <;> rw [pairs_skip (by rfl),pairs_nil]

theorem countable_tokens [Engine] (proper : p.Proper) : ∀ pair ∈ pairs p.tokens,Countable pair.1 pair.2 := by
  intro pair listed
  cases p with
  | number digits =>
    rw [Plain.tokens,pairs_single] at listed
    cases listed
  | range first last =>
    rw [Plain.tokens,pairs_found,pairs_single] at listed
    obtain rfl := List.mem_singleton.mp listed
    exact countable_small proper.1.2 proper.2.2
  | asterisk =>
    rw [Plain.tokens,pairs_single] at listed
    cases listed

theorem countable_listTokens [Engine] (proper : ∀ p ∈ ps,p.Proper) : ∀ pair ∈ pairs (listTokens ps),Countable pair.1 pair.2 := by
  induction ps using joined_induction with
  | nil =>
    intro pair listed
    rw [listTokens,pairs_nil] at listed
    cases listed
  | single p => exact countable_tokens (proper p List.mem_cons_self)
  | cons p rest more ih =>
    rw [listTokens_cons p more,pairs_append]
    intro pair listed
    rcases List.mem_append.mp listed with listed | listed
    · exact countable_tokens (proper p List.mem_cons_self) pair listed
    · exact ih (fun q later => proper q (List.mem_cons_of_mem _ later)) pair listed

theorem render_spelled_tokens (p : Plain) : render (spelled p.tokens) = join ',' p.pieces := by
  cases p with
  | number digits =>
    rw [Plain.tokens,spelled_done pairs_single,Plain.pieces,join_singleton]
    simp [render,Token.text]
  | range first last =>
    have end_ : spelled [.digits (natToString (highEnd first last))] = [.digits (natToString (highEnd first last))] := spelled_done pairs_single
    rw [Plain.tokens,spelled_found,end_,render_written,Plain.pieces]
    exact List.append_nil _
  | asterisk =>
    rw [Plain.tokens,spelled_done pairs_single]
    rfl

theorem pieces_ne_nil (p : Plain) : p.pieces ≠ [] := by
  cases p <;> simp [Plain.pieces,rangeNumbers]

theorem flatMap_pieces_ne_nil (some_ : ps ≠ []) : ps.flatMap Plain.pieces ≠ [] := by
  obtain ⟨p,rest,rfl⟩ := List.exists_cons_of_ne_nil some_
  simp [pieces_ne_nil]

theorem render_spelled_listTokens (some_ : ps ≠ []) : render (spelled (listTokens ps)) = join ',' (ps.flatMap Plain.pieces) := by
  induction ps using joined_induction with
  | nil => exact absurd rfl some_
  | single p =>
    rw [List.flatMap_singleton]
    exact render_spelled_tokens p
  | cons p rest more ih =>
    rw [listTokens_cons p more,spelled_append,render_append,render_spelled_tokens,List.flatMap_cons,
      join_append ',' (pieces_ne_nil p) (flatMap_pieces_ne_nil more),← ih more]
    rfl

/-- A field without names. -/
def plainText (ps : List Plain) (step : Option (List Char)) : List Char := join ',' (ps.map Plain.text) ++ stepText step

/-- The list of numbers and the step after it are written out one by one. -/
theorem plain_spelledOut [Engine] (some_ : ps ≠ []) (proper : ∀ p ∈ ps,p.Proper) (run : ∀ digits ∈ step,Digits digits) :
    CountableField (plainText ps step) ∧ spelledOut (plainText ps step) = join ',' (ps.flatMap Plain.pieces) ++ stepText step := by
  have parted := parted_listTokens proper
  have countable := countable_listTokens proper
  unfold CountableField spelledOut plainText
  rw [← render_listTokens,← render_spelled_listTokens some_]
  cases step with
  | none =>
    rw [stepText,Option.elim_none,List.append_nil,tokenize_render parted,List.append_nil]
    exact ⟨countable,rfl⟩
  | some digits =>
    have stepParted : Parted [.digits digits] := ⟨run digits rfl,id,trivial⟩
    have alone : spelled [.digits digits] = [.digits digits] := spelled_done pairs_single
    have whole : render (listTokens ps) ++ stepText (some digits) = render (listTokens ps ++ .other '/' :: [.digits digits]) := by
      rw [render_append,← render_stepTokens]
      rfl
    rw [whole,tokenize_render (parted_append parted rfl (by decide) stepParted),pairs_append,spelled_append,render_append]
    refine ⟨fun pair listed => ?_,?_⟩
    · rw [pairs_single,List.append_nil] at listed
      exact countable pair listed
    · rw [alone,← render_stepTokens]
      rfl

/-! ### Steps and normalization -/

/-- No number, or one that is counted one by one. -/
def Counted (n : Number) : Prop := n = .nan ∨ ∃ m : Nat,m < 2 ^ 53 ∧ n = .finite m

theorem counted_nums (proper : p.Proper) : ∀ n ∈ p.nums,Counted n := by
  intro n listed
  cases p with
  | number digits => exact .inr ⟨_,proper.2,List.mem_singleton.mp listed⟩
  | range first last =>
    obtain ⟨m,within,rfl⟩ := List.mem_map.mp listed
    have firstSmall := proper.1.2
    have lastSmall := proper.2.2
    rw [List.mem_range'_1] at within
    exact .inr ⟨m,by omega,rfl⟩
  | asterisk => exact .inl (List.mem_singleton.mp listed)

theorem parse_pieces (proper : p.Proper) (radix : Option Nat) : (p.pieces.map fun piece => parseInt piece radix) = p.nums := by
  cases p with
  | number digits =>
    obtain ⟨run,small⟩ := proper
    rw [Plain.pieces,List.map_singleton,parseInt_digits run,ofNat_small (Nat.le_of_lt small)]
    rfl
  | range first last =>
    obtain ⟨⟨-,firstSmall⟩,-,lastSmall⟩ := proper
    obtain ⟨low,high⟩ := ends_small firstSmall lastSmall
    rw [Plain.pieces,Plain.nums,rangeNumbers,low,high,List.map_map]
    refine List.map_congr_left fun n within => ?_
    rw [List.mem_range'_1] at within
    have double := roundDouble_small (n := n) (by omega)
    exact parseInt_natToString double (by omega) radix
  | asterisk =>
    have star : ∀ radix : Option Nat,parseInt ['*'] radix = .nan := fun radix => by
      cases radix <;> rfl
    rw [Plain.pieces,List.map_singleton,star]
    rfl

theorem parse_all_pieces (proper : ∀ p ∈ ps,p.Proper) (radix : Option Nat) :
    ((ps.flatMap Plain.pieces).map fun piece => parseInt piece radix) = ps.flatMap Plain.nums := by
  rw [List.map_flatMap]
  exact List.flatMap_congr fun p listed => parse_pieces (proper p listed) radix

/-- A piece has nothing in it that the splitting or the looking for a step would take for its own. -/
theorem plain_pieces (proper : ∀ p ∈ ps,p.Proper) : ∀ piece ∈ ps.flatMap Plain.pieces,piece ≠ [] ∧ ∀ c ∈ piece,c.isDigit = true ∨ c = '*' := by
  intro piece listed
  obtain ⟨p,inList,listed⟩ := List.mem_flatMap.mp listed
  have proper_ := proper p inList
  have digits : ∀ {text : List Char},Digits text → text ≠ [] ∧ ∀ c ∈ text,c.isDigit = true ∨ c = '*' :=
    fun run => ⟨run.1,fun c listed => .inl (run.2 c listed)⟩
  cases p with
  | number text =>
    rw [List.mem_singleton.mp listed]
    exact digits proper_.1
  | range first last =>
    obtain ⟨n,within,rfl⟩ := List.mem_map.mp listed
    obtain ⟨⟨-,firstSmall⟩,-,lastSmall⟩ := proper_
    obtain ⟨low,high⟩ := ends_small firstSmall lastSmall
    rw [List.mem_range'_1,low,high] at within
    exact digits (natToString_digits (by omega))
  | asterisk =>
    rw [List.mem_singleton.mp listed]
    exact ⟨List.cons_ne_nil _ _,fun c star => .inr (List.mem_singleton.mp star)⟩

theorem split_pieces {texts : List (List Char)} (some_ : texts ≠ []) (plain : ∀ text ∈ texts,∀ c ∈ text,c.isDigit = true ∨ c = '*') :
    split ',' (join ',' texts) = texts := by
  refine split_join (fun text listed comma => ?_) some_
  rcases plain text listed ',' comma with digit | star
  · cases digit
  · cases star

theorem stepValuePattern_none {expression : List Char} (none_ : '/' ∉ expression) : stepValuePattern expression = none := by
  unfold stepValuePattern
  exact if_neg fun found => none_ found.1

theorem digit_isWordChar {c : Char} (digit : c.isDigit = true) : isWordChar c = true := by simp [isWordChar,digit]

/-- What stands after the last slash is the step. -/
theorem stepValuePattern_some {base digits : List Char} (some_ : base ≠ []) (oneLine : ∀ c ∈ base,isLineTerminator c = false)
    (run : Digits digits) : stepValuePattern (base ++ '/' :: digits) = some (base,digits) := by
  have reversed : (base ++ '/' :: digits).reverse = digits.reverse ++ '/' :: base.reverse := by simp
  have noSlash : ∀ c ∈ digits.reverse,decide (c ≠ '/') = true := by
    intro c listed
    exact decide_eq_true (ne_of_digit (run.2 c (List.mem_reverse.mp listed)) rfl)
  have word : (base ++ '/' :: digits).reverse.takeWhile (· ≠ '/') = digits.reverse := by
    rw [reversed,List.takeWhile_append_of_pos noSlash]
    simp
  have after : (base ++ '/' :: digits).reverse.dropWhile (· ≠ '/') = '/' :: base.reverse := by
    rw [reversed,List.dropWhile_append_of_pos noSlash]
    simp
  unfold stepValuePattern
  dsimp only
  rw [word,after,List.tail_cons,List.reverse_reverse,List.reverse_reverse,if_pos]
  refine ⟨by simp,some_,List.all_eq_true.mpr fun c listed => ?_,run.1,List.all_eq_true.mpr fun c listed => digit_isWordChar (run.2 c listed)⟩
  rw [oneLine c listed]
  rfl

/-- The numbers of the list that are multiples of the step. -/
def stepped (nums : List Number) (step : Option (List Char)) : List Number :=
  step.elim nums fun digits => nums.filter fun n => n.isMultiple (parseInt digits (some 10))

/-- The normalization makes `NaN` of a list that has become empty. -/
def orNaN (nums : List Number) : List Number := if nums = [] then [.nan] else nums

/-- The list that is left of a field before Sundays are folded. -/
def plainNums (ps : List Plain) (step : Option (List Char)) : List Number := orNaN (stepped (ps.flatMap Plain.nums) step)

theorem counted_stepped (proper : ∀ p ∈ ps,p.Proper) : ∀ n ∈ stepped (ps.flatMap Plain.nums) step,Counted n := by
  have all : ∀ n ∈ ps.flatMap Plain.nums,Counted n := fun n listed => by
    obtain ⟨p,inList,listed⟩ := List.mem_flatMap.mp listed
    exact counted_nums (proper p inList) n listed
  intro n listed
  cases step with
  | none => exact all n listed
  | some digits => exact all n (List.mem_filter.mp listed).1

theorem counted_plainNums (proper : ∀ p ∈ ps,p.Proper) : ∀ n ∈ plainNums ps step,Counted n := by
  unfold plainNums orNaN
  split_ifs
  · exact fun n listed => .inl (List.mem_singleton.mp listed)
  · exact counted_stepped proper

theorem parseInt_counted {n : Number} (counted : Counted n) (radix : Option Nat) : parseInt n.toString radix = n := by
  rcases counted with rfl | ⟨m,small,rfl⟩
  · cases radix <;> rfl
  · rw [toString_finite]
    exact parseInt_natToString (roundDouble_small (Nat.le_of_lt small)) (by omega) radix

theorem split_nums {nums : List Number} (some_ : nums ≠ []) : split ',' (join ',' (nums.map Number.toString)) = nums.map Number.toString := by
  refine split_join (fun text listed comma => ?_) (by simpa using some_)
  obtain ⟨n,-,rfl⟩ := List.mem_map.mp listed
  exact ((toString_chars n).2 ',' comma).1 rfl

theorem orNaN_ne_nil (nums : List Number) : orNaN nums ≠ [] := by
  unfold orNaN
  split_ifs with empty
  · exact List.cons_ne_nil _ _
  · exact empty

/-- What the steps and the normalization make of a field. -/
def normalizeField (expression : List Char) : List Char := join ',' ((split ',' expression).map normalizeInteger)

/-- The normalization leaves a list as it is that has numbers in it. -/
theorem normalize_counted {nums : List Number} (counted : ∀ n ∈ nums,Counted n) :
    normalizeField (join ',' (nums.map Number.toString)) = join ',' ((orNaN nums).map Number.toString) := by
  unfold normalizeField orNaN
  split_ifs with empty
  · rw [empty]
    decide
  · rw [split_nums empty,List.map_map]
    congr 1
    refine List.map_congr_left fun n listed => ?_
    exact congrArg Number.toString (parseInt_counted (counted n listed) none)

theorem plain_stepped (some_ : ps ≠ []) (proper : ∀ p ∈ ps,p.Proper) (run : ∀ digits ∈ step,Digits digits) :
    (convertStep (join ',' (ps.flatMap Plain.pieces) ++ stepText step)).map normalizeField =
      .ok (join ',' ((plainNums ps step).map Number.toString)) := by
  have piecesSome := flatMap_pieces_ne_nil some_
  have plain := plain_pieces proper
  have splits := split_pieces piecesSome fun piece listed => (plain piece listed).2
  have chars : ∀ c ∈ join ',' (ps.flatMap Plain.pieces),c = ',' ∨ c.isDigit = true ∨ c = '*' := by
    intro c listed
    rcases mem_join listed with comma | ⟨piece,inList,here⟩
    · exact .inl comma
    · exact .inr ((plain piece inList).2 c here)
  have numsSome : ps.flatMap Plain.nums ≠ [] := by
    rw [← parse_all_pieces proper none]
    simpa using piecesSome
  cases step with
  | none =>
    have noSlash : '/' ∉ join ',' (ps.flatMap Plain.pieces) := by
      intro slash
      rcases chars '/' slash with comma | digit | star
      · cases comma
      · cases digit
      · cases star
    unfold convertStep
    rw [stepText,Option.elim_none,List.append_nil,stepValuePattern_none noSlash]
    change Except.ok (normalizeField _) = _
    unfold normalizeField
    have normalized : (ps.flatMap Plain.pieces).map normalizeInteger = (ps.flatMap Plain.nums).map Number.toString := by
      rw [← parse_all_pieces proper none,List.map_map]
      rfl
    rw [splits,normalized,plainNums,stepped,Option.elim_none,orNaN,if_neg numsSome]
  | some digits =>
    have run := run digits rfl
    have isNumber : parseInt digits ≠ .nan := by
      rcases parseInt_double run with ⟨-,infinite⟩ | ⟨n,-,finite⟩
      · rw [infinite]
        exact Number.noConfusion
      · rw [finite]
        exact Number.noConfusion
    have joinSome : join ',' (ps.flatMap Plain.pieces) ≠ [] := by
      intro empty
      have parts := splits
      rw [empty] at parts
      obtain ⟨piece,rest,list⟩ := List.exists_cons_of_ne_nil piecesSome
      rw [list] at parts
      cases parts
      exact (plain [] (list ▸ List.mem_cons_self)).1 rfl
    have oneLine : ∀ c ∈ join ',' (ps.flatMap Plain.pieces),isLineTerminator c = false := by
      intro c listed
      rcases chars c listed with rfl | digit | rfl
      · rfl
      · have digits_ : ∀ d ∈ "0123456789".toList,isLineTerminator d = false := by decide
        exact digits_ c (digit_cases digit)
      · rfl
    unfold convertStep
    have found : stepValuePattern (join ',' (ps.flatMap Plain.pieces) ++ stepText (some digits)) = some (join ',' (ps.flatMap Plain.pieces),digits) :=
      stepValuePattern_some joinSome oneLine run
    rw [found]
    dsimp only
    rw [if_neg isNumber,splits,parse_all_pieces proper (some 10)]
    have counted : ∀ n ∈ stepped (ps.flatMap Plain.nums) (some digits),Counted n := counted_stepped proper
    exact congrArg Except.ok (normalize_counted counted)

/-! ### Sundays -/

def folded (i : Nat) (expression : List Char) : List Char := if i = 5 then foldSundaySeven expression else expression

def sundayText (i : Nat) (text : List Char) : List Char := if i = 5 ∧ text = ['7'] then ['0'] else text

/-- The entries of the list that a schedule has for a field. -/
def entries (i : Nat) (nums : List Number) : List (List Char) :=
  if i = 5 then (nums.map fun n => sundayText i n.toString).foldl addTo [] else nums.map Number.toString

theorem mem_entries {i : Nat} {nums : List Number} {entry : List Char} :
    entry ∈ entries i nums ↔ ∃ n ∈ nums,sundayText i n.toString = entry := by
  unfold entries
  split_ifs with sundays
  · rw [mem_addAll]
    simp
  · have same : ∀ text,sundayText i text = text := fun text => if_neg fun both => sundays both.1
    simp [same]

theorem entry_chars {i : Nat} {nums : List Number} {entry : List Char} (listed : entry ∈ entries i nums) :
    entry ≠ [] ∧ ∀ c ∈ entry,c ≠ ',' ∧ c ≠ ' ' := by
  obtain ⟨n,-,rfl⟩ := mem_entries.mp listed
  unfold sundayText
  split_ifs
  · decide
  · exact toString_chars n

theorem entries_ne_nil {i : Nat} {nums : List Number} (some_ : nums ≠ []) : entries i nums ≠ [] := by
  obtain ⟨n,rest,rfl⟩ := List.exists_cons_of_ne_nil some_
  exact List.ne_nil_of_mem (mem_entries.mpr ⟨n,List.mem_cons_self,rfl⟩)

theorem folded_entries {nums : List Number} (i : Nat) (some_ : nums ≠ []) :
    folded i (join ',' (nums.map Number.toString)) = join ',' (entries i nums) := by
  unfold folded entries
  split_ifs with sundays
  · have replaced : (nums.map Number.toString).map (fun value => if value = ['7'] then ['0'] else value) =
        nums.map fun n => sundayText i n.toString := by
      rw [List.map_map]
      refine List.map_congr_left fun n _ => ?_
      simp [sundayText,sundays]
    unfold foldSundaySeven
    rw [split_nums some_,replaced]
  · rfl

theorem split_entries {nums : List Number} (i : Nat) (some_ : nums ≠ []) : split ',' (join ',' (entries i nums)) = entries i nums :=
  split_join (fun _ listed comma => ((entry_chars listed).2 ',' comma).1 rfl) (entries_ne_nil some_)

/-! ### Validation -/

/-- The least and the largest number of a field, and the largest that an asterisk stands for. -/
structure Limits where
  low : Nat
  high : Nat
  top : Nat

def limits : Nat → Limits
  | 0 | 1 => ⟨0,59,59⟩
  | 2 => ⟨0,23,23⟩
  | 3 => ⟨1,31,31⟩
  | 4 => ⟨1,12,12⟩
  | _ => ⟨0,7,6⟩

theorem limits_small (i : Nat) : (limits i).low ≤ (limits i).top ∧ (limits i).top ≤ (limits i).high ∧ (limits i).high ≤ 59 := by
  unfold limits
  split <;> decide

def WithinLimits (i : Nat) (n : Number) : Prop := ∃ m : Nat,n = .finite m ∧ (limits i).low ≤ m ∧ m ≤ (limits i).high

def validOption (min max : Int) (option : List Char) : Bool :=
  let optionAsInt := parseInt option (some 10)
  !((optionAsInt ≠ .nan && (optionAsInt.lt (.finite min) || (Number.finite max).lt optionAsInt)) || !validationRegex option)

theorem validOption_digits {digits : List Char} (run : Digits digits) {low high : Nat} (small : high < 2 ^ 53) :
    validOption low high digits = true ↔ low ≤ decimal digits ∧ decimal digits ≤ high := by
  have matched : validationRegex digits = true := by
    have all : digits.all Char.isDigit = true := List.all_eq_true.mpr run.2
    simp [validationRegex,run.1,all]
  unfold validOption
  dsimp only
  rw [matched]
  rw [parseInt_digits run]
  cases rounded : roundDouble (decimal digits) with
  | none =>
    have large : ¬ decimal digits ≤ high := by
      intro le
      rw [roundDouble_small (by omega)] at rounded
      cases rounded
    have infinite : Number.ofNat false (decimal digits) = .infinite false := by
      unfold Number.ofNat
      rw [rounded]
    rw [infinite]
    simp [Number.lt,large]
  | some n =>
    rw [ofNat_round rounded]
    have reads : (low ≤ n ∧ n ≤ high) ↔ low ≤ decimal digits ∧ decimal digits ≤ high := by
      by_cases below : decimal digits < 2 ^ 53
      · rw [roundDouble_small (Nat.le_of_lt below)] at rounded
        rw [Option.some.inj rounded]
      · have above := roundDouble_large (n := decimal digits) (by omega) rounded
        omega
    simp [Number.lt,← reads]

theorem validationRegex_false {option : List Char} (star : '*' ∉ option) (letter : ¬ ∀ c ∈ option,c.isDigit = true) :
    validationRegex option = false := by
  have notAll : option.all Char.isDigit = false := by
    rw [Bool.eq_false_iff]
    exact fun all => letter (List.all_eq_true.mp all)
  have notStar : option ≠ ['*'] := fun same => star (same ▸ List.mem_singleton_self _)
  have notStep : option.take 2 ≠ ['*','/'] := fun same => star (List.mem_of_mem_take (same ▸ List.mem_cons_self : '*' ∈ option.take 2))
  simp [validationRegex,notAll,notStar,notStep]

theorem star_not_mem (n : Nat) : '*' ∉ natToString n := by
  intro listed
  rcases (natToString_chars n).2 '*' listed with digit | other
  · cases digit
  · revert other
    decide

theorem validOption_natToString {m : Nat} (double : roundDouble m = some m) {low high : Nat} (small : high < 2 ^ 53) :
    validOption low high (natToString m) = true ↔ low ≤ m ∧ m ≤ high := by
  by_cases plain : m < 10 ^ 21
  · rw [validOption_digits (natToString_digits plain) small]
    have reads := natToString_reads double plain
    by_cases below : decimal (natToString m) < 2 ^ 53
    · rw [roundDouble_small (Nat.le_of_lt below)] at reads
      rw [Option.some.inj reads]
    · have above := roundDouble_large (n := decimal (natToString m)) (by omega) reads
      omega
  · have letter : ¬ ∀ c ∈ natToString m,c.isDigit = true := by
      unfold natToString
      rw [if_neg plain]
      exact exponential_not_digits _
    unfold validOption
    dsimp only
    rw [validationRegex_false (star_not_mem m) letter]
    have large : ¬ m ≤ high := by omega
    simp [large]

theorem validOption_toString {n : Number} (whole : n.Whole) {low high : Nat} (small : high < 2 ^ 53) :
    validOption low high n.toString = true ↔ ∃ m : Nat,n = .finite m ∧ low ≤ m ∧ m ≤ high := by
  have none_ : ∀ n : Number,(∀ m : Nat,n ≠ .finite m) → ¬ ∃ m : Nat,n = .finite m ∧ low ≤ m ∧ m ≤ high := by
    rintro n other ⟨m,same,-⟩
    exact other m same
  have unmatched : ∀ option : List Char,validationRegex option = false → validOption low high option = false := by
    intro option unmatched
    unfold validOption
    dsimp only
    rw [unmatched]
    simp
  cases whole with
  | nan =>
    rw [unmatched _ (by decide)]
    exact iff_of_false Bool.false_ne_true (none_ _ fun _ => Number.noConfusion)
  | infinite negative =>
    rw [unmatched _ (by cases negative <;> decide)]
    exact iff_of_false Bool.false_ne_true (none_ _ fun _ => Number.noConfusion)
  | finite n double =>
    rcases Int.lt_or_le n 0 with negative | positive
    · have text : (Number.finite n).toString = '-' :: natToString n.natAbs := by
        rw [Number.toString,if_pos negative,List.singleton_append]
      have star : '*' ∉ '-' :: natToString n.natAbs := by
        rw [List.mem_cons,not_or]
        exact ⟨by decide,star_not_mem n.natAbs⟩
      have sign : ¬ ∀ c ∈ '-' :: natToString n.natAbs,c.isDigit = true := fun all => by
        cases all '-' List.mem_cons_self
      rw [text,unmatched _ (validationRegex_false star sign)]
      refine iff_of_false Bool.false_ne_true (none_ _ fun m same => ?_)
      cases same
      omega
    · obtain ⟨m,rfl⟩ := Int.eq_ofNat_of_zero_le positive
      have double : roundDouble m = some m := double
      rw [toString_finite,validOption_natToString double small]
      constructor
      · exact fun within => ⟨m,rfl,within⟩
      · rintro ⟨_,same,within⟩
        cases same
        exact within

theorem isValidExpression_eq (expression : List Char) (min max : Int) :
    isValidExpression expression min max = (split ',' expression).all (validOption min max) := rfl

/-- A field is accepted if its numbers are within its limits. -/
theorem entries_valid {nums : List Number} (i : Nat) (some_ : nums ≠ []) (whole : ∀ n ∈ nums,n.Whole) :
    isValidExpression (join ',' (entries i nums)) (limits i).low (limits i).high = true ↔ ∀ n ∈ nums,WithinLimits i n := by
  have small : (limits i).high < 2 ^ 53 := by
    have := limits_small i
    omega
  have each : ∀ n : Number,n.Whole → (validOption (limits i).low (limits i).high (sundayText i n.toString) = true ↔ WithinLimits i n) := by
    intro n isWhole
    have plain : validOption (limits i).low (limits i).high n.toString = true ↔ WithinLimits i n := validOption_toString isWhole small
    unfold sundayText
    split_ifs with seven
    · obtain ⟨rfl,text⟩ := seven
      have day : ∀ digits ∈ [['0'],['7']],validOption (limits 5).low (limits 5).high digits = true := by
        have run : ∀ digits ∈ [['0'],['7']],(digits ≠ [] ∧ ∀ c ∈ digits,c.isDigit = true) ∧ decimal digits ≤ 7 := by decide
        exact fun digits listed => (validOption_digits (run digits listed).1 small).mpr ⟨Nat.zero_le _,(run digits listed).2⟩
      rw [text] at plain
      exact iff_of_true (day ['0'] (by decide)) (plain.mp (day ['7'] (by decide)))
    · exact plain
  rw [isValidExpression_eq,split_entries i some_,List.all_eq_true]
  refine ⟨fun all n listed => (each n (whole n listed)).mp (all _ (mem_entries.mpr ⟨n,listed,rfl⟩)),fun all entry listed => ?_⟩
  obtain ⟨n,inList,rfl⟩ := mem_entries.mp listed
  exact (each n (whole n inList)).mpr (all n inList)

/-! ### Whole crontabs -/

def crontabTexts (crontab : List Char) : List (List Char) := prependSecondExpression (split ' ' (removeExtraSpaces crontab))

def named (i : Nat) (text : List Char) : List Char :=
  if i = 4 then monthNamesConversion text else if i = 5 then weekDayNamesConversion text else text

def starred (i : Nat) (text : List Char) : List Char := (asteriskRanges[i]?).elim text (convertAsterisk text)

/-- What becomes of a field when its ranges can be counted. -/
def outcome (i : Nat) (text : List Char) : Except Thrown (List Char) :=
  (convertStep (spelledOut (starred i (named i text)))).map fun expression => folded i (normalizeField expression)

theorem convertedFields_eq {crontab : List Char} (six : 6 ≤ (crontabTexts crontab).length) :
    convertedFields crontab = .ok ((crontabTexts crontab).mapIdx fun i text => starred i (named i text)) := by
  have fields : convertedFields crontab = (convertFieldNames (crontabTexts crontab)).map convertAsterisksToRanges := rfl
  rw [fields]
  generalize crontabTexts crontab = texts at six
  unfold convertFieldNames
  rw [if_neg (by omega)]
  refine congrArg Except.ok (List.ext_getElem? fun i => ?_)
  unfold convertAsterisksToRanges
  rw [List.getElem?_mapIdx,List.getElem?_mapIdx,List.getElem?_modify,List.getElem?_modify]
  cases texts[i]? with
  | none => rfl
  | some text =>
    by_cases fourth : i = 4
    · simp [named,starred,fourth]
    · by_cases fifth : i = 5
      · simp [named,starred,fifth]
      · simp [named,starred,fourth,fifth,Ne.symm fourth,Ne.symm fifth]

theorem convertedFields_few {crontab : List Char} (few : (crontabTexts crontab).length < 6) : convertedFields crontab = .error .typeError := by
  unfold convertedFields convertFieldNames
  change Except.map convertAsterisksToRanges (if (crontabTexts crontab).length < 6 then _ else _) = _
  rw [if_pos few]
  rfl

/-- One call after another, up to the first that throws. -/
theorem mapM_except {α β : Type} (f : α → Except Thrown β) (l : List α) :
    (∃ results : List β,l.mapM f = .ok results ∧ results.length = l.length ∧ ∀ (i : Nat) a,l[i]? = some a → ∃ b,results[i]? = some b ∧ f a = .ok b) ∨
      ∃ (i : Nat) (a : α) (thrown : Thrown),l[i]? = some a ∧ f a = .error thrown ∧ l.mapM f = .error thrown := by
  induction l with
  | nil => exact .inl ⟨[],rfl,rfl,fun i a found => by cases found⟩
  | cons a rest ih =>
    rw [List.mapM_cons]
    cases here : f a with
    | error thrown => exact .inr ⟨0,a,thrown,rfl,here,rfl⟩
    | ok b =>
      rcases ih with ⟨results,rest_,length,each⟩ | ⟨i,a',thrown,found,there,rest_⟩
      · rw [rest_]
        refine .inl ⟨b :: results,rfl,congrArg (· + 1) length,fun i a' found => ?_⟩
        cases i with
        | zero =>
          cases found
          exact ⟨b,rfl,here⟩
        | succ i => exact each i a' found
      · rw [rest_]
        exact .inr ⟨i + 1,a',thrown,found,there,rfl⟩

theorem finishExpressions_ok {expressions results : List (List Char)} (steps : convertSteps expressions = .ok results) :
    finishExpressions expressions = .ok (join ' ' (results.mapIdx fun i expression => folded i (normalizeField expression))) := by
  have same : convertSundaySeven (normalizeIntegers results) = results.mapIdx fun i expression => folded i (normalizeField expression) := by
    refine List.ext_getElem? fun i => ?_
    unfold convertSundaySeven normalizeIntegers
    rw [List.getElem?_modify,List.getElem?_map,List.getElem?_mapIdx]
    cases results[i]? with
    | none => rfl
    | some expression =>
      by_cases fifth : 5 = i
      · subst fifth
        rfl
      · simp [folded,fifth,Ne.symm fifth,normalizeField]
  unfold finishExpressions
  rw [steps]
  exact congrArg (fun lists => Except.ok (join ' ' lists)) same

/-- The conversion of a crontab with enough fields whose ranges can be counted: every field has its outcome, or one of them throws. -/
theorem convertExpression_outcome [Engine] {crontab : List Char} (six : 6 ≤ (crontabTexts crontab).length) (countable : CountableFields crontab) :
    (∃ lists,Ends convertExpression crontab (.ok (join ' ' lists)) ∧ lists.length = (crontabTexts crontab).length ∧
      ∀ i text,(crontabTexts crontab)[i]? = some text → ∃ list,lists[i]? = some list ∧ outcome i text = .ok list) ∨
    ∃ i text thrown,(crontabTexts crontab)[i]? = some text ∧ outcome i text = .error thrown ∧ Ends convertExpression crontab (.error thrown) := by
  have converted := convertedFields_eq six
  have ended := convertExpression_ends converted (countable _ converted)
  have at_ : ∀ i,(((crontabTexts crontab).mapIdx fun i text => starred i (named i text)).map spelledOut)[i]? =
      ((crontabTexts crontab)[i]?).map fun text => spelledOut (starred i (named i text)) := by
    intro i
    rw [List.getElem?_map,List.getElem?_mapIdx,Option.map_map]
    rfl
  rcases mapM_except convertStep (((crontabTexts crontab).mapIdx fun i text => starred i (named i text)).map spelledOut) with
    ⟨results,steps,length,each⟩ | ⟨i,expression,thrown,found,here,steps⟩
  · rw [finishExpressions_ok steps] at ended
    refine .inl ⟨_,ended,by rw [List.length_mapIdx,length,List.length_map,List.length_mapIdx],fun i text found => ?_⟩
    obtain ⟨expression,there,step⟩ := each i (spelledOut (starred i (named i text))) (by rw [at_,found]; rfl)
    refine ⟨folded i (normalizeField expression),?_,?_⟩
    · rw [List.getElem?_mapIdx,there]
      rfl
    · unfold outcome
      rw [step]
      rfl
  · rw [at_,Option.map_eq_some_iff] at found
    obtain ⟨text,field,rfl⟩ := found
    have failed : finishExpressions (((crontabTexts crontab).mapIdx fun i text => starred i (named i text)).map spelledOut) = .error thrown := by
      unfold finishExpressions convertSteps
      rw [steps]
      rfl
    rw [failed] at ended
    refine .inr ⟨i,text,thrown,field,?_,ended⟩
    unfold outcome
    rw [here]
    rfl

theorem validateFields_none {patterns lists : List (List Char)} (six : 6 ≤ lists.length) : validateFields patterns lists = none ↔
    ∀ i list,i < 6 → lists[i]? = some list → isValidExpression list (limits i).low (limits i).high = true := by
  match lists with
  | a :: b :: c :: d :: e :: f :: rest =>
    have each : (∀ i list,i < 6 → (a :: b :: c :: d :: e :: f :: rest)[i]? = some list → isValidExpression list (limits i).low (limits i).high = true) ↔
        isValidExpression a 0 59 = true ∧ isValidExpression b 0 59 = true ∧ isValidExpression c 0 23 = true ∧ isValidExpression d 1 31 = true ∧
          isValidExpression e 1 12 = true ∧ isValidExpression f 0 7 = true := by
      constructor
      · intro all
        exact ⟨all 0 a (by decide) rfl,all 1 b (by decide) rfl,all 2 c (by decide) rfl,all 3 d (by decide) rfl,all 4 e (by decide) rfl,
          all 5 f (by decide) rfl⟩
      · rintro ⟨second,minute,hour,date,month,day⟩ i list small found
        match i with
        | 0 => cases found; exact second
        | 1 => cases found; exact minute
        | 2 => cases found; exact hour
        | 3 => cases found; exact date
        | 4 => cases found; exact month
        | 5 => cases found; exact day
    rw [each]
    have next : ∀ (invalid : Prop) [Decidable invalid] (message : List Char) (later : Option (List Char)),
        (if invalid then some message else later) = none ↔ ¬ invalid ∧ later = none := by
      intro invalid _ message later
      split_ifs with here <;> simp [here]
    have valid : ∀ b : Bool,(¬ (!b) = true) ↔ b = true := by decide
    unfold validateFields isInvalidSecond isInvalidMinute isInvalidHour isInvalidDayOfMonth isInvalidMonth isInvalidWeekDay
    dsimp only
    rw [next,next,next,next,next,next,valid,valid,valid,valid,valid,valid,eq_self,and_true]
    exact Iff.rfl

/-- The lists are validated one by one. -/
theorem validateExecutable_lists (pattern : List Char) {lists : List (List Char)} (six : 6 ≤ lists.length) (plain : ∀ list ∈ lists,' ' ∉ list) :
    ((∀ i list,i < 6 → lists[i]? = some list → isValidExpression list (limits i).low (limits i).high = true) →
      validateExecutable pattern (join ' ' lists) = .ok (join ' ' lists)) ∧
    ((¬ ∀ i list,i < 6 → lists[i]? = some list → isValidExpression list (limits i).low (limits i).high = true) →
      ∃ message,validateExecutable pattern (join ' ' lists) = .error (.error message)) := by
  have some_ : lists ≠ [] := by
    rintro rfl
    exact absurd six (by decide)
  unfold validateExecutable
  dsimp only
  rw [split_join plain some_]
  constructor
  · intro valid
    rw [(validateFields_none six).mpr valid]
  · intro invalid
    cases message : validateFields (if (split ' ' pattern).length = 5 then ['0'] :: split ' ' pattern else split ' ' pattern) lists with
    | none => exact absurd ((validateFields_none six).mp message) invalid
    | some text => exact ⟨text,rfl⟩

end Dbos.Crontab
