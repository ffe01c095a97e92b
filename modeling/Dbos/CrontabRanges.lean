import Dbos.CrontabText

/-!
The loops of `convertRange`. A field is cut into its numbers, its dashes and its other characters. Each turn of the outer loop writes out the
first two numbers with a dash between them, so that there is one pair less, and the last number that has been written may make a pair with
what follows. The inner loop counts until the counter has passed the end, or the array is full.
-/
namespace Dbos.Crontab
open Dbos.Pg Dbos.Js

/-! ### The parts of a field -/

inductive Token
  | digits (text : List Char)
  | dash
  | other (c : Char)

def Token.text : Token → List Char
  | digits text => text
  | dash => ['-']
  | other c => [c]

def render (tokens : List Token) : List Char := tokens.flatMap Token.text

/-- The digits before a token belong to it if it is a number. -/
def addChar (c : Char) (tokens : List Token) : List Token :=
  if c.isDigit then
    match tokens with
    | .digits text :: rest => .digits (c :: text) :: rest
    | rest => .digits [c] :: rest
  else if c = '-' then .dash :: tokens
  else .other c :: tokens

def tokenize (text : List Char) : List Token := text.foldr addChar []

def StartsWithDigits : List Token → Prop
  | .digits _ :: _ => True
  | _ => False

/-- Numbers are runs of digits that are as long as they can be. -/
def Parted : List Token → Prop
  | [] => True
  | .digits text :: rest => Digits text ∧ ¬ StartsWithDigits rest ∧ Parted rest
  | .dash :: rest => Parted rest
  | .other c :: rest => c.isDigit = false ∧ c ≠ '-' ∧ Parted rest

theorem parted_tokenize (text : List Char) : Parted (tokenize text) := by
  induction text with
  | nil => trivial
  | cons c rest ih =>
    have single : c.isDigit = true → Digits [c] := fun digit =>
      ⟨List.cons_ne_nil _ _,fun d listed => by rw [List.mem_singleton.mp listed,digit]⟩
    change Parted (addChar c (tokenize rest))
    unfold addChar
    split_ifs with digit dash
    · match tokens : tokenize rest with
      | .digits text :: more =>
        rw [tokens] at ih
        obtain ⟨⟨-,all⟩,apart,parted⟩ := ih
        refine ⟨⟨List.cons_ne_nil _ _,fun d listed => ?_⟩,apart,parted⟩
        rcases List.mem_cons.mp listed with rfl | listed
        · exact digit
        · exact all d listed
      | [] => exact ⟨single digit,id,trivial⟩
      | .dash :: more =>
        rw [tokens] at ih
        exact ⟨single digit,id,ih⟩
      | .other d :: more =>
        rw [tokens] at ih
        exact ⟨single digit,id,ih⟩
    · exact ih
    · exact ⟨by simpa using digit,dash,ih⟩

theorem render_tokenize (text : List Char) : render (tokenize text) = text := by
  induction text with
  | nil => rfl
  | cons c rest ih =>
    change render (addChar c (tokenize rest)) = c :: rest
    unfold addChar
    split_ifs with digit dash
    · match tokens : tokenize rest with
      | .digits text :: more =>
        rw [tokens] at ih
        exact congrArg (c :: ·) ih
      | [] | .dash :: more | .other d :: more =>
        rw [tokens] at ih
        exact congrArg (c :: ·) ih
    · rw [dash]
      exact congrArg ('-' :: ·) ih
    · exact congrArg (c :: ·) ih

/-! ### Pairs -/

/-- Two numbers with a dash between them, and what follows. -/
def headPair : List Token → Option (List Char × List Char × List Token)
  | .digits init :: .dash :: .digits end_ :: rest => some (init,end_,rest)
  | _ => none

/-- The numbers from one to the other, with the commas that follow them, but for the last. -/
def written (low high : Nat) : List Token := (List.range' low (high - low)).flatMap fun n => [.digits (natToString n),.other ',']

/-- A number as the double that it reads as. -/
@[irreducible] def double (digits : List Char) : Nat := (roundDouble (decimal digits)).getD 0

def lowEnd (init end_ : List Char) : Nat := min (double init) (double end_)

def highEnd (init end_ : List Char) : Nat := max (double init) (double end_)

/-- The first pair is written out. -/
def expandFirst : List Token → List Token
  | [] => []
  | token :: rest =>
    match headPair (token :: rest) with
    | some (init,end_,more) => written (lowEnd init end_) (highEnd init end_) ++ .digits (natToString (highEnd init end_)) :: more
    | none => token :: expandFirst rest

/-- The counter gets from one end of a range to the other before the array is full. Above `2 ^ 53` it does not move, but for the odd
    significands before `2 ^ 54`, from which it moves on by two. -/
def Countable [Engine] (init end_ : List Char) : Prop :=
  ∃ first last,roundDouble (decimal init) = some first ∧ roundDouble (decimal end_) = some last ∧
    ((first < 2 ^ 53 ∧ last < 2 ^ 53 ∧ max first last - min first last < Engine.maxArray) ∨ (first = last ∧ last < 2 ^ 54 ∧ last % 4 = 2))

theorem headPair_eq {token : Token} {rest : List Token} {found : List Char × List Char × List Token}
    (pair : headPair (token :: rest) = some found) : token = .digits found.1 ∧ rest = .dash :: .digits found.2.1 :: found.2.2 := by
  match token,rest with
  | .digits _,.dash :: .digits _ :: _ =>
    cases pair
    exact ⟨rfl,rfl⟩
  | .digits _,[] | .digits _,.digits _ :: _ | .digits _,.other _ :: _ | .digits _,.dash :: [] | .digits _,.dash :: .dash :: _
  | .digits _,.dash :: .other _ :: _ | .dash,_ | .other _,_ => cases pair

/-- All pairs, from the first on: the last number that a pair is written out with is the first of what follows it. -/
def pairs : List Token → List (List Char × List Char)
  | [] => []
  | token :: rest =>
    match _pair : headPair (token :: rest) with
    | some (init,end_,more) => (init,end_) :: pairs (.digits (natToString (highEnd init end_)) :: more)
    | none => pairs rest
termination_by tokens => tokens.length
decreasing_by
  · obtain ⟨-,rest_⟩ := headPair_eq _pair
    rw [rest_]
    simp only [List.length_cons]
    omega
  · exact Nat.lt_succ_self _

/-! ### Counting -/

section
variable [Engine] {last : Number}

theorem grows_countUp (last : Number) : Grows (loop fun _ s => some (countTurn last s)) := loop_grows (grows_const (countTurn last))

theorem countTurn_push {s : Counting} (more : s.i.le last = true) (room : s.numbers.length < Engine.maxArray) :
    countTurn last s = .inr ⟨s.i.addOne,s.numbers ++ [s.i.toString]⟩ := by
  unfold countTurn
  rw [if_pos more,if_pos room]

theorem countTurn_full {s : Counting} (more : s.i.le last = true) (full : ¬ s.numbers.length < Engine.maxArray) :
    countTurn last s = .inl (.error .rangeError) := by
  unfold countTurn
  rw [if_pos more,if_neg full]

theorem countTurn_done {n last : Nat} (numbers : List (List Char)) (past : last < n) :
    countTurn (.finite last) ⟨.finite n,numbers⟩ = .inl (.ok numbers) := by
  unfold countTurn
  rw [le_finite,if_neg (by simpa using past)]

/-- A counter below `2 ^ 53` moves on to the next number. -/
theorem countTurn_small {n last : Nat} {numbers : List (List Char)} (more : n ≤ last) (small : n < 2 ^ 53)
    (room : numbers.length < Engine.maxArray) :
    countTurn (.finite last) ⟨.finite n,numbers⟩ = .inr ⟨.finite (n + 1 : Nat),numbers ++ [natToString n]⟩ := by
  rw [countTurn_push (by rw [le_finite,decide_eq_true more]) room,addOne_finite,toString_finite,ofNat_small (by omega)]

/-- Below `2 ^ 53` the loop writes every number, if there is room for them. -/
theorem countUp_small {last : Nat} (small : last < 2 ^ 53) (count : Nat) {n : Nat} (left : n + count = last + 1) (numbers : List (List Char))
    (room : numbers.length + count ≤ Engine.maxArray) :
    Ends (loop fun _ s => some (countTurn (.finite last) s)) ⟨.finite n,numbers⟩ (.ok (numbers ++ (List.range' n count).map natToString)) := by
  induction count generalizing n numbers with
  | zero =>
    refine ends_done ⟨0,?_⟩
    dsimp only
    rw [countTurn_done numbers (by omega)]
    simp
  | succ count ih =>
    refine ends_next (grows_const (countTurn (.finite last))) ⟨0,congrArg some (countTurn_small (by omega) (by omega) (by omega))⟩ ?_
    have rest := ih (n := n + 1) (by omega) (numbers ++ [natToString n]) (by rw [List.length_append,List.length_singleton]; omega)
    rwa [List.append_assoc,List.singleton_append,← List.map_cons,← List.range'_succ] at rest

/-- A range that can be counted is written out. -/
theorem countUp_ends {low high : Nat} (isDouble : roundDouble low = some low) (ordered : low ≤ high)
    (countable : (high < 2 ^ 53 ∧ high - low < Engine.maxArray) ∨ (low = high ∧ high < 2 ^ 54 ∧ high % 4 = 2)) :
    Ends (loop fun _ s => some (countTurn (.finite high) s)) ⟨.finite low,[]⟩ (.ok ((List.range' low (high - low + 1)).map natToString)) := by
  by_cases small : high < 2 ^ 53
  · have enough := Engine.enough
    exact countUp_small small (high - low + 1) (by omega) [] (by rw [List.length_nil]; omega)
  · obtain ⟨rfl,below,odd⟩ := countable.resolve_left fun counted => small counted.1
    have next := roundDouble_next isDouble (by omega)
    rw [if_pos ⟨below,odd⟩] at next
    rw [Nat.sub_self]
    have room : ([] : List (List Char)).length < Engine.maxArray := Nat.lt_of_lt_of_le (by decide) Engine.enough
    have turn : countTurn (.finite low) ⟨.finite low,[]⟩ = .inr ⟨.finite (low + 2 : Nat),[natToString low]⟩ := by
      rw [countTurn_push (by rw [le_finite,decide_eq_true (Nat.le_refl low)]) room,addOne_finite,toString_finite,ofNat_round next]
      rfl
    refine ends_next (grows_const (countTurn (.finite low))) ⟨0,congrArg some turn⟩ (ends_done ⟨0,?_⟩)
    dsimp only
    rw [countTurn_done _ (by omega)]
    rfl

/-- Whatever is counted, the loop ends: at the latest when the array is full. -/
theorem countUp_result (last : Number) (s : Counting) : ∃ result,Ends (loop fun _ s => some (countTurn last s)) s result := by
  have turns : ∀ s : Counting,True → (∃ result,Ends (fun _ s => some (countTurn last s)) s (.inl result) ∧ True) ∨
      ∃ s',Ends (fun _ s => some (countTurn last s)) s (.inr s') ∧ True ∧
        Engine.maxArray - s'.numbers.length < Engine.maxArray - s.numbers.length := by
    intro s _
    by_cases more : s.i.le last = true
    · by_cases room : s.numbers.length < Engine.maxArray
      · refine .inr ⟨_,⟨0,congrArg some (countTurn_push more room)⟩,trivial,?_⟩
        rw [List.length_append,List.length_singleton]
        omega
      · exact .inl ⟨_,⟨0,congrArg some (countTurn_full more room)⟩,trivial⟩
    · refine .inl ⟨.ok s.numbers,⟨0,congrArg some ?_⟩,trivial⟩
      unfold countTurn
      rw [if_neg more]
  obtain ⟨result,ended,-⟩ := loop_ends (grows_const (countTurn last)) _ turns trivial
  exact ⟨result,ended⟩

/-- A counter that never passes the end fills the array. -/
theorem countUp_throws {I : Counting → Prop} (turns : ∀ s,I s → s.i.le last = true ∧
    (s.numbers.length < Engine.maxArray → I ⟨s.i.addOne,s.numbers ++ [s.i.toString]⟩)) {s : Counting} (start : I s) :
    Ends (loop fun _ s => some (countTurn last s)) s (.error .rangeError) := by
  have filling : ∀ s,I s → (∃ result,Ends (fun _ s => some (countTurn last s)) s (.inl result) ∧ result = .error .rangeError) ∨
      ∃ s',Ends (fun _ s => some (countTurn last s)) s (.inr s') ∧ I s' ∧
        Engine.maxArray - s'.numbers.length < Engine.maxArray - s.numbers.length := by
    intro s kept
    obtain ⟨more,next⟩ := turns s kept
    by_cases room : s.numbers.length < Engine.maxArray
    · refine .inr ⟨_,⟨0,congrArg some (countTurn_push more room)⟩,next room,?_⟩
      rw [List.length_append,List.length_singleton]
      omega
    · exact .inl ⟨_,⟨0,congrArg some (countTurn_full more room)⟩,rfl⟩
  obtain ⟨result,ended,rfl⟩ := loop_ends (grows_const (countTurn last)) _ filling start
  exact ended

/-- A range may have more numbers than an array has room for. -/
theorem countUp_long {low high : Nat} (small : high < 2 ^ 53) (long : low + Engine.maxArray ≤ high) :
    Ends (loop fun _ s => some (countTurn (.finite high) s)) ⟨.finite low,[]⟩ (.error .rangeError) := by
  refine countUp_throws (I := fun s => s.i = .finite (low + s.numbers.length : Nat) ∧ s.numbers.length ≤ Engine.maxArray) ?_
    ⟨rfl,Nat.zero_le _⟩
  rintro ⟨i,numbers⟩ ⟨here,filled⟩
  dsimp only at here filled ⊢
  rw [here]
  refine ⟨by rw [le_finite,decide_eq_true (by omega)],fun room => ⟨?_,?_⟩⟩
  · rw [addOne_finite,ofNat_small (by omega),List.length_append,List.length_singleton,Nat.add_assoc]
  · rw [List.length_append,List.length_singleton]
    omega

/-- A counter that does not move before the end is reached. -/
theorem countUp_stuck {low top high : Nat} (isDouble : roundDouble low = some low) (topDouble : roundDouble top = some top)
    (stuck : roundDouble (top + 1) = some top) (above : low ≤ top) (before : top ≤ high) :
    Ends (loop fun _ s => some (countTurn (.finite high) s)) ⟨.finite low,[]⟩ (.error .rangeError) := by
  refine countUp_throws (I := fun s => ∃ n : Nat,s.i = .finite n ∧ n ≤ top ∧ roundDouble n = some n) ?_ ⟨low,rfl,above,isDouble⟩
  rintro ⟨i,numbers⟩ ⟨n,here,below,nDouble⟩
  dsimp only at here ⊢
  rw [here]
  refine ⟨by rw [le_finite,decide_eq_true (by omega)],fun _ => ?_⟩
  rw [addOne_finite]
  unfold Number.ofNat
  rcases Nat.lt_or_eq_of_le below with less | rfl
  · by_cases small : n < 2 ^ 53
    · have next := roundDouble_small (n := n + 1) (by omega)
      rw [next]
      exact ⟨n + 1,rfl,less,next⟩
    · have next := roundDouble_next nDouble (by omega)
      have even := double_even nDouble (by omega)
      have topEven := double_even topDouble (by omega)
      have nextDouble := roundDouble_idem next
      rw [next]
      refine ⟨_,rfl,?_,nextDouble⟩
      split_ifs <;> omega
  · rw [stuck]
    exact ⟨n,rfl,Nat.le_refl n,nDouble⟩

/-- No number is past an infinite end. -/
theorem countUp_infinite (first : Number) (start : first = .infinite false ∨ ∃ n : Nat,first = .finite n) :
    Ends (loop fun _ s => some (countTurn (.infinite false) s)) ⟨first,[]⟩ (.error .rangeError) := by
  refine countUp_throws (I := fun s => s.i = .infinite false ∨ ∃ n : Nat,s.i = .finite n) ?_ start
  rintro ⟨i,numbers⟩ (here | ⟨n,here⟩)
  · dsimp only at here ⊢
    rw [here]
    exact ⟨rfl,fun _ => .inl rfl⟩
  · dsimp only at here ⊢
    rw [here]
    refine ⟨rfl,fun _ => ?_⟩
    rw [addOne_finite]
    unfold Number.ofNat
    cases roundDouble (n + 1) with
    | none => exact .inl rfl
    | some m => exact .inr ⟨m,rfl⟩

/-- A range whose larger end is not below `2 ^ 53` fills the array, unless it is one number with an odd significand. -/
theorem countUp_large {low high : Nat} (lowDouble : roundDouble low = some low) (highDouble : roundDouble high = some high)
    (ordered : low ≤ high) (large : 2 ^ 53 ≤ high) (endless : ¬ (low = high ∧ high < 2 ^ 54 ∧ high % 4 = 2)) :
    Ends (loop fun _ s => some (countTurn (.finite high) s)) ⟨.finite low,[]⟩ (.error .rangeError) := by
  by_cases small : low ≤ 2 ^ 53
  · obtain ⟨top,exact_⟩ : ∃ top : Nat,top = 2 ^ 53 := ⟨_,rfl⟩
    have topDouble := roundDouble_small (n := top) (by omega)
    have next := roundDouble_next topDouble (by omega)
    rw [if_neg (by omega)] at next
    exact countUp_stuck lowDouble topDouble next (by omega) (by omega)
  · have next := roundDouble_next lowDouble (by omega)
    by_cases odd : low < 2 ^ 54 ∧ low % 4 = 2
    · rw [if_pos odd] at next
      have topDouble := roundDouble_idem next
      have even := double_even highDouble large
      refine countUp_stuck lowDouble topDouble ?_ (Nat.le_add_right low 2) (by omega)
      rw [roundDouble_next topDouble (by omega),if_neg (by omega)]
    · rw [if_neg odd] at next
      exact countUp_stuck lowDouble lowDouble next (Nat.le_refl low) ordered

/-- A range that cannot be counted throws. -/
theorem countUp_uncountable {low high : Nat} (lowDouble : roundDouble low = some low) (highDouble : roundDouble high = some high)
    (ordered : low ≤ high) (uncountable : ¬ ((high < 2 ^ 53 ∧ high - low < Engine.maxArray) ∨ (low = high ∧ high < 2 ^ 54 ∧ high % 4 = 2))) :
    Ends (loop fun _ s => some (countTurn (.finite high) s)) ⟨.finite low,[]⟩ (.error .rangeError) := by
  by_cases small : high < 2 ^ 53
  · exact countUp_long small (by omega)
  · exact countUp_large lowDouble highDouble ordered (by omega) fun odd => uncountable (.inr odd)

end

/-! ### replaceWithRange -/

theorem parseInt_double {digits : List Char} (run : Digits digits) :
    (roundDouble (decimal digits) = none ∧ parseInt digits = .infinite false) ∨
      ∃ n : Nat,roundDouble (decimal digits) = some n ∧ parseInt digits = .finite n := by
  rw [parseInt_digits run]
  unfold Number.ofNat
  cases roundDouble (decimal digits) with
  | none => exact .inl ⟨rfl,rfl⟩
  | some n => exact .inr ⟨n,rfl,rfl⟩

/-- The numbers of a range, from the smaller end to the larger one. -/
def rangeNumbers (init end_ : List Char) : List (List Char) :=
  (List.range' (lowEnd init end_) (highEnd init end_ - lowEnd init end_ + 1)).map natToString

variable {init end_ : List Char}

theorem ends_double {first last : Nat} (start : roundDouble (decimal init) = some first) (stop : roundDouble (decimal end_) = some last) :
    lowEnd init end_ = min first last ∧ highEnd init end_ = max first last := by
  unfold lowEnd highEnd double
  rw [start,stop]
  exact ⟨rfl,rfl⟩

/-- Each end of a range is one of its two numbers. -/
theorem ends_roundDouble {a b first last : Nat} (start : roundDouble a = some first) (stop : roundDouble b = some last) :
    roundDouble (min first last) = some (min first last) ∧ roundDouble (max first last) = some (max first last) := by
  have firstDouble := roundDouble_idem start
  have lastDouble := roundDouble_idem stop
  rcases Nat.le_total first last with le | le
  · rw [Nat.min_eq_left le,Nat.max_eq_right le]
    exact ⟨firstDouble,lastDouble⟩
  · rw [Nat.min_eq_right le,Nat.max_eq_left le]
    exact ⟨lastDouble,firstDouble⟩

/-- The loop counts from the smaller end to the larger one. -/
theorem countUp_ordered [Engine] (initRun : Digits init) (endRun : Digits end_) {first last : Nat} (start : roundDouble (decimal init) = some first)
    (stop : roundDouble (decimal end_) = some last) (fuel : Nat) (expression text : List Char) :
    replaceWithRange fuel expression text init end_ =
      (countUp fuel (.finite (min first last : Nat)) (.finite (max first last : Nat))).map fun numbers =>
        numbers.map fun numbers => replaceText text (join ',' numbers) expression := by
  have initNum : parseInt init = .finite first := by rw [parseInt_digits initRun,ofNat_round start]
  have endNum : parseInt end_ = .finite last := by rw [parseInt_digits endRun,ofNat_round stop]
  unfold replaceWithRange
  dsimp only
  rw [initNum,endNum,lt_finite]
  by_cases swapped : last < first
  · rw [if_pos (decide_eq_true swapped),Nat.min_eq_right (by omega),Nat.max_eq_left (by omega)]
  · rw [if_neg (by simpa using swapped),Nat.min_eq_left (by omega),Nat.max_eq_right (by omega)]

theorem replaceWithRange_ends [Engine] (initRun : Digits init) (endRun : Digits end_) (countable : Countable init end_)
    (expression text : List Char) : Ends (fun fuel expression => replaceWithRange fuel expression text init end_) expression
      (.ok (replaceText text (join ',' (rangeNumbers init end_)) expression)) := by
  obtain ⟨first,last,start,stop,counted⟩ := countable
  obtain ⟨low,high⟩ := ends_double start stop
  obtain ⟨lowDouble,-⟩ := ends_roundDouble start stop
  obtain ⟨fuel,numbers⟩ := countUp_ends lowDouble (Nat.le_trans (Nat.min_le_left first last) (Nat.le_max_left first last)) (by omega)
  refine ⟨fuel,?_⟩
  dsimp only
  rw [countUp_ordered initRun endRun start stop,countUp,numbers,rangeNumbers,low,high]
  rfl

theorem replaceWithRange_throws [Engine] (initRun : Digits init) (endRun : Digits end_) (uncountable : ¬ Countable init end_)
    (expression text : List Char) :
    Ends (fun fuel expression => replaceWithRange fuel expression text init end_) expression (.error .rangeError) := by
  rcases parseInt_double endRun with ⟨-,last⟩ | ⟨last,stop,endNum⟩
  · have start : parseInt init = .infinite false ∨ ∃ n : Nat,parseInt init = .finite n := by
      rcases parseInt_double initRun with ⟨-,first⟩ | ⟨first,-,initNum⟩
      · exact .inl first
      · exact .inr ⟨first,initNum⟩
    have notSwapped : (parseInt end_).lt (parseInt init) = false := by
      rw [last]
      rcases start with first | ⟨n,first⟩ <;> rw [first] <;> rfl
    obtain ⟨fuel,full⟩ := countUp_infinite _ start
    refine ⟨fuel,?_⟩
    unfold replaceWithRange countUp
    dsimp only
    rw [notSwapped,last,if_neg Bool.false_ne_true,full]
    rfl
  · rcases parseInt_double initRun with ⟨-,first⟩ | ⟨first,start,-⟩
    · obtain ⟨fuel,full⟩ := countUp_infinite (.finite last) (.inr ⟨last,rfl⟩)
      have swapped : (Number.finite last).lt (.infinite false) = true := rfl
      refine ⟨fuel,?_⟩
      unfold replaceWithRange countUp
      dsimp only
      rw [first,endNum,if_pos swapped,full]
      rfl
    · obtain ⟨lowDouble,highDouble⟩ := ends_roundDouble start stop
      have uncounted : ¬ ((first < 2 ^ 53 ∧ last < 2 ^ 53 ∧ max first last - min first last < Engine.maxArray) ∨
          (first = last ∧ last < 2 ^ 54 ∧ last % 4 = 2)) := fun counted => uncountable ⟨first,last,start,stop,counted⟩
      obtain ⟨fuel,full⟩ := countUp_uncountable lowDouble highDouble (by omega) (by omega)
      refine ⟨fuel,?_⟩
      dsimp only
      rw [countUp_ordered initRun endRun start stop,countUp,full]
      rfl

/-- A range between any two texts is replaced, or is too long. -/
theorem replaceWithRange_result [Engine] (expression text init end_ : List Char) :
    ∃ result,Ends (fun fuel expression => replaceWithRange fuel expression text init end_) expression result := by
  have counted : ∀ first last : Number,∃ fuel numbers,countUp fuel first last = some numbers := by
    intro first last
    obtain ⟨numbers,fuel,ended⟩ := countUp_result last ⟨first,[]⟩
    exact ⟨fuel,numbers,ended⟩
  unfold replaceWithRange
  dsimp only
  by_cases swapped : (parseInt end_).lt (parseInt init) = true
  · obtain ⟨fuel,numbers,ended⟩ := counted (parseInt end_) (parseInt init)
    refine ⟨numbers.map fun numbers => replaceText text (join ',' numbers) expression,fuel,?_⟩
    dsimp only
    rw [if_pos swapped,ended]
    rfl
  · obtain ⟨fuel,numbers,ended⟩ := counted (parseInt init) (parseInt end_)
    refine ⟨numbers.map fun numbers => replaceText text (join ',' numbers) expression,fuel,?_⟩
    dsimp only
    rw [if_neg swapped,ended]
    rfl

/-! ### The first match -/

/-- The text does not go on with a digit. -/
def Stops (text : List Char) : Prop := ∀ c ∈ text.head?,c.isDigit = false

/-- A dash and a digit. -/
def DashDigit (text : List Char) : Prop := ∃ c rest,text = '-' :: c :: rest ∧ c.isDigit = true

theorem takeWhile_digits {digits rest : List Char} (all : ∀ c ∈ digits,c.isDigit = true) (stops : Stops rest) :
    (digits ++ rest).takeWhile Char.isDigit = digits ∧ (digits ++ rest).dropWhile Char.isDigit = rest := by
  have last : rest.takeWhile Char.isDigit = [] ∧ rest.dropWhile Char.isDigit = rest := by
    cases rest with
    | nil => exact ⟨rfl,rfl⟩
    | cons c rest => simp [stops c rfl]
  rw [List.takeWhile_append_of_pos all,List.dropWhile_append_of_pos all,last.1,last.2,List.append_nil]
  exact ⟨rfl,rfl⟩

theorem rangeRegEx_found (initRun : Digits init) (endRun : Digits end_) {rest : List Char} (stops : Stops rest) :
    rangeRegEx (init ++ '-' :: (end_ ++ rest)) = some (init,end_) := by
  have dash : Stops ('-' :: (end_ ++ rest)) := fun c first => by cases first; rfl
  have first := takeWhile_digits initRun.2 dash
  have second := takeWhile_digits endRun.2 stops
  obtain ⟨c,more,rfl⟩ := List.exists_cons_of_ne_nil initRun.1
  rw [List.cons_append] at first ⊢
  unfold rangeRegEx
  dsimp only
  rw [first.1,first.2,List.tail_cons,second.1,if_pos ⟨initRun.1,rfl,endRun.1⟩]

/-- There is no match at a number without a dash and another number. -/
theorem rangeRegEx_digits {digits rest : List Char} (all : ∀ c ∈ digits,c.isDigit = true) (stops : Stops rest) (alone : ¬ DashDigit rest) :
    rangeRegEx (digits ++ rest) = rangeRegEx rest := by
  induction digits with
  | nil => rfl
  | cons c digits ih =>
    have here := takeWhile_digits all stops
    have later := ih fun d listed => all d (List.mem_cons_of_mem _ listed)
    rw [List.cons_append] at here ⊢
    rw [rangeRegEx.eq_2,here.2,if_neg,later]
    rintro ⟨-,dash,some_⟩
    cases rest with
    | nil => cases dash
    | cons e rest =>
      cases dash
      cases rest with
      | nil => exact some_ rfl
      | cons d rest =>
        refine alone ⟨d,rest,rfl,?_⟩
        by_contra other
        rw [List.tail_cons,List.takeWhile_cons_of_neg other] at some_
        exact some_ rfl

theorem rangeRegEx_other {c : Char} (other : c.isDigit = false) (rest : List Char) : rangeRegEx (c :: rest) = rangeRegEx rest := by
  rw [rangeRegEx]
  simp [other]

/-- A match that is looked for begins where the numbers do. -/
theorem match_parts (initRun : Digits init) {digits rest : List Char} (all : ∀ c ∈ digits,c.isDigit = true) (stops : Stops rest)
    (begins : init ++ '-' :: end_ <+: digits ++ rest) : init = digits ∧ '-' :: end_ <+: rest := by
  obtain ⟨more,whole⟩ := begins
  rw [List.append_assoc,List.cons_append] at whole
  have dash : Stops ('-' :: (end_ ++ more)) := fun c first => by cases first; rfl
  have first := takeWhile_digits initRun.2 dash
  have second := takeWhile_digits all stops
  rw [whole] at first
  exact ⟨first.1.symm.trans second.1,more,by rw [List.cons_append,← first.2,second.2]⟩

theorem replaceText_digits (initRun : Digits init) (endRun : Digits end_) {digits rest : List Char} (all : ∀ c ∈ digits,c.isDigit = true)
    (stops : Stops rest) (alone : ¬ DashDigit rest) (replacement : List Char) :
    replaceText (init ++ '-' :: end_) replacement (digits ++ rest) = digits ++ replaceText (init ++ '-' :: end_) replacement rest := by
  induction digits with
  | nil => rfl
  | cons c digits ih =>
    have later := ih fun d listed => all d (List.mem_cons_of_mem _ listed)
    have notHere : ¬ (init ++ '-' :: end_).isPrefixOf (c :: (digits ++ rest)) = true := by
      intro begins
      obtain ⟨-,more,goesOn⟩ := match_parts initRun all stops (List.isPrefixOf_iff_prefix.mp begins)
      obtain ⟨d,end_,rfl⟩ := List.exists_cons_of_ne_nil endRun.1
      exact alone ⟨d,_,goesOn.symm,endRun.2 d List.mem_cons_self⟩
    rw [List.cons_append,replaceText,if_neg notHere,later,List.cons_append]

theorem replaceText_other (initRun : Digits init) {c : Char} (other : c.isDigit = false) (replacement rest : List Char) :
    replaceText (init ++ '-' :: end_) replacement (c :: rest) = c :: replaceText (init ++ '-' :: end_) replacement rest := by
  obtain ⟨d,init,rfl⟩ := List.exists_cons_of_ne_nil initRun.1
  have notHere : ¬ (d :: init ++ '-' :: end_).isPrefixOf (c :: rest) = true := by
    intro begins
    rw [List.cons_append,List.isPrefixOf_iff_prefix,List.cons_prefix_cons] at begins
    rw [← begins.1,initRun.2 d List.mem_cons_self] at other
    cases other
  rw [replaceText,if_neg notHere]

/-! ### The first pair -/

theorem stops_render {tokens : List Token} (parted : Parted tokens) (apart : ¬ StartsWithDigits tokens) : Stops (render tokens) := by
  intro c first
  match tokens with
  | [] => cases first
  | .digits _ :: _ => exact absurd trivial apart
  | .dash :: _ =>
    cases first
    rfl
  | .other d :: _ =>
    cases first
    exact parted.1

/-- A number that is not in a pair is not followed by a dash and a digit. -/
theorem alone_render {text : List Char} {rest : List Token} (parted : Parted (.digits text :: rest))
    (alone : headPair (.digits text :: rest) = none) : ¬ DashDigit (render rest) := by
  rintro ⟨c,more,text_,digit⟩
  obtain ⟨-,apart,partedRest⟩ := parted
  match rest with
  | [] => cases text_
  | .digits _ :: _ => exact apart trivial
  | .other d :: _ =>
    obtain ⟨-,notDash,-⟩ := partedRest
    exact notDash (List.cons.inj text_).1
  | .dash :: [] => cases text_
  | .dash :: .digits _ :: _ => cases alone
  | .dash :: .dash :: _ =>
    cases text_
    cases digit
  | .dash :: .other d :: _ =>
    obtain ⟨other,-⟩ := partedRest
    cases text_
    rw [digit] at other
    cases other

/-- The tokens from the left: either a pair begins and is written out, or one token is passed. -/
@[elab_as_elim]
theorem tokens_induction {motive : List Token → Prop} (nil : motive [])
    (pair : ∀ init end_ rest,motive (.digits (natToString (highEnd init end_)) :: rest) → motive (.digits init :: .dash :: .digits end_ :: rest))
    (skip : ∀ token rest,headPair (token :: rest) = none → motive rest → motive (token :: rest)) (tokens : List Token) : motive tokens := by
  induction count : tokens.length using Nat.strong_induction_on generalizing tokens with
  | _ n ih =>
    subst count
    match tokens with
    | [] => exact nil
    | token :: rest =>
      cases found : headPair (token :: rest) with
      | none => exact skip token rest found (ih rest.length (Nat.lt_succ_self _) rest rfl)
      | some parts =>
        obtain ⟨rfl,rfl⟩ := headPair_eq found
        obtain ⟨init,end_,more⟩ := parts
        exact pair init end_ more (ih (more.length + 1) (by simp only [List.length_cons]; omega) _ rfl)

theorem pairs_nil : pairs [] = [] := by rw [pairs]

theorem pairs_found (init end_ : List Char) (rest : List Token) : pairs (.digits init :: .dash :: .digits end_ :: rest) =
    (init,end_) :: pairs (.digits (natToString (highEnd init end_)) :: rest) := by
  rw [pairs]
  rfl

theorem pairs_skip {token : Token} {rest : List Token} (none_ : headPair (token :: rest) = none) : pairs (token :: rest) = pairs rest := by
  rw [pairs]
  split
  · rename_i found
    rw [none_] at found
    cases found
  · rfl

theorem expandFirst_found (init end_ : List Char) (rest : List Token) : expandFirst (.digits init :: .dash :: .digits end_ :: rest) =
    written (lowEnd init end_) (highEnd init end_) ++ .digits (natToString (highEnd init end_)) :: rest := rfl

theorem expandFirst_skip {token : Token} {rest : List Token} (none_ : headPair (token :: rest) = none) :
    expandFirst (token :: rest) = token :: expandFirst rest := by
  rw [expandFirst,none_]

theorem rangeRegEx_render {tokens : List Token} (parted : Parted tokens) : rangeRegEx (render tokens) = (pairs tokens).head? := by
  induction tokens using tokens_induction with
  | nil => rw [pairs_nil]; rfl
  | pair init end_ rest ih =>
    obtain ⟨initRun,-,endRun,apart,partedRest⟩ := parted
    rw [pairs_found]
    exact rangeRegEx_found initRun endRun (stops_render partedRest apart)
  | skip token rest none_ ih =>
    rw [pairs_skip none_]
    cases token with
    | digits text =>
      have alone := alone_render parted none_
      obtain ⟨run,apart,partedRest⟩ := parted
      rw [← ih partedRest]
      exact rangeRegEx_digits run.2 (stops_render partedRest apart) alone
    | dash =>
      rw [← ih parted]
      exact rangeRegEx_other rfl _
    | other c =>
      rw [← ih parted.2.2]
      exact rangeRegEx_other parted.1 _

theorem render_append (first rest : List Token) : render (first ++ rest) = render first ++ render rest := List.flatMap_append

/-- The numbers that are written are separated by commas. -/
theorem render_written (init end_ : List Char) (rest : List Token) :
    render (written (lowEnd init end_) (highEnd init end_) ++ .digits (natToString (highEnd init end_)) :: rest) =
      join ',' (rangeNumbers init end_) ++ render rest := by
  have ordered : lowEnd init end_ ≤ highEnd init end_ := Nat.le_trans (Nat.min_le_left _ _) (Nat.le_max_left _ _)
  unfold rangeNumbers written
  obtain ⟨count,high⟩ : ∃ count,highEnd init end_ = lowEnd init end_ + count := ⟨_,(Nat.add_sub_of_le ordered).symm⟩
  rw [high,Nat.add_sub_cancel_left]
  generalize lowEnd init end_ = low
  clear ordered high
  induction count generalizing low with
  | zero => simp [render,Token.text,join_singleton]
  | succ count ih =>
    have next := ih (low + 1)
    have numbers : (List.range' low (count + 1 + 1)).map natToString =
        natToString low :: (List.range' (low + 1) (count + 1)).map natToString := by rw [List.range'_succ,List.map_cons]
    have some_ : (List.range' (low + 1) (count + 1)).map natToString ≠ [] := by simp
    rw [numbers,join_cons ',' _ some_,List.range'_succ,List.flatMap_cons,List.append_assoc,render_append,
      show low + (count + 1) = low + 1 + count by omega,next]
    simp [render,Token.text]

theorem parted_rest {token : Token} {rest : List Token} (parted : Parted (token :: rest)) : Parted rest := by
  cases token with
  | digits _ => exact parted.2.2
  | dash => exact parted
  | other _ => exact parted.2.2

theorem pairs_digits {tokens : List Token} (parted : Parted tokens) {more : List (List Char × List Char)}
    (first : pairs tokens = (init,end_) :: more) : Digits init ∧ Digits end_ := by
  induction tokens using tokens_induction with
  | nil =>
    rw [pairs_nil] at first
    cases first
  | pair init' end' rest ih =>
    rw [pairs_found] at first
    cases first
    exact ⟨parted.1,(parted_rest parted).1⟩
  | skip token rest none_ ih =>
    rw [pairs_skip none_] at first
    exact ih (parted_rest parted) first

/-- What a turn replaces is the first pair. -/
theorem replaceText_render {tokens : List Token} (parted : Parted tokens) {more : List (List Char × List Char)}
    (first : pairs tokens = (init,end_) :: more) :
    replaceText (init ++ '-' :: end_) (join ',' (rangeNumbers init end_)) (render tokens) = render (expandFirst tokens) := by
  obtain ⟨initRun,endRun⟩ := pairs_digits parted first
  induction tokens using tokens_induction with
  | nil =>
    rw [pairs_nil] at first
    cases first
  | pair init' end' after ih =>
    rw [pairs_found] at first
    cases first
    have text : render (.digits init :: .dash :: .digits end_ :: after) = (init ++ '-' :: end_) ++ render after := by
      simp [render,Token.text]
    have some_ : init ++ '-' :: end_ ≠ [] := by simp
    rw [text,replaceText_head some_,expandFirst_found,render_written]
  | skip token rest none_ ih =>
    rw [expandFirst_skip none_]
    rw [pairs_skip none_] at first
    cases token with
    | digits text =>
      have alone := alone_render parted none_
      obtain ⟨run,apart,partedRest⟩ := parted
      have later := replaceText_digits initRun endRun run.2 (stops_render partedRest apart) alone (join ',' (rangeNumbers init end_))
      exact later.trans (congrArg (text ++ ·) (ih partedRest first))
    | dash => exact (replaceText_other initRun rfl _ _).trans (congrArg ('-' :: ·) (ih parted first))
    | other c => exact (replaceText_other initRun parted.1 _ _).trans (congrArg (c :: ·) (ih parted.2.2 first))

/-! ### One pair less -/

/-- The ends of a range that is counted are doubles with all their digits. -/
theorem countable_ends [Engine] (countable : Countable init end_) :
    highEnd init end_ < 2 ^ 54 ∧ roundDouble (highEnd init end_) = some (highEnd init end_) := by
  obtain ⟨first,last,start,stop,counted⟩ := countable
  rw [(ends_double start stop).2]
  exact ⟨by omega,(ends_roundDouble start stop).2⟩

theorem startsWithDigits_written (low high : Nat) (text : List Char) (rest : List Token) :
    StartsWithDigits (written low high ++ .digits text :: rest) := by
  unfold written
  cases List.range' low (high - low) with
  | nil => trivial
  | cons n others => trivial

theorem startsWithDigits_expandFirst (tokens : List Token) : StartsWithDigits (expandFirst tokens) ↔ StartsWithDigits tokens := by
  match tokens with
  | [] => rfl
  | token :: rest =>
    cases found : headPair (token :: rest) with
    | some parts =>
      obtain ⟨rfl,rfl⟩ := headPair_eq found
      rw [expandFirst_found]
      exact iff_of_true (startsWithDigits_written _ _ _ _) trivial
    | none =>
      rw [expandFirst_skip found]
      cases token <;> rfl

theorem parted_written {low high : Nat} (plain : high < 10 ^ 21) {text : List Char} (run : Digits text) {rest : List Token}
    (apart : ¬ StartsWithDigits rest) (parted : Parted rest) : Parted (written low high ++ .digits text :: rest) := by
  have each : ∀ n ∈ List.range' low (high - low),n < 10 ^ 21 := by
    intro n listed
    rw [List.mem_range'_1] at listed
    omega
  unfold written
  generalize List.range' low (high - low) = numbers at each
  induction numbers with
  | nil => exact ⟨run,apart,parted⟩
  | cons n others ih =>
    have digits := natToString_digits (each n List.mem_cons_self)
    exact ⟨digits,id,rfl,by decide,ih fun m listed => each m (List.mem_cons_of_mem _ listed)⟩

theorem parted_expandFirst [Engine] {tokens : List Token} (parted : Parted tokens) {more : List (List Char × List Char)}
    (first : pairs tokens = (init,end_) :: more) (countable : Countable init end_) : Parted (expandFirst tokens) := by
  induction tokens using tokens_induction with
  | nil =>
    rw [pairs_nil] at first
    cases first
  | pair init' end' after ih =>
    rw [pairs_found] at first
    cases first
    have plain : highEnd init end_ < 10 ^ 21 := (countable_ends countable).1.trans (by decide)
    rw [expandFirst_found]
    exact parted_written plain (natToString_digits plain) parted.2.2.2.1 parted.2.2.2.2
  | skip token rest none_ ih =>
    rw [expandFirst_skip none_]
    rw [pairs_skip none_] at first
    cases token with
    | digits text => exact ⟨parted.1,fun starts => parted.2.1 ((startsWithDigits_expandFirst rest).mp starts),ih parted.2.2 first⟩
    | dash => exact ih parted first
    | other c => exact ⟨parted.1,parted.2.1,ih parted.2.2 first⟩

theorem pairs_written (low high : Nat) (rest : List Token) : pairs (written low high ++ rest) = pairs rest := by
  unfold written
  induction List.range' low (high - low) with
  | nil => rfl
  | cons n others ih => rw [List.flatMap_cons,List.append_assoc,List.cons_append,List.singleton_append,pairs_skip (by rfl),pairs_skip (by rfl),ih]

/-- No pair arises at the head where there was none. -/
theorem headPair_expandFirst {token : Token} {rest : List Token} (pair : headPair (token :: rest) = none) :
    headPair (token :: expandFirst rest) = none := by
  match token,rest with
  | .dash,_ | .other _,_ => rfl
  | .digits _,[] => rfl
  | .digits _,.digits text :: more =>
    have starts := (startsWithDigits_expandFirst (.digits text :: more)).mpr trivial
    match after : expandFirst (.digits text :: more) with
    | .digits _ :: _ => rfl
    | [] | .dash :: _ | .other _ :: _ =>
      rw [after] at starts
      cases starts
  | .digits _,.other c :: more => rfl
  | .digits _,.dash :: more =>
    have apart : ¬ StartsWithDigits more := by
      intro starts
      match more with
      | .digits _ :: _ => cases pair
    have skip : expandFirst (.dash :: more) = .dash :: expandFirst more := expandFirst_skip rfl
    rw [skip]
    have apart' := mt (startsWithDigits_expandFirst more).mp apart
    match after : expandFirst more with
    | .digits _ :: _ =>
      rw [after] at apart'
      exact absurd trivial apart'
    | [] | .dash :: _ | .other _ :: _ => rfl

/-- A turn leaves the pairs that follow the first. -/
theorem pairs_expandFirst {tokens : List Token} {more : List (List Char × List Char)} (first : pairs tokens = (init,end_) :: more) :
    pairs (expandFirst tokens) = more := by
  induction tokens using tokens_induction with
  | nil =>
    rw [pairs_nil] at first
    cases first
  | pair init' end' after ih =>
    rw [pairs_found] at first
    cases first
    rw [expandFirst_found,pairs_written]
  | skip token rest none_ ih =>
    rw [pairs_skip none_] at first
    rw [expandFirst_skip none_,pairs_skip (headPair_expandFirst none_),ih first]

/-! ### convertRange -/

theorem grows_rangeTurn [Engine] : Grows rangeTurn := by
  intro fuel expression result taken
  unfold rangeTurn at taken ⊢
  cases found : rangeRegEx expression with
  | none =>
    rw [found] at taken
    exact taken
  | some range =>
    obtain ⟨init,end_⟩ := range
    rw [found] at taken
    dsimp only at taken ⊢
    rw [Option.map_eq_some_iff] at taken ⊢
    obtain ⟨replaced,counted,same⟩ := taken
    refine ⟨replaced,?_,same⟩
    unfold replaceWithRange at counted ⊢
    dsimp only at counted ⊢
    rw [Option.map_eq_some_iff] at counted ⊢
    obtain ⟨numbers,counted,text⟩ := counted
    refine ⟨numbers,?_,text⟩
    split_ifs at counted ⊢
    · exact grows_countUp _ _ _ _ counted
    · exact grows_countUp _ _ _ _ counted

theorem rangeTurn_done [Engine] {tokens : List Token} (parted : Parted tokens) (none_ : pairs tokens = []) (fuel : Nat) :
    rangeTurn fuel (render tokens) = some (.inl (.ok (render tokens))) := by
  unfold rangeTurn
  rw [rangeRegEx_render parted,none_]
  rfl

theorem rangeTurn_next [Engine] {tokens : List Token} (parted : Parted tokens) {more : List (List Char × List Char)}
    (first : pairs tokens = (init,end_) :: more) (countable : Countable init end_) :
    Ends rangeTurn (render tokens) (.inr (render (expandFirst tokens))) := by
  obtain ⟨initRun,endRun⟩ := pairs_digits parted first
  obtain ⟨fuel,replaced⟩ := replaceWithRange_ends initRun endRun countable (render tokens) (init ++ '-' :: end_)
  refine ⟨fuel,?_⟩
  dsimp only at replaced
  unfold rangeTurn
  rw [rangeRegEx_render parted,first]
  dsimp only [List.head?_cons]
  rw [replaced,replaceText_render parted first]
  rfl

theorem rangeTurn_throws [Engine] {tokens : List Token} (parted : Parted tokens) {more : List (List Char × List Char)}
    (first : pairs tokens = (init,end_) :: more) (uncountable : ¬ Countable init end_) :
    Ends rangeTurn (render tokens) (.inl (.error .rangeError)) := by
  obtain ⟨initRun,endRun⟩ := pairs_digits parted first
  obtain ⟨fuel,full⟩ := replaceWithRange_throws initRun endRun uncountable (render tokens) (init ++ '-' :: end_)
  refine ⟨fuel,?_⟩
  dsimp only at full
  unfold rangeTurn
  rw [rangeRegEx_render parted,first]
  dsimp only [List.head?_cons]
  rw [full]
  rfl

/-- All pairs are written out, from the first on. -/
def spelled : List Token → List Token
  | [] => []
  | token :: rest =>
    match _pair : headPair (token :: rest) with
    | some (init,end_,more) => written (lowEnd init end_) (highEnd init end_) ++ spelled (.digits (natToString (highEnd init end_)) :: more)
    | none => token :: spelled rest
termination_by tokens => tokens.length
decreasing_by
  · obtain ⟨-,rest_⟩ := headPair_eq _pair
    rw [rest_]
    simp only [List.length_cons]
    omega
  · exact Nat.lt_succ_self _

theorem spelled_found (init end_ : List Char) (rest : List Token) : spelled (.digits init :: .dash :: .digits end_ :: rest) =
    written (lowEnd init end_) (highEnd init end_) ++ spelled (.digits (natToString (highEnd init end_)) :: rest) := by
  rw [spelled]
  rfl

theorem spelled_skip {token : Token} {rest : List Token} (none_ : headPair (token :: rest) = none) :
    spelled (token :: rest) = token :: spelled rest := by
  rw [spelled]
  split
  · rename_i found
    rw [none_] at found
    cases found
  · rfl

theorem spelled_written (low high : Nat) (rest : List Token) : spelled (written low high ++ rest) = written low high ++ spelled rest := by
  unfold written
  induction List.range' low (high - low) with
  | nil => rfl
  | cons n others ih =>
    rw [List.flatMap_cons,List.append_assoc,List.cons_append,List.singleton_append,spelled_skip (by rfl),spelled_skip (by rfl),ih]
    rfl

theorem spelled_expandFirst (tokens : List Token) : spelled (expandFirst tokens) = spelled tokens := by
  induction tokens using tokens_induction with
  | nil => rfl
  | pair init end_ rest _ => rw [expandFirst_found,spelled_written,spelled_found]
  | skip token rest none_ ih => rw [expandFirst_skip none_,spelled_skip (headPair_expandFirst none_),spelled_skip none_,ih]

theorem spelled_done {tokens : List Token} (none_ : pairs tokens = []) : spelled tokens = tokens := by
  induction tokens using tokens_induction with
  | nil => rw [spelled]
  | pair init end_ rest _ =>
    rw [pairs_found] at none_
    cases none_
  | skip token rest alone ih =>
    rw [pairs_skip alone] at none_
    rw [spelled_skip alone,ih none_]

/-- The loop writes out one pair after another if they can be counted. -/
theorem convertRange_ends [Engine] {tokens : List Token} (parted : Parted tokens) (countable : ∀ pair ∈ pairs tokens,Countable pair.1 pair.2) :
    Ends convertRange (render tokens) (.ok (render (spelled tokens))) := by
  induction found : pairs tokens generalizing tokens with
  | nil =>
    rw [spelled_done found]
    exact ends_done ⟨0,rangeTurn_done parted found 0⟩
  | cons pair more ih =>
    rw [found,List.forall_mem_cons] at countable
    have next := pairs_expandFirst found
    have rest := ih (parted_expandFirst parted found countable.1) (by rw [next]; exact countable.2) next
    rw [spelled_expandFirst] at rest
    exact ends_next grows_rangeTurn (rangeTurn_next parted found countable.1) rest

/-- The loop throws at the first pair that cannot be counted. -/
theorem convertRange_throws [Engine] {tokens : List Token} (parted : Parted tokens)
    (uncountable : ¬ ∀ pair ∈ pairs tokens,Countable pair.1 pair.2) : Ends convertRange (render tokens) (.error .rangeError) := by
  induction found : pairs tokens generalizing tokens with
  | nil =>
    rw [found] at uncountable
    exact absurd (fun pair listed => nomatch listed) uncountable
  | cons pair more ih =>
    by_cases here : Countable pair.1 pair.2
    · have next := pairs_expandFirst found
      rw [found,List.forall_mem_cons] at uncountable
      have rest := ih (parted_expandFirst parted found here) (by rw [next]; exact fun all => uncountable ⟨here,all⟩) next
      exact ends_next grows_rangeTurn (rangeTurn_next parted found here) rest
    · exact ends_done (rangeTurn_throws parted found here)

/-! ### convertExpression -/

/-- What `convertRange` makes of a field. -/
def spelledOut (expression : List Char) : List Char := render (spelled (tokenize expression))

section
variable [Engine]

/-- All pairs of a field can be counted. -/
def CountableField (expression : List Char) : Prop := ∀ pair ∈ pairs (tokenize expression),Countable pair.1 pair.2

/-- When the names and asterisks are replaced, all pairs of all fields can be counted. Where there are no fields there is nothing to count. -/
def CountableFields (crontab : List Char) : Prop :=
  ∀ expressions,convertedFields crontab = .ok expressions → ∀ expression ∈ expressions,CountableField expression

theorem grows_convertRange : Grows convertRange := loop_grows grows_rangeTurn

theorem grows_convertAllRanges : Grows convertAllRanges := by
  intro fuel expressions result ended
  unfold convertAllRanges at ended ⊢
  rw [Option.map_eq_some_iff] at ended ⊢
  obtain ⟨results,counted,same⟩ := ended
  exact ⟨results,grows_mapM grows_convertRange fuel expressions results counted,same⟩

theorem grows_convertExpression : Grows convertExpression := by
  intro fuel crontab result ended
  unfold convertExpression at ended ⊢
  cases converted : convertedFields crontab with
  | error thrown =>
    rw [converted] at ended
    exact ended
  | ok expressions =>
    rw [converted] at ended
    dsimp only at ended ⊢
    rw [Option.map_eq_some_iff] at ended ⊢
    obtain ⟨results,counted,same⟩ := ended
    exact ⟨results,grows_convertAllRanges fuel expressions results counted,same⟩

theorem grows_validateCrontab : Grows validateCrontab := by
  intro fuel pattern result ended
  unfold validateCrontab at ended ⊢
  rw [Option.map_eq_some_iff] at ended ⊢
  obtain ⟨converted,ended,same⟩ := ended
  exact ⟨converted,grows_convertExpression fuel pattern converted ended,same⟩

theorem convertField_ends {expression : List Char} (countable : CountableField expression) :
    Ends convertRange expression (.ok (spelledOut expression)) := by
  have ended := convertRange_ends (parted_tokenize expression) countable
  rwa [render_tokenize] at ended

theorem convertField_throws {expression : List Char} (uncountable : ¬ CountableField expression) :
    Ends convertRange expression (.error .rangeError) := by
  have ended := convertRange_throws (parted_tokenize expression) uncountable
  rwa [render_tokenize] at ended

theorem convertField_result (expression : List Char) : ∃ result,Ends convertRange expression result := by
  by_cases countable : CountableField expression
  · exact ⟨_,convertField_ends countable⟩
  · exact ⟨_,convertField_throws countable⟩

theorem convertAllRanges_ends {expressions : List (List Char)} (countable : ∀ expression ∈ expressions,CountableField expression) :
    Ends convertAllRanges expressions (.ok (expressions.map spelledOut)) := by
  obtain ⟨fuel,results,ended,each⟩ := mapM_ends grows_convertRange (Q := fun expression result => result = .ok (spelledOut expression)) expressions
    fun expression listed => ⟨_,convertField_ends (countable expression listed),rfl⟩
  refine ⟨fuel,?_⟩
  unfold convertAllRanges
  rw [ended,Option.map_some]
  refine congrArg some ?_
  clear ended countable
  induction each with
  | nil => rfl
  | cons same _ ih =>
    rw [List.mapM_cons,ih,same]
    rfl

/-- One field whose ranges cannot be counted is enough. -/
theorem convertAllRanges_throws {expressions : List (List Char)} (uncountable : ¬ ∀ expression ∈ expressions,CountableField expression) :
    Ends convertAllRanges expressions (.error .rangeError) := by
  obtain ⟨fuel,results,ended,each⟩ := mapM_ends grows_convertRange
    (Q := fun expression result => (CountableField expression ∧ result = .ok (spelledOut expression)) ∨
      (¬ CountableField expression ∧ result = .error .rangeError)) expressions fun expression _ => by
        by_cases countable : CountableField expression
        · exact ⟨_,convertField_ends countable,.inl ⟨countable,rfl⟩⟩
        · exact ⟨_,convertField_throws countable,.inr ⟨countable,rfl⟩⟩
  refine ⟨fuel,?_⟩
  unfold convertAllRanges
  rw [ended,Option.map_some]
  refine congrArg some ?_
  clear ended
  induction each with
  | nil => exact absurd (fun expression listed => nomatch listed) uncountable
  | cons here _ ih =>
    rw [List.mapM_cons]
    rcases here with ⟨countable,rfl⟩ | ⟨-,rfl⟩
    · rw [List.forall_mem_cons] at uncountable
      rw [ih fun all => uncountable ⟨countable,all⟩]
      rfl
    · rfl

/-- Where all pairs can be counted, the conversion ends with what the rest of it makes of the fields. -/
theorem convertExpression_ends {crontab : List Char} {expressions : List (List Char)} (converted : convertedFields crontab = .ok expressions)
    (countable : ∀ expression ∈ expressions,CountableField expression) :
    Ends convertExpression crontab (finishExpressions (expressions.map spelledOut)) := by
  obtain ⟨fuel,ended⟩ := convertAllRanges_ends countable
  refine ⟨fuel,?_⟩
  unfold convertExpression
  rw [converted]
  dsimp only
  rw [ended]
  rfl

theorem convertExpression_error {crontab : List Char} {thrown : Thrown} (converted : convertedFields crontab = .error thrown) :
    Ends convertExpression crontab (.error thrown) := by
  refine ⟨0,?_⟩
  unfold convertExpression
  rw [converted]

/-- Where a pair cannot be counted, the conversion throws. -/
theorem convertExpression_throws {crontab : List Char} (uncountable : ¬ CountableFields crontab) :
    Ends convertExpression crontab (.error .rangeError) := by
  unfold CountableFields at uncountable
  push Not at uncountable
  obtain ⟨expressions,converted,expression,listed,uncounted⟩ := uncountable
  obtain ⟨fuel,ended⟩ := convertAllRanges_throws fun all => uncounted (all expression listed)
  refine ⟨fuel,?_⟩
  unfold convertExpression
  rw [converted]
  dsimp only
  rw [ended]
  rfl

theorem convertExpression_result (crontab : List Char) : ∃ result,Ends convertExpression crontab result := by
  by_cases countable : CountableFields crontab
  · cases converted : convertedFields crontab with
    | error thrown => exact ⟨_,convertExpression_error converted⟩
    | ok expressions => exact ⟨_,convertExpression_ends converted (countable expressions converted)⟩
  · exact ⟨_,convertExpression_throws countable⟩

/-- The conversion, the validation and the constructor end with a result or an error for every text, and so does each of the two loops: the
    outer one has one pair less from turn to turn, and the inner one has one number more in its array. -/
theorem conversion_terminates (crontab : List Char) :
    (∃ result,Ends convertExpression crontab result) ∧ (∃ result,Ends validateCrontab crontab result) ∧
      (∀ calendar,∃ result,Ends (newTimeMatcher calendar) crontab result) ∧ (∃ result,Ends convertRange crontab result) ∧
      ∀ text init end_,∃ result,Ends (fun fuel expression => replaceWithRange fuel expression text init end_) crontab result := by
  obtain ⟨result,fuel,ended⟩ := convertExpression_result crontab
  refine ⟨⟨result,fuel,ended⟩,⟨_,fuel,congrArg (Option.map _) ended⟩,fun calendar => ?_,convertField_result crontab,
    replaceWithRange_result crontab⟩
  obtain ⟨matcher,built⟩ : ∃ matcher,newTimeMatcher calendar fuel crontab = some matcher := by
    unfold newTimeMatcher validateCrontab
    rw [ended]
    exact ⟨_,rfl⟩
  exact ⟨matcher,fuel,built⟩

end

end Dbos.Crontab
