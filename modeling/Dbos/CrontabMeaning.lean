import Dbos.CrontabFields

/-!
What the fields of a crontab mean. A field is a list of numbers, names, ranges and asterisks, and may end with a step. The names are
replaced word by word, so that a field with names is converted like one with their numbers.
-/
namespace Dbos.Crontab
open Dbos.Pg Dbos.Js

/-! ### Fields -/

/-- A number in digits, or a name in letters of any case. -/
inductive Term
  | number (digits : List Char)
  | name (letters : List Char)

inductive Item
  | term (t : Term)
  | range (first last : Term)
  | asterisk

/-- A comma list, and the digits of the step after it. -/
structure Field where
  items : List Item
  step : Option (List Char)

def Term.text : Term → List Char
  | number digits => digits
  | name letters => letters

def Item.text : Item → List Char
  | term t => t.text
  | range first last => first.text ++ '-' :: last.text
  | asterisk => ['*']

def Field.text (f : Field) : List Char := join ',' (f.items.map Item.text) ++ stepText f.step

/-- The names that are known in the fields for months and for days of the week, with their numbers. -/
def fieldNames (i : Nat) : List (List Char × Nat) :=
  if i = 4 then months.zipIdx 1 ++ shortMonths.zipIdx 1 else if i = 5 then weekDays.zipIdx ++ shortWeekDays.zipIdx else []

def Term.Reads (i n : Nat) : Term → Prop
  | number digits => Digits digits ∧ decimal digits = n
  | name letters => (lower letters,n) ∈ fieldNames i

instance (i n : Nat) : (t : Term) → Decidable (t.Reads i n)
  | .number digits => inferInstanceAs (Decidable ((digits ≠ [] ∧ ∀ c ∈ digits,c.isDigit = true) ∧ decimal digits = n))
  | .name letters => inferInstanceAs (Decidable ((lower letters,n) ∈ fieldNames i))

/-! ### Names -/

/-- What stands between the words of a field, or in its numbers. -/
def isSeparator (c : Char) : Bool := c.isDigit || c ∈ [',','-','/','*']

theorem digit_separator {c : Char} (digit : c.isDigit = true) : isSeparator c = true := by simp [isSeparator,digit]

theorem separator_cases {c : Char} (separator : isSeparator c = true) : c.isDigit = true ∨ c ∈ [',','-','/','*'] := by
  unfold isSeparator at separator
  rwa [Bool.or_eq_true,decide_eq_true_eq] at separator

theorem separator_toLower {c : Char} (separator : isSeparator c = true) : c.toLower = c := by
  rcases separator_cases separator with digit | other
  · exact digit_toLower digit
  · have each : ∀ d ∈ [',','-','/','*'],d.toLower = d := by decide
    exact each c other

/-- A rewriting of the words between separators, in letters of any case. -/
structure Wordwise (f : List Char → List Char) : Prop where
  nil : f [] = []
  append : ∀ c,isSeparator c = true → ∀ x y,f (x ++ c :: y) = f x ++ c :: f y
  lower : ∀ x,lower (f x) = f (lower x)

variable {f g : List Char → List Char} {i n : Nat}

theorem wordwise_id : Wordwise id := ⟨rfl,fun _ _ _ _ => rfl,fun _ => rfl⟩

theorem Wordwise.comp (outer : Wordwise g) (inner : Wordwise f) : Wordwise fun x => g (f x) where
  nil := (congrArg g inner.nil).trans outer.nil
  append c separator x y := (congrArg g (inner.append c separator x y)).trans (outer.append c separator _ _)
  lower x := (outer.lower (f x)).trans (congrArg g (inner.lower x))

theorem wordwise_replaceAllI {name : List Char} (some_ : name ≠ []) (letters : ∀ c ∈ name,isSeparator c = false) (n : Nat) :
    Wordwise (replaceAllI name (Nat.toDigits 10 n) 0) where
  nil := by simp [replaceAllI]
  append c separator x y := by
    refine replaceAllI_append some_ (fun listed => ?_) x y (Nat.zero_le _)
    rw [separator_toLower separator] at listed
    rw [letters c listed] at separator
    cases separator
  lower x := lower_replaceAllI (lower_digits (digits_toDigits n).2) 0 x

theorem wordwise_convertNames {items : List (List Char)} (words : ∀ item ∈ items,item ≠ [] ∧ ∀ c ∈ item,isSeparator c = false) (first : Nat) :
    Wordwise fun expression => convertNames expression items first := by
  suffices from_ : ∀ start,Wordwise fun expression =>
      (items.zipIdx start).foldl (fun expression item => replaceAllI item.1 (Nat.toDigits 10 (first + item.2)) 0 expression) expression from from_ 0
  intro start
  induction items generalizing start with
  | nil => exact wordwise_id
  | cons item rest ih =>
    obtain ⟨some_,letters⟩ := words item List.mem_cons_self
    have here := wordwise_replaceAllI some_ letters (first + start)
    exact (ih (fun other listed => words other (List.mem_cons_of_mem _ listed)) (start + 1)).comp here

theorem wordwise_named (i : Nat) : Wordwise (named i) := by
  unfold named
  split_ifs
  · exact (wordwise_convertNames (by decide) 1).comp (wordwise_convertNames (by decide) 1)
  · exact (wordwise_convertNames (by decide) 0).comp (wordwise_convertNames (by decide) 0)
  · exact wordwise_id

theorem Wordwise.digits (words : Wordwise f) {text : List Char} (digits : ∀ c ∈ text,c.isDigit = true) : f text = text := by
  induction text with
  | nil => exact words.nil
  | cons c rest ih =>
    have here := words.append c (digit_separator (digits c List.mem_cons_self)) [] rest
    rw [List.nil_append,words.nil,List.nil_append] at here
    rw [here,ih fun d listed => digits d (List.mem_cons_of_mem _ listed)]

/-- Every name is replaced by its own number. -/
theorem named_names : ∀ entry ∈ fieldNames i,named i entry.1 = Nat.toDigits 10 entry.2 := by
  unfold fieldNames named
  split_ifs
  · decide +kernel
  · decide +kernel
  · intro entry listed
    cases listed

theorem named_term {t : Term} (reads : t.Reads i n) : Digits (named i t.text) ∧ decimal (named i t.text) = n := by
  cases t with
  | number digits =>
    obtain ⟨run,value⟩ := reads
    have same : named i digits = digits := (wordwise_named i).digits run.2
    exact same.symm ▸ ⟨run,value⟩
  | name letters =>
    have number : named i (lower letters) = Nat.toDigits 10 n := named_names (lower letters,n) reads
    have small : lower (named i letters) = Nat.toDigits 10 n := ((wordwise_named i).lower letters).trans number
    have same : named i letters = Nat.toDigits 10 n := eq_of_lower_digits small (digits_toDigits n).2
    exact same.symm ▸ ⟨digits_toDigits n,decimal_toDigits n⟩

/-! ### Plain items -/

def Item.plain (i : Nat) : Item → Plain
  | term t => .number (named i t.text)
  | range first last => .range (named i first.text) (named i last.text)
  | asterisk => .asterisk

theorem named_item (item : Item) : named i item.text = (item.plain i).text := by
  cases item with
  | term t => rfl
  | range first last => exact (wordwise_named i).append '-' (by decide) _ _
  | asterisk =>
    have words := wordwise_named i
    have here := words.append '*' (by decide) [] []
    rw [words.nil] at here
    exact here

theorem named_join (texts : List (List Char)) : named i (join ',' texts) = join ',' (texts.map (named i)) := by
  induction texts using joined_induction with
  | nil => exact (wordwise_named i).nil
  | single text => rw [List.map_singleton,join_singleton,join_singleton]
  | cons text rest more ih =>
    have some_ : rest.map (named i) ≠ [] := mt List.map_eq_nil_iff.mp more
    rw [join_cons ',' text more,(wordwise_named i).append ',' (by decide),ih,List.map_cons,join_cons ',' _ some_]

variable {f : Field} {item : Item}

/-- What is left of a field with names. -/
theorem named_field (run : ∀ digits ∈ f.step,Digits digits) : named i f.text = plainText (f.items.map (Item.plain i)) f.step := by
  have list : named i (join ',' (f.items.map Item.text)) = join ',' ((f.items.map (Item.plain i)).map Plain.text) := by
    rw [named_join,List.map_map,List.map_map]
    exact congrArg (join ',') (List.map_congr_left fun item _ => named_item item)
  unfold Field.text plainText
  cases step : f.step with
  | none =>
    rw [stepText,Option.elim_none,List.append_nil,List.append_nil]
    exact list
  | some digits =>
    have same := (wordwise_named i).digits (run digits step).2
    change named i (_ ++ '/' :: digits) = _
    rw [(wordwise_named i).append '/' (by decide),list,same]
    rfl

/-! ### Asterisks -/

/-- The first asterisk becomes a range. -/
def replaceAsterisk (range : Plain) : List Plain → List Plain
  | [] => []
  | .asterisk :: rest => range :: rest
  | p :: rest => p :: replaceAsterisk range rest

def wholeRange (i : Nat) : Plain := .range (Nat.toDigits 10 (limits i).low) (Nat.toDigits 10 (limits i).top)

theorem asteriskRanges_get (small : i < 6) : asteriskRanges[i]? = some (wholeRange i).text := by
  revert i
  decide

theorem replaceFirst_append {c : Char} {x : List Char} (apart : c ∉ x) (replacement y : List Char) :
    replaceFirst c replacement (x ++ y) = x ++ replaceFirst c replacement y := by
  induction x with
  | nil => rfl
  | cons d x ih =>
    rw [List.mem_cons,not_or] at apart
    rw [List.cons_append,replaceFirst,if_neg (Ne.symm apart.1),ih apart.2,List.cons_append]

theorem replaceFirst_apart {c : Char} {x : List Char} (apart : c ∉ x) (replacement : List Char) : replaceFirst c replacement x = x := by
  have whole := replaceFirst_append apart replacement []
  rwa [List.append_nil,replaceFirst,List.append_nil] at whole

theorem convertAsterisk_eq (expression replacement : List Char) :
    convertAsterisk expression replacement = replaceFirst '*' replacement expression := by
  unfold convertAsterisk
  split_ifs with star
  · rfl
  · exact (replaceFirst_apart star replacement).symm

theorem plain_apart {p : Plain} (proper : p.Proper) (other : p ≠ .asterisk) : '*' ∉ p.text := by
  have digits : ∀ {text : List Char},Digits text → '*' ∉ text := fun run listed => by cases run.2 '*' listed
  cases p with
  | number text => exact digits proper.1
  | range first last =>
    rw [Plain.text,List.mem_append,List.mem_cons,not_or,not_or]
    exact ⟨digits proper.1.1,by decide,digits proper.2.1⟩
  | asterisk => exact absurd rfl other

theorem replaceAsterisk_cons {p : Plain} (range : Plain) (ps : List Plain) (other : p ≠ .asterisk) :
    replaceAsterisk range (p :: ps) = p :: replaceAsterisk range ps := by
  cases p with
  | asterisk => exact absurd rfl other
  | number digits => rfl
  | range first last => rfl

theorem replaceAsterisk_ne_nil {range : Plain} {ps : List Plain} (some_ : ps ≠ []) : replaceAsterisk range ps ≠ [] := by
  obtain ⟨p,rest,rfl⟩ := List.exists_cons_of_ne_nil some_
  cases p <;> exact List.cons_ne_nil _ _

theorem replaceFirst_plain {ps : List Plain} (proper : ∀ p ∈ ps,p.Proper) (range : Plain) {rest : List Char} (apart : '*' ∉ rest) :
    replaceFirst '*' range.text (join ',' (ps.map Plain.text) ++ rest) = join ',' ((replaceAsterisk range ps).map Plain.text) ++ rest := by
  induction ps with
  | nil => exact replaceFirst_apart apart _
  | cons p more ih =>
    have later := ih fun q listed => proper q (List.mem_cons_of_mem _ listed)
    by_cases star : p = .asterisk
    · have first : ∀ y,replaceFirst '*' range.text ('*' :: y) = range.text ++ y := fun y => by rw [replaceFirst,if_pos rfl]
      rw [star,replaceAsterisk,List.map_cons,List.map_cons]
      by_cases last : more = []
      · rw [last,List.map_nil,join_singleton,join_singleton]
        exact first rest
      · have some_ : more.map Plain.text ≠ [] := mt List.map_eq_nil_iff.mp last
        rw [join_cons ',' _ some_,join_cons ',' _ some_,List.append_assoc,List.append_assoc]
        exact first _
    · have here := plain_apart (proper p List.mem_cons_self) star
      rw [replaceAsterisk_cons range more star,List.map_cons,List.map_cons]
      by_cases last : more = []
      · rw [last,replaceAsterisk,List.map_nil,join_singleton,replaceFirst_append here,replaceFirst_apart apart]
      · have some_ : more.map Plain.text ≠ [] := mt List.map_eq_nil_iff.mp last
        have some' : (replaceAsterisk range more).map Plain.text ≠ [] := mt List.map_eq_nil_iff.mp (replaceAsterisk_ne_nil last)
        have comma : ∀ y,replaceFirst '*' range.text (',' :: y) = ',' :: replaceFirst '*' range.text y := fun y => by
          rw [replaceFirst,if_neg (by decide)]
        rw [join_cons ',' _ some_,join_cons ',' _ some',List.append_assoc,List.cons_append,replaceFirst_append here,comma,later,
          List.append_assoc,List.cons_append]

theorem starred_plain (small : i < 6) {ps : List Plain} (proper : ∀ p ∈ ps,p.Proper) {step : Option (List Char)}
    (run : ∀ digits ∈ step,Digits digits) : starred i (plainText ps step) = plainText (replaceAsterisk (wholeRange i) ps) step := by
  have apart : '*' ∉ stepText step := by
    intro listed
    cases step with
    | none => cases listed
    | some digits =>
      rcases List.mem_cons.mp listed with slash | listed
      · cases slash
      · cases (run digits rfl).2 '*' listed
  unfold starred
  rw [asteriskRanges_get small,Option.elim_some,convertAsterisk_eq]
  exact replaceFirst_plain proper (wholeRange i) apart

/-! ### Values -/

/-- The values that the conversion reads in an item. The ends of a range may stand in either order. -/
def Item.Reads (i v : Nat) : Item → Prop
  | term t => t.Reads i v
  | range first last => ∃ a b,first.Reads i a ∧ last.Reads i b ∧ min a b ≤ v ∧ v ≤ max a b
  | asterisk => (limits i).low ≤ v ∧ v ≤ (limits i).top

/-- All terms are numbers that the field can have. -/
def Item.Readable (i : Nat) : Item → Prop
  | term t => ∃ a,t.Reads i a ∧ a ≤ (limits i).high
  | range first last => ∃ a b,first.Reads i a ∧ last.Reads i b ∧ a ≤ (limits i).high ∧ b ≤ (limits i).high
  | asterisk => True

structure Field.Readable (i : Nat) (f : Field) : Prop where
  some_ : f.items ≠ []
  items : ∀ item ∈ f.items,item.Readable i
  step : ∀ digits ∈ f.step,Digits digits

/-- The values of the items that are multiples of the step. -/
def Field.Reads (i v : Nat) (f : Field) : Prop := (∃ item ∈ f.items,item.Reads i v) ∧ ∀ digits ∈ f.step,decimal digits ≠ 0 ∧ decimal digits ∣ v

def fieldNums (i : Nat) (f : Field) : List Number := plainNums (replaceAsterisk (wholeRange i) (f.items.map (Item.plain i))) f.step

theorem fieldNums_ne_nil (i : Nat) (f : Field) : fieldNums i f ≠ [] := orNaN_ne_nil _

variable {v : Nat}

theorem term_unique {t : Term} {a b : Nat} (first : t.Reads i a) (second : t.Reads i b) : a = b :=
  (named_term first).2.symm.trans (named_term second).2

theorem proper_plain (readable : item.Readable i) : (item.plain i).Proper := by
  have small := limits_small i
  cases item with
  | term t =>
    obtain ⟨a,reads,high⟩ := readable
    obtain ⟨run,value⟩ := named_term reads
    exact ⟨run,by omega⟩
  | range first last =>
    obtain ⟨a,b,readsFirst,readsLast,firstHigh,lastHigh⟩ := readable
    obtain ⟨firstRun,firstValue⟩ := named_term readsFirst
    obtain ⟨lastRun,lastValue⟩ := named_term readsLast
    exact ⟨⟨firstRun,by omega⟩,lastRun,by omega⟩
  | asterisk => trivial

theorem proper_wholeRange (i : Nat) : (wholeRange i).Proper := by
  have small := limits_small i
  refine ⟨⟨digits_toDigits _,?_⟩,digits_toDigits _,?_⟩
  · rw [decimal_toDigits]
    omega
  · rw [decimal_toDigits]
    omega

theorem mem_range_nums {first last : List Char} : Number.finite v ∈ (Plain.range first last).nums ↔
    min (decimal first) (decimal last) ≤ v ∧ v ≤ max (decimal first) (decimal last) := by
  unfold Plain.nums
  dsimp only
  rw [List.mem_map]
  constructor
  · rintro ⟨n,within,same⟩
    cases same
    rw [List.mem_range'_1] at within
    omega
  · rintro ⟨low,high⟩
    exact ⟨v,List.mem_range'_1.mpr (by omega),rfl⟩

/-- An item has the numbers that it reads as. An asterisk has them when it is replaced. -/
theorem mem_plain_nums (readable : item.Readable i) : Number.finite v ∈ (item.plain i).nums ↔ item ≠ .asterisk ∧ item.Reads i v := by
  cases item with
  | term t =>
    obtain ⟨a,reads,-⟩ := readable
    have value := (named_term reads).2
    change Number.finite v ∈ [Number.finite (decimal (named i t.text))] ↔ _
    rw [List.mem_singleton,value]
    constructor
    · intro same
      cases same
      exact ⟨Item.noConfusion,reads⟩
    · rintro ⟨-,reads'⟩
      rw [term_unique reads reads']
  | range first last =>
    obtain ⟨a,b,readsFirst,readsLast,-⟩ := readable
    refine mem_range_nums.trans ?_
    rw [(named_term readsFirst).2,(named_term readsLast).2]
    constructor
    · exact fun within => ⟨Item.noConfusion,a,b,readsFirst,readsLast,within⟩
    · rintro ⟨-,a',b',readsFirst',readsLast',within⟩
      rwa [term_unique readsFirst readsFirst',term_unique readsLast readsLast']
  | asterisk =>
    refine iff_of_false (fun listed => ?_) fun both => both.1 rfl
    cases List.mem_singleton.mp listed

theorem mem_wholeRange : Number.finite v ∈ (wholeRange i).nums ↔ (limits i).low ≤ v ∧ v ≤ (limits i).top := by
  have small := limits_small i
  unfold wholeRange
  rw [mem_range_nums,decimal_toDigits,decimal_toDigits,Nat.min_eq_left small.1,Nat.max_eq_right small.1]

theorem mem_replaceAsterisk (range : Plain) (ps : List Plain) : Number.finite v ∈ (replaceAsterisk range ps).flatMap Plain.nums ↔
    (∃ p ∈ ps,Number.finite v ∈ p.nums) ∨ (.asterisk ∈ ps ∧ Number.finite v ∈ range.nums) := by
  induction ps with
  | nil => simp [replaceAsterisk]
  | cons p rest ih =>
    by_cases star : p = .asterisk
    · have none_ : Number.finite v ∉ Plain.asterisk.nums := fun listed => by cases List.mem_singleton.mp listed
      rw [star,replaceAsterisk,List.flatMap_cons,List.mem_append,List.mem_flatMap]
      simp [none_,or_comm]
    · rw [replaceAsterisk_cons range rest star,List.flatMap_cons,List.mem_append,ih]
      simp [Ne.symm star,or_assoc]

theorem mem_fieldItems (readable : f.Readable i) :
    Number.finite v ∈ (replaceAsterisk (wholeRange i) (f.items.map (Item.plain i))).flatMap Plain.nums ↔ ∃ item ∈ f.items,item.Reads i v := by
  rw [mem_replaceAsterisk,mem_wholeRange]
  constructor
  · rintro (⟨p,listed,number⟩ | ⟨listed,within⟩)
    · obtain ⟨item,inList,rfl⟩ := List.mem_map.mp listed
      exact ⟨item,inList,((mem_plain_nums (readable.items item inList)).mp number).2⟩
    · obtain ⟨item,inList,same⟩ := List.mem_map.mp listed
      cases item with
      | term t => cases same
      | range first last => cases same
      | asterisk => exact ⟨.asterisk,inList,within⟩
  · rintro ⟨item,inList,reads⟩
    by_cases star : item = .asterisk
    · subst star
      exact .inr ⟨List.mem_map.mpr ⟨_,inList,rfl⟩,reads⟩
    · exact .inl ⟨item.plain i,List.mem_map_of_mem inList,(mem_plain_nums (readable.items item inList)).mpr ⟨star,reads⟩⟩

theorem isMultiple_step {digits : List Char} (run : Digits digits) (small : v < 2 ^ 53) :
    (Number.finite v).isMultiple (parseInt digits (some 10)) = true ↔ decimal digits ≠ 0 ∧ decimal digits ∣ v := by
  have large : ∀ n : Nat,2 ^ 53 ≤ n → (n ∣ v ↔ v = 0) := by
    intro n above
    exact ⟨fun divides => Nat.eq_zero_of_dvd_of_lt divides (by omega),fun zero => zero ▸ Nat.dvd_zero n⟩
  rw [parseInt_digits run]
  by_cases below : decimal digits < 2 ^ 53
  · rw [ofNat_small (Nat.le_of_lt below)]
    simp [Number.isMultiple,Nat.dvd_iff_mod_eq_zero]
    omega
  · have nonzero : decimal digits ≠ 0 := by omega
    rw [large (decimal digits) (by omega)]
    cases rounded : roundDouble (decimal digits) with
    | none =>
      have infinite : Number.ofNat false (decimal digits) = .infinite false := by
        unfold Number.ofNat
        rw [rounded]
      rw [infinite]
      simp [Number.isMultiple,nonzero]
    | some m =>
      have above := roundDouble_large (n := decimal digits) (by omega) rounded
      rw [ofNat_round rounded,← large m above]
      simp [Number.isMultiple,Nat.dvd_iff_mod_eq_zero]
      omega

theorem mem_orNaN {nums : List Number} : Number.finite v ∈ orNaN nums ↔ Number.finite v ∈ nums := by
  unfold orNaN
  split_ifs with empty
  · simp [empty]
  · rfl

theorem reads_small (readable : f.Readable i) (reads : ∃ item ∈ f.items,item.Reads i v) : v ≤ 59 := by
  have small := limits_small i
  obtain ⟨item,listed,reads⟩ := reads
  have readable := readable.items item listed
  cases item with
  | term t =>
    obtain ⟨a,readsA,high⟩ := readable
    rw [← term_unique readsA reads]
    omega
  | range first last =>
    obtain ⟨a,b,readsA,readsB,highA,highB⟩ := readable
    obtain ⟨a',b',readsA',readsB',within⟩ := reads
    rw [← term_unique readsA readsA',← term_unique readsB readsB'] at within
    omega
  | asterisk =>
    obtain ⟨-,high⟩ := reads
    omega

/-- The list that a field becomes has the values that the field reads as. -/
theorem mem_fieldNums (readable : f.Readable i) : Number.finite v ∈ fieldNums i f ↔ f.Reads i v := by
  unfold fieldNums plainNums Field.Reads
  rw [mem_orNaN,← mem_fieldItems readable]
  cases step : f.step with
  | none => exact ⟨fun listed => ⟨listed,fun _ none_ => nomatch none_⟩,fun both => both.1⟩
  | some digits =>
    have run := readable.step digits step
    change Number.finite v ∈ List.filter _ _ ↔ _
    rw [List.mem_filter]
    refine and_congr_right fun listed => ?_
    have small := reads_small readable ((mem_fieldItems readable).mp listed)
    rw [isMultiple_step run (by omega)]
    simp

theorem proper_fieldItems (readable : f.Readable i) : ∀ p ∈ replaceAsterisk (wholeRange i) (f.items.map (Item.plain i)),p.Proper := by
  have all : ∀ p ∈ f.items.map (Item.plain i),p.Proper := by
    intro p listed
    obtain ⟨item,inList,rfl⟩ := List.mem_map.mp listed
    exact proper_plain (readable.items item inList)
  generalize f.items.map (Item.plain i) = ps at all
  induction ps with
  | nil => exact fun p listed => nomatch listed
  | cons p rest ih =>
    have later := ih fun q listed => all q (List.mem_cons_of_mem _ listed)
    intro q listed
    by_cases star : p = .asterisk
    · rw [star] at listed
      rcases List.mem_cons.mp listed with rfl | listed
      · exact proper_wholeRange i
      · exact all q (List.mem_cons_of_mem _ listed)
    · rw [replaceAsterisk_cons _ rest star] at listed
      rcases List.mem_cons.mp listed with rfl | listed
      · exact all q List.mem_cons_self
      · exact later q listed

/-- A field that can be read becomes the list of its values. -/
theorem outcome_field [Engine] (small : i < 6) (readable : f.Readable i) : CountableField (starred i (named i f.text)) ∧
    outcome i f.text = .ok (join ',' (entries i (fieldNums i f))) := by
  have proper : ∀ p ∈ f.items.map (Item.plain i),p.Proper := by
    intro p listed
    obtain ⟨item,inList,rfl⟩ := List.mem_map.mp listed
    exact proper_plain (readable.items item inList)
  have some_ : replaceAsterisk (wholeRange i) (f.items.map (Item.plain i)) ≠ [] :=
    replaceAsterisk_ne_nil (mt List.map_eq_nil_iff.mp readable.some_)
  have replaced := proper_fieldItems readable
  obtain ⟨countable,spelled_⟩ := plain_spelledOut some_ replaced readable.step
  have steps := plain_stepped some_ replaced readable.step
  unfold outcome
  rw [named_field readable.step,starred_plain small proper readable.step,spelled_]
  refine ⟨countable,?_⟩
  cases step : convertStep (join ',' ((replaceAsterisk (wholeRange i) (f.items.map (Item.plain i))).flatMap Plain.pieces) ++ stepText f.step) with
  | error thrown =>
    rw [step] at steps
    cases steps
  | ok expression =>
    rw [step] at steps
    change Except.ok (folded i (normalizeField expression)) = _
    have normalized : normalizeField expression = join ',' ((fieldNums i f).map Number.toString) := Except.ok.inj steps
    rw [normalized,folded_entries i (fieldNums_ne_nil i f)]

/-! ### Whole crontabs -/

/-- The fields one after another, with a space between them. -/
def crontabText (fields : List Field) : List Char := join ' ' (fields.map Field.text)

def secondZero : Field := ⟨[.term (.number ['0'])],none⟩

def sixFields (fields : List Field) : List Field := if fields.length = 5 then secondZero :: fields else fields

/-- The words that are names have letters, and no spaces. -/
theorem fieldNames_letters : ∀ entry ∈ fieldNames i,entry.1 ≠ [] ∧ ∀ c ∈ entry.1,isSpace c = false := by
  unfold fieldNames
  split_ifs
  · decide +kernel
  · decide +kernel
  · exact fun entry listed => nomatch listed

theorem term_ne_nil {t : Term} (reads : t.Reads i n) : t.text ≠ [] := by
  cases t with
  | number digits => exact reads.1.1
  | name letters =>
    obtain ⟨some_,-⟩ := fieldNames_letters _ reads
    rintro (rfl : letters = [])
    exact some_ rfl

theorem item_ne_nil (readable : item.Readable i) : item.text ≠ [] := by
  cases item with
  | term t =>
    obtain ⟨a,reads,-⟩ := readable
    exact term_ne_nil reads
  | range first last => simp [Item.text]
  | asterisk => exact List.cons_ne_nil _ _

theorem field_ne_nil (readable : f.Readable i) : f.text ≠ [] := by
  obtain ⟨first,rest,items⟩ := List.exists_cons_of_ne_nil readable.some_
  obtain ⟨c,text,begins⟩ := List.exists_cons_of_ne_nil (item_ne_nil (readable.items first (items ▸ List.mem_cons_self)))
  obtain ⟨after,whole⟩ := join_head ',' c text (rest.map Item.text)
  rw [Field.text,items,List.map_cons,begins,whole]
  exact List.cons_ne_nil _ _

section
variable {P : Char → Prop} (separators : ∀ c,isSeparator c = true → P c)
  (names : ∀ letters n,(Term.name letters).Reads i n → ∀ c ∈ letters,P c)
include separators names

theorem term_forall {t : Term} (reads : t.Reads i n) : ∀ c ∈ t.text,P c := by
  cases t with
  | number digits => exact fun c listed => separators c (digit_separator (reads.1.2 c listed))
  | name letters => exact names letters n reads

theorem item_forall (readable : item.Readable i) : ∀ c ∈ item.text,P c := by
  intro c listed
  cases item with
  | term t =>
    obtain ⟨a,reads,-⟩ := readable
    exact term_forall separators names reads c listed
  | range first last =>
    obtain ⟨a,b,readsA,readsB,-⟩ := readable
    rw [Item.text,List.mem_append,List.mem_cons] at listed
    rcases listed with listed | rfl | listed
    · exact term_forall separators names readsA c listed
    · exact separators '-' (by decide)
    · exact term_forall separators names readsB c listed
  | asterisk =>
    rw [List.mem_singleton.mp listed]
    exact separators '*' (by decide)

/-- What holds of separators and of the letters of names holds of all characters of a field. -/
theorem field_forall (readable : f.Readable i) : ∀ c ∈ f.text,P c := by
  intro c listed
  rw [Field.text,List.mem_append] at listed
  rcases listed with listed | listed
  · rcases mem_join listed with rfl | ⟨text,inList,here⟩
    · exact separators ',' (by decide)
    · obtain ⟨item,inItems,rfl⟩ := List.mem_map.mp inList
      exact item_forall separators names (readable.items item inItems) c here
  · cases step : f.step with
    | none =>
      rw [step] at listed
      cases listed
    | some digits =>
      rw [step] at listed
      rcases List.mem_cons.mp listed with rfl | listed
      · exact separators '/' (by decide)
      · exact separators c (digit_separator ((readable.step digits step).2 c listed))

end

theorem field_spaces (readable : f.Readable i) : ∀ c ∈ f.text,isSpace c = false := by
  refine field_forall (fun c separator => ?_) (fun letters n reads c listed => ?_) readable
  · rcases separator_cases separator with digit | other
    · exact digit_not_space digit
    · have each : ∀ d ∈ [',','-','/','*'],isSpace d = false := by decide
      exact each c other
  · rw [Bool.eq_false_iff]
    intro space
    have small := (fieldNames_letters _ reads).2 c.toLower (List.mem_map_of_mem listed)
    rw [space_toLower space,space] at small
    cases small

/-- Nothing is lost of fields with single spaces between them. -/
theorem removeExtraSpaces_fields {fields : List Field} (readable : ∀ f ∈ fields,∃ i,f.Readable i) :
    removeExtraSpaces (crontabText fields) = crontabText fields := by
  have words : ∀ word ∈ fields.map Field.text,word ≠ [] ∧ ∀ c ∈ word,isSpace c = false := by
    intro word listed
    obtain ⟨f,inList,rfl⟩ := List.mem_map.mp listed
    obtain ⟨i,readable⟩ := readable f inList
    exact ⟨field_ne_nil readable,field_spaces readable⟩
  obtain ⟨collapsed,trimmed⟩ := spaces_join words
  unfold removeExtraSpaces crontabText
  rw [collapsed,trimmed]

variable {fields : List Field} {pattern : List Char}

theorem crontabTexts_fields (some_ : fields ≠ []) (readable : ∀ f ∈ fields,∃ i,f.Readable i) (spaces : removeExtraSpaces pattern = crontabText fields) :
    crontabTexts pattern = (sixFields fields).map Field.text := by
  have apart : ∀ word ∈ fields.map Field.text,' ' ∉ word := by
    intro word listed space
    obtain ⟨f,inList,rfl⟩ := List.mem_map.mp listed
    obtain ⟨i,readable⟩ := readable f inList
    have spaces := field_spaces readable ' ' space
    revert spaces
    decide
  unfold crontabTexts prependSecondExpression sixFields
  rw [spaces,crontabText,split_join apart (by simpa using some_),List.length_map]
  split_ifs
  · rfl
  · rfl

theorem sixFields_length (count : fields.length = 5 ∨ fields.length = 6) : (sixFields fields).length = 6 := by
  unfold sixFields
  split_ifs with five
  · rw [List.length_cons,five]
  · exact count.resolve_left five

theorem sixFields_lt (count : fields.length = 5 ∨ fields.length = 6) (found : (sixFields fields)[i]? = some f) : i < 6 := by
  obtain ⟨small,-⟩ := List.getElem?_eq_some_iff.mp found
  rwa [sixFields_length count] at small

/-- The lists that a schedule has for its fields. -/
def fieldLists (fields : List Field) : List (List Char) := (sixFields fields).mapIdx fun i f => join ',' (entries i (fieldNums i f))

theorem fieldLists_get (i : Nat) : (fieldLists fields)[i]? = ((sixFields fields)[i]?).map fun f => join ',' (entries i (fieldNums i f)) :=
  List.getElem?_mapIdx

theorem fieldLists_length (count : fields.length = 5 ∨ fields.length = 6) : (fieldLists fields).length = 6 := by
  unfold fieldLists
  rw [List.length_mapIdx,sixFields_length count]

theorem readable_mem (readable : ∀ (i : Nat) (f : Field),(sixFields fields)[i]? = some f → f.Readable i) : ∀ f ∈ fields,∃ i,f.Readable i := by
  intro f listed
  have inSix : f ∈ sixFields fields := by
    unfold sixFields
    split_ifs
    · exact List.mem_cons_of_mem _ listed
    · exact listed
  obtain ⟨i,found⟩ := List.mem_iff_getElem?.mp inSix
  exact ⟨i,readable i f found⟩

theorem fields_ne_nil (count : fields.length = 5 ∨ fields.length = 6) : fields ≠ [] := by
  rintro rfl
  revert count
  decide

/-- The conversion of fields that can be read: each becomes the list of its values. -/
theorem convert_fields [Engine] (count : fields.length = 5 ∨ fields.length = 6)
    (readable : ∀ (i : Nat) (f : Field),(sixFields fields)[i]? = some f → f.Readable i) (spaces : removeExtraSpaces pattern = crontabText fields) :
    Ends convertExpression pattern (.ok (join ' ' (fieldLists fields))) := by
  have six := sixFields_length count
  have texts := crontabTexts_fields (fields_ne_nil count) (readable_mem readable) spaces
  have at_ : ∀ (i : Nat) (text : List Char),(crontabTexts pattern)[i]? = some text →
      i < 6 ∧ ∃ f,(sixFields fields)[i]? = some f ∧ f.text = text := by
    intro i text found
    rw [texts,List.getElem?_map,Option.map_eq_some_iff] at found
    obtain ⟨f,here,same⟩ := found
    exact ⟨sixFields_lt count here,f,here,same⟩
  have enough : 6 ≤ (crontabTexts pattern).length := by
    rw [texts,List.length_map]
    omega
  have countable : CountableFields pattern := by
    intro expressions converted expression listed
    rw [convertedFields_eq enough] at converted
    cases converted
    obtain ⟨i,found⟩ := List.mem_iff_getElem?.mp listed
    rw [List.getElem?_mapIdx,Option.map_eq_some_iff] at found
    obtain ⟨text,here,rfl⟩ := found
    obtain ⟨small,f,inSix,rfl⟩ := at_ i text here
    exact (outcome_field small (readable i f inSix)).1
  rcases convertExpression_outcome enough countable with ⟨lists,ended,length,each⟩ | ⟨i,text,thrown,found,failed,-⟩
  · have same : lists = fieldLists fields := by
      refine List.ext_getElem? fun i => ?_
      rw [fieldLists_get]
      cases inSix : (sixFields fields)[i]? with
      | none =>
        rw [List.getElem?_eq_none_iff] at inSix
        exact List.getElem?_eq_none_iff.mpr (by rwa [length,texts,List.length_map])
      | some f =>
        obtain ⟨list,here,outcome_⟩ := each i f.text (by rw [texts,List.getElem?_map,inSix]; rfl)
        rw [(outcome_field (sixFields_lt count inSix) (readable i f inSix)).2] at outcome_
        cases outcome_
        exact here
    rwa [same] at ended
  · obtain ⟨small,f,inSix,rfl⟩ := at_ i text found
    rw [(outcome_field small (readable i f inSix)).2] at failed
    cases failed

theorem fieldLists_plain (fields : List Field) : ∀ list ∈ fieldLists fields,' ' ∉ list := by
  intro list listed space
  obtain ⟨i,found⟩ := List.mem_iff_getElem?.mp listed
  rw [fieldLists_get,Option.map_eq_some_iff] at found
  obtain ⟨f,-,rfl⟩ := found
  rcases mem_join space with comma | ⟨entry,inList,here⟩
  · cases comma
  · exact ((entry_chars inList).2 ' ' here).2 rfl

theorem split_fieldLists (count : fields.length = 5 ∨ fields.length = 6) :
    split ' ' (join ' ' (fieldLists fields)) = fieldLists fields := by
  refine split_join (fieldLists_plain fields) fun empty => ?_
  have length := fieldLists_length count
  rw [empty] at length
  cases length

theorem counted_whole {n : Number} (counted : Counted n) : n.Whole := by
  rcases counted with rfl | ⟨m,small,rfl⟩
  · exact .nan
  · exact .finite m (roundDouble_small (Nat.le_of_lt small))

/-- Fields are accepted if all their values are within the limits, and each has one. -/
theorem validate_fields [Engine] (count : fields.length = 5 ∨ fields.length = 6)
    (readable : ∀ (i : Nat) (f : Field),(sixFields fields)[i]? = some f → f.Readable i) (spaces : removeExtraSpaces pattern = crontabText fields) :
    ((∀ (i : Nat) (f : Field),(sixFields fields)[i]? = some f → ∀ n ∈ fieldNums i f,WithinLimits i n) →
      Ends validateCrontab pattern (.ok (join ' ' (fieldLists fields)))) ∧
    ((¬ ∀ (i : Nat) (f : Field),(sixFields fields)[i]? = some f → ∀ n ∈ fieldNums i f,WithinLimits i n) →
      ∃ message,Ends validateCrontab pattern (.error (.error message))) := by
  obtain ⟨fuel,ended⟩ := convert_fields count readable spaces
  have validated : ∀ result,validateExecutable pattern (join ' ' (fieldLists fields)) = result →
      Ends validateCrontab pattern result := by
    intro result same
    refine ⟨fuel,?_⟩
    unfold validateCrontab
    rw [ended]
    exact congrArg some same
  have valid : (∀ i list,i < 6 → (fieldLists fields)[i]? = some list → isValidExpression list (limits i).low (limits i).high = true) ↔
      ∀ (i : Nat) (f : Field),(sixFields fields)[i]? = some f → ∀ n ∈ fieldNums i f,WithinLimits i n := by
    have each : ∀ i f,(sixFields fields)[i]? = some f →
        (isValidExpression (join ',' (entries i (fieldNums i f))) (limits i).low (limits i).high = true ↔ ∀ n ∈ fieldNums i f,WithinLimits i n) :=
      fun i f found => entries_valid i (fieldNums_ne_nil i f) fun n listed =>
        counted_whole (counted_plainNums (proper_fieldItems (readable i f found)) n listed)
    constructor
    · intro all i f found
      exact (each i f found).mp (all i _ (sixFields_lt count found) (by rw [fieldLists_get,found]; rfl))
    · intro all i list small found
      rw [fieldLists_get,Option.map_eq_some_iff] at found
      obtain ⟨f,here,rfl⟩ := found
      exact (each i f here).mpr (all i f here)
  obtain ⟨accepted,rejected⟩ := validateExecutable_lists pattern (fieldLists_length count).ge (fieldLists_plain fields)
  constructor
  · exact fun all => validated _ (accepted (valid.mpr all))
  · intro bad
    obtain ⟨message,failed⟩ := rejected (mt valid.mp bad)
    exact ⟨message,validated _ failed⟩

/-! ### Denotation -/

def Item.Valid (i : Nat) : Item → Prop
  | term t => ∃ a,t.Reads i a ∧ (limits i).low ≤ a ∧ a ≤ (limits i).high
  | range first last => ∃ a b,first.Reads i a ∧ last.Reads i b ∧ (limits i).low ≤ a ∧ a ≤ b ∧ b ≤ (limits i).high
  | asterisk => True

def Item.isAsterisk : Item → Bool
  | asterisk => true
  | _ => false

structure Field.Valid (i : Nat) (f : Field) : Prop where
  some_ : f.items ≠ []
  items : ∀ item ∈ f.items,item.Valid i
  asterisks : f.items.countP Item.isAsterisk ≤ 1
  step : ∀ digits ∈ f.step,Digits digits ∧ 1 ≤ decimal digits

def Item.Denotes (i v : Nat) : Item → Prop
  | term t => t.Reads i v
  | range first last => ∃ a b,first.Reads i a ∧ last.Reads i b ∧ a ≤ v ∧ v ≤ b
  | asterisk => (limits i).low ≤ v ∧ v ≤ (limits i).top

/-- The seventh day of the week is Sunday again. -/
def sunday (i v : Nat) : Nat := if i = 5 ∧ v = 7 then 0 else v

/-- The values of the items, of which a step leaves its multiples. -/
def Field.Denotes (i v : Nat) (f : Field) : Prop :=
  ∃ w,(∃ item ∈ f.items,item.Denotes i w) ∧ (∀ digits ∈ f.step,decimal digits ∣ w) ∧ sunday i w = v

theorem valid_item (valid : item.Valid i) : item.Readable i ∧ ∀ v,item.Reads i v ↔ item.Denotes i v := by
  cases item with
  | term t =>
    obtain ⟨a,reads,-,high⟩ := valid
    exact ⟨⟨a,reads,high⟩,fun v => Iff.rfl⟩
  | range first last =>
    obtain ⟨a,b,readsA,readsB,low,ordered,high⟩ := valid
    refine ⟨⟨a,b,readsA,readsB,by omega,high⟩,fun v => ⟨?_,?_⟩⟩
    · rintro ⟨a',b',readsA',readsB',within⟩
      rw [← term_unique readsA readsA',← term_unique readsB readsB'] at within
      exact ⟨a,b,readsA,readsB,by omega,by omega⟩
    · rintro ⟨a',b',readsA',readsB',above,below⟩
      exact ⟨a',b',readsA',readsB',by omega,by omega⟩
  | asterisk => exact ⟨trivial,fun v => Iff.rfl⟩

theorem Field.Valid.readable (valid : f.Valid i) : f.Readable i :=
  ⟨valid.some_,fun item listed => (valid_item (valid.items item listed)).1,fun digits step => (valid.step digits step).1⟩

theorem denotes_iff (valid : f.Valid i) : f.Denotes i v ↔ ∃ w,f.Reads i w ∧ sunday i w = v := by
  refine exists_congr fun w => ?_
  have items : (∃ item ∈ f.items,item.Denotes i w) ↔ ∃ item ∈ f.items,item.Reads i w :=
    exists_congr fun item => and_congr_right fun listed => ((valid_item (valid.items item listed)).2 w).symm
  have step : (∀ digits ∈ f.step,decimal digits ∣ w) ↔ ∀ digits ∈ f.step,decimal digits ≠ 0 ∧ decimal digits ∣ w := by
    refine forall₂_congr fun digits given => (and_iff_right ?_).symm
    have positive := (valid.step digits given).2
    omega
  rw [items,step,← and_assoc]
  rfl

/-- With one asterisk at most, no asterisk is left. -/
theorem replaceAsterisk_all {items : List Item} (few : items.countP Item.isAsterisk ≤ 1) :
    ∀ p ∈ replaceAsterisk (wholeRange i) (items.map (Item.plain i)),p ≠ .asterisk := by
  induction items with
  | nil => exact fun p listed => nomatch listed
  | cons item rest ih =>
    rw [List.countP_cons] at few
    cases item with
    | asterisk =>
      have none_ : rest.countP Item.isAsterisk = 0 := by
        simp only [Item.isAsterisk,if_true] at few
        omega
      intro p listed
      rcases List.mem_cons.mp listed with rfl | listed
      · exact Plain.noConfusion
      · obtain ⟨item,inList,rfl⟩ := List.mem_map.mp listed
        have other := List.countP_eq_zero.mp none_ item inList
        cases item with
        | asterisk => exact absurd rfl other
        | term t => exact Plain.noConfusion
        | range first last => exact Plain.noConfusion
    | term t =>
      intro p listed
      rcases List.mem_cons.mp listed with rfl | listed
      · exact Plain.noConfusion
      · exact ih (by omega) p listed
    | range first last =>
      intro p listed
      rcases List.mem_cons.mp listed with rfl | listed
      · exact Plain.noConfusion
      · exact ih (by omega) p listed

/-- No number is left if the field denotes no value. -/
theorem nan_mem_fieldNums (valid : f.Valid i) : Number.nan ∈ fieldNums i f ↔ ∀ v,¬ f.Denotes i v := by
  have readable := valid.readable
  have numbers : ∀ n ∈ stepped ((replaceAsterisk (wholeRange i) (f.items.map (Item.plain i))).flatMap Plain.nums) f.step,n ≠ .nan := by
    intro n listed
    have inList : n ∈ (replaceAsterisk (wholeRange i) (f.items.map (Item.plain i))).flatMap Plain.nums := by
      cases step : f.step with
      | none =>
        rw [step] at listed
        exact listed
      | some digits =>
        rw [step] at listed
        exact (List.mem_filter.mp listed).1
    obtain ⟨p,inItems,number⟩ := List.mem_flatMap.mp inList
    have other := replaceAsterisk_all valid.asterisks p inItems
    cases p with
    | asterisk => exact absurd rfl other
    | number digits =>
      rw [List.mem_singleton.mp number]
      exact Number.noConfusion
    | range first last =>
      obtain ⟨m,-,rfl⟩ := List.mem_map.mp number
      exact Number.noConfusion
  have denoted : ∀ v,f.Denotes i v ↔ ∃ w : Nat,Number.finite w ∈ fieldNums i f ∧ sunday i w = v := fun v => by
    rw [denotes_iff valid]
    exact exists_congr fun w => by rw [mem_fieldNums readable]
  constructor
  · intro listed v denotes
    obtain ⟨w,number,-⟩ := (denoted v).mp denotes
    unfold fieldNums plainNums orNaN at listed number
    split_ifs at listed with empty
    · rw [if_pos empty] at number
      cases List.mem_singleton.mp number
    · exact numbers _ listed rfl
  · intro none_
    obtain ⟨n,listed⟩ := List.exists_mem_of_ne_nil _ (fieldNums_ne_nil i f)
    rcases counted_plainNums (proper_fieldItems readable) n listed with rfl | ⟨m,-,rfl⟩
    · exact listed
    · exact absurd ((denoted _).mpr ⟨m,listed,rfl⟩) (none_ _)

theorem sundayText_number {w : Nat} (small : w < 2 ^ 53) : sundayText i (Number.finite w).toString = Nat.toDigits 10 (sunday i w) := by
  rw [toString_finite,natToString_small small]
  have seven : Nat.toDigits 10 w = ['7'] ↔ w = 7 := by
    constructor
    · intro same
      rw [← decimal_toDigits w,same]
      rfl
    · rintro rfl
      rfl
  unfold sundayText sunday
  simp only [seven]
  split_ifs <;> rfl

/-- The list of a field that is read has the numbers of the values that are read. -/
theorem mem_entries_reads (readable : f.Readable i) (v : Nat) :
    Nat.toDigits 10 v ∈ entries i (fieldNums i f) ↔ ∃ w,f.Reads i w ∧ sunday i w = v := by
  have counted : ∀ n ∈ fieldNums i f,Counted n := counted_plainNums (proper_fieldItems readable)
  rw [mem_entries]
  constructor
  · rintro ⟨n,listed,same⟩
    rcases counted n listed with rfl | ⟨w,small,rfl⟩
    · have other : sundayText i Number.nan.toString = "NaN".toList := if_neg fun both => absurd both.2 (by decide)
      rw [other] at same
      have digits := (digits_toDigits v).2 'N' (same ▸ by decide)
      cases digits
    · rw [sundayText_number small] at same
      refine ⟨w,(mem_fieldNums readable).mp listed,?_⟩
      rw [← decimal_toDigits (sunday i w),same,decimal_toDigits]
  · rintro ⟨w,reads,rfl⟩
    have small := reads_small readable reads.1
    exact ⟨.finite w,(mem_fieldNums readable).mpr reads,sundayText_number (by omega)⟩

/-- The entries of the list are the values, or it has none. -/
theorem mem_entries_field (valid : f.Valid i) (entry : List Char) : entry ∈ entries i (fieldNums i f) ↔
    (∃ v,f.Denotes i v ∧ entry = Nat.toDigits 10 v) ∨ ((∀ v,¬ f.Denotes i v) ∧ entry = "NaN".toList) := by
  have readable := valid.readable
  have counted : ∀ n ∈ fieldNums i f,Counted n := counted_plainNums (proper_fieldItems readable)
  rw [mem_entries]
  constructor
  · rintro ⟨n,listed,rfl⟩
    rcases counted n listed with rfl | ⟨w,small,rfl⟩
    · have other : sundayText i Number.nan.toString = "NaN".toList := if_neg fun both => absurd both.2 (by decide)
      exact .inr ⟨(nan_mem_fieldNums valid).mp listed,other⟩
    · exact .inl ⟨sunday i w,(denotes_iff valid).mpr ⟨w,(mem_fieldNums readable).mp listed,rfl⟩,sundayText_number small⟩
  · rintro (⟨v,denotes,rfl⟩ | ⟨none_,rfl⟩)
    · obtain ⟨w,reads,rfl⟩ := (denotes_iff valid).mp denotes
      have small := reads_small readable reads.1
      exact ⟨.finite w,(mem_fieldNums readable).mpr reads,sundayText_number (by omega)⟩
    · exact ⟨.nan,(nan_mem_fieldNums valid).mpr none_,if_neg fun both => absurd both.2 (by decide)⟩

/-- The values are within the limits, so that fields are accepted if each has one. -/
theorem withinLimits_iff (valid : f.Valid i) : (∀ n ∈ fieldNums i f,WithinLimits i n) ↔ ∃ v,f.Denotes i v := by
  have readable := valid.readable
  constructor
  · intro all
    by_contra none_
    obtain ⟨m,same,-⟩ := all .nan ((nan_mem_fieldNums valid).mpr fun v denotes => none_ ⟨v,denotes⟩)
    cases same
  · rintro ⟨v,denotes⟩ n listed
    rcases counted_plainNums (proper_fieldItems readable) n listed with rfl | ⟨w,-,rfl⟩
    · exact absurd denotes ((nan_mem_fieldNums valid).mp listed v)
    · obtain ⟨⟨item,inList,reads⟩,-⟩ := (mem_fieldNums readable).mp listed
      have limits_ := limits_small i
      have validItem := valid.items item inList
      cases item with
      | term t =>
        obtain ⟨a,readsA,low,high⟩ := validItem
        rw [term_unique readsA reads] at low high
        exact ⟨w,rfl,low,high⟩
      | range first last =>
        obtain ⟨a,b,readsA,readsB,low,ordered,high⟩ := validItem
        obtain ⟨a',b',readsA',readsB',within⟩ := reads
        rw [← term_unique readsA readsA',← term_unique readsB readsB'] at within
        exact ⟨w,rfl,by omega,by omega⟩
      | asterisk => exact ⟨w,rfl,reads.1,by have := reads.2; omega⟩

/-- The lists that a schedule has for its fields hold the values that the fields denote. A crontab is accepted if each field denotes one,
    and without a field for the second it denotes second 0. -/
theorem fields_denote [Engine] (fields : List Field) (count : fields.length = 5 ∨ fields.length = 6)
    (valid : ∀ (i : Nat) (f : Field),(sixFields fields)[i]? = some f → f.Valid i) :
    ∃ result,Ends convertExpression (crontabText fields) (.ok result) ∧ (split ' ' result).length = 6 ∧
      (∀ (i : Nat) (f : Field) list,(sixFields fields)[i]? = some f → (split ' ' result)[i]? = some list →
        ∀ entry,entry ∈ split ',' list ↔
          (∃ v,f.Denotes i v ∧ entry = Nat.toDigits 10 v) ∨ ((∀ v,¬ f.Denotes i v) ∧ entry = "NaN".toList)) ∧
      ((∀ (i : Nat) (f : Field),(sixFields fields)[i]? = some f → ∃ v,f.Denotes i v) →
        Ends validateCrontab (crontabText fields) (.ok result)) ∧
      ((¬ ∀ (i : Nat) (f : Field),(sixFields fields)[i]? = some f → ∃ v,f.Denotes i v) →
        ∃ message,Ends validateCrontab (crontabText fields) (.error (.error message))) ∧
      (fields.length = 5 → (split ' ' result)[0]? = some ['0']) := by
  have readable : ∀ (i : Nat) (f : Field),(sixFields fields)[i]? = some f → f.Readable i := fun i f found => (valid i f found).readable
  have nonempty : (∀ (i : Nat) (f : Field),(sixFields fields)[i]? = some f → ∀ n ∈ fieldNums i f,WithinLimits i n) ↔
      ∀ (i : Nat) (f : Field),(sixFields fields)[i]? = some f → ∃ v,f.Denotes i v :=
    forall₃_congr fun i f found => withinLimits_iff (valid i f found)
  have spaces := removeExtraSpaces_fields (readable_mem readable)
  obtain ⟨accepted,rejected⟩ := validate_fields count readable spaces
  refine ⟨join ' ' (fieldLists fields),convert_fields count readable spaces,?_⟩
  rw [split_fieldLists count]
  refine ⟨fieldLists_length count,?_,fun all => accepted (nonempty.mpr all),fun bad => rejected (mt nonempty.mp bad),?_⟩
  · intro i f list found here entry
    rw [fieldLists_get,found] at here
    cases here
    rw [split_entries i (fieldNums_ne_nil i f)]
    exact mem_entries_field (valid i f found) entry
  · intro five
    have zero : (sixFields fields)[0]? = some secondZero := by
      unfold sixFields
      rw [if_pos five]
      rfl
    have number : fieldNums 0 secondZero = [.finite (0 : Nat)] := rfl
    have text : entries 0 [.finite (0 : Nat)] = [['0']] := by
      rw [entries,if_neg (by decide),List.map_singleton,toString_finite,natToString_small (by decide)]
      rfl
    rw [fieldLists_get,zero,Option.map_some,number,text,join_singleton]

attribute [local instance] ecmaScript

/-- Quarters of the working hours, with names in letters of any case. -/
def officeHours : List Field :=
  [⟨[.asterisk],some "15".toList⟩,⟨[.range (.number "09".toList) (.number "17".toList)],none⟩,
    ⟨[.term (.number "1".toList),.term (.number "15".toList)],none⟩,⟨[.range (.name "jan".toList) (.name "JUNE".toList)],some "2".toList⟩,
    ⟨[.range (.name "Mon".toList) (.number "5".toList),.term (.number "7".toList)],none⟩]

theorem officeHours_denote : crontabText officeHours = "*/15 09-17 1,15 jan-JUNE/2 Mon-5,7".toList ∧
    ∃ result,Ends convertExpression (crontabText officeHours) (.ok result) ∧ Ends validateCrontab (crontabText officeHours) (.ok result) ∧
      (split ' ' result)[0]? = some ['0'] := by
  have valid : ∀ (i : Nat) (f : Field),(sixFields officeHours)[i]? = some f → f.Valid i ∧ ∃ v,f.Denotes i v := by
    have step : ∀ digits ∈ ["15".toList,"2".toList],(digits ≠ [] ∧ ∀ c ∈ digits,c.isDigit = true) ∧ 1 ≤ decimal digits := by decide
    intro i f found
    match i with
    | 0 =>
      cases found
      have zero : (Term.number ['0']).Reads 0 0 := by decide
      refine ⟨⟨List.cons_ne_nil _ _,?_,by decide,fun _ none_ => nomatch none_⟩,0,0,⟨_,List.mem_cons_self,zero⟩,(fun _ none_ => nomatch none_),rfl⟩
      exact List.forall_mem_singleton.mpr ⟨0,zero,by decide⟩
    | 1 =>
      cases found
      refine ⟨⟨List.cons_ne_nil _ _,?_,by decide,?_⟩,15,15,⟨_,List.mem_cons_self,by decide,by decide⟩,?_,rfl⟩
      · exact List.forall_mem_singleton.mpr trivial
      · exact fun digits given => step digits (by cases given; decide)
      · exact fun digits given => by cases given; decide
    | 2 =>
      cases found
      have nine : (Term.number "09".toList).Reads 2 9 := by decide
      have five : (Term.number "17".toList).Reads 2 17 := by decide
      refine ⟨⟨List.cons_ne_nil _ _,?_,by decide,fun _ none_ => nomatch none_⟩,9,9,
        ⟨_,List.mem_cons_self,9,17,nine,five,by decide,by decide⟩,(fun _ none_ => nomatch none_),rfl⟩
      exact List.forall_mem_singleton.mpr ⟨9,17,nine,five,by decide⟩
    | 3 =>
      cases found
      have first : (Term.number "1".toList).Reads 3 1 := by decide
      have middle : (Term.number "15".toList).Reads 3 15 := by decide
      refine ⟨⟨List.cons_ne_nil _ _,?_,by decide,fun _ none_ => nomatch none_⟩,1,1,⟨_,List.mem_cons_self,first⟩,(fun _ none_ => nomatch none_),rfl⟩
      exact List.forall_mem_cons.mpr ⟨⟨1,first,by decide⟩,List.forall_mem_singleton.mpr ⟨15,middle,by decide⟩⟩
    | 4 =>
      cases found
      have january : (Term.name "jan".toList).Reads 4 1 := by decide
      have june : (Term.name "JUNE".toList).Reads 4 6 := by decide
      refine ⟨⟨List.cons_ne_nil _ _,?_,by decide,?_⟩,2,2,⟨_,List.mem_cons_self,1,6,january,june,by decide,by decide⟩,?_,rfl⟩
      · exact List.forall_mem_singleton.mpr ⟨1,6,january,june,by decide⟩
      · exact fun digits given => step digits (by cases given; decide)
      · exact fun digits given => by cases given; decide
    | 5 =>
      cases found
      have monday : (Term.name "Mon".toList).Reads 5 1 := by decide
      have friday : (Term.number "5".toList).Reads 5 5 := by decide
      have sunday_ : (Term.number "7".toList).Reads 5 7 := by decide
      refine ⟨⟨List.cons_ne_nil _ _,?_,by decide,fun _ none_ => nomatch none_⟩,0,7,
        ⟨_,List.mem_cons_of_mem _ List.mem_cons_self,sunday_⟩,(fun _ none_ => nomatch none_),rfl⟩
      exact List.forall_mem_cons.mpr ⟨⟨1,5,monday,friday,by decide⟩,List.forall_mem_singleton.mpr ⟨7,sunday_,by decide⟩⟩
  obtain ⟨result,converted,-,-,accepted,-,second⟩ := fields_denote officeHours (.inl rfl) fun i f found => (valid i f found).1
  exact ⟨by decide,result,converted,accepted fun i f found => (valid i f found).2,second rfl⟩

end Dbos.Crontab
