import Dbos.CrontabMeaning

/-!
What `validateCrontab` accepts. It looks at the numbers that the conversion has read, not at the text they were read from, so that whatever
begins with a number passes for it. A crontab is rejected if it has too few fields, or one of them cannot be read.
-/
namespace Dbos.Crontab
open Dbos.Pg Dbos.Js

/-! ### Reading -/

/-- A field with its names, its first asterisk and its ranges written out. -/
def rewritten (i : Nat) (text : List Char) : List Char := spelledOut (starred i (named i text))

/-- The numbers that the entries of a field begin with, of which a step leaves its multiples. There are none if the step does not begin with
    a number. -/
def readNums (expression : List Char) : Option (List Number) :=
  match stepValuePattern expression with
  | none => some ((split ',' expression).map fun piece => parseInt piece)
  | some (base,word) =>
    if parseInt word = .nan then none
    else
      let numbers := (split ',' base).map fun piece => parseInt piece (some 10)
      -- the multiples are written and read once more
      some (orNaN ((numbers.filter fun n => n.isMultiple (parseInt word (some 10))).map fun n => parseInt n.toString))

variable {i : Nat} {text : List Char}

theorem readNums_some {expression : List Char} {nums : List Number} (read : readNums expression = some nums) :
    nums ≠ [] ∧ (∀ n ∈ nums,n.Whole) ∧ (convertStep expression).map normalizeField = .ok (join ',' (nums.map Number.toString)) := by
  unfold readNums at read
  unfold convertStep
  cases found : stepValuePattern expression with
  | none =>
    rw [found] at read
    cases read
    refine ⟨by simpa using split_ne_nil ',' expression,fun n listed => ?_,?_⟩
    · obtain ⟨piece,-,rfl⟩ := List.mem_map.mp listed
      exact parseInt_whole piece none
    · rw [List.map_map]
      rfl
  | some step =>
    obtain ⟨base,word⟩ := step
    rw [found] at read
    dsimp only at read ⊢
    split_ifs at read with notNumber
    rw [if_neg notNumber]
    cases read
    refine ⟨orNaN_ne_nil _,fun n listed => ?_,?_⟩
    · unfold orNaN at listed
      split_ifs at listed
      · rw [List.mem_singleton.mp listed]
        exact .nan
      · obtain ⟨m,-,rfl⟩ := List.mem_map.mp listed
        exact parseInt_whole _ none
    · change Except.ok (normalizeField _) = _
      generalize ((split ',' base).map fun piece => parseInt piece (some 10)).filter (fun n => n.isMultiple (parseInt word (some 10))) = multiples
      refine congrArg Except.ok ?_
      unfold normalizeField orNaN
      by_cases empty : multiples = []
      · rw [empty]
        decide
      · rw [split_nums empty,if_neg (by simpa using empty),List.map_map,List.map_map]
        rfl

theorem readNums_none {expression : List Char} (unread : readNums expression = none) : ∃ thrown,convertStep expression = .error thrown := by
  unfold readNums at unread
  unfold convertStep
  cases found : stepValuePattern expression with
  | none =>
    rw [found] at unread
    cases unread
  | some step =>
    obtain ⟨base,word⟩ := step
    rw [found] at unread
    dsimp only at unread ⊢
    split_ifs at unread with notNumber
    rw [if_pos notNumber]
    exact ⟨_,rfl⟩

/-- A field is accepted if the numbers that are read in it are within its limits. -/
theorem outcome_some {nums : List Number} (read : readNums (rewritten i text) = some nums) :
    outcome i text = .ok (join ',' (entries i nums)) ∧
      (isValidExpression (join ',' (entries i nums)) (limits i).low (limits i).high = true ↔ ∀ n ∈ nums,WithinLimits i n) := by
  obtain ⟨some_,whole,steps⟩ := readNums_some read
  refine ⟨?_,entries_valid i some_ whole⟩
  rw [← folded_entries i some_]
  unfold outcome
  change (convertStep (rewritten i text)).map _ = _
  cases step : convertStep (rewritten i text) with
  | error thrown =>
    rw [step] at steps
    cases steps
  | ok expression =>
    rw [step] at steps
    have normalized : normalizeField expression = join ',' (nums.map Number.toString) := Except.ok.inj steps
    change Except.ok (folded i (normalizeField expression)) = _
    rw [normalized]

theorem outcome_none (unread : readNums (rewritten i text) = none) : ∃ thrown,outcome i text = .error thrown := by
  obtain ⟨thrown,failed⟩ := readNums_none unread
  refine ⟨thrown,?_⟩
  unfold outcome
  change (convertStep (rewritten i text)).map _ = _
  rw [failed]
  rfl

/-! ### Rejection -/

/-- A field that is not read, or has a number outside its limits. Fields after the sixth are not looked at. -/
def UnreadableField (i : Nat) (text : List Char) : Prop :=
  readNums (rewritten i text) = none ∨ (i < 6 ∧ ∃ nums,readNums (rewritten i text) = some nums ∧ ∃ n ∈ nums,¬ WithinLimits i n)

theorem outcome_plain {list : List Char} (outcome_ : outcome i text = .ok list) : ' ' ∉ list := by
  intro space
  cases read : readNums (rewritten i text) with
  | none =>
    obtain ⟨thrown,failed⟩ := outcome_none read
    rw [failed] at outcome_
    cases outcome_
  | some nums =>
    rw [(outcome_some read).1] at outcome_
    cases outcome_
    rcases mem_join space with comma | ⟨entry,inList,here⟩
    · cases comma
    · exact ((entry_chars inList).2 ' ' here).2 rfl

variable {pattern : List Char}

section
variable [Engine]

/-- Fewer than five fields, a range that cannot be counted, or a field that is unreadable. -/
def Unreadable (pattern : List Char) : Prop :=
  (crontabTexts pattern).length < 6 ∨ ¬ CountableFields pattern ∨
    ∃ (i : Nat) (text : List Char),(crontabTexts pattern)[i]? = some text ∧ UnreadableField i text

theorem validate_converted {converted : Except Thrown (List Char)} (ended : Ends convertExpression pattern converted)
    {result : Except Thrown (List Char)} : Ends validateCrontab pattern result ↔ converted.bind (validateExecutable pattern) = result := by
  constructor
  · rintro ⟨fuel,validated⟩
    unfold validateCrontab at validated
    rw [Option.map_eq_some_iff] at validated
    obtain ⟨converted',ended',same⟩ := validated
    rw [ended.unique grows_convertExpression ⟨fuel,ended'⟩]
    exact same
  · intro same
    obtain ⟨fuel,ended⟩ := ended
    refine ⟨fuel,?_⟩
    unfold validateCrontab
    rw [ended]
    exact congrArg some same

/-- What is rejected is what is unreadable. -/
theorem rejected_iff : (∃ thrown,Ends validateCrontab pattern (.error thrown)) ↔ Unreadable pattern := by
  by_cases few : (crontabTexts pattern).length < 6
  · have failed := convertExpression_error (convertedFields_few few)
    exact iff_of_true ⟨_,(validate_converted failed).mpr rfl⟩ (.inl few)
  by_cases countable : CountableFields pattern
  · rcases convertExpression_outcome (by omega) countable with ⟨lists,ended,length,each⟩ | ⟨i,text,thrown,found,failed,ended⟩
    · have plain : ∀ list ∈ lists,' ' ∉ list := by
        intro list listed
        obtain ⟨i,found⟩ := List.mem_iff_getElem?.mp listed
        obtain ⟨small,-⟩ := List.getElem?_eq_some_iff.mp found
        obtain ⟨list',here,outcome_⟩ := each i _ (List.getElem?_eq_getElem (length ▸ small))
        rw [found] at here
        cases here
        exact outcome_plain outcome_
      obtain ⟨accepted,rejected⟩ := validateExecutable_lists pattern (by omega : 6 ≤ lists.length) plain
      constructor
      · rintro ⟨thrown,validated⟩
        have failed := (validate_converted ended).mp validated
        change validateExecutable pattern (join ' ' lists) = _ at failed
        have invalid : ¬ ∀ i list,i < 6 → lists[i]? = some list → isValidExpression list (limits i).low (limits i).high = true := by
          intro valid
          rw [accepted valid] at failed
          cases failed
        push Not at invalid
        obtain ⟨i,list,small,found,bad⟩ := invalid
        obtain ⟨bound,-⟩ := List.getElem?_eq_some_iff.mp found
        obtain ⟨text,inTexts⟩ : ∃ text,(crontabTexts pattern)[i]? = some text := ⟨_,List.getElem?_eq_getElem (length ▸ bound)⟩
        obtain ⟨list',here,outcome_⟩ := each i text inTexts
        rw [found] at here
        cases here
        refine .inr (.inr ⟨i,text,inTexts,?_⟩)
        cases read : readNums (rewritten i text) with
        | none => exact .inl read
        | some nums =>
          obtain ⟨outcome',valid⟩ := outcome_some read
          rw [outcome'] at outcome_
          cases outcome_
          have outside := mt valid.mpr bad
          push Not at outside
          exact .inr ⟨small,nums,read,outside⟩
      · rintro (few' | uncountable | ⟨i,text,found,unread⟩)
        · exact absurd few' few
        · exact absurd countable uncountable
        obtain ⟨list,here,outcome_⟩ := each i text found
        rcases unread with none_ | ⟨small,nums,read,n,listed,outside⟩
        · obtain ⟨thrown,failed⟩ := outcome_none none_
          rw [failed] at outcome_
          cases outcome_
        · obtain ⟨outcome',valid⟩ := outcome_some read
          rw [outcome'] at outcome_
          cases outcome_
          obtain ⟨message,failed⟩ := rejected fun all => outside (valid.mp (all i _ small here) n listed)
          exact ⟨_,(validate_converted ended).mpr failed⟩
    · refine iff_of_true ⟨thrown,(validate_converted ended).mpr rfl⟩ (.inr (.inr ⟨i,text,found,.inl ?_⟩))
      cases read : readNums (rewritten i text) with
      | none => rfl
      | some nums =>
        rw [(outcome_some read).1] at failed
        cases failed
  · exact iff_of_true ⟨_,(validate_converted (convertExpression_throws countable)).mpr rfl⟩ (.inr (.inl countable))

end

/-! ### What is understood -/

/-- The number at the end of a range: there, the name of Sunday is the seventh day. -/
def Term.ReadsLast (i n : Nat) : Term → Prop
  | number digits => (number digits).Reads i n
  | name letters => ∃ a,(name letters).Reads i a ∧ n = if i = 5 ∧ a = 0 then 7 else a

/-- A number, a name, an asterisk or a range with ordered ends, within the limits of the field. -/
def Item.Formed (i : Nat) : Item → Prop
  | term t => ∃ a,t.Reads i a ∧ (limits i).low ≤ a ∧ a ≤ (limits i).high
  | range first last => ∃ a b,first.Reads i a ∧ last.ReadsLast i b ∧ (limits i).low ≤ a ∧ a ≤ b ∧ b ≤ (limits i).high
  | asterisk => True

def Item.Means (i v : Nat) : Item → Prop
  | term t => t.Reads i v
  | range first last => ∃ a b,first.Reads i a ∧ last.ReadsLast i b ∧ a ≤ v ∧ v ≤ b
  | asterisk => (limits i).low ≤ v ∧ v ≤ (limits i).top

/-- The values of an item that the step leaves. -/
def Item.Gives (i v : Nat) (step : Option (List Char)) (item : Item) : Prop := item.Means i v ∧ ∀ digits ∈ step,decimal digits ∣ v

structure Field.Formed (i : Nat) (f : Field) : Prop where
  some_ : f.items ≠ []
  items : ∀ item ∈ f.items,item.Formed i
  step : ∀ digits ∈ f.step,Digits digits

/-- Up to surrounding and repeated spaces, the pattern consists of five or six fields that are well formed. -/
structure Formed (pattern : List Char) (fields : List Field) : Prop where
  spaces : removeExtraSpaces pattern = crontabText fields
  count : fields.length = 5 ∨ fields.length = 6
  fields : ∀ (i : Nat) (f : Field),(sixFields fields)[i]? = some f → f.Formed i

/-- The item gives values, and these are in the list of the field. -/
def Contributes (i : Nat) (step : Option (List Char)) (list : List Char) (item : Item) : Prop :=
  (∃ v,item.Gives i v step) ∧ ∀ v,item.Gives i v step → Nat.toDigits 10 (sunday i v) ∈ split ',' list

/-- The pattern is rejected with an error, or is well formed and accepted with all that its items contribute. -/
def Understood [Engine] (pattern : List Char) : Prop :=
  (∃ thrown,Ends validateCrontab pattern (.error thrown)) ∨
    ∃ result fields,Ends validateCrontab pattern (.ok result) ∧ Formed pattern fields ∧
      ∀ (i : Nat) (f : Field) list,(sixFields fields)[i]? = some f → (split ' ' result)[i]? = some list →
        ∀ item ∈ f.items,Contributes i f.step list item

/-- The item gives values, and the field reads them too, though it reads the name of Sunday as 0 at the end of a range. -/
def Covered (i : Nat) (f : Field) (item : Item) : Prop :=
  (∃ v,item.Gives i v f.step) ∧ ∀ v,item.Gives i v f.step → ∃ w,f.Reads i w ∧ sunday i w = sunday i v

variable {item : Item} {f : Field}

theorem formed_item (formed : item.Formed i) : item.Readable i := by
  have small := limits_small i
  cases item with
  | term t =>
    obtain ⟨a,reads,-,high⟩ := formed
    exact ⟨a,reads,high⟩
  | range first last =>
    obtain ⟨a,b,readsA,readsB,-,ordered,high⟩ := formed
    cases last with
    | number digits => exact ⟨a,b,readsA,readsB,by omega,high⟩
    | name letters =>
      obtain ⟨c,readsC,last_⟩ := readsB
      refine ⟨a,c,readsA,readsC,by omega,?_⟩
      split_ifs at last_ <;> omega
  | asterisk => trivial

theorem Field.Formed.readable (formed : f.Formed i) : f.Readable i :=
  ⟨formed.some_,fun item listed => formed_item (formed.items item listed),formed.step⟩

theorem contributes_iff (readable : f.Readable i) :
    Contributes i f.step (join ',' (entries i (fieldNums i f))) item ↔ Covered i f item := by
  unfold Contributes Covered
  rw [split_entries i (fieldNums_ne_nil i f)]
  exact and_congr_right fun _ => forall₂_congr fun v _ => mem_entries_reads readable _

/-- A field without names has digits and separators only. -/
theorem field_separators (nameless : fieldNames i = []) (readable : f.Readable i) : ∀ c ∈ f.text,isSeparator c = true := by
  refine field_forall (fun c separator => separator) (fun letters n reads => ?_) readable
  change (lower letters,n) ∈ fieldNames i at reads
  rw [nameless] at reads
  cases reads

/-- Either the pattern is unreadable, or it is well formed and its items are covered by the values that are read. -/
theorem understood_iff_covered [Engine] (pattern : List Char) : Understood pattern ↔
    Unreadable pattern ∨ ∃ fields,Formed pattern fields ∧ ∀ (i : Nat) (f : Field),(sixFields fields)[i]? = some f → ∀ item ∈ f.items,Covered i f item := by
  have list_ : ∀ {fields : List Field},Formed pattern fields → ∀ result,Ends validateCrontab pattern (.ok result) → split ' ' result = fieldLists fields := by
    intro fields formed result validated
    have readable : ∀ (i : Nat) (f : Field),(sixFields fields)[i]? = some f → f.Readable i := fun i f found => (formed.fields i f found).readable
    have converted := (validate_converted (convert_fields formed.count readable formed.spaces)).mp validated
    change validateExecutable pattern (join ' ' (fieldLists fields)) = _ at converted
    obtain ⟨accepted,rejected⟩ := validateExecutable_lists pattern (fieldLists_length formed.count).ge (fieldLists_plain fields)
    by_cases valid : ∀ i list,i < 6 → (fieldLists fields)[i]? = some list → isValidExpression list (limits i).low (limits i).high = true
    · rw [accepted valid] at converted
      cases converted
      exact split_fieldLists formed.count
    · obtain ⟨message,failed⟩ := rejected valid
      rw [failed] at converted
      cases converted
  constructor
  · rintro (rejected | ⟨result,fields,validated,formed,contributes⟩)
    · exact .inl (rejected_iff.mp rejected)
    · refine .inr ⟨fields,formed,fun i f found item listed => ?_⟩
      have lists := list_ formed result validated
      refine (contributes_iff (formed.fields i f found).readable).mp (contributes i f _ found ?_ item listed)
      rw [lists,fieldLists_get,found]
      rfl
  · rintro (unreadable | ⟨fields,formed,covered⟩)
    · exact .inl (rejected_iff.mpr unreadable)
    have readable : ∀ (i : Nat) (f : Field),(sixFields fields)[i]? = some f → f.Readable i := fun i f found => (formed.fields i f found).readable
    obtain ⟨accepted,rejected⟩ := validate_fields formed.count readable formed.spaces
    by_cases valid : ∀ (i : Nat) (f : Field),(sixFields fields)[i]? = some f → ∀ n ∈ fieldNums i f,WithinLimits i n
    · refine .inr ⟨_,fields,accepted valid,formed,fun i f list found here item listed => ?_⟩
      rw [split_fieldLists formed.count,fieldLists_get,found] at here
      cases here
      exact (contributes_iff (readable i f found)).mpr (covered i f found item listed)
    · obtain ⟨message,failed⟩ := rejected valid
      exact .inl ⟨_,failed⟩

attribute [local instance] ecmaScript

/-- A letter after the number of the second is overlooked. -/
theorem trailingLetter_accepted : Ends validateCrontab "1x 0 0 1 1 1".toList (.ok "1 0 0 1 1 1".toList) ∧ ¬ ∀ pattern,Understood pattern := by
  have accepted : Ends validateCrontab "1x 0 0 1 1 1".toList (.ok "1 0 0 1 1 1".toList) := ⟨1,by decide +kernel⟩
  refine ⟨accepted,fun all => ?_⟩
  rcases all "1x 0 0 1 1 1".toList with ⟨thrown,rejected⟩ | ⟨result,fields,-,formed,-⟩
  · cases accepted.unique grows_validateCrontab rejected
  · have readable : ∀ (i : Nat) (f : Field),(sixFields fields)[i]? = some f → f.Readable i := fun i f found => (formed.fields i f found).readable
    have texts := crontabTexts_fields (fields_ne_nil formed.count) (readable_mem readable) formed.spaces
    have words : crontabTexts "1x 0 0 1 1 1".toList = ["1x","0","0","1","1","1"].map String.toList := by decide
    have first : ((sixFields fields).map Field.text)[0]? = some "1x".toList := by
      rw [← texts,words]
      rfl
    rw [List.getElem?_map] at first
    obtain ⟨f,found,text⟩ := Option.map_eq_some_iff.mp first
    have letter := field_separators rfl (readable 0 f found) 'x' (by rw [text]; decide)
    cases letter

end Dbos.Crontab
