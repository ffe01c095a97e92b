import Mathlib.Data.List.Basic
import Mathlib.Data.List.TakeWhile

/-!
Texts of JavaScript as lists of characters, and the methods of `String.prototype` that rewrite them. A text is cut into its numbers, which
are the runs of digits that are as long as they can be, and the characters between these.
-/
namespace Dbos.Js

/-- A text is checked character by character, not by going through all characters there are. -/
instance decidableAllChars (p : Char → Prop) [DecidablePred p] (text : List Char) : Decidable (∀ c ∈ text,p c) := List.decidableBAll p text

/-! ### Spaces -/

/-- `\s`: white space and line terminators. -/
def isSpace (c : Char) : Bool :=
  c ∈ ['\t','\n','\x0b','\x0c','\r',' ','\u00a0','\u1680','\u2028','\u2029','\u202f','\u205f','\u3000','\ufeff'] ||
    ('\u2000' ≤ c && c ≤ '\u200a')

/-- What the dot of a regular expression is not. -/
def isLineTerminator (c : Char) : Bool := c ∈ ['\n','\r','\u2028','\u2029']

/-- `\w`. -/
def isWordChar (c : Char) : Bool := c.isDigit || ('a' ≤ c && c ≤ 'z') || ('A' ≤ c && c ≤ 'Z') || c = '_'

/-- `text.replace(/\s{2,}/g, ' ')`, with the spaces that have just been read. -/
def collapseSpaces (spaces : List Char) : List Char → List Char
  | [] => if 2 ≤ spaces.length then [' '] else spaces
  | c :: rest =>
    if isSpace c then collapseSpaces (spaces ++ [c]) rest
    else (if 2 ≤ spaces.length then [' '] else spaces) ++ c :: collapseSpaces [] rest

def trim (text : List Char) : List Char := ((text.dropWhile isSpace).reverse.dropWhile isSpace).reverse

section
variable {x y : List Char}

theorem collapseSpaces_word (word : ∀ c ∈ x,isSpace c = false) (y : List Char) : collapseSpaces [] (x ++ y) = x ++ collapseSpaces [] y := by
  induction x with
  | nil => rfl
  | cons c x ih =>
    have here := word c List.mem_cons_self
    rw [List.cons_append,collapseSpaces,if_neg (by simp [here]),ih fun d listed => word d (List.mem_cons_of_mem _ listed)]
    rfl

/-- A single space stays. -/
theorem collapseSpaces_single {c : Char} (word : isSpace c = false) (y : List Char) :
    collapseSpaces [] (' ' :: c :: y) = ' ' :: collapseSpaces [] (c :: y) := by
  have space : isSpace ' ' = true := by decide
  have rest : collapseSpaces [] ([c] ++ y) = [c] ++ collapseSpaces [] y :=
    collapseSpaces_word (fun d listed => by rw [List.mem_singleton.mp listed,word]) y
  rw [collapseSpaces,if_pos space,List.nil_append,collapseSpaces,if_neg (by simp [word])]
  exact congrArg (' ' :: ·) rest.symm

theorem trim_eq (first : ∀ c ∈ x.head?,isSpace c = false) (last : ∀ c ∈ x.getLast?,isSpace c = false) : trim x = x := by
  have head : ∀ y : List Char,(∀ c ∈ y.head?,isSpace c = false) → y.dropWhile isSpace = y := by
    intro y first
    cases y with
    | nil => rfl
    | cons c y => rw [List.dropWhile_cons_of_neg (by simp [first c rfl])]
  unfold trim
  rw [head x first,head x.reverse (by rwa [List.head?_reverse]),List.reverse_reverse]

end

/-! ### Replacing -/

/-- `text.replace(c, replacement)`. -/
def replaceFirst (c : Char) (replacement : List Char) : List Char → List Char
  | [] => []
  | d :: rest => if d = c then replacement ++ rest else d :: replaceFirst c replacement rest

/-- `text.replace(part, replacement)` for a part that is not empty. -/
def replaceText (part replacement : List Char) : List Char → List Char
  | [] => []
  | c :: rest =>
    if part.isPrefixOf (c :: rest) then replacement ++ (c :: rest).drop part.length else c :: replaceText part replacement rest

/-- A name stands at the beginning of the text, in letters of any case. -/
def startsWithI (name text : List Char) : Bool := name = (text.take name.length).map Char.toLower

/-- `text.replace(new RegExp(name, 'gi'), replacement)` for a name in small letters; the first characters are those of the last match. -/
def replaceAllI (name replacement : List Char) : Nat → List Char → List Char
  | _,[] => []
  | skip + 1,_ :: rest => replaceAllI name replacement skip rest
  | 0,c :: rest =>
    if startsWithI name (c :: rest) then replacement ++ replaceAllI name replacement (name.length - 1) rest
    else c :: replaceAllI name replacement 0 rest

/-- `texts.join(separator)`. -/
def join (separator : Char) (texts : List (List Char)) : List Char := [separator].intercalate texts

/-- `text.split(separator)`. -/
def split (separator : Char) (text : List Char) : List (List Char) := text.splitOn separator

theorem split_join {separator : Char} {texts : List (List Char)} (apart : ∀ text ∈ texts,separator ∉ text) (some_ : texts ≠ []) :
    split separator (join separator texts) = texts := List.splitOn_intercalate separator apart some_

theorem split_append {separator : Char} {first : List Char} (apart : separator ∉ first) (rest : List Char) :
    split separator (first ++ separator :: rest) = first :: split separator rest :=
  List.splitOn_append_cons_self_of_not_mem apart rest

/-- The first piece is what stands before the first separator. -/
theorem split_head (separator : Char) (text : List Char) :
    ∃ rest,split separator text = text.takeWhile (fun c => c ≠ separator) :: rest := by
  induction text with
  | nil => exact ⟨[],List.splitOn_nil separator⟩
  | cons c text ih =>
    obtain ⟨rest,pieces⟩ := ih
    unfold split at pieces ⊢
    rw [List.splitOn_cons_eq_if_modifyHead,pieces]
    by_cases here : c = separator
    · refine ⟨text.takeWhile (fun c => c ≠ separator) :: rest,?_⟩
      simp [here]
    · refine ⟨rest,?_⟩
      simp [here]

theorem split_ne_nil (separator : Char) (text : List Char) : split separator text ≠ [] := by
  unfold split
  simp

theorem join_cons (separator : Char) (text : List Char) {texts : List (List Char)} (some_ : texts ≠ []) :
    join separator (text :: texts) = text ++ separator :: join separator texts := by
  obtain ⟨next,rest,rfl⟩ := List.exists_cons_of_ne_nil some_
  simp [join,List.intercalate]

theorem join_singleton (separator : Char) (text : List Char) : join separator [text] = text := by simp [join,List.intercalate]

theorem join_head (separator c : Char) (text : List Char) (texts : List (List Char)) :
    ∃ after,join separator ((c :: text) :: texts) = c :: after := by
  by_cases alone : texts = []
  · rw [alone,join_singleton]
    exact ⟨text,rfl⟩
  · rw [join_cons separator _ alone]
    exact ⟨_,rfl⟩

/-- The entries of a list as they are joined: after the last there is no separator. -/
@[elab_as_elim]
theorem joined_induction {α : Type} {motive : List α → Prop} (nil : motive []) (single : ∀ a,motive [a])
    (cons : ∀ a rest,rest ≠ [] → motive rest → motive (a :: rest)) (list : List α) : motive list := by
  induction list with
  | nil => exact nil
  | cons a rest ih =>
    by_cases last : rest = []
    · exact last ▸ single a
    · exact cons a rest last ih

theorem mem_join {separator c : Char} {texts : List (List Char)} (listed : c ∈ join separator texts) :
    c = separator ∨ ∃ text ∈ texts,c ∈ text := by
  induction texts using joined_induction with
  | nil => cases listed
  | single text =>
    rw [join_singleton] at listed
    exact .inr ⟨text,List.mem_cons_self,listed⟩
  | cons text rest some_ ih =>
    rw [join_cons separator text some_,List.mem_append,List.mem_cons] at listed
    rcases listed with here | separator_ | later
    · exact .inr ⟨text,List.mem_cons_self,here⟩
    · exact .inl separator_
    · rcases ih later with separator_ | ⟨other,inRest,here⟩
      · exact .inl separator_
      · exact .inr ⟨other,List.mem_cons_of_mem _ inRest,here⟩

theorem join_append (separator : Char) {first rest : List (List Char)} (firstSome : first ≠ []) (restSome : rest ≠ []) :
    join separator (first ++ rest) = join separator first ++ separator :: join separator rest := by
  induction first using joined_induction with
  | nil => exact absurd rfl firstSome
  | single text => rw [List.singleton_append,join_cons separator text restSome,join_singleton]
  | cons text others some_ ih =>
    have both : others ++ rest ≠ [] := by simp [restSome]
    rw [List.cons_append,join_cons separator text both,ih some_,join_cons separator text some_,List.append_assoc,List.cons_append]

/-- Words with single spaces between them. -/
theorem spaces_join {words : List (List Char)} (each : ∀ word ∈ words,word ≠ [] ∧ ∀ c ∈ word,isSpace c = false) :
    collapseSpaces [] (join ' ' words) = join ' ' words ∧ trim (join ' ' words) = join ' ' words := by
  have first : ∀ c ∈ (join ' ' words).head?,isSpace c = false := by
    intro c head
    cases words with
    | nil => cases head
    | cons word rest =>
      obtain ⟨some_,letters⟩ := each word List.mem_cons_self
      obtain ⟨d,more,rfl⟩ := List.exists_cons_of_ne_nil some_
      obtain ⟨after,begins⟩ := join_head ' ' d more rest
      rw [begins] at head
      cases head
      exact letters _ List.mem_cons_self
  have last : ∀ c ∈ (join ' ' words).getLast?,isSpace c = false := by
    clear first
    induction words using joined_induction with
    | nil => exact fun c none_ => nomatch none_
    | single word =>
      rw [join_singleton]
      exact fun c listed => (each word List.mem_cons_self).2 c (List.mem_of_getLast? listed)
    | cons word rest more ih =>
      have later := ih fun other listed => each other (List.mem_cons_of_mem _ listed)
      have some_ : join ' ' rest ≠ [] := by
        obtain ⟨next,others,rfl⟩ := List.exists_cons_of_ne_nil more
        obtain ⟨c,text,rfl⟩ := List.exists_cons_of_ne_nil (each next (by simp)).1
        obtain ⟨after,begins⟩ := join_head ' ' c text others
        exact begins ▸ List.cons_ne_nil _ _
      rw [join_cons ' ' word more,List.getLast?_append_of_ne_nil _ (List.cons_ne_nil _ _),List.getLast?_cons_of_ne_nil some_]
      exact later
  refine ⟨?_,trim_eq first last⟩
  clear first last
  induction words using joined_induction with
  | nil => rfl
  | single word =>
    have whole := collapseSpaces_word (each word List.mem_cons_self).2 []
    rw [List.append_nil,collapseSpaces] at whole
    rw [join_singleton]
    exact whole.trans (List.append_nil _)
  | cons word rest more ih =>
    have later := ih fun other listed => each other (List.mem_cons_of_mem _ listed)
    obtain ⟨next,others,rfl⟩ := List.exists_cons_of_ne_nil more
    obtain ⟨some_,begin_⟩ := each next (by simp)
    obtain ⟨c,nextRest,rfl⟩ := List.exists_cons_of_ne_nil some_
    obtain ⟨after,begins⟩ : ∃ after,join ' ' ((c :: nextRest) :: others) = c :: after := join_head ' ' c nextRest others
    rw [join_cons ' ' word more,collapseSpaces_word (each word List.mem_cons_self).2,begins,
      collapseSpaces_single (begin_ c List.mem_cons_self),← begins,later]

theorem replaceText_head {part : List Char} (some_ : part ≠ []) (replacement rest : List Char) :
    replaceText part replacement (part ++ rest) = replacement ++ rest := by
  obtain ⟨c,part,rfl⟩ := List.exists_cons_of_ne_nil some_
  have begins : (c :: part).isPrefixOf (c :: (part ++ rest)) = true := List.isPrefixOf_iff_prefix.mpr (List.prefix_append (c :: part) rest)
  rw [List.cons_append,replaceText,if_pos begins,← List.cons_append,List.drop_left]

/-! ### Letters of any case -/

def lower (text : List Char) : List Char := text.map Char.toLower

theorem toLower_toLower (c : Char) : c.toLower.toLower = c.toLower := by
  unfold Char.toLower
  split
  · rename_i upper
    rw [dif_neg]
    intro again
    simp only [ge_iff_le,UInt32.le_iff_toNat_le] at upper again
    simp at upper again
    omega
  · rfl

theorem space_toLower {c : Char} (space : isSpace c = true) : c.toLower = c := by
  unfold isSpace at space
  rw [Bool.or_eq_true] at space
  rcases space with listed | general
  · have each : ∀ d ∈ ['\t','\n','\x0b','\x0c','\r',' ','\u00a0','\u1680','\u2028','\u2029','\u202f','\u205f','\u3000','\ufeff'],d.toLower = d := by
      decide
    exact each c (of_decide_eq_true listed)
  · unfold Char.toLower
    rw [dif_neg]
    intro upper
    simp [Char.le_def,UInt32.le_iff_toNat_le] at general
    simp [UInt32.le_iff_toNat_le] at upper
    omega

/-- No letter becomes a digit. -/
theorem toLower_digit {c : Char} (digit : c.toLower.isDigit = true) : c.toLower = c := by
  unfold Char.toLower at digit ⊢
  split at digit
  · rename_i upper
    simp [Char.isDigit,UInt32.le_iff_toNat_le] at digit
    simp [UInt32.le_iff_toNat_le] at upper
    omega
  · rename_i other
    rw [dif_neg other]

theorem lower_append (x y : List Char) : lower (x ++ y) = lower x ++ lower y := List.map_append

theorem digit_toLower {c : Char} (digit : c.isDigit = true) : c.toLower = c := by
  unfold Char.toLower
  rw [dif_neg]
  intro upper
  simp [Char.isDigit,UInt32.le_iff_toNat_le] at digit
  simp [UInt32.le_iff_toNat_le] at upper
  omega

theorem lower_digits {text : List Char} (digits : ∀ c ∈ text,c.isDigit = true) : lower text = text :=
  (List.map_congr_left fun c listed => digit_toLower (digits c listed)).trans (List.map_id text)

/-- A text that reads as digits in small letters has no letters. -/
theorem eq_of_lower_digits {text digits : List Char} (same : lower text = digits) (all : ∀ c ∈ digits,c.isDigit = true) : text = digits := by
  have each : ∀ c ∈ text,c.toLower = c := fun c listed => toLower_digit (all _ (same ▸ List.mem_map_of_mem listed))
  rw [← same]
  exact ((List.map_congr_left each).trans (List.map_id text)).symm

section
variable {name replacement : List Char} {c : Char}

/-- A name is not found across a character that it does not have. -/
theorem startsWithI_append (apart : c.toLower ∉ name) (x y : List Char) : startsWithI name (x ++ c :: y) = startsWithI name x := by
  unfold startsWithI
  rw [decide_eq_decide]
  by_cases fits : name.length ≤ x.length
  · rw [List.take_append_of_le_length fits]
  · refine iff_of_false (fun same => apart ?_) (fun same => fits ?_)
    · rw [same,List.take_append]
      obtain ⟨more,count⟩ : ∃ more,name.length - x.length = more + 1 := ⟨name.length - x.length - 1,by omega⟩
      rw [count,List.take_succ_cons,List.map_append,List.map_cons]
      simp
    · have length := congrArg List.length same
      rw [List.length_map,List.length_take] at length
      omega

theorem startsWithI_length {x : List Char} (starts : startsWithI name x = true) : name.length ≤ x.length := by
  unfold startsWithI at starts
  have length := congrArg List.length (of_decide_eq_true starts)
  rw [List.length_map,List.length_take] at length
  omega

/-- A name is looked for on each side of a character that it does not have. -/
theorem replaceAllI_append (some_ : name ≠ []) (apart : c.toLower ∉ name) {skip : Nat} (x y : List Char) (within : skip ≤ x.length) :
    replaceAllI name replacement skip (x ++ c :: y) = replaceAllI name replacement skip x ++ c :: replaceAllI name replacement 0 y := by
  induction x generalizing skip with
  | nil =>
    obtain rfl : skip = 0 := Nat.le_zero.mp within
    have notHere : ¬ startsWithI name (c :: y) = true := by
      have empty := startsWithI_append apart [] y
      rw [List.nil_append] at empty
      rw [empty]
      intro starts
      exact some_ (List.length_eq_zero_iff.mp (Nat.le_zero.mp (startsWithI_length starts)))
    have nothing : replaceAllI name replacement 0 [] = [] := by simp [replaceAllI]
    rw [List.nil_append,nothing,List.nil_append,replaceAllI,if_neg notHere]
  | cons d x ih =>
    cases skip with
    | succ skip =>
      rw [List.cons_append,replaceAllI,replaceAllI]
      exact ih (Nat.le_of_succ_le_succ within)
    | zero =>
      have same := startsWithI_append apart (d :: x) y
      rw [List.cons_append] at same
      rw [List.cons_append,replaceAllI,replaceAllI,same]
      split_ifs with starts
      · have length := startsWithI_length starts
        rw [List.length_cons] at length
        rw [ih (by omega),List.append_assoc]
      · rw [ih (Nat.zero_le _),List.cons_append]

theorem startsWithI_lower (text : List Char) : startsWithI name (lower text) = startsWithI name text := by
  have again : (Char.toLower ∘ Char.toLower) = Char.toLower := funext toLower_toLower
  unfold startsWithI lower
  rw [← List.map_take,List.map_map,again]

/-- Names are found in letters of any case. -/
theorem lower_replaceAllI (small : lower replacement = replacement) (skip : Nat) (text : List Char) :
    lower (replaceAllI name replacement skip text) = replaceAllI name replacement skip (lower text) := by
  induction text generalizing skip with
  | nil => cases skip <;> simp [replaceAllI,lower]
  | cons d text ih =>
    cases skip with
    | succ skip => exact ih skip
    | zero =>
      have same : startsWithI name (d.toLower :: lower text) = startsWithI name (d :: text) := startsWithI_lower (d :: text)
      change lower (replaceAllI name replacement 0 (d :: text)) = replaceAllI name replacement 0 (d.toLower :: lower text)
      rw [replaceAllI,replaceAllI,same]
      split_ifs
      · rw [lower_append,small,ih]
      · exact congrArg (d.toLower :: ·) (ih 0)

end

end Dbos.Js
