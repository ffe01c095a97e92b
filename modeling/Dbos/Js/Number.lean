import Dbos.Js.Text
import Mathlib.Tactic.IntervalCases

/-!
Whole numbers of JavaScript. They are exact up to `2 ^ 53`, are rounded to an even significand above it, and are infinite where the
largest double is exceeded. A zero with a sign is a zero.
-/
namespace Dbos.Js

/-! ### Doubles -/

/-- The first number that is not a double any more. -/
def doubleLimit : Nat := 2 ^ 1024

/-- The double next to a whole number, and the even one of two; `none` is infinite. -/
def roundDouble (n : Nat) : Option Nat :=
  let ulp := 2 ^ (n.log2 - 52)
  let significand := n / ulp
  let rest := 2 * (n % ulp)
  let rounded := if ulp < rest ∨ (rest = ulp ∧ significand % 2 = 1) then significand + 1 else significand
  if rounded * ulp < doubleLimit then some (rounded * ulp) else none

inductive Number
  | nan
  | finite (n : Int)
  | infinite (negative : Bool)
  deriving DecidableEq

namespace Number

def ofNat (negative : Bool) (n : Nat) : Number :=
  match roundDouble n with
  | some m => .finite (if negative then -m else m)
  | none => .infinite negative

/-- `a < b`. -/
def lt : Number → Number → Bool
  | nan,_ => false
  | _,nan => false
  | finite a,finite b => a < b
  | finite _,infinite negative => !negative
  | infinite negative,finite _ => negative
  | infinite negative,infinite negative' => negative && !negative'

/-- `a <= b`. -/
def le : Number → Number → Bool
  | nan,_ => false
  | _,nan => false
  | a,b => !b.lt a

/-- `a + 1`. -/
def addOne : Number → Number
  | finite n => if 0 ≤ n then ofNat false (n.toNat + 1) else ofNat true (n.natAbs - 1)
  | a => a

/-- `a - 1`. -/
def subOne : Number → Number
  | finite n => if 1 ≤ n then ofNat false (n.toNat - 1) else ofNat true (n.natAbs + 1)
  | a => a

/-- `Number.isFinite`. -/
def isFinite : Number → Bool
  | finite _ => true
  | _ => false

/-- `a % b === 0`. -/
def isMultiple : Number → Number → Bool
  | finite a,finite b => b ≠ 0 && a % b = 0
  | finite a,infinite _ => a = 0
  | _,_ => false

end Number

/-! ### parseInt -/

def isHexDigit (c : Char) : Bool := c.isDigit || ('a' ≤ c.toLower && c.toLower ≤ 'f')

def hexDigitValue (c : Char) : Nat := if c.isDigit then c.toNat - '0'.toNat else c.toLower.toNat - 'a'.toNat + 10

def decimal (digits : List Char) : Nat := Nat.ofDigitChars 10 digits 0

def hexadecimal (digits : List Char) : Nat := digits.foldl (fun value c => 16 * value + hexDigitValue c) 0

/-- The number that the digits at the head of a text are; without a radix they may be hexadecimal ones. -/
def parseUnsigned (radix : Option Nat) (negative : Bool) (number : List Char) : Number :=
  if radix = none ∧ number.head? = some '0' ∧ (number.tail.head? = some 'x' ∨ number.tail.head? = some 'X') then
    let digits := (number.drop 2).takeWhile isHexDigit
    if digits = [] then .nan else .ofNat negative (hexadecimal digits)
  else
    let digits := number.takeWhile Char.isDigit
    if digits = [] then .nan else .ofNat negative (decimal digits)

/-- `parseInt(text)`, and `parseInt(text, 10)`. -/
def parseInt (text : List Char) (radix : Option Nat := none) : Number :=
  let signed := text.dropWhile isSpace
  parseUnsigned radix (signed.head? = some '-') (if signed.head? = some '-' ∨ signed.head? = some '+' then signed.tail else signed)

/-! ### toString -/

/-- The multiple of a power of ten next to a double, if it reads as the double. -/
def nearestMultiple (n exponent : Nat) : Option Nat :=
  let power := 10 ^ exponent
  let low := n / power * power
  let rest := 2 * (n - low)
  (if rest < power ∨ (rest = power ∧ n / power % 2 = 0) then [low,low + power] else [low + power,low]).find? fun m => roundDouble m = some n

/-- The number with the fewest significant digits that reads as the double. -/
def shortest (n : Nat) : Nat := ((List.range (Nat.toDigits 10 n).length).reverse.findSome? (nearestMultiple n)).getD n

def exponential (n : Nat) : List Char :=
  let digits := Nat.toDigits 10 n
  let significant := (digits.reverse.dropWhile (· = '0')).reverse
  significant.take 1 ++ (if significant.tail = [] then [] else '.' :: significant.tail) ++ 'e' :: '+' :: Nat.toDigits 10 (digits.length - 1)

def natToString (n : Nat) : List Char := if n < 10 ^ 21 then Nat.toDigits 10 (shortest n) else exponential (shortest n)

def Number.toString : Number → List Char
  | nan => "NaN".toList
  | finite n => (if n < 0 then ['-'] else []) ++ natToString n.natAbs
  | infinite negative => (if negative then ['-'] else []) ++ "Infinity".toList

/-- Above `2 ^ 53`, every other number is a double, and the digits are those that tell a double from its neighbours. -/
example : [9007199254740993,9007199254740995,1152921504606846976,123456789012345678901234].map (fun n => (Number.ofNat false n).toString) =
    ["9007199254740992".toList,"9007199254740996".toList,"1152921504606847000".toList,"1.2345678901234569e+23".toList] := by decide +kernel

/-! ### Rounding -/

theorem roundDouble_of_dvd {n : Nat} (whole : 2 ^ (n.log2 - 52) ∣ n) (small : n < doubleLimit) : roundDouble n = some n := by
  have positive : 0 < 2 ^ (n.log2 - 52) := Nat.two_pow_pos _
  have rest : n % 2 ^ (n.log2 - 52) = 0 := Nat.mod_eq_zero_of_dvd whole
  have back : n / 2 ^ (n.log2 - 52) * 2 ^ (n.log2 - 52) = n := Nat.div_mul_cancel whole
  have down : ¬ (2 ^ (n.log2 - 52) < 2 * 0 ∨ 2 * 0 = 2 ^ (n.log2 - 52) ∧ n / 2 ^ (n.log2 - 52) % 2 = 1) := by omega
  unfold roundDouble
  simp only [rest]
  rw [if_neg down,back,if_pos small]

theorem lt_doubleLimit {n : Nat} (small : n < 2 ^ 55) : n < doubleLimit := by
  unfold doubleLimit
  refine small.trans ?_
  rw [Nat.pow_lt_pow_iff_right (Nat.lt_succ_self 1)]
  decide

theorem roundDouble_small {n : Nat} (small : n ≤ 2 ^ 53) : roundDouble n = some n := by
  refine roundDouble_of_dvd ?_ (lt_doubleLimit (by omega))
  rcases Nat.lt_or_eq_of_le small with less | rfl
  · have exponent : n.log2 - 52 = 0 := by
      by_cases zero : n = 0
      · rw [zero]
        rfl
      · have := (Nat.log2_lt zero).mpr less
        omega
    rw [exponent,Nat.pow_zero]
    exact Nat.one_dvd n
  · rw [Nat.log2_two_pow]
    exact Nat.pow_dvd_pow 2 (by decide)

/-- The significand and the unit of a rounded number. -/
theorem roundDouble_parts {n m : Nat} (rounded : roundDouble n = some m) :
    ∃ significand,m = significand * 2 ^ (n.log2 - 52) ∧ n / 2 ^ (n.log2 - 52) ≤ significand ∧ significand ≤ 2 ^ 53 ∧ m < doubleLimit := by
  have bound : n / 2 ^ (n.log2 - 52) < 2 ^ 53 := by
    rw [Nat.div_lt_iff_lt_mul (Nat.two_pow_pos _),← Nat.pow_add]
    exact Nat.lt_log2_self.trans_le (Nat.pow_le_pow_right (by decide) (by omega))
  unfold roundDouble at rounded
  dsimp only at rounded
  split_ifs at rounded with up small small
  · exact ⟨_,(Option.some.inj rounded).symm,by omega,by omega,Option.some.inj rounded ▸ small⟩
  · exact ⟨_,(Option.some.inj rounded).symm,by omega,by omega,Option.some.inj rounded ▸ small⟩

/-- What has been rounded is a double. -/
theorem roundDouble_idem {n m : Nat} (rounded : roundDouble n = some m) : roundDouble m = some m := by
  obtain ⟨significand,value,-,bound,small⟩ := roundDouble_parts rounded
  refine roundDouble_of_dvd ?_ small
  by_cases zero : significand = 0
  · rw [value,zero,Nat.zero_mul]
    exact Nat.dvd_zero _
  · have some_ : m ≠ 0 := by
      rw [value]
      exact Nat.mul_ne_zero zero (Nat.two_pow_pos _).ne'
    by_cases full : significand = 2 ^ 53
    · have power : m = 2 ^ (53 + (n.log2 - 52)) := by rw [value,full,← Nat.pow_add]
      rw [power,Nat.log2_two_pow]
      exact Nat.pow_dvd_pow 2 (by omega)
    · have log : m.log2 < 53 + (n.log2 - 52) := by
        rw [Nat.log2_lt some_,Nat.pow_add,value]
        exact Nat.mul_lt_mul_of_pos_right (by omega) (Nat.two_pow_pos _)
      rw [value] at log ⊢
      exact (Nat.pow_dvd_pow 2 (by omega)).trans (Nat.dvd_mul_left _ _)

theorem roundDouble_large {n m : Nat} (large : 2 ^ 53 ≤ n) (rounded : roundDouble n = some m) : 2 ^ 53 ≤ m := by
  obtain ⟨significand,value,least,-,-⟩ := roundDouble_parts rounded
  have log : 53 ≤ n.log2 := (Nat.le_log2 (by omega)).mpr large
  have split_ : n.log2 = 52 + (n.log2 - 52) := by omega
  have self : 2 ^ 52 * 2 ^ (n.log2 - 52) ≤ n := by
    rw [← Nat.pow_add,← split_]
    exact Nat.log2_self_le (by omega)
  have half : 2 ^ 52 ≤ n / 2 ^ (n.log2 - 52) := (Nat.le_div_iff_mul_le (Nat.two_pow_pos _)).mpr self
  have even : 2 ^ 1 ≤ 2 ^ (n.log2 - 52) := Nat.pow_le_pow_right (by decide) (by omega)
  rw [value]
  calc 2 ^ 53 = 2 ^ 52 * 2 ^ 1 := by decide
    _ ≤ significand * 2 ^ (n.log2 - 52) := Nat.mul_le_mul (half.trans least) even

/-- What reads as a small number is the small number. -/
theorem roundDouble_eq_small {n m : Nat} (small : m < 2 ^ 53) (rounded : roundDouble n = some m) : n = m := by
  by_cases large : 2 ^ 53 ≤ n
  · have := roundDouble_large large rounded
    omega
  · rw [roundDouble_small (by omega)] at rounded
    exact Option.some.inj rounded

/-- From `2 ^ 53` on the successor of a double is rounded back to it, but for the odd significands before `2 ^ 54`. -/
theorem roundDouble_next {m : Nat} (double : roundDouble m = some m) (large : 2 ^ 53 ≤ m) :
    roundDouble (m + 1) = some (if m < 2 ^ 54 ∧ m % 4 = 2 then m + 2 else m) := by
  obtain ⟨significand,value,-,-,small⟩ := roundDouble_parts double
  have log : 53 ≤ m.log2 := (Nat.le_log2 (by omega)).mpr large
  obtain ⟨e,exponent⟩ : ∃ e,m.log2 = 53 + e := ⟨m.log2 - 53,by omega⟩
  have ulp : 2 ^ (m.log2 - 52) = 2 * 2 ^ e := by
    rw [exponent,show 53 + e - 52 = e + 1 by omega,Nat.pow_succ,Nat.mul_comm]
  have positive : 0 < 2 ^ e := Nat.two_pow_pos e
  rw [ulp] at value
  have power : 2 ^ (53 + e + 1) = 2 ^ 53 * (2 * 2 ^ e) := by
    rw [Nat.pow_succ,Nat.pow_add,Nat.mul_assoc,Nat.mul_comm (2 ^ e) 2]
  have upper : m < 2 ^ 53 * (2 * 2 ^ e) := by
    have self := Nat.lt_log2_self (n := m)
    rwa [exponent,power] at self
  have bound : significand < 2 ^ 53 := Nat.lt_of_mul_lt_mul_right (value ▸ upper)
  have room : m + 2 * 2 ^ e ≤ 2 ^ 53 * (2 * 2 ^ e) := by
    calc m + 2 * 2 ^ e = (significand + 1) * (2 * 2 ^ e) := by rw [value,Nat.add_mul,Nat.one_mul]
      _ ≤ 2 ^ 53 * (2 * 2 ^ e) := Nat.mul_le_mul_right _ bound
  have sameLog : (m + 1).log2 = m.log2 := by
    rw [Nat.log2_eq_iff (by omega),exponent]
    constructor
    · have self := Nat.log2_self_le (n := m) (by omega)
      rw [exponent] at self
      omega
    · rw [power]
      omega
  have quotient : (m + 1) / (2 * 2 ^ e) = significand := by
    rw [value,Nat.add_comm,Nat.add_mul_div_right _ _ (by omega),Nat.div_eq_of_lt (by omega),Nat.zero_add]
  have remainder : (m + 1) % (2 * 2 ^ e) = 1 := by
    rw [value,Nat.add_comm,Nat.add_mul_mod_self_right,Nat.mod_eq_of_lt (by omega)]
  unfold roundDouble
  simp only [sameLog,ulp,quotient,remainder]
  by_cases first : e = 0
  · subst first
    have below : m < 2 ^ 54 := by omega
    simp only [Nat.pow_zero,Nat.mul_one] at value ⊢
    have fits : m + 2 < doubleLimit := lt_doubleLimit (by omega)
    by_cases odd : significand % 2 = 1
    · have up : 2 < 2 ∨ True ∧ significand % 2 = 1 := .inr ⟨trivial,odd⟩
      have next : (significand + 1) * 2 = m + 2 := by omega
      rw [if_pos up,next,if_pos fits,if_pos ⟨below,by omega⟩]
    · have down : ¬ (2 < 2 ∨ True ∧ significand % 2 = 1) := by omega
      rw [if_neg down,← value,if_pos small,if_neg (fun odd_ => odd (by omega))]
  · obtain ⟨e,rfl⟩ := Nat.exists_eq_succ_of_ne_zero first
    have above : ¬ m < 2 ^ 54 := by
      have self := Nat.log2_self_le (n := m) (by omega)
      have least : 2 ^ 54 ≤ 2 ^ m.log2 := Nat.pow_le_pow_right (by decide) (by omega)
      omega
    have wide : 2 ≤ 2 ^ (e + 1) := by
      rw [Nat.pow_succ]
      have := Nat.two_pow_pos e
      omega
    have down : ¬ (2 * 2 ^ (e + 1) < 2 * 1 ∨ 2 * 1 = 2 * 2 ^ (e + 1) ∧ significand % 2 = 1) := by omega
    rw [if_neg down,← value,if_pos small,if_neg fun odd => above odd.1]

theorem double_even {n : Nat} (double : roundDouble n = some n) (large : 2 ^ 53 ≤ n) : n % 2 = 0 := by
  obtain ⟨significand,value,-,-,-⟩ := roundDouble_parts double
  have log : 53 ≤ n.log2 := (Nat.le_log2 (by omega)).mpr large
  have unit : 2 ^ 1 ∣ 2 ^ (n.log2 - 52) := Nat.pow_dvd_pow 2 (by omega)
  rw [value]
  exact Nat.mod_eq_zero_of_dvd (unit.trans (Nat.dvd_mul_left _ _))

/-! ### Digits -/

theorem digit_cases {c : Char} (digit : c.isDigit = true) : c ∈ "0123456789".toList := by
  obtain ⟨low,high⟩ : 48 ≤ c.toNat ∧ c.toNat ≤ 57 := Char.isDigit_iff_toNat.mp digit
  rw [← Char.ofNat_toNat c]
  interval_cases c.toNat <;> decide

theorem digit_not_space {c : Char} (digit : c.isDigit = true) : isSpace c = false := by
  have spaces : ∀ d ∈ "0123456789".toList,isSpace d = false := by decide
  exact spaces c (digit_cases digit)

theorem ne_of_digit {c d : Char} (digit : c.isDigit = true) (other : d.isDigit = false) : c ≠ d := by
  rintro rfl
  rw [digit] at other
  cases other

/-- A run of digits that stands for itself. -/
def Digits (text : List Char) : Prop := text ≠ [] ∧ ∀ c ∈ text,c.isDigit = true

theorem digits_toDigits (n : Nat) : Digits (Nat.toDigits 10 n) :=
  ⟨Nat.toDigits_ne_nil,fun _ listed => Nat.isDigit_of_mem_toDigits (by decide) (by decide) listed⟩

theorem decimal_toDigits (n : Nat) : decimal (Nat.toDigits 10 n) = n := Nat.ofDigitChars_ten_toDigits

/-- The number that a text begins with is the run of digits at its head. Only `0x` goes on otherwise. -/
theorem parseInt_append {digits rest : List Char} (run : Digits digits) (ends : ∀ c ∈ rest.head?,c.isDigit = false ∧ c ≠ 'x' ∧ c ≠ 'X')
    (radix : Option Nat) : parseInt (digits ++ rest) radix = .ofNat false (decimal digits) := by
  obtain ⟨some_,all⟩ := run
  obtain ⟨c,more,rfl⟩ := List.exists_cons_of_ne_nil some_
  have digit := all c List.mem_cons_self
  have unspaced : (c :: more ++ rest).dropWhile isSpace = c :: more ++ rest := by
    rw [List.cons_append,List.dropWhile_cons_of_neg (by rw [digit_not_space digit]; decide)]
  have plus : c ≠ '+' := ne_of_digit digit rfl
  have minus : c ≠ '-' := ne_of_digit digit rfl
  have taken : (c :: more ++ rest).takeWhile Char.isDigit = c :: more := by
    rw [List.takeWhile_append_of_pos all]
    cases rest with
    | nil => simp
    | cons d rest =>
      rw [List.takeWhile_cons_of_neg (by rw [(ends d rfl).1]; decide)]
      exact List.append_nil _
  have plain : ∀ d ∈ (more ++ rest).head?,d ≠ 'x' ∧ d ≠ 'X' := by
    intro d first
    cases more with
    | nil => exact (ends d first).2
    | cons e more =>
      cases first
      have digit' := all d (by simp)
      exact ⟨ne_of_digit digit' rfl,ne_of_digit digit' rfl⟩
  have decimal_ : ¬ (radix = none ∧ (c :: more ++ rest).head? = some '0' ∧
      ((c :: more ++ rest).tail.head? = some 'x' ∨ (c :: more ++ rest).tail.head? = some 'X')) := by
    rintro ⟨-,-,x | x⟩
    · exact (plain _ x).1 rfl
    · exact (plain _ x).2 rfl
  have signed : ¬ ((c :: more ++ rest).head? = some '-' ∨ (c :: more ++ rest).head? = some '+') := by simp [minus,plus]
  have positive : ¬ (c :: more ++ rest).head? = some '-' := by simp [minus]
  unfold parseInt parseUnsigned
  dsimp only
  rw [unspaced,if_neg signed,if_neg decimal_,taken,if_neg (List.cons_ne_nil _ _),decide_eq_false positive]

theorem parseInt_digits {digits : List Char} (run : Digits digits) (radix : Option Nat) :
    parseInt digits radix = .ofNat false (decimal digits) := by
  have ends : ∀ c ∈ ([] : List Char).head?,c.isDigit = false ∧ c ≠ 'x' ∧ c ≠ 'X' := fun c none_ => by cases none_
  have read := parseInt_append run ends radix
  rwa [List.append_nil] at read

theorem ofNat_round {n m : Nat} (rounded : roundDouble n = some m) : Number.ofNat false n = .finite m := by
  unfold Number.ofNat
  rw [rounded]
  rfl

theorem round_of_ofNat {n m : Nat} (value : Number.ofNat false n = .finite m) : roundDouble n = some m := by
  unfold Number.ofNat at value
  cases rounded : roundDouble n with
  | none =>
    rw [rounded] at value
    cases value
  | some k =>
    rw [rounded] at value
    simpa using value

theorem ofNat_small {n : Nat} (small : n ≤ 2 ^ 53) : Number.ofNat false n = .finite n := ofNat_round (roundDouble_small small)

/-! ### Natural numbers -/

theorem lt_finite (m n : Nat) : (Number.finite m).lt (.finite n) = decide (m < n) := by simp [Number.lt]

theorem le_finite (m n : Nat) : (Number.finite m).le (.finite n) = decide (m ≤ n) := by
  have total : decide (n < m) = !decide (m ≤ n) := by
    rw [← decide_not,decide_eq_decide,Nat.not_le]
  simp [Number.le,Number.lt,total]

theorem addOne_finite (n : Nat) : (Number.finite n).addOne = Number.ofNat false (n + 1) := by simp [Number.addOne]

theorem subOne_finite (n : Nat) : (Number.finite (n + 1 : Nat)).subOne = Number.ofNat false n := by
  have positive : (1 : Int) ≤ ((n + 1 : Nat) : Int) := by omega
  simp only [Number.subOne,if_pos positive,Int.toNat_natCast,Nat.add_sub_cancel]

theorem positive_finite (n : Nat) : (Number.finite 0).lt (.finite n) = decide (0 < n) := lt_finite 0 n

/-! ### The text of a number -/

theorem toString_finite (n : Nat) : (Number.finite n).toString = natToString n := by simp [Number.toString]

theorem shortest_reads {n : Nat} (double : roundDouble n = some n) : roundDouble (shortest n) = some n := by
  unfold shortest
  cases found : (List.range (Nat.toDigits 10 n).length).reverse.findSome? (nearestMultiple n) with
  | none => exact double
  | some m =>
    obtain ⟨exponent,-,near⟩ := List.exists_of_findSome?_eq_some found
    unfold nearestMultiple at near
    dsimp only at near
    have reads := List.find?_some near
    exact of_decide_eq_true reads

theorem shortest_small {n : Nat} (small : n < 2 ^ 53) : shortest n = n :=
  roundDouble_eq_small small (shortest_reads (roundDouble_small small.le))

theorem natToString_small {n : Nat} (small : n < 2 ^ 53) : natToString n = Nat.toDigits 10 n := by
  unfold natToString
  rw [if_pos (small.trans (by decide)),shortest_small small]

theorem natToString_digits {n : Nat} (plain : n < 10 ^ 21) : Digits (natToString n) := by
  unfold natToString
  rw [if_pos plain]
  exact digits_toDigits _

/-- Below `10 ^ 21` a double has digits that read as the double. -/
theorem natToString_reads {n : Nat} (double : roundDouble n = some n) (plain : n < 10 ^ 21) :
    roundDouble (decimal (natToString n)) = some n := by
  unfold natToString
  rw [if_pos plain,decimal_toDigits]
  exact shortest_reads double

theorem parseInt_natToString {n : Nat} (double : roundDouble n = some n) (plain : n < 10 ^ 21) (radix : Option Nat) :
    parseInt (natToString n) radix = .finite n := by
  rw [parseInt_digits (natToString_digits plain),ofNat_round (natToString_reads double plain)]

theorem exponential_not_digits (n : Nat) : ¬ ∀ c ∈ exponential n,c.isDigit = true := by
  intro all
  have letter := all 'e' (by simp [exponential])
  cases letter

theorem natToString_chars (n : Nat) : natToString n ≠ [] ∧ ∀ c ∈ natToString n,c.isDigit = true ∨ c ∈ ['.','e','+'] := by
  unfold natToString
  split_ifs with plain
  · have digits := digits_toDigits (shortest n)
    exact ⟨digits.1,fun c listed => .inl (digits.2 c listed)⟩
  · unfold exponential
    have digits := digits_toDigits (shortest n)
    have significant : ∀ c ∈ ((Nat.toDigits 10 (shortest n)).reverse.dropWhile (· = '0')).reverse,c.isDigit = true := by
      intro c listed
      exact digits.2 c (List.mem_reverse.mp ((List.dropWhile_sublist _).subset (List.mem_reverse.mp listed)))
    refine ⟨by simp,fun c listed => ?_⟩
    dsimp only at listed
    rw [List.mem_append,List.mem_append,List.mem_cons,List.mem_cons] at listed
    rcases listed with (first | rest) | rfl | rfl | exponent
    · exact .inl (significant c (List.mem_of_mem_take first))
    · split_ifs at rest
      · cases rest
      · rcases List.mem_cons.mp rest with rfl | rest
        · exact .inr (by decide)
        · exact .inl (significant c (List.mem_of_mem_tail rest))
    · exact .inr (by decide)
    · exact .inr (by decide)
    · exact .inl ((digits_toDigits _).2 c exponent)

/-- The text of a number can stand in a list. -/
theorem toString_chars (n : Number) : n.toString ≠ [] ∧ ∀ c ∈ n.toString,c ≠ ',' ∧ c ≠ ' ' := by
  cases n with
  | nan => exact ⟨by decide,by decide⟩
  | infinite negative => cases negative <;> exact ⟨by decide,by decide⟩
  | finite n =>
    obtain ⟨some_,chars⟩ := natToString_chars n.natAbs
    refine ⟨by simp [Number.toString,some_],fun c listed => ?_⟩
    rcases List.mem_append.mp listed with sign | listed
    · split_ifs at sign
      · rw [List.mem_singleton.mp sign]
        decide
      · cases sign
    · rcases chars c listed with digit | other
      · exact ⟨ne_of_digit digit rfl,ne_of_digit digit rfl⟩
      · have apart : ∀ d ∈ ['.','e','+'],d ≠ ',' ∧ d ≠ ' ' := by decide
        exact apart c other

/-! ### Numbers that have been read -/

/-- What `parseInt` makes of a text: the numbers of JavaScript that are whole. -/
inductive Number.Whole : Number → Prop
  | nan : Whole .nan
  | finite (n : Int) (double : roundDouble n.natAbs = some n.natAbs) : Whole (.finite n)
  | infinite (negative : Bool) : Whole (.infinite negative)

theorem ofNat_whole (negative : Bool) (n : Nat) : (Number.ofNat negative n).Whole := by
  unfold Number.ofNat
  cases rounded : roundDouble n with
  | none => exact .infinite negative
  | some m =>
    refine .finite _ ?_
    have double := roundDouble_idem rounded
    cases negative <;> simpa using double

theorem parseUnsigned_whole (radix : Option Nat) (negative : Bool) (number : List Char) : (parseUnsigned radix negative number).Whole := by
  unfold parseUnsigned
  dsimp only
  split_ifs
  · exact .nan
  · exact ofNat_whole _ _
  · exact .nan
  · exact ofNat_whole _ _

theorem parseInt_whole (text : List Char) (radix : Option Nat) : (parseInt text radix).Whole := parseUnsigned_whole _ _ _

/-! ### Counters -/

/-- What a counter that never goes below zero may hold. -/
inductive Number.Count : Number → Prop
  | finite (n : Nat) : Count (.finite n)
  | infinite : Count (.infinite false)

theorem ofNat_count (n : Nat) : (Number.ofNat false n).Count := by
  cases rounded : roundDouble n with
  | none =>
    unfold Number.ofNat
    rw [rounded]
    exact .infinite
  | some m =>
    rw [ofNat_round rounded]
    exact .finite m

theorem Number.Count.addOne {a : Number} (count : a.Count) : a.addOne.Count := by
  cases count with
  | finite n =>
    rw [addOne_finite]
    exact ofNat_count _
  | infinite => exact .infinite

/-- A counter is taken from only while it is positive, and so remains one. -/
theorem Number.Count.subOne {a : Number} (count : a.Count) (positive : (Number.finite 0).lt a = true) : a.subOne.Count := by
  cases count with
  | finite n =>
    rw [positive_finite,decide_eq_true_eq] at positive
    obtain ⟨m,rfl⟩ := Nat.exists_eq_add_of_lt positive
    rw [Nat.zero_add,subOne_finite]
    exact ofNat_count m
  | infinite => exact .infinite

theorem Number.Count.zero {a : Number} (count : a.Count) (none_ : (Number.finite 0).lt a = false) : a = .finite 0 := by
  cases count with
  | finite n =>
    rw [positive_finite,decide_eq_false_iff_not] at none_
    obtain rfl : n = 0 := by omega
    rfl
  | infinite => cases none_

end Dbos.Js
