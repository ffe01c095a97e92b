import Dbos.Crontab
import Dbos.Js.Number
import Dbos.Pg.Loop
import Dbos.Pg.Search

/-!
How a crontab becomes the six expressions of a `TimeMatcher`: `convertExpression` and `validateCrontab` of
`src/scheduler/crontab.ts`. The conversion rewrites the fields as texts; what is validated is what it has made of them. Its loops run on a
budget. A range is written out in an array, whose length is bounded.
-/
namespace Dbos.Crontab
open Dbos.Pg Dbos.Js

inductive Thrown
  | typeError
  | rangeError
  | error (message : List Char)
  deriving DecidableEq

/-- How long an array may get: the language has `2 ^ 32 - 1`, and an engine may have less. -/
class Engine where
  maxArray : Nat
  enough : 60 ≤ maxArray

theorem ecmaScript_enough : 60 ≤ 4294967295 := by decide

@[reducible] def ecmaScript : Engine := ⟨4294967295,ecmaScript_enough⟩

/-! ### Fields -/

def removeExtraSpaces (str : List Char) : List Char := trim (collapseSpaces [] str)

def prependSecondExpression (expressions : List (List Char)) : List (List Char) :=
  if expressions.length = 5 then ['0'] :: expressions else expressions

/-! ### Names -/

def months : List (List Char) :=
  ["january","february","march","april","may","june","july","august","september","october","november","december"].map String.toList

def shortMonths : List (List Char) := ["jan","feb","mar","apr","may","jun","jul","aug","sep","oct","nov","dec"].map String.toList

def weekDays : List (List Char) := ["sunday","monday","tuesday","wednesday","thursday","friday","saturday"].map String.toList

def shortWeekDays : List (List Char) := ["sun","mon","tue","wed","thu","fri","sat"].map String.toList

/-- One name after another is replaced by its number. -/
def convertNames (expression : List Char) (items : List (List Char)) (first : Nat) : List Char :=
  items.zipIdx.foldl (fun expression item => replaceAllI item.1 (Nat.toDigits 10 (first + item.2)) 0 expression) expression

def convertMonthNameI (expression : List Char) (items : List (List Char)) : List Char := convertNames expression items 1

def monthNamesConversion (monthExpression : List Char) : List Char :=
  convertMonthNameI (convertMonthNameI monthExpression months) shortMonths

def convertWeekDayName (weekExpression : List Char) (items : List (List Char)) : List Char := convertNames weekExpression items 0

def weekDayNamesConversion (expression : List Char) : List Char :=
  convertWeekDayName (convertWeekDayName expression weekDays) shortWeekDays

/-- The names of months and of days of the week. The fifth field may be missing, and is then `undefined`. -/
def convertFieldNames (expressions : List (List Char)) : Except Thrown (List (List Char)) :=
  if expressions.length < 6 then .error .typeError else .ok ((expressions.modify 4 monthNamesConversion).modify 5 weekDayNamesConversion)

/-! ### Asterisks -/

def convertAsterisk (expression replacement : List Char) : List Char :=
  if '*' ∈ expression then replaceFirst '*' replacement expression else expression

def asteriskRanges : List (List Char) := ["0-59","0-59","0-23","1-31","1-12","0-6"].map String.toList

def convertAsterisksToRanges (expressions : List (List Char)) : List (List Char) :=
  expressions.mapIdx fun i expression => (asteriskRanges[i]?).elim expression (convertAsterisk expression)

/-! ### Ranges -/

structure Counting where
  i : Number
  numbers : List (List Char)

section
variable [Engine]

/-- The loop of `replaceWithRange`. `push` throws where the array cannot get longer. -/
def countTurn (last : Number) (s : Counting) : Except Thrown (List (List Char)) ⊕ Counting :=
  if s.i.le last then
    if s.numbers.length < Engine.maxArray then .inr ⟨s.i.addOne,s.numbers ++ [s.i.toString]⟩ else .inl (.error .rangeError)
  else .inl (.ok s.numbers)

def countUp (fuel : Nat) (first last : Number) : Option (Except Thrown (List (List Char))) :=
  loop (fun _ s => some (countTurn last s)) fuel ⟨first,[]⟩

def replaceWithRange (fuel : Nat) (expression text init end_ : List Char) : Option (Except Thrown (List Char)) :=
  let last := parseInt end_
  let first := parseInt init
  let numbers := if last.lt first then countUp fuel last first else countUp fuel first last
  numbers.map fun numbers => numbers.map fun numbers => replaceText text (join ',' numbers) expression

end

/-- `/(\d+)-(\d+)/.exec(expression)`: the two numbers of the first match. -/
def rangeRegEx : List Char → Option (List Char × List Char)
  | [] => none
  | c :: rest =>
    let init := (c :: rest).takeWhile Char.isDigit
    let after := (c :: rest).dropWhile Char.isDigit
    let end_ := after.tail.takeWhile Char.isDigit
    if init ≠ [] ∧ after.head? = some '-' ∧ end_ ≠ [] then some (init,end_) else rangeRegEx rest

section
variable [Engine]

def afterReplacing : Except Thrown (List Char) → Except Thrown (List Char) ⊕ List Char
  | .ok expression => .inr expression
  | .error thrown => .inl (.error thrown)

/-- The loop of `convertRange`. -/
def rangeTurn (fuel : Nat) (expression : List Char) : Option (Except Thrown (List Char) ⊕ List Char) :=
  match rangeRegEx expression with
  | none => some (.inl (.ok expression))
  | some (init,end_) => (replaceWithRange fuel expression (init ++ '-' :: end_) init end_).map afterReplacing

def convertRange (fuel : Nat) (expression : List Char) : Option (Except Thrown (List Char)) := loop rangeTurn fuel expression

/-- The first field that throws ends the conversion. -/
def convertAllRanges (fuel : Nat) (expressions : List (List Char)) : Option (Except Thrown (List (List Char))) :=
  (expressions.mapM (convertRange fuel)).map fun results => results.mapM id

end

/-! ### Steps -/

/-- `/^(.+)\/(\w+)$/.exec(expression)`: what stands before the last slash, and after it. -/
def stepValuePattern (expression : List Char) : Option (List Char × List Char) :=
  let word := (expression.reverse.takeWhile (· ≠ '/')).reverse
  let base := (expression.reverse.dropWhile (· ≠ '/')).tail.reverse
  if '/' ∈ expression ∧ base ≠ [] ∧ base.all (fun c => !isLineTerminator c) ∧ word ≠ [] ∧ word.all isWordChar then some (base,word) else none

def convertStep (expression : List Char) : Except Thrown (List Char) :=
  match stepValuePattern expression with
  | none => .ok expression
  | some (base,baseDivider) =>
    if parseInt baseDivider = .nan then .error (.error (baseDivider ++ " is not a valid step value".toList))
    else
      let divider := parseInt baseDivider (some 10)
      let values := (split ',' base).map fun value => parseInt value (some 10)
      -- the loop runs one past the end, where `parseInt(undefined)` is no multiple of anything
      .ok (join ',' ((values.filter fun value => value.isMultiple divider).map Number.toString))

def convertSteps (expressions : List (List Char)) : Except Thrown (List (List Char)) := expressions.mapM convertStep

/-! ### Normalization -/

def normalizeInteger (number : List Char) : List Char := (parseInt number).toString

def normalizeIntegers (expressions : List (List Char)) : List (List Char) :=
  expressions.map fun expression => join ',' ((split ',' expression).map normalizeInteger)

/-- Sunday is 0, and no day is listed twice. -/
def foldSundaySeven (expression : List Char) : List Char :=
  join ',' (((split ',' expression).map fun value => if value = ['7'] then ['0'] else value).foldl addTo [])

def convertSundaySeven (expressions : List (List Char)) : List (List Char) := expressions.modify 5 foldSundaySeven

/-! ### convertExpression -/

/-- The fields with their names and asterisks replaced. -/
def convertedFields (crontab : List Char) : Except Thrown (List (List Char)) :=
  (convertFieldNames (prependSecondExpression (split ' ' (removeExtraSpaces crontab)))).map convertAsterisksToRanges

/-- What is left to do when the ranges have been written out. -/
def finishExpressions (expressions : List (List Char)) : Except Thrown (List Char) :=
  (convertSteps expressions).map fun expressions => join ' ' (convertSundaySeven (normalizeIntegers expressions))

def convertExpression [Engine] (fuel : Nat) (crontab : List Char) : Option (Except Thrown (List Char)) :=
  match convertedFields crontab with
  | .error thrown => some (.error thrown)
  | .ok expressions => (convertAllRanges fuel expressions).map fun converted => converted.bind finishExpressions

/-! ### validateCrontab -/

/-- `/^(?:\d+|\*|\*\/\d+)$/`. -/
def validationRegex (option : List Char) : Bool :=
  let digits := fun text : List Char => text ≠ [] && text.all Char.isDigit
  digits option || option = ['*'] || (option.take 2 = ['*','/'] && digits (option.drop 2))

def isValidExpression (expression : List Char) (min max : Int) : Bool :=
  (split ',' expression).all fun option =>
    let optionAsInt := parseInt option (some 10)
    !((optionAsInt ≠ .nan && (optionAsInt.lt (.finite min) || (Number.finite max).lt optionAsInt)) || !validationRegex option)

def isInvalidSecond (expression : List Char) : Bool := !isValidExpression expression 0 59

def isInvalidMinute (expression : List Char) : Bool := !isValidExpression expression 0 59

def isInvalidHour (expression : List Char) : Bool := !isValidExpression expression 0 23

def isInvalidDayOfMonth (expression : List Char) : Bool := !isValidExpression expression 1 31

def isInvalidMonth (expression : List Char) : Bool := !isValidExpression expression 1 12

def isInvalidWeekDay (expression : List Char) : Bool := !isValidExpression expression 0 7

/-- `${patterns[i]}`. -/
def patternText (patterns : List (List Char)) (i : Nat) : List Char := (patterns[i]?).getD "undefined".toList

/-- The error that is thrown. -/
def validateFields (patterns executablePatterns : List (List Char)) : Option (List Char) :=
  let executable := fun i => (executablePatterns[i]?).getD []
  if isInvalidSecond (executable 0) then some (patternText patterns 0 ++ " is a invalid expression for second".toList)
  else if isInvalidMinute (executable 1) then some (patternText patterns 1 ++ " is a invalid expression for minute".toList)
  else if isInvalidHour (executable 2) then some (patternText patterns 2 ++ " is a invalid expression for hour".toList)
  else if isInvalidDayOfMonth (executable 3) then some (patternText patterns 3 ++ " is a invalid expression for day of month".toList)
  else if isInvalidMonth (executable 4) then some (patternText patterns 4 ++ " is a invalid expression for month".toList)
  else if isInvalidWeekDay (executable 5) then some (patternText patterns 5 ++ " is a invalid expression for week day".toList)
  else none

def validateExecutable (pattern executable : List Char) : Except Thrown (List Char) :=
  let patterns := split ' ' pattern
  let executablePatterns := split ' ' executable
  match validateFields (if patterns.length = 5 then ['0'] :: patterns else patterns) executablePatterns with
  | some message => .error (.error message)
  | none => .ok (join ' ' executablePatterns)

def validateCrontab [Engine] (fuel : Nat) (pattern : List Char) : Option (Except Thrown (List Char)) :=
  (convertExpression fuel pattern).map fun converted => converted.bind (validateExecutable pattern)

/-- The constructor of `TimeMatcher`, for the clock that `#apply` reads. -/
def newTimeMatcher [Engine] (calendar : Calendar) (fuel : Nat) (pattern : List Char) : Option (Except Thrown TimeMatcher) := do
  let validated ← validateCrontab fuel pattern
  let converted ← convertExpression fuel pattern
  some (validated.bind fun _ => converted.map fun expression =>
    let expressions := split ' ' expression
    let text := fun i => String.ofList ((expressions[i]?).getD [])
    { calendar, second := text 0, minute := text 1, hour := text 2, dayOfMonth := text 3, month := text 4, weekDay := text 5 })

end Dbos.Crontab
