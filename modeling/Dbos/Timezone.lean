import Dbos.CrontabMeaning
import Dbos.Js.Clock

/-!
The time zone of a `TimeMatcher`. `#apply` formats the wall clock of the zone as a text and reads the text as a local time of the host, whose
getters then say what the clock shows. A local time in a gap of the host is moved forward on the way.
-/
namespace Dbos.Crontab
open Dbos.Pg Dbos.Js Dbos.Js.Clock

/-! ### The clock of the schedule -/

/-- `#apply`: the instant whose local fields are compared. The text of a wall clock stands for its local time. -/
def apply (host : Host) (timezone : Option Zone) (date : Int) : Int :=
  match timezone with
  | some zone => host.instant (zone.local_ date)
  | none => date

/-- What the getters say when the clock shows a local time. -/
def fieldsOf (time : Int) : DateFields := ⟨second time,minute time,hour time,Clock.date time,month time,weekDay time⟩

theorem fieldsOf_second {time : Int} {ms : Int} (whole : time % 1000 = 0) (less : 0 ≤ ms ∧ ms < 1000) : fieldsOf (time + ms) = fieldsOf time := by
  have seconds : (time + ms) / 1000 = time / 1000 := by omega
  have minutes : (time + ms) / 60000 = time / 60000 := by omega
  have hours : (time + ms) / 3600000 = time / 3600000 := by omega
  have days : (time + ms) / 86400000 = time / 86400000 := by omega
  simp only [fieldsOf,second,minute,hour,Clock.date,month,weekDay,dayOfYear,dayNumber,seconds,minutes,hours,days]

/-- The calendar of a schedule on a host. -/
def calendar (host : Host) (timezone : Option Zone) : Calendar where
  fields date := fieldsOf (host.local_ (apply host timezone date))
  whole msec := by
    have less : 0 ≤ msec % 1000 ∧ msec % 1000 < 1000 := by omega
    have phase : apply host timezone (msec - msec % 1000) % 1000 = 0 := by
      cases timezone with
      | none =>
        change (msec - msec % 1000) % 1000 = 0
        omega
      | some zone =>
        have read := host.instant_phase (zone.local_ (msec - msec % 1000))
        obtain ⟨-,shown⟩ := zone.local_second (msec - msec % 1000)
        change host.instant (zone.local_ (msec - msec % 1000)) % 1000 = 0
        omega
    have moved : apply host timezone msec = apply host timezone (msec - msec % 1000) + msec % 1000 := by
      cases timezone with
      | none =>
        change msec = msec - msec % 1000 + msec % 1000
        omega
      | some zone =>
        obtain ⟨shown,same⟩ := zone.local_second msec
        have cut : zone.local_ msec - zone.local_ msec % 1000 = zone.local_ (msec - msec % 1000) := by omega
        change host.instant (zone.local_ msec) = host.instant (zone.local_ (msec - msec % 1000)) + msec % 1000
        rw [host.second_,cut,same]
    obtain ⟨shown,-⟩ := host.local_second (apply host timezone msec)
    have cut : apply host timezone msec - apply host timezone msec % 1000 = apply host timezone (msec - msec % 1000) := by omega
    have rest : apply host timezone msec % 1000 = msec % 1000 := by omega
    obtain ⟨-,whole⟩ := host.local_second (apply host timezone (msec - msec % 1000))
    rw [shown,cut,rest]
    exact fieldsOf_second (by omega) less

/-! ### Matching -/

/-- The expressions match the fields of a clock. -/
def TimeMatcher.SatisfiedBy (m : TimeMatcher) (d : DateFields) : Prop :=
  matchPattern m.second d.seconds = true ∧ matchPattern m.minute d.minutes = true ∧ matchPattern m.hour d.hours = true ∧
    matchPattern m.dayOfMonth d.date = true ∧ matchPattern m.month (d.month + 1) = true ∧ matchPattern m.weekDay d.day = true

theorem match_iff (m : TimeMatcher) (t : Int) : m.match_ t = true ↔ m.SatisfiedBy (m.calendar.fields t) := by
  unfold TimeMatcher.match_ TimeMatcher.runsThisDay TimeMatcher.SatisfiedBy
  simp only [Bool.and_eq_true,and_assoc]

/-- The expressions of a schedule do not depend on the clock. -/
theorem newTimeMatcher_calendar [Engine] {clock : Calendar} {pattern : List Char} {m : TimeMatcher}
    (built : Ends (newTimeMatcher clock) pattern (.ok m)) : m.calendar = clock := by
  obtain ⟨fuel,built⟩ := built
  unfold newTimeMatcher at built
  simp only [Option.bind_eq_bind,Option.bind_eq_some_iff,Option.some.injEq] at built
  obtain ⟨validated,-,converted,-,same⟩ := built
  cases validated with
  | error thrown => cases same
  | ok accepted =>
    cases converted with
    | error thrown => cases same
    | ok expression =>
      cases same
      rfl

/-! ### Schedules with fields -/

theorem matchPattern_iff (list : List Char) (v : Nat) : matchPattern (String.ofList list) v = true ↔ Nat.toDigits 10 v ∈ split ',' list := by
  have value : (toString v).toList = Nat.toDigits 10 v := by simp [toString]
  unfold matchPattern
  dsimp only
  rw [String.toList_ofList,value]
  split_ifs with comma
  · exact List.contains_iff_mem
  · have single : split ',' list = [list] := by
      have whole : split ',' (join ',' [list]) = [list] :=
        split_join (fun text listed => List.mem_singleton.mp listed ▸ comma) (List.cons_ne_nil _ _)
      rwa [join_singleton] at whole
    rw [single,List.mem_singleton,decide_eq_true_eq,eq_comm]

/-- What a clock shows for a field. -/
def DateFields.value (d : DateFields) : Nat → Nat
  | 0 => d.seconds
  | 1 => d.minutes
  | 2 => d.hours
  | 3 => d.date
  | 4 => d.month + 1
  | _ => d.day

/-- The schedule of fields that denote values is satisfied by the clocks that show values which the fields denote. -/
theorem newTimeMatcher_fields [Engine] (clock : Calendar) {fields : List Field} (count : fields.length = 5 ∨ fields.length = 6)
    (valid : ∀ (i : Nat) (f : Field),(sixFields fields)[i]? = some f → f.Valid i ∧ ∃ v,f.Denotes i v) :
    ∃ m,Ends (newTimeMatcher clock) (crontabText fields) (.ok m) ∧
      ∀ d,m.SatisfiedBy d ↔ ∀ (i : Nat) (f : Field),(sixFields fields)[i]? = some f → f.Denotes i (d.value i) := by
  have readable : ∀ (i : Nat) (f : Field),(sixFields fields)[i]? = some f → f.Readable i := fun i f found => (valid i f found).1.readable
  have spaces := removeExtraSpaces_fields (readable_mem readable)
  obtain ⟨n,converted⟩ := convert_fields count readable spaces
  obtain ⟨k,validated⟩ := (validate_fields count readable spaces).1 fun i f found => (withinLimits_iff (valid i f found).1).mpr (valid i f found).2
  have converted := grows_convertExpression.le (Nat.le_max_left n k) converted
  have validated := grows_validateCrontab.le (Nat.le_max_right n k) validated
  let text (i : Nat) : String := String.ofList (((fieldLists fields)[i]?).getD [])
  refine ⟨{ calendar := clock,second := text 0,minute := text 1,hour := text 2,dayOfMonth := text 3,month := text 4,weekDay := text 5 },
    ⟨max n k,?_⟩,fun d => ?_⟩
  · unfold newTimeMatcher
    rw [validated,converted]
    change some (Except.ok _) = _
    dsimp only
    rw [split_fieldLists count]
  · have each : ∀ (i : Nat) (f : Field),(sixFields fields)[i]? = some f → ∀ v,(matchPattern (text i) v = true ↔ f.Denotes i v) := by
      intro i f found v
      have list : (fieldLists fields)[i]? = some (join ',' (entries i (fieldNums i f))) := by
        rw [fieldLists_get,found]
        rfl
      change matchPattern (String.ofList (((fieldLists fields)[i]?).getD [])) v = true ↔ _
      rw [list,Option.getD_some,matchPattern_iff,split_entries i (fieldNums_ne_nil i f),mem_entries_reads (readable i f found),
        denotes_iff (valid i f found).1]
    have six := sixFields_length count
    constructor
    · rintro ⟨seconds,minutes,hours,date,month,day⟩ i f found
      refine (each i f found _).mp ?_
      have small := sixFields_lt count found
      match i with
      | 0 => exact seconds
      | 1 => exact minutes
      | 2 => exact hours
      | 3 => exact date
      | 4 => exact month
      | 5 => exact day
    · intro all
      have at_ : ∀ i < 6,matchPattern (text i) (d.value i) = true := by
        intro i small
        obtain ⟨f,found⟩ : ∃ f,(sixFields fields)[i]? = some f := ⟨_,List.getElem?_eq_getElem (six ▸ small)⟩
        exact (each i f found _).mpr (all i f found)
      exact ⟨at_ 0 (by decide),at_ 1 (by decide),at_ 2 (by decide),at_ 3 (by decide),at_ 4 (by decide),at_ 5 (by decide)⟩

/-- The field that denotes one number. -/
def single (n : Nat) : Field := ⟨[.term (.number (Nat.toDigits 10 n))],none⟩

def every : Field := ⟨[.asterisk],none⟩

theorem single_denotes (i n v : Nat) : (single n).Denotes i v ↔ sunday i n = v := by
  constructor
  · rintro ⟨w,⟨item,listed,denotes⟩,-,rfl⟩
    rw [List.mem_singleton.mp listed] at denotes
    have value : decimal (Nat.toDigits 10 n) = w := denotes.2
    rw [← value,decimal_toDigits]
  · rintro rfl
    exact ⟨n,⟨_,List.mem_cons_self,digits_toDigits n,decimal_toDigits n⟩,(fun _ none_ => nomatch none_),rfl⟩

theorem single_valid {i n : Nat} (low : (limits i).low ≤ n) (high : n ≤ (limits i).high) : (single n).Valid i ∧ ∃ v,(single n).Denotes i v := by
  refine ⟨⟨List.cons_ne_nil _ _,?_,Nat.zero_le _,fun _ none_ => nomatch none_⟩,_,(single_denotes i n _).mpr rfl⟩
  exact List.forall_mem_singleton.mpr ⟨n,⟨digits_toDigits n,decimal_toDigits n⟩,low,high⟩

theorem every_denotes {i v : Nat} (low : (limits i).low ≤ v) (high : v ≤ (limits i).top) (other : i ≠ 5) : every.Denotes i v :=
  ⟨v,⟨.asterisk,List.mem_cons_self,low,high⟩,(fun _ none_ => nomatch none_),if_neg fun both => other both.1⟩

theorem every_valid {i : Nat} (other : i ≠ 5) : every.Valid i ∧ ∃ v,every.Denotes i v :=
  ⟨⟨List.cons_ne_nil _ _,List.forall_mem_singleton.mpr trivial,by decide,fun _ none_ => nomatch none_⟩,_,
    every_denotes (Nat.le_refl _) (limits_small i).1 other⟩

/-- The second, minute, hour and day of the week of a clock, on any date. -/
def momentFields (d : DateFields) : List Field := [single d.seconds,single d.minutes,single d.hours,every,every,single d.day]

theorem fieldsOf_bounds (time : Int) : (fieldsOf time).seconds ≤ 59 ∧ (fieldsOf time).minutes ≤ 59 ∧ (fieldsOf time).hours ≤ 23 ∧
    (1 ≤ (fieldsOf time).date ∧ (fieldsOf time).date ≤ 31) ∧ (fieldsOf time).month ≤ 11 ∧ (fieldsOf time).day ≤ 6 := by
  obtain ⟨first,last,months⟩ := date_month_bounds time
  have day := weekDay_le time
  unfold fieldsOf second minute hour
  dsimp only
  omega

/-- The schedule of a moment is satisfied by the clocks that show it. -/
theorem moment_matcher [Engine] (clock : Calendar) (time : Int) : ∃ m,Ends (newTimeMatcher clock) (crontabText (momentFields (fieldsOf time))) (.ok m) ∧
    ∀ time',m.SatisfiedBy (fieldsOf time') ↔ second time' = second time ∧ minute time' = minute time ∧ hour time' = hour time ∧
      weekDay time' = weekDay time := by
  obtain ⟨seconds,minutes,hours,-,-,day⟩ := fieldsOf_bounds time
  have six : sixFields (momentFields (fieldsOf time)) = momentFields (fieldsOf time) := rfl
  have valid : ∀ (i : Nat) (f : Field),(sixFields (momentFields (fieldsOf time)))[i]? = some f → f.Valid i ∧ ∃ v,f.Denotes i v := by
    intro i f found
    rw [six] at found
    match i with
    | 0 => cases found; exact single_valid (Nat.zero_le _) seconds
    | 1 => cases found; exact single_valid (Nat.zero_le _) minutes
    | 2 => cases found; exact single_valid (Nat.zero_le _) hours
    | 3 => cases found; exact every_valid (by decide)
    | 4 => cases found; exact every_valid (by decide)
    | 5 => cases found; exact single_valid (Nat.zero_le _) (Nat.le_succ_of_le day)
  obtain ⟨m,built,satisfied⟩ := newTimeMatcher_fields clock (.inr rfl) valid
  refine ⟨m,built,fun time' => (satisfied (fieldsOf time')).trans ?_⟩
  rw [six]
  have sunday_ : sunday 5 (fieldsOf time).day = (fieldsOf time).day := if_neg fun both => by omega
  constructor
  · intro all
    refine ⟨?_,?_,?_,?_⟩
    · exact ((single_denotes 0 _ _).mp (all 0 _ rfl)).symm
    · exact ((single_denotes 1 _ _).mp (all 1 _ rfl)).symm
    · exact ((single_denotes 2 _ _).mp (all 2 _ rfl)).symm
    · exact (sunday_.symm.trans ((single_denotes 5 _ _).mp (all 5 _ rfl))).symm
  · rintro ⟨second_,minute_,hour_,day_⟩ i f found
    obtain ⟨-,-,-,⟨first,last⟩,months,-⟩ := fieldsOf_bounds time'
    match i with
    | 0 => cases found; exact (single_denotes 0 _ _).mpr second_.symm
    | 1 => cases found; exact (single_denotes 1 _ _).mpr minute_.symm
    | 2 => cases found; exact (single_denotes 2 _ _).mpr hour_.symm
    | 3 => cases found; exact every_denotes first last (by decide)
    | 4 => cases found; exact every_denotes (Nat.le_add_left 1 _) (Nat.succ_le_succ months) (by decide)
    | 5 => cases found; exact (single_denotes 5 _ _).mpr (sunday_.trans day_.symm)

/-- At an instant, every schedule in the zone does what the wall clock of the zone says. -/
def MatchesWallClock [Engine] (host : Host) (zone : Zone) (t : Int) : Prop :=
  ∀ pattern m,Ends (newTimeMatcher (calendar host (some zone))) pattern (.ok m) → (m.match_ t = true ↔ m.SatisfiedBy (fieldsOf (zone.local_ t)))

/-- The host makes no difference at an instant just where what the clock of the zone shows is not in a gap of the host. -/
theorem matchesWallClock_iff [Engine] (host : Host) (zone : Zone) (t : Int) : MatchesWallClock host zone t ↔ ¬ host.InGap (zone.local_ t) := by
  have shown : (calendar host (some zone)).fields t = fieldsOf (host.local_ (host.instant (zone.local_ t))) := rfl
  rcases host.shows (zone.local_ t) with ⟨outside,same⟩ | ⟨inGap,gap,whole,forward,bound,moved⟩
  · refine iff_of_true (fun pattern m built => ?_) outside
    rw [match_iff,newTimeMatcher_calendar built,shown,same]
  · refine iff_of_false (fun all => ?_) (not_not.mpr inGap)
    obtain ⟨m,built,satisfied⟩ := moment_matcher (calendar host (some zone)) (zone.local_ t)
    have here := (all _ m built).mpr ((satisfied _).mpr ⟨rfl,rfl,rfl,rfl⟩)
    rw [match_iff,newTimeMatcher_calendar built,shown,moved] at here
    exact moved_apart whole forward bound ((satisfied _).mp here)

/-- New York in the spring of 2024, where half past two on the tenth of March is not shown. -/
def newYork : Host := springForward 1710054000000 (-18000000) (-14400000) rfl rfl rfl (by decide) (by decide) (by decide)

def utc : Zone := ⟨fun _ => 0,fun _ => rfl,fun _ => rfl,fun _ => by decide⟩

attribute [local instance] ecmaScript

/-- On a host in New York, a schedule for half past two on Sundays in UTC misses the tenth of March. -/
theorem halfPastTwo_missed : (∃ m,Ends (newTimeMatcher (calendar newYork (some utc))) "0 30 2 * * 0".toList (.ok m) ∧
    fieldsOf (utc.local_ 1710037800000) = ⟨0,30,2,10,2,0⟩ ∧ m.SatisfiedBy (fieldsOf (utc.local_ 1710037800000)) ∧
      m.match_ 1710037800000 = false) ∧ ¬ ∀ host zone t,MatchesWallClock host zone t := by
  obtain ⟨m,built,satisfied⟩ := moment_matcher (calendar newYork (some utc)) (utc.local_ 1710037800000)
  have text : crontabText (momentFields (fieldsOf (utc.local_ 1710037800000))) = "0 30 2 * * 0".toList := by decide
  rw [text] at built
  have fires := (satisfied (utc.local_ 1710037800000)).mpr ⟨rfl,rfl,rfl,rfl⟩
  have missed : ¬ m.match_ 1710037800000 = true := by
    rw [match_iff,newTimeMatcher_calendar built]
    intro here
    have three := ((satisfied (newYork.local_ (newYork.instant (utc.local_ 1710037800000)))).mp here).2.2.1
    revert three
    decide
  refine ⟨⟨m,built,by decide,fires,Bool.eq_false_iff.mpr missed⟩,fun all => ?_⟩
  exact missed ((all newYork utc 1710037800000 _ m built).mpr fires)

end Dbos.Crontab
