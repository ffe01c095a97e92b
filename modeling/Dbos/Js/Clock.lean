import Mathlib.Order.Lattice

/-!
Wall clocks. A local time is counted in milliseconds, as UTC counts the ones it shows, and has the fields that a `Date` of JavaScript has
in its time zone. A zone says what its clocks show at an instant; a host says in addition which instant a local time stands for. At a gap
the clocks are moved forward, and no instant is shown as a local time in it.
-/
namespace Dbos.Js.Clock

/-! ### Local times -/

def second (time : Int) : Nat := (time / 1000 % 60).toNat

def minute (time : Int) : Nat := (time / 60000 % 60).toNat

def hour (time : Int) : Nat := (time / 3600000 % 24).toNat

/-- Days since the first of January of 1970, which was a Thursday. -/
def dayNumber (time : Int) : Int := time / 86400000

def weekDay (time : Int) : Nat := ((dayNumber time + 4) % 7).toNat

/-- The day of the year. The years begin in March, so that a leap day is the last day of four years, of a century or of four centuries. -/
def dayOfYear (time : Int) : Nat :=
  let dayOfEra := ((dayNumber time + 719468) % 146097).toNat
  let dayOfCentury := dayOfEra - 36524 * min (dayOfEra / 36524) 3
  let dayOfLeapCycle := dayOfCentury % 1461
  dayOfLeapCycle - 365 * min (dayOfLeapCycle / 365) 3

/-- Months from March on. -/
def monthOfYear (dayOfYear : Nat) : Nat := (5 * dayOfYear + 2) / 153

def date (time : Int) : Nat := dayOfYear time - (153 * monthOfYear (dayOfYear time) + 2) / 5 + 1

/-- Months from January on, which is 0. -/
def month (time : Int) : Nat := (monthOfYear (dayOfYear time) + 2) % 12

/-- The ends of February in 1900, 2000 and 2024. -/
example : [-2203891200000,951782400000,1709164800000,1709251200000].map (fun time => (date time,month time + 1,weekDay time)) =
    [(1,3,4),(29,2,2),(29,2,4),(1,3,5)] := by decide

theorem dayOfYear_le (time : Int) : dayOfYear time ≤ 365 := by
  unfold dayOfYear
  dsimp only
  omega

theorem date_month_bounds (time : Int) : 1 ≤ date time ∧ date time ≤ 31 ∧ month time ≤ 11 := by
  have day := dayOfYear_le time
  unfold date month monthOfYear
  omega

theorem weekDay_le (time : Int) : weekDay time ≤ 6 := by
  unfold weekDay
  omega

/-- A clock that has been moved forward, by less than two days, shows another time or another day of the week. -/
theorem moved_apart {time gap : Int} (whole : gap % 1000 = 0) (forward : 0 < gap) (bound : gap < 2 * 86400000) :
    ¬ (second (time + gap) = second time ∧ minute (time + gap) = minute time ∧ hour (time + gap) = hour time ∧
      weekDay (time + gap) = weekDay time) := by
  rintro ⟨seconds,minutes,hours,days⟩
  unfold second at seconds
  unfold minute at minutes
  unfold hour at hours
  have minute_ : gap % 60000 = 0 := by omega
  have hour_ : gap % 3600000 = 0 := by omega
  have day_ : gap = 86400000 := by omega
  unfold weekDay dayNumber at days
  omega

/-! ### Zones -/

/-- The offset of the clocks in milliseconds. Clocks are moved at full seconds and by full seconds, and are less than a day away from UTC. -/
structure Zone where
  offset : Int → Int
  whole : ∀ t,offset t % 1000 = 0
  steady : ∀ t,offset t = offset (t - t % 1000)
  bound : ∀ t,-86400000 < offset t ∧ offset t < 86400000

/-- What the clocks show at an instant. -/
def Zone.local_ (zone : Zone) (t : Int) : Int := t + zone.offset t

/-- No instant is shown as this local time. -/
def Zone.InGap (zone : Zone) (time : Int) : Prop := ∀ t,zone.local_ t ≠ time

/-- A host reads a local time as an instant at which its clocks show it. In a gap it takes the offset that was in force before, and so its
    clocks show a time that is moved forward by the gap. -/
structure Host extends Zone where
  instant : Int → Int
  second_ : ∀ time,instant time = instant (time - time % 1000) + time % 1000
  shown : ∀ time,¬ toZone.InGap time → toZone.local_ (instant time) = time
  gap : ∀ time,toZone.InGap time → ∃ before,instant time = time - toZone.offset before ∧ toZone.offset before < toZone.offset (instant time)

theorem Zone.local_second (zone : Zone) (t : Int) : zone.local_ t = zone.local_ (t - t % 1000) + t % 1000 ∧ zone.local_ t % 1000 = t % 1000 := by
  have same := zone.steady t
  have whole := zone.whole t
  unfold Zone.local_
  omega

/-- Milliseconds are kept. -/
theorem Host.instant_phase (host : Host) (time : Int) : host.instant time % 1000 = time % 1000 := by
  by_cases inGap : host.InGap time
  · obtain ⟨before,instant,-⟩ := host.gap time inGap
    have whole := host.whole before
    omega
  · have shown := host.shown time inGap
    obtain ⟨-,phase⟩ := host.local_second (host.instant time)
    omega

/-- The clocks of the host show the local time itself, or one that is moved forward. -/
theorem Host.shows (host : Host) (time : Int) : (¬ host.InGap time ∧ host.local_ (host.instant time) = time) ∨
    (host.InGap time ∧ ∃ gap,gap % 1000 = 0 ∧ 0 < gap ∧ gap < 2 * 86400000 ∧ host.local_ (host.instant time) = time + gap) := by
  by_cases inGap : host.InGap time
  · obtain ⟨before,instant,moved⟩ := host.gap time inGap
    have wholeBefore := host.whole before
    have wholeAfter := host.whole (host.instant time)
    have boundBefore := host.bound before
    have boundAfter := host.bound (host.instant time)
    refine .inr ⟨inGap,host.offset (host.instant time) - host.offset before,by omega,by omega,by omega,?_⟩
    unfold Zone.local_
    omega
  · exact .inl ⟨inGap,host.shown time inGap⟩

/-! ### Clocks that are moved once -/

/-- Clocks that are moved forward at one instant. -/
def springForward (at_ before after : Int) (wholeAt : at_ % 1000 = 0) (wholeBefore : before % 1000 = 0) (wholeAfter : after % 1000 = 0)
    (forward : before < after) (lower : -86400000 < before) (upper : after < 86400000) : Host where
  offset t := if t < at_ then before else after
  whole t := by split_ifs <;> assumption
  steady t := by split_ifs <;> omega
  bound t := by split_ifs <;> omega
  instant time := if time < at_ + after then time - before else time - after
  second_ time := by split_ifs <;> omega
  shown time notInGap := by
    obtain ⟨t,shown⟩ := not_forall_not.mp notInGap
    unfold Zone.local_ at shown ⊢
    dsimp only at shown ⊢
    split_ifs at shown ⊢ <;> omega
  gap time inGap := by
    have early := inGap (time - before)
    have late := inGap (time - after)
    unfold Zone.local_ at early late
    dsimp only at early late ⊢
    refine ⟨at_ - 1,?_⟩
    split_ifs at early late ⊢ <;> omega

end Dbos.Js.Clock
