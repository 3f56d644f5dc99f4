import Doenerstag.Api.Availability

/-!
# Opening hours in the browser (`frontend/src/openinghours.ts`)

`isOpen` judges a list of opening periods at a moment; `AvailabilityFilter.matches` judges a filter.
Both know windows that cross midnight.

* `isOpen_window_iff` — a crossing window is open from its start on a day of the set to its end on
  the day after;
* `midnightWindow_agrees_iff` — **a filter with the same days and the same window agrees with that,
  exactly when the moment is not before the window's end, or the set has both the moment's day and
  the day before or neither.**
-/

namespace Doenerstag

/-- `OpeningPeriod`: times of day as `HH:MM`. -/
structure OpeningPeriod where
  dayOfWeek : Int
  start : String
  stop : String
  deriving DecidableEq, Repr

/-- The value of a decimal digit. -/
def digitValue (c : Char) : Int := c.toNat - 48

/-- `/^(\d{1,2}):(\d{2})/`: minutes since midnight, or nothing for what is not `HH:MM`. -/
def minutes (value : String) : Option Int :=
  match value.toList with
  | h :: ':' :: m :: m' :: _ =>
    if h.isDigit && m.isDigit && m'.isDigit then
      some (digitValue h * 60 + (digitValue m * 10 + digitValue m'))
    else
      none
  | h :: h' :: ':' :: m :: m' :: _ =>
    if h.isDigit && h'.isDigit && m.isDigit && m'.isDigit then
      some ((digitValue h * 10 + digitValue h') * 60 + (digitValue m * 10 + digitValue m'))
    else
      none
  | _ => none

/-- `Date.getDay`: 0 for Sunday. The viewer is taken to share the server's zone. -/
def getDay (rt : Runtime) (date : Time) : Int :=
  ((date / Time.second + rt.zoneOffset date) / 86400 + 4) % 7

/-- 1 for Monday through 7 for Sunday. -/
def isoDay (rt : Runtime) (date : Time) : Int :=
  if getDay rt date = 0 then 7 else getDay rt date

/-- The weekday before another, round the end of the week. -/
def dayBefore (day : Int) : Int := if day = 1 then 7 else day - 1

/-- Whether one period covers a moment, given as a weekday and the minutes of its clock. -/
def OpeningPeriod.covers (period : OpeningPeriod) (today clock : Int) : Bool :=
  match minutes period.start, minutes period.stop with
  | some start, some stop =>
    if stop > start then
      period.dayOfWeek == today && clock ≥ start && clock < stop
    else
      -- the evening of its own day, and the small hours of the next one
      (period.dayOfWeek == today && clock ≥ start) ||
        (period.dayOfWeek == dayBefore today && clock < stop)
  | _, _ => false

def isOpen (rt : Runtime) (periods : List OpeningPeriod) (now : Time) : Bool :=
  let c := now.civil (rt.zoneOffset now)
  periods.any fun period => period.covers (isoDay rt now) (c.hour * 60 + c.minute)

/-! ## The clock -/

/-- The minutes a clock has shown since the epoch, in the server's zone. -/
def localMinutes (rt : Runtime) (t : Time) : Int := (t / Time.second + rt.zoneOffset t) / 60

/-- The weekday of a day counted from the epoch, which was a Thursday. -/
def weekdayOf (day : Int) : Int := (day + 3) % 7 + 1

theorem clock_of_seconds (seconds : Int) :
    seconds % 86400 / 3600 * 60 + seconds % 86400 / 60 % 60 = seconds / 60 % 1440 := by
  have hhour : seconds % 86400 / 3600 * 60 + seconds % 86400 / 60 % 60 = seconds % 86400 / 60 := by
    omega
  have hday : seconds % 86400 / 60 = seconds / 60 % 1440 := by omega
  rw [hhour, hday]

theorem minutesOfDay_eq (rt : Runtime) (t : Time) :
    minutesOfDay rt t = localMinutes rt t % 1440 :=
  clock_of_seconds _

theorem day_of_seconds (seconds : Int) : seconds / 86400 = seconds / 60 / 1440 := by omega

theorem isoWeekday_eq (rt : Runtime) (t : Time) :
    isoWeekday rt t = weekdayOf (localMinutes rt t / 1440) := by
  unfold isoWeekday localMinutes weekdayOf
  simp only [day_of_seconds]

theorem isoDay_eq (rt : Runtime) (t : Time) : isoDay rt t = isoWeekday rt t := by
  unfold isoDay getDay isoWeekday
  generalize (t / Time.second + rt.zoneOffset t) / 86400 = day
  simp only
  split_ifs with hsunday
  · omega
  · omega

theorem dayBefore_weekdayOf (day : Int) : dayBefore (weekdayOf day) = weekdayOf (day - 1) := by
  unfold dayBefore weekdayOf
  split_ifs with hmonday
  · omega
  · omega

/-! ## A time of day as text -/

theorem digitChar_spec {n : Nat} (hn : n < 10) :
    (Nat.digitChar n).isDigit = true ∧ digitValue (Nat.digitChar n) = n ∧
      Nat.digitChar n ≠ ':' := by
  have hall : ∀ k < 10, (Nat.digitChar k).isDigit = true ∧ digitValue (Nat.digitChar k) = (k : Nat) ∧
      Nat.digitChar k ≠ ':' := by decide
  exact hall n hn

theorem minutes_of_digits {value : String} {h h' m m' : Char}
    (htext : value.toList = [h, h', ':', m, m']) (hcolon : h' ≠ ':')
    (hdigits : h.isDigit && h'.isDigit && m.isDigit && m'.isDigit) :
    minutes value =
      some ((digitValue h * 10 + digitValue h') * 60 + (digitValue m * 10 + digitValue m')) := by
  unfold minutes
  rw [htext]
  split
  · next heq => exact absurd (List.cons.inj (List.cons.inj heq).2).1 hcolon
  · next heq =>
    cases heq
    rw [if_pos hdigits]
  · next _ hnot => exact absurd rfl (hnot h h' m m' [])

/-- A clock time is read back as it was written. -/
theorem minutes_clockString {m : Int} (hm : 0 ≤ m) (hday : m < 1440) :
    minutes (clockString m) = some m := by
  obtain ⟨n, rfl⟩ := Int.eq_ofNat_of_zero_le hm
  have hn : n < 1440 := by omega
  have hhour : (padded 2 ((n : Int) / 60)).toList =
      [Nat.digitChar (n / 60 / 10), Nat.digitChar (n / 60 % 10)] := by
    have hcast : (n : Int) / 60 = (n / 60 : Nat) := by omega
    rw [hcast]
    exact padded_two (by omega)
  have hminute : (padded 2 ((n : Int) % 60)).toList =
      [Nat.digitChar (n % 60 / 10), Nat.digitChar (n % 60 % 10)] := by
    have hcast : (n : Int) % 60 = (n % 60 : Nat) := by omega
    rw [hcast]
    exact padded_two (by omega)
  have htext : (clockString n).toList =
      [Nat.digitChar (n / 60 / 10), Nat.digitChar (n / 60 % 10), ':', Nat.digitChar (n % 60 / 10),
        Nat.digitChar (n % 60 % 10)] := by
    have hcolon : ":".toList = [':'] := by decide
    rw [clockString, String.toList_append, String.toList_append, hhour, hminute, hcolon]
    simp only [List.cons_append, List.nil_append]
  obtain ⟨hd₁, hv₁, -⟩ := digitChar_spec (n := n / 60 / 10) (by omega)
  obtain ⟨hd₂, hv₂, hcolon⟩ := digitChar_spec (n := n / 60 % 10) (by omega)
  obtain ⟨hd₃, hv₃, -⟩ := digitChar_spec (n := n % 60 / 10) (by omega)
  obtain ⟨hd₄, hv₄, -⟩ := digitChar_spec (n := n % 60 % 10) (by omega)
  have hdigits : ((Nat.digitChar (n / 60 / 10)).isDigit && (Nat.digitChar (n / 60 % 10)).isDigit &&
      (Nat.digitChar (n % 60 / 10)).isDigit && (Nat.digitChar (n % 60 % 10)).isDigit) = true := by
    simp only [hd₁, hd₂, hd₃, hd₄, Bool.and_self]
  have hvalue : ((n / 60 / 10 : Nat) * 10 + (n / 60 % 10 : Nat)) * 60 +
      ((n % 60 / 10 : Nat) * 10 + (n % 60 % 10 : Nat)) = (n : Int) := by omega
  rw [minutes_of_digits htext hcolon hdigits, hv₁, hv₂, hv₃, hv₄, hvalue]

/-! ## A window that crosses midnight -/

/-- The opening periods with one window on each of some days. -/
def windowPeriods (days : List Int) (start stop : Int) : List OpeningPeriod :=
  days.map fun day => { dayOfWeek := day, start := clockString start, stop := clockString stop }

/-- Two times of a day of which the first is the later one. -/
structure CrossesMidnight (start stop : Int) : Prop where
  stop_nonneg : 0 ≤ stop
  stop_lt_start : stop < start
  start_lt : start < 1440

section Window

variable {rt : Runtime} {days : List Int} {start stop : Int} {now : Time}

theorem isOpen_window (h : CrossesMidnight start stop) :
    isOpen rt (windowPeriods days start stop) now = true ↔
      (isoWeekday rt now ∈ days ∧ start ≤ minutesOfDay rt now) ∨
        (dayBefore (isoWeekday rt now) ∈ days ∧ minutesOfDay rt now < stop) := by
  have hstart : minutes (clockString start) = some start :=
    minutes_clockString (h.stop_nonneg.trans h.stop_lt_start.le) h.start_lt
  have hstop : minutes (clockString stop) = some stop :=
    minutes_clockString h.stop_nonneg (h.stop_lt_start.trans h.start_lt)
  have hcrosses : ¬ stop > start := not_lt.mpr h.stop_lt_start.le
  unfold isOpen windowPeriods
  rw [isoDay_eq, List.any_map, List.any_eq_true]
  show (∃ day ∈ days, OpeningPeriod.covers _ _ (minutesOfDay rt now) = true) ↔ _
  simp only [OpeningPeriod.covers, hstart, hstop, if_neg hcrosses, Bool.or_eq_true,
    Bool.and_eq_true, beq_iff_eq, decide_eq_true_eq]
  constructor
  · rintro ⟨day, hday, ⟨rfl, hlate⟩ | ⟨rfl, hearly⟩⟩
    · exact .inl ⟨hday, hlate⟩
    · exact .inr ⟨hday, hearly⟩
  · rintro (⟨hday, hlate⟩ | ⟨hday, hearly⟩)
    · exact ⟨_, hday, .inl ⟨rfl, hlate⟩⟩
    · exact ⟨_, hday, .inr ⟨rfl, hearly⟩⟩

/-- **Opening hours.** The restaurant is open from the start of the window on a day of the set to
its end on the day after. -/
theorem isOpen_window_iff (h : CrossesMidnight start stop) :
    isOpen rt (windowPeriods days start stop) now = true ↔
      ∃ day, weekdayOf day ∈ days ∧ day * 1440 + start ≤ localMinutes rt now ∧
        localMinutes rt now < (day + 1) * 1440 + stop := by
  rw [isOpen_window h, isoWeekday_eq, dayBefore_weekdayOf, minutesOfDay_eq]
  obtain ⟨hstop, hcross, hstart⟩ := h
  generalize hclock : localMinutes rt now = clock
  constructor
  · rintro (⟨hday, hlate⟩ | ⟨hday, hearly⟩)
    · exact ⟨clock / 1440, hday, by omega, by omega⟩
    · exact ⟨clock / 1440 - 1, hday, by omega, by omega⟩
  · rintro ⟨day, hday, hfrom, hto⟩
    -- the window reaches from its day into the next one, and no further
    have hwhich : day = clock / 1440 ∨ day = clock / 1440 - 1 := by omega
    rcases hwhich with rfl | rfl
    · exact .inl ⟨hday, by omega⟩
    · exact .inr ⟨hday, by omega⟩

theorem matches_window (h : CrossesMidnight start stop) {f : AvailabilityFilter}
    (hdate : f.onDate = none) (hdays : f.weekdays ≠ []) (hstart : f.startTime = some start)
    (hstop : f.endTime = some stop) :
    f.matches rt now = true ↔ isoWeekday rt now ∈ f.weekdays ∧
      (start ≤ minutesOfDay rt now ∨ minutesOfDay rt now < stop) := by
  have hnonempty : f.weekdays.isEmpty = false := by simpa using hdays
  have hcrosses : ¬ start < stop := not_lt.mpr h.stop_lt_start.le
  unfold AvailabilityFilter.matches withinDayWindow
  simp [hdate, hnonempty, hstart, hstop, hcrosses]

/-- **A filter and the opening hours.** With the same days and the same window across midnight the
two agree at a moment exactly when it is not before the window's end, or both its weekday and the
one before are among the days or neither is. -/
theorem midnightWindow_agrees_iff (h : CrossesMidnight start stop) {f : AvailabilityFilter}
    (hdate : f.onDate = none) (hdays : f.weekdays ≠ []) (hstart : f.startTime = some start)
    (hstop : f.endTime = some stop) :
    (f.matches rt now = isOpen rt (windowPeriods f.weekdays start stop) now) ↔
      (stop ≤ minutesOfDay rt now ∨
        (isoWeekday rt now ∈ f.weekdays ↔ dayBefore (isoWeekday rt now) ∈ f.weekdays)) := by
  rw [Bool.eq_iff_iff, matches_window h hdate hdays hstart hstop, isOpen_window h]
  by_cases hearly : minutesOfDay rt now < stop
  · -- before the end it is too early for the window of the moment's own day
    have hnotLate : ¬ start ≤ minutesOfDay rt now :=
      not_le.mpr (hearly.trans h.stop_lt_start)
    simp only [hearly, hnotLate, or_true, and_true, and_false, false_or, not_le.mpr hearly]
  · simp only [hearly, not_lt.mp hearly, or_false, and_false, true_or]

end Window

/-! ## After the pub -/

/-- Fridays from 22:00 to 02:00. -/
def afterThePub : AvailabilityFilter :=
  { id := ⟨1⟩, restaurantID := ⟨2⟩, name := "after the pub", onDate := none, weekdays := [5]
    startTime := some 1320, endTime := some 120, sortOrder := 0 }

/-- Thursday the first of January 1970, hours later. -/
def hoursLater (n : Int) : Time := n * Time.hour

theorem crossesMidnight_afterThePub : CrossesMidnight 1320 120 := ⟨by decide, by decide, by decide⟩

/-- At 23:00 on Friday. -/
theorem midnightWindow_agrees_iff_fridayNight :
    (afterThePub.matches .ascii (hoursLater 47) =
        isOpen .ascii (windowPeriods afterThePub.weekdays 1320 120) (hoursLater 47)) ↔
      (120 ≤ minutesOfDay .ascii (hoursLater 47) ∨
        (isoWeekday .ascii (hoursLater 47) ∈ afterThePub.weekdays ↔
          dayBefore (isoWeekday .ascii (hoursLater 47)) ∈ afterThePub.weekdays)) :=
  midnightWindow_agrees_iff crossesMidnight_afterThePub rfl (by decide) rfl rfl

/-- At 01:00 on Friday the filter matches, on the day on which its window has yet to begin. -/
theorem midnightWindow_disagrees :
    ¬ ∀ (rt : Runtime) (f : AvailabilityFilter) (start stop : Int) (now : Time),
      CrossesMidnight start stop → f.onDate = none → f.weekdays ≠ [] → f.startTime = some start →
        f.endTime = some stop →
          f.matches rt now = isOpen rt (windowPeriods f.weekdays start stop) now := by
  intro hevery
  have hsame := hevery .ascii afterThePub 1320 120 (hoursLater 25) crossesMidnight_afterThePub rfl
    (by decide) rfl rfl
  revert hsame
  decide +kernel

end Doenerstag
