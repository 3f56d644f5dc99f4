import Doenerstag.Go

/-!
# Availability filters (`internal/model/availability.go`)

A filter is a named rule about when food can be had: the parts of one filter are all required, the
filters of one element are alternatives, and a category's filters and a dish's must both agree.
Instants are read on the server's clock (`Runtime.zoneOffset`).
-/

namespace Doenerstag

/-- `model.AvailabilityFilter`. The times are minutes since midnight; the weekdays are ISO days,
1 for Monday, and none of them means every day. -/
structure AvailabilityFilter where
  id : UUID
  restaurantID : UUID
  name : String
  onDate : Option (Int × Int × Int)
  weekdays : List Int
  startTime : Option Int
  endTime : Option Int
  sortOrder : Int64
  deriving DecidableEq, Repr

/-- 1 for Monday through 7 for Sunday; the epoch was a Thursday. -/
def isoWeekday (rt : Runtime) (t : Time) : Int :=
  let daysSinceEpoch := (t / Time.second + rt.zoneOffset t) / 86400
  (daysSinceEpoch + 3) % 7 + 1

def minutesOfDay (rt : Runtime) (t : Time) : Int :=
  let c := t.civil (rt.zoneOffset t)
  c.hour * 60 + c.minute

/-- A window whose end is not after its start crosses midnight. The start is in it, the end is
not. -/
def withinDayWindow (start stop minute : Int) : Bool :=
  if start < stop then start ≤ minute && minute < stop else start ≤ minute || minute < stop

/-- Whether the filter permits an instant. A part that is not set has no opinion. -/
def AvailabilityFilter.matches (rt : Runtime) (f : AvailabilityFilter) (t : Time) : Bool :=
  let c := t.civil (rt.zoneOffset t)
  let onDate := match f.onDate with
    | some date => date == (c.year, c.month, c.day)
    | none => true
  let onWeekday := f.weekdays.isEmpty || f.weekdays.contains (isoWeekday rt t)
  let inWindow := match f.startTime, f.endTime with
    | some start, some stop => withinDayWindow start stop (minutesOfDay rt t)
    | _, _ => true
  onDate && onWeekday && inWindow

/-- No filters means always. -/
def availableAt (rt : Runtime) (filters : List AvailabilityFilter) (t : Time) : Bool :=
  filters.isEmpty || filters.any fun f => f.matches rt t

def itemAvailableAt (rt : Runtime) (category item : List AvailabilityFilter) (t : Time) : Bool :=
  availableAt rt category t && availableAt rt item t

end Doenerstag
