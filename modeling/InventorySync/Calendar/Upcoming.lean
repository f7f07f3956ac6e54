import InventorySync.Calendar.TimeOfDay
import InventorySync.Calendar.Zone
import InventorySync.Duration
import InventorySync.Text.Quoted

/-! # The next time a clock shows a time of day

`until?` is the span from now to the next occurrence of a time of day on a zone's clocks. The local
date of now and the two after it are tried in order; a date on which the clocks skip the time is
passed over, and of several occurrences on one date only the earliest is looked at. -/

namespace InventorySync.Calendar

/-- A point in time, to the nanosecond. -/
structure Instant where
  /-- Whole seconds since 1970-01-01T00:00:00Z. -/
  seconds : Int
  nanos : Nat
deriving DecidableEq, Repr, Inhabited

/-- Why there is no next occurrence. -/
inductive UpcomingError where
  | unreadable (text : String)
  | noneFound (text : String)
  | lastDate
deriving DecidableEq, Repr

/-- The text of the error. -/
def UpcomingError.message : UpcomingError → String
  | .unreadable text => "invalid cleanup time " ++ Text.quoted text ++ ", expected HH:MM:SS"
  | .noneFound text => "no upcoming local time " ++ text
  | .lastDate => "date overflow"

/-- Whether a second lies on a date that times may have. -/
def inRange (seconds : Int) : Bool :=
  dayNumber earliest ≤ seconds / secondsPerDay && seconds / secondsPerDay ≤ dayNumber latest

/-- The earliest second at which the zone's clocks show the time of day on a date. For a leap
second it is the second before it. -/
def Zone.occurrence? (z : Zone) (day : Int) (t : TimeOfDay) : Option Int :=
  let instants := z.instantsOf (day * secondsPerDay + t.secondOfDay)
  if instants.all inRange then instants.head? else none

/-- The nanoseconds from an instant to the time of day that begins at a second. They are those of
the days between the two dates and of the span between the two times of day. When the time of day
is a leap second and the earlier of the two, that second counts as part of the way back. -/
def nanosUntil (now : Instant) (t : TimeOfDay) (start : Int) : Int :=
  let late : Int :=
    if t.isLeapSecond ∧ now.seconds % secondsPerDay ≤ start % secondsPerDay then 1 else 0
  (start + late - now.seconds) * 1000000000 - now.nanos

/-- Whether the time of day that begins at a second lies after an instant. -/
def isAfter (now : Instant) (t : TimeOfDay) (start : Int) : Bool :=
  now.seconds < start || (start == now.seconds && t.isLeapSecond)

/-- The span to the next occurrence on one of so many dates from a day on. -/
def search (z : Zone) (now : Instant) (text : String) (t : TimeOfDay) :
    Nat → Int → Except UpcomingError Duration
  | 0, _ => .error (.noneFound text)
  | dates + 1, day =>
    match (z.occurrence? day t).filter (isAfter now t) with
    | some start =>
      let nanos := (nanosUntil now t start).toNat
      .ok (.ofParts (nanos / 1000000000) (nanos % 1000000000))
    | none =>
      if dayNumber latest ≤ day then .error .lastDate else search z now text t dates (day + 1)

/-- The number of dates that are tried. -/
def triedDates : Nat := 3

/-- The span from now to the next occurrence of a written time of day on the zone's clocks. -/
def until? (z : Zone) (now : Instant) (text : String) : Except UpcomingError Duration :=
  match TimeOfDay.read text with
  | some t => search z now text t triedDates (z.localTime now.seconds / secondsPerDay)
  | none => .error (.unreadable text)

end InventorySync.Calendar
