/-! # The calendar

Dates of the Gregorian calendar, extended to all years, and their numbers: day 0 is 1970-01-01.
A year is counted from March, so that the day added in a leap year is its last one. -/

namespace InventorySync.Calendar

/-- A date. -/
structure Date where
  year : Int
  month : Nat
  day : Nat
deriving DecidableEq, Repr, Inhabited

/-- Whether a year has 366 days. -/
def isLeap (year : Int) : Bool := year % 4 == 0 && (year % 100 != 0 || year % 400 == 0)

/-- The number of days of a month, none for numbers that are no month. -/
def daysInMonth (year : Int) (month : Nat) : Nat :=
  if month = 2 then if isLeap year then 29 else 28
  else if month ∈ [4, 6, 9, 11] then 30
  else if 1 ≤ month ∧ month ≤ 12 then 31
  else 0

/-- The number of days from the first of March to the first of a month. -/
def daysBeforeMonth (month : Nat) : Nat := (153 * ((month + 9) % 12) + 2) / 5

/-- The days of four centuries. -/
def cycle : Int := 146097

/-- The number of a date. -/
def dayNumber (d : Date) : Int :=
  let year := if d.month ≤ 2 then d.year - 1 else d.year
  let cycles := year / 400
  let within := year % 400
  cycles * cycle + within * 365 + within / 4 - within / 100 + daysBeforeMonth d.month + d.day -
    719469

/-- The date with a number. -/
def dateOf (number : Int) : Date :=
  let days := number + 719468
  let cycles := days / cycle
  let within := days % cycle
  let year := (within - within / 1460 + within / 36524 - within / 146096) / 365
  let dayOfYear := (within - (365 * year + year / 4 - year / 100)).toNat
  let fromMarch := (5 * dayOfYear + 2) / 153
  let month := if fromMarch < 10 then fromMarch + 3 else fromMarch - 9
  ⟨cycles * 400 + year + (if month ≤ 2 then 1 else 0), month,
    dayOfYear - (153 * fromMarch + 2) / 5 + 1⟩

/-- The first date that times may have. -/
def earliest : Date := ⟨-262143, 1, 1⟩

/-- The last date that times may have. -/
def latest : Date := ⟨262142, 12, 31⟩

/-- The seconds of a day. -/
def secondsPerDay : Int := 86400

end InventorySync.Calendar
