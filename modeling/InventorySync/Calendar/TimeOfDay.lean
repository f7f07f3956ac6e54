import InventorySync.Calendar
import InventorySync.Calendar.Digits

/-! # Times of day

What a clock shows: hour, minute and second, where second 60 is a leap second, a second of its own
after second 59. Written as `HH:MM:SS`, with one digit or two for each number. -/

namespace InventorySync.Calendar

/-- A time of day. -/
structure TimeOfDay where
  hour : Nat
  minute : Nat
  second : Nat
  hour_lt : hour < 24 := by decide
  minute_lt : minute < 60 := by decide
  second_le : second ≤ 60 := by decide
deriving DecidableEq, Repr

namespace TimeOfDay

/-- Whether it is a leap second. -/
def isLeapSecond (t : TimeOfDay) : Bool := t.second == 60

/-- The seconds from midnight; for a leap second those of the second before it. -/
def secondOfDay (t : TimeOfDay) : Nat := t.hour * 3600 + t.minute * 60 + min t.second 59

/-- The time of day is within the day. -/
theorem secondOfDay_lt (t : TimeOfDay) : t.secondOfDay < 86400 := by
  have := t.hour_lt
  have := t.minute_lt
  unfold secondOfDay
  omega

/-- The time of day with these numbers. -/
def ofNumbers (hour minute second : Nat) : Option TimeOfDay :=
  if h : hour < 24 ∧ minute < 60 ∧ second ≤ 60 then
    some ⟨hour, minute, second, h.1, h.2.1, h.2.2⟩
  else none

/-- A number that follows a colon. -/
def afterColon : List Char → Part Nat
  | ':' :: rest => twoDigits rest
  | _ => none

/-- The time of day that a text gives: three numbers with colons between them, blanks before each
number and at the end. -/
def read (text : String) : Option TimeOfDay := do
  let (hour, cs) ← twoDigits (Text.trimmed text.toList)
  let (minute, cs) ← afterColon cs
  let (second, cs) ← afterColon cs
  guard cs.isEmpty
  ofNumbers hour minute second

end TimeOfDay
end InventorySync.Calendar
