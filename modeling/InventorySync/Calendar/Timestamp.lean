import InventorySync.Calendar
import InventorySync.Calendar.Digits

/-! # Timestamps

A point in time as a text such as `2024-01-01T02:30:00+02:00`. Reading is lenient: there may be
blanks between the parts, a space in place of the `T`, a sign and more digits in the year, any
number of decimals of a second, `UTC` or `z` for the zone, and second 60. Writing is strict: whole
seconds in the zone `Z`. -/

namespace InventorySync.Calendar

/-- A point in time, to the second. -/
structure Moment where
  /-- Seconds since 1970-01-01T00:00:00Z, leap seconds not counted. -/
  seconds : Int
  /-- Whether it is the leap second after that second. -/
  isLeapSecond : Bool
deriving DecidableEq, Repr, Inhabited

namespace Timestamp

/-- The largest number that is read. -/
def maxNumber : Nat := UInt64.size / 2 - 1

/-- A number of any length, within bounds. -/
def longDigits (cs : List Char) : Part Nat :=
  match digits cs.length cs with
  | some (n, rest) => if n ≤ maxNumber then some (n, rest) else none
  | none => none

/-- A year: four digits at most, or with a sign as many as there are. -/
def year (cs : List Char) : Part Int :=
  match skipBlanks cs with
  | '-' :: rest => (longDigits rest).map fun (n, rest) => (-(n : Int), rest)
  | '+' :: rest => (longDigits rest).map fun (n, rest) => ((n : Int), rest)
  | cs => (digits 4 cs).map fun (n, rest) => ((n : Int), rest)

/-- A character that has to follow, after blanks. -/
def mark (c : Char) (cs : List Char) : Option (List Char) :=
  match skipBlanks cs with
  | d :: rest => if d = c then some rest else none
  | [] => none

/-- Decimals of a second, which are dropped. -/
def fraction (cs : List Char) : Option (List Char) :=
  match cs with
  | '.' :: rest =>
    match rest with
    | d :: _ => if d.isDigit then some (rest.dropWhile Char.isDigit) else none
    | [] => none
  | _ => some cs

/-- The minutes of an offset. -/
def offsetMinutes : List Char → Part Nat
  | a :: b :: rest =>
    if '0' ≤ a ∧ a ≤ '5' ∧ b.isDigit then some (valueOf [a, b], rest) else none
  | _ => none

/-- An offset from the zone `Z` in seconds, after its sign. -/
def offsetValue : List Char → Part Nat
  | a :: b :: rest =>
    if a.isDigit ∧ b.isDigit then
      (offsetMinutes (rest.dropWhile fun c => c == ':' || Text.isBlank c)).map
        fun (minutes, rest) => (valueOf [a, b] * 3600 + minutes * 60, rest)
    else none
  | _ => none

/-- A zone: its offset in seconds. -/
def zone (cs : List Char) : Part Int :=
  if (cs.take 3).map Char.toUpper = ['U', 'T', 'C'] then some (0, cs.drop 3)
  else
    match cs with
    | 'Z' :: rest | 'z' :: rest => some (0, rest)
    | '+' :: rest => (offsetValue rest).map fun (n, rest) => ((n : Int), rest)
    | '-' :: rest | '−' :: rest => (offsetValue rest).map fun (n, rest) => (-(n : Int), rest)
    | _ => none

/-- The point in time on a date, from the text after the date: a time of day and a zone. -/
def readTime (date : Date) (cs : List Char) : Option Moment := do
  let (hour, cs) ← twoDigits cs
  let (minute, cs) ← twoDigits (← mark ':' cs)
  let (second, cs) ← twoDigits (← mark ':' cs)
  let (offset, cs) ← zone (skipBlanks (← fraction cs))
  guard (skipBlanks cs).isEmpty
  guard (1 ≤ date.day ∧ date.day ≤ daysInMonth date.year date.month)
  guard (hour ≤ 23 ∧ minute ≤ 59 ∧ second ≤ 60)
  guard (offset.natAbs < 86400)
  guard (dayNumber earliest ≤ dayNumber date ∧ dayNumber date ≤ dayNumber latest)
  let time : Int := hour * 3600 + minute * 60 + (min second 59 : Nat)
  let seconds := dayNumber date * secondsPerDay + time - offset
  guard (dayNumber earliest ≤ seconds / secondsPerDay ∧
    seconds / secondsPerDay ≤ dayNumber latest)
  return ⟨seconds, second = 60⟩

/-- The point in time that a text gives. -/
def read (text : String) : Option Moment := do
  let (year, cs) ← year text.toList
  let (month, cs) ← twoDigits (← mark '-' cs)
  let (day, cs) ← twoDigits (← mark '-' cs)
  match cs with
  | 't' :: cs | 'T' :: cs | ' ' :: cs => readTime ⟨year, month, day⟩ cs
  | _ => none

/-- Digits with zeros in front up to a width. -/
def padded (width n : Nat) : List Char :=
  let ds := Nat.toDigits 10 n
  List.replicate (width - ds.length) '0' ++ ds

/-- A year has four digits, and a sign when it is not from 0 to 9999. -/
def yearText (year : Int) : List Char :=
  if 0 ≤ year ∧ year ≤ 9999 then padded 4 year.toNat
  else (if year < 0 then '-' else '+') :: padded 4 year.natAbs

/-- The text of a point in time. -/
def write (m : Moment) : String :=
  let date := dateOf (m.seconds / secondsPerDay)
  let time := (m.seconds % secondsPerDay).toNat
  let second := time % 60 + (if m.isLeapSecond then 1 else 0)
  String.ofList (yearText date.year ++ '-' :: padded 2 date.month ++ '-' :: padded 2 date.day ++
    'T' :: padded 2 (time / 3600) ++ ':' :: padded 2 (time / 60 % 60) ++ ':' :: padded 2 second ++
    ['Z'])

end Timestamp
end InventorySync.Calendar
