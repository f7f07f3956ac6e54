import InventorySync.Text.Blank

/-! # Numbers in dates and times

The readers that dates and times are put together from. Each takes the characters that are left and
gives what it read with the characters after it. -/

namespace InventorySync.Calendar

/-- A part that was read, and the characters after it. -/
abbrev Part (α : Type) := Option (α × List Char)

/-- The characters after leading blanks. -/
def skipBlanks (cs : List Char) : List Char := cs.dropWhile Text.isBlank

/-- The value of decimal digits. -/
def valueOf (ds : List Char) : Nat := ds.foldl (fun n c => 10 * n + (c.toNat - '0'.toNat)) 0

/-- A number of at least one digit and at most `width`. -/
def digits (width : Nat) (cs : List Char) : Part Nat :=
  let ds := (cs.take width).takeWhile Char.isDigit
  if ds.isEmpty then none else some (valueOf ds, cs.drop ds.length)

/-- Two digits at most, after blanks. -/
def twoDigits (cs : List Char) : Part Nat := digits 2 (skipBlanks cs)

end InventorySync.Calendar
