/-! # Blank characters

The characters with the Unicode property White_Space, and the trimming of a text at both ends.
Keys and times of day are trimmed by this rule before they are read. -/

namespace InventorySync.Text

/-- The ranges of the property White_Space, in increasing order, ends included. -/
def blankRanges : List (Nat × Nat) :=
  [(0x0009, 0x000D), (0x0020, 0x0020), (0x0085, 0x0085), (0x00A0, 0x00A0), (0x1680, 0x1680),
   (0x2000, 0x200A), (0x2028, 0x2029), (0x202F, 0x202F), (0x205F, 0x205F), (0x3000, 0x3000)]

/-- Whether a character has the property White_Space. -/
def isBlank (c : Char) : Bool :=
  blankRanges.any fun r => r.1 ≤ c.toNat && c.toNat ≤ r.2

/-- A text without its blanks at both ends. -/
def trimmed (cs : List Char) : List Char :=
  ((cs.dropWhile isBlank).reverse.dropWhile isBlank).reverse

/-- A string without its blanks at both ends. -/
def trim (s : String) : String := String.ofList (trimmed s.toList)

end InventorySync.Text
