/-! # Double-precision numbers

A finite number of the binary64 format, given by its sign, its significand and the exponent of its
unit, and the rounding of a decimal numeral to the nearest such number (a tie goes to the even
significand). The representation is unique, so equal numbers of equal sign are equal values. -/

namespace InventorySync

/-- The finite number `± significand * 2 ^ scale / 2 ^ 1074`. -/
structure Binary64 where
  negative : Bool
  significand : Nat
  scale : Nat
  significand_lt : significand < Nat.pow 2 53
  normal : Nat.pow 2 52 ≤ significand ∨ scale = 0
  scale_le : scale ≤ 2045
deriving DecidableEq, Repr

namespace Binary64

/-- Zero, of either sign. -/
def zero (negative : Bool) : Binary64 :=
  ⟨negative, 0, 0, by decide, .inr rfl, by decide⟩

instance : Inhabited Binary64 := ⟨zero false⟩

/-- The nearest integer to `a / d`; a tie goes to the even one. -/
def nearest (a d : Nat) : Nat :=
  let q := a / d
  let r := a % d
  if 2 * r < d then q
  else if d < 2 * r then q + 1
  else if q % 2 = 0 then q
  else q + 1

/-- The number with this significand and unit, when they fit the format. -/
def ofParts? (negative : Bool) (significand scale : Nat) : Option Binary64 :=
  if h : significand < Nat.pow 2 53 ∧ (Nat.pow 2 52 ≤ significand ∨ scale = 0) ∧ scale ≤ 2045 then
    some ⟨negative, significand, scale, h.1, h.2.1, h.2.2⟩
  else none

/-- The number nearest to `± a / d`; none when it lies beyond the largest one. -/
def ofQuotient? (negative : Bool) (a d : Nat) : Option Binary64 :=
  let a := a * Nat.pow 2 1074
  -- the unit is the smallest that leaves the significand below `2 ^ 53`
  let scale := Nat.log2 (a / d) - 52
  let m := nearest a (d * Nat.pow 2 scale)
  if m = Nat.pow 2 53 then ofParts? negative (Nat.pow 2 52) (scale + 1)
  else ofParts? negative m scale

/-- The number of decimal digits of a natural number; zero has one. -/
def digitCount (n : Nat) : Nat := (Nat.toDigits 10 n).length

/-- The number nearest to `± digits * 10 ^ exponent`; none when it lies beyond the largest one.
A numeral from `10 ^ 310` on overflows and one below `10 ^ (-400)` is zero, so the powers that are
computed stay small. -/
def ofDecimal? (negative : Bool) (digits : Nat) (exponent : Int) : Option Binary64 :=
  let magnitude := (digitCount digits : Int) + exponent
  if digits = 0 ∨ magnitude < -400 then some (zero negative)
  else if 311 ≤ magnitude then none
  else if 0 ≤ exponent then ofQuotient? negative (digits * Nat.pow 10 exponent.toNat) 1
  else ofQuotient? negative digits (Nat.pow 10 (-exponent).toNat)

/-- The magnitude as a quotient of natural numbers. -/
def quotient (x : Binary64) : Nat × Nat :=
  if 1074 ≤ x.scale then (x.significand * Nat.pow 2 (x.scale - 1074), 1)
  else (x.significand, Nat.pow 2 (1074 - x.scale))

end Binary64
end InventorySync
