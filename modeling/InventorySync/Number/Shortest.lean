import InventorySync.Number.Binary64

/-! # The shortest numeral of a double

The fewest decimal digits that read back as the number; among numerals of that length the nearest
one, and of two that are equally near the one with the even last digit. A numeral is the pair of
its digits and a power of ten. -/

namespace InventorySync.Binary64

/-- A decimal numeral `digits * 10 ^ exponent`. -/
structure Numeral where
  digits : Nat
  exponent : Int
deriving DecidableEq, Repr

/-- Whether the numeral, with the sign of `x`, reads back as `x`. -/
def ReadsBack (x : Binary64) (n : Numeral) : Prop :=
  ofDecimal? x.negative n.digits n.exponent = some x

instance (x : Binary64) (n : Numeral) : Decidable (x.ReadsBack n) :=
  inferInstanceAs (Decidable (_ = _))

/-- The exponent of the leading decimal digit of `a / d`, for `a / d` at least `10 ^ (-330)`. -/
def leadingExponent (a d : Nat) : Int :=
  (digitCount (a * Nat.pow 10 330 / d) : Int) - 331

/-- `a / d` in units of `10 ^ exponent`, again as a quotient. -/
def inUnits (a d : Nat) (exponent : Int) : Nat × Nat :=
  if 0 ≤ exponent then (a, d * Nat.pow 10 exponent.toNat) else (a * Nat.pow 10 (-exponent).toNat, d)

/-- The first of two numerals that reads back as `x`. -/
def either? (x : Binary64) (first second : Numeral) : Option Numeral :=
  if x.ReadsBack first then some first
  else if x.ReadsBack second then some second
  else none

/-- The numeral with `count` digits that is nearest to `x`, if it reads back as `x`; of the two
neighbours on that grid the nearer one is tried first. -/
def withDigits? (x : Binary64) (count : Nat) : Option Numeral :=
  let value := x.quotient
  let exponent := leadingExponent value.1 value.2 - (count : Int) + 1
  let units := inUnits value.1 value.2 exponent
  let below : Numeral := ⟨units.1 / units.2, exponent⟩
  let above : Numeral := ⟨units.1 / units.2 + 1, exponent⟩
  if nearest units.1 units.2 = units.1 / units.2 then x.either? below above
  else x.either? above below

/-- The numeral without the zeros at its end; at most `fuel` are dropped. -/
def Numeral.trim : Nat → Numeral → Numeral
  | 0, n => n
  | fuel + 1, n =>
    if n.digits ≠ 0 ∧ n.digits % 10 = 0 then trim fuel ⟨n.digits / 10, n.exponent + 1⟩ else n

/-- The exact value of `x` as a numeral. -/
def exactly (x : Binary64) : Numeral :=
  if 1074 ≤ x.scale then ⟨x.significand * Nat.pow 2 (x.scale - 1074), 0⟩
  else ⟨x.significand * Nat.pow 5 (1074 - x.scale), -((1074 - x.scale : Nat) : Int)⟩

/-- The shortest numeral that reads back as `x`. Seventeen digits always suffice. -/
def shortest (x : Binary64) : Numeral :=
  if x.significand = 0 then ⟨0, 0⟩
  else
    match (List.range 17).findSome? fun i => x.withDigits? (i + 1) with
    | some n => n.trim 17
    | none => x.exactly

end InventorySync.Binary64
