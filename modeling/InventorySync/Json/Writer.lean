import InventorySync.Json.Basic
import InventorySync.Number.Shortest

/-! # The compact text of a JSON value

No blanks, members in the order in which the value holds them, strings with the fewest escapes.
Every writer puts its text in front of the text that follows (`v.onto rest`), so that writing a
nested value copies nothing. For canonical values the text is the canonical form that fingerprints
are taken of. -/

namespace InventorySync

/-! ## Numbers -/

/-- A decimal digit. -/
def digitChar (n : Nat) : Char := Nat.digitChar (n % 10)

/-- The decimal digits of a natural number. -/
def decimalDigits (n : Nat) : List Char := Nat.toDigits 10 n

/-- The decimal text of an integer. -/
def intText (i : Int) : List Char :=
  if i < 0 then '-' :: decimalDigits i.natAbs else decimalDigits i.natAbs

namespace Binary64

/-- How a double is written. Positional notation is used while the exponent of the leading digit
lies between the bounds, and always shows a point. -/
structure Layout where
  leastPositional : Int
  greatestPositional : Int

/-- The layout of numbers in documents. -/
def Layout.document : Layout := ⟨-5, 15⟩

/-- The digits `ds` with the point after `count` of them, zeros filled in. -/
def withPoint (ds : List Char) (count : Nat) : List Char :=
  let whole := ds.take count ++ List.replicate (count - ds.length) '0'
  let part := ds.drop count
  whole ++ '.' :: (if part.isEmpty then ['0'] else part)

/-- The text of a double: positional or scientific, by the exponent of its leading digit. -/
def text (layout : Layout) (x : Binary64) : List Char :=
  let n := x.shortest
  let ds := decimalDigits n.digits
  let leading : Int := (ds.length : Int) + n.exponent - 1
  let body :=
    if x.significand = 0 then ['0', '.', '0']
    else if layout.leastPositional ≤ leading ∧ leading ≤ layout.greatestPositional then
      if leading < 0 then
        '0' :: '.' :: (List.replicate (-leading - 1).toNat '0' ++ ds)
      else withPoint ds (leading.toNat + 1)
    else
      let mantissa := match ds with
        | [] => []
        | [d] => [d]
        | d :: rest => d :: '.' :: rest
      mantissa ++ 'e' :: (if leading < 0 then '-' else '+') :: decimalDigits leading.natAbs
  if x.negative then '-' :: body else body

end Binary64

/-- The text of a number. -/
def Number.text : Number → List Char
  | .int i => intText i
  | .real x => x.text .document

namespace Json

/-! ## Strings -/

/-- The two hexadecimal digits of a control character. -/
def controlDigits (c : Char) : List Char :=
  [Nat.digitChar (c.toNat / 16), Nat.digitChar (c.toNat % 16)]

/-- One character of a string: quotes, backslashes and controls are escaped, all else is raw. -/
def escapeChar (c : Char) : List Char :=
  if c = '"' then ['\\', '"']
  else if c = '\\' then ['\\', '\\']
  else if c = '\x08' then ['\\', 'b']
  else if c = '\x0c' then ['\\', 'f']
  else if c = '\n' then ['\\', 'n']
  else if c = '\r' then ['\\', 'r']
  else if c = '\t' then ['\\', 't']
  else if c.toNat < 0x20 then ['\\', 'u', '0', '0'] ++ controlDigits c
  else [c]

/-- A string between quotes, in front of `rest`. -/
def stringOnto (s : String) (rest : List Char) : List Char :=
  '"' :: (s.toList.flatMap escapeChar ++ '"' :: rest)

/-! ## Values -/

mutual

/-- The text of a value in front of `rest`. -/
def onto : Json → List Char → List Char
  | .null, rest => 'n' :: 'u' :: 'l' :: 'l' :: rest
  | .bool true, rest => 't' :: 'r' :: 'u' :: 'e' :: rest
  | .bool false, rest => 'f' :: 'a' :: 'l' :: 's' :: 'e' :: rest
  | .number n, rest => n.text ++ rest
  | .string s, rest => stringOnto s rest
  | .array [], rest => '[' :: ']' :: rest
  | .array (v :: vs), rest => '[' :: v.onto (itemsOnto vs (']' :: rest))
  | .object [], rest => '\x7b' :: '\x7d' :: rest
  | .object ((k, v) :: ms), rest =>
    '\x7b' :: stringOnto k (':' :: v.onto (membersOnto ms ('\x7d' :: rest)))

/-- The items after the first, each behind a comma. -/
def itemsOnto : List Json → List Char → List Char
  | [], rest => rest
  | v :: vs, rest => ',' :: v.onto (itemsOnto vs rest)

/-- The members after the first, each behind a comma. -/
def membersOnto : List (String × Json) → List Char → List Char
  | [], rest => rest
  | (k, v) :: ms, rest => ',' :: stringOnto k (':' :: v.onto (membersOnto ms rest))

end

/-- The compact text of a value. -/
def compact (v : Json) : String := String.ofList (v.onto [])

end Json
end InventorySync
