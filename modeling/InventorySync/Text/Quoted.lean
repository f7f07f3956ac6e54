import InventorySync.Text.Hidden

/-! # Quoted texts

How a message quotes a text that it did not write itself: between double quotes, with a backslash
before a double quote or a backslash, the usual letters for the three common controls and for the
character zero, and the number in hexadecimal for every other hidden character. A single quote
stands for itself. -/

namespace InventorySync.Text

/-- The digits of a number in lower-case hexadecimal, most significant first. -/
def hexDigits (n : Nat) : List Char := Nat.toDigits 16 n

/-- One character of a quoted text. -/
def escapeChar (c : Char) : List Char :=
  if c = '"' then ['\\', '"']
  else if c = '\\' then ['\\', '\\']
  else if c = '\n' then ['\\', 'n']
  else if c = '\r' then ['\\', 'r']
  else if c = '\t' then ['\\', 't']
  else if c = '\x00' then ['\\', '0']
  else if isHidden c then '\\' :: 'u' :: '\x7b' :: (hexDigits c.toNat ++ ['\x7d'])
  else [c]

/-- A text between double quotes, with its escapes. -/
def quoted (s : String) : String :=
  String.ofList ('"' :: (s.toList.flatMap escapeChar ++ ['"']))

end InventorySync.Text
