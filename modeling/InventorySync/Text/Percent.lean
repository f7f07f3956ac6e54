/-! # Percent-encoding

A character that may not stand for itself is written as the bytes of its UTF-8 form, each as `%` and
two hexadecimal digits. Which characters may stand for themselves is a predicate. -/

namespace InventorySync.Text

/-- A hexadecimal digit in upper case. -/
def upperHexDigit (n : Nat) : Char := (Nat.digitChar (n % 16)).toUpper

/-- A byte as `%` and two digits. -/
def percentByte (b : UInt8) : List Char :=
  ['%', upperHexDigit (b.toNat / 16), upperHexDigit b.toNat]

/-- A character as the bytes of its UTF-8 form. -/
def percentChar (c : Char) : List Char := (String.utf8EncodeChar c).flatMap percentByte

/-- The characters with `escaped` ones encoded. -/
def percentEncode (escaped : Char → Bool) (cs : List Char) : List Char :=
  cs.flatMap fun c => if escaped c then percentChar c else [c]

/-- Whether a character stands for itself in a form value. -/
def isFormSafe (c : Char) : Bool :=
  c.isAlphanum || c == '*' || c == '-' || c == '.' || c == '_'

/-- A character of a form value: a space is written as a plus sign. -/
def formChar (c : Char) : List Char :=
  if c == ' ' then ['+'] else if isFormSafe c then [c] else percentChar c

/-- The text of a form value. -/
def formEncode (s : String) : String := String.ofList (s.toList.flatMap formChar)

end InventorySync.Text
