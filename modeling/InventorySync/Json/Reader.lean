import InventorySync.Json.Basic

/-! # Reading JSON text

A strict reader: no comments, no trailing commas, no text after the value, no raw controls in
strings, no lone surrogates, no number beyond the doubles, and nesting up to a given depth. An
error tells apart a text that merely stopped too early from one that is wrong where it stands.

`readRaw` keeps the members of an object as they were written; `read` makes the value canonical, so
that of members with one name the last one counts. -/

namespace InventorySync.Json

/-- Why a text is no JSON value. -/
inductive SyntaxError where
  /-- The text ended inside the value. -/
  | endOfText
  /-- The text is wrong before its end. -/
  | malformed
deriving DecidableEq, Repr

/-- What was read, and the text that follows it. -/
abbrev Reading (α : Type) := Except SyntaxError (α × List Char)

namespace Reader

/-- Whether blanks of this kind may stand between tokens. -/
def isSpace (c : Char) : Bool := c == ' ' || c == '\n' || c == '\t' || c == '\r'

/-- The text after its blanks. -/
def skipSpace (cs : List Char) : List Char := cs.dropWhile isSpace

/-! ## Strings -/

/-- The value of a hexadecimal digit. -/
def hexValue? (c : Char) : Option Nat :=
  if '0' ≤ c ∧ c ≤ '9' then some (c.toNat - '0'.toNat)
  else if 'a' ≤ c ∧ c ≤ 'f' then some (c.toNat - 'a'.toNat + 10)
  else if 'A' ≤ c ∧ c ≤ 'F' then some (c.toNat - 'A'.toNat + 10)
  else none

/-- The number of bytes of a text. -/
def byteCount (cs : List Char) : Nat := cs.foldr (fun c n => c.utf8Size + n) 0

/-- The four digits of a `\u` escape, as a number. -/
def hexEscape (cs : List Char) : Reading Nat :=
  if byteCount (cs.take 4) < 4 then .error .endOfText
  else
    match cs with
    | a :: b :: c :: d :: rest =>
      match hexValue? a, hexValue? b, hexValue? c, hexValue? d with
      | some a, some b, some c, some d => .ok (((a * 16 + b) * 16 + c) * 16 + d, rest)
      | _, _, _, _ => .error .malformed
    | _ => .error .malformed

/-- The character of the escape after a backslash and `u`; a leading surrogate needs its partner. -/
def unicodeEscape (cs : List Char) : Except SyntaxError (Char × List Char) := do
  let (n, rest) ← hexEscape cs
  if n < 0xD800 ∨ 0xDFFF < n then return (Char.ofNat n, rest)
  else if 0xDC00 ≤ n then .error .malformed
  else
    match rest with
    | [] => .error .endOfText
    | ['\\'] => .error .endOfText
    | '\\' :: 'u' :: rest =>
      let (m, rest) ← hexEscape rest
      if m < 0xDC00 ∨ 0xDFFF < m then .error .malformed
      else return (Char.ofNat (0x10000 + (n - 0xD800) * 0x400 + (m - 0xDC00)), rest)
    | _ => .error .malformed

/-- The characters up to the closing quote; `done` holds those before, last first. At most `fuel`
characters or escapes are read. -/
def stringBody : Nat → List Char → List Char → Reading String
  | 0, _, _ => .error .endOfText
  | _ + 1, _, [] => .error .endOfText
  | fuel + 1, done, c :: rest =>
    if c = '"' then .ok (String.ofList done.reverse, rest)
    else if c = '\\' then
      match rest with
      | [] => .error .endOfText
      | e :: rest =>
        match e with
        | '"' => stringBody fuel ('"' :: done) rest
        | '\\' => stringBody fuel ('\\' :: done) rest
        | '/' => stringBody fuel ('/' :: done) rest
        | 'b' => stringBody fuel ('\x08' :: done) rest
        | 'f' => stringBody fuel ('\x0c' :: done) rest
        | 'n' => stringBody fuel ('\n' :: done) rest
        | 'r' => stringBody fuel ('\r' :: done) rest
        | 't' => stringBody fuel ('\t' :: done) rest
        | 'u' =>
          match unicodeEscape rest with
          | .ok (x, rest) => stringBody fuel (x :: done) rest
          | .error e => .error e
        | _ => .error .malformed
    else if c.toNat < 0x20 then .error .malformed
    else stringBody fuel (c :: done) rest

/-- The string after an opening quote. -/
def string (cs : List Char) : Reading String := stringBody (cs.length + 1) [] cs

/-! ## Numbers -/

/-- The number that a run of digits denotes. -/
def natOfDigits (ds : List Char) : Nat :=
  ds.foldl (fun n d => n * 10 + (d.toNat - '0'.toNat)) 0

/-- The digits at the front of a text, and the rest. -/
def digits (cs : List Char) : List Char × List Char := cs.span Char.isDigit

/-- A run of at least one digit. -/
def someDigits (cs : List Char) : Reading (List Char) :=
  match digits cs with
  | ([], []) => .error .endOfText
  | ([], _) => .error .malformed
  | (ds, rest) => .ok (ds, rest)

/-- The digits after the point, none when there is no point. -/
def fraction : List Char → Reading (List Char)
  | '.' :: rest => someDigits rest
  | cs => .ok ([], cs)

/-- The exponent, if there is one. -/
def exponent : List Char → Reading (Option Int)
  | c :: rest =>
    if c = 'e' ∨ c = 'E' then
      match rest with
      | '-' :: rest => (someDigits rest).map fun r => (some (-(natOfDigits r.1 : Int)), r.2)
      | '+' :: rest => (someDigits rest).map fun r => (some (natOfDigits r.1 : Int), r.2)
      | _ => (someDigits rest).map fun r => (some (natOfDigits r.1 : Int), r.2)
    else .ok (none, c :: rest)
  | [] => .ok (none, [])

/-- The whole part of a number: a single zero, or digits that begin with another one. -/
def wholePart (cs : List Char) : Reading (List Char) :=
  match someDigits cs with
  | .ok ('0' :: _ :: _, _) => .error .malformed
  | r => r

/-- The integer `± n`, kept exactly when 64 bits hold it: from `-2 ^ 63` below zero, up to
`2 ^ 64 - 1` otherwise. Minus zero is a double. -/
def integer? (negative : Bool) (n : Nat) : Option Number :=
  if negative then
    if 0 < n ∧ n ≤ UInt64.size / 2 then some (.int (-(n : Int)))
    else (Binary64.ofDecimal? true n 0).map .real
  else if n < UInt64.size then some (.int n)
  else (Binary64.ofDecimal? false n 0).map .real

/-- A number, its sign already read. -/
def unsignedNumber (negative : Bool) (cs : List Char) :
    Except SyntaxError (Number × List Char) := do
  let (whole, rest) ← wholePart cs
  let (part, rest) ← fraction rest
  let (power, rest) ← exponent rest
  let value :=
    if part.isEmpty ∧ power.isNone then integer? negative (natOfDigits whole)
    else
      (Binary64.ofDecimal? negative (natOfDigits (whole ++ part))
        (power.getD 0 - part.length)).map .real
  match value with
  | some n => return (n, rest)
  | none => .error .malformed

/-- A number. -/
def number : List Char → Reading Number
  | '-' :: rest => unsignedNumber true rest
  | cs => unsignedNumber false cs

/-! ## Values -/

/-- The rest of a literal word, whose value is `v`. -/
def word (v : Json) : List Char → List Char → Reading Json
  | [], rest => .ok (v, rest)
  | _ :: _, [] => .error .endOfText
  | w :: ws, c :: rest => if w = c then word v ws rest else .error .malformed

mutual

/-- A value, with `depth` levels of nesting left. Every call reads a character or leads to one
that does, so twice the length of the text is fuel enough. -/
def value : Nat → Nat → List Char → Reading Json
  | 0, _, _ => .error .malformed
  | fuel + 1, depth, cs =>
    match skipSpace cs with
    | [] => .error .endOfText
    | 'n' :: rest => word .null ['u', 'l', 'l'] rest
    | 't' :: rest => word (.bool true) ['r', 'u', 'e'] rest
    | 'f' :: rest => word (.bool false) ['a', 'l', 's', 'e'] rest
    | '"' :: rest => (string rest).map fun r => (.string r.1, r.2)
    | '[' :: rest =>
      match depth with
      | 0 => .error .malformed
      | depth + 1 =>
        match skipSpace rest with
        | ']' :: rest => .ok (.array [], rest)
        | rest => items fuel depth [] rest
    | '\x7b' :: rest =>
      match depth with
      | 0 => .error .malformed
      | depth + 1 =>
        match skipSpace rest with
        | '\x7d' :: rest => .ok (.object [], rest)
        | rest => members fuel depth [] rest
    | c :: rest =>
      if c = '-' ∨ c.isDigit then (number (c :: rest)).map fun r => (.number r.1, r.2)
      else .error .malformed

/-- The items of an array from one on; `done` holds those before, last first. -/
def items : Nat → Nat → List Json → List Char → Reading Json
  | 0, _, _, _ => .error .malformed
  | fuel + 1, depth, done, cs =>
    match value fuel depth cs with
    | .error e => .error e
    | .ok (v, rest) =>
      match skipSpace rest with
      | [] => .error .endOfText
      | ']' :: rest => .ok (.array (v :: done).reverse, rest)
      | ',' :: rest =>
        match skipSpace rest with
        | ']' :: _ => .error .malformed
        | rest => items fuel depth (v :: done) rest
      | _ => .error .malformed

/-- The members of an object from one on; `done` holds those before, last first. -/
def members : Nat → Nat → List (String × Json) → List Char → Reading Json
  | 0, _, _, _ => .error .malformed
  | fuel + 1, depth, done, cs =>
    match skipSpace cs with
    | [] => .error .endOfText
    | '"' :: rest =>
      match string rest with
      | .error e => .error e
      | .ok (name, rest) =>
        match skipSpace rest with
        | [] => .error .endOfText
        | ':' :: rest =>
          match value fuel depth rest with
          | .error e => .error e
          | .ok (v, rest) =>
            match skipSpace rest with
            | [] => .error .endOfText
            | '\x7d' :: rest => .ok (.object ((name, v) :: done).reverse, rest)
            | ',' :: rest => members fuel depth ((name, v) :: done) rest
            | _ => .error .malformed
        | _ => .error .malformed
    | _ => .error .malformed

end

end Reader

/-- The value that a text writes, members as they were written, with at most `depth` levels of
nesting. -/
def readRaw (depth : Nat) (text : String) : Except SyntaxError Json :=
  let cs := text.toList
  match Reader.value (2 * cs.length + 2) depth cs with
  | .error e => .error e
  | .ok (v, rest) =>
    match Reader.skipSpace rest with
    | [] => .ok v
    | _ => .error .malformed

/-! ## The canonical value -/

mutual

/-- The value with the members of every object in order, of equal names the last. -/
def canonical : Json → Json
  | .array items => .array (canonicalItems items)
  | .object ms => mkObject (canonicalMembers ms)
  | v => v

/-- The items in their canonical forms. -/
def canonicalItems : List Json → List Json
  | [] => []
  | v :: rest => canonical v :: canonicalItems rest

/-- The members with their values in canonical form, still in the written order. -/
def canonicalMembers : List (String × Json) → List (String × Json)
  | [] => []
  | (k, v) :: rest => (k, canonical v) :: canonicalMembers rest

end

/-- The levels of nesting that documents may have. -/
def documentDepth : Nat := 127

/-- The value that a document's text writes. -/
def read (text : String) : Except SyntaxError Json := (readRaw documentDepth text).map canonical

end InventorySync.Json
