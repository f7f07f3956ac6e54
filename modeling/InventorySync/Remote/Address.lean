import InventorySync.Text.Percent

/-! # Addresses

What a server is asked for is the part of an address after the host: a path and perhaps a query. An
address is read leniently. Controls and spaces at its end and all tabs and line breaks are dropped,
and so is a fragment; a backslash separates segments like a slash; segments of one dot or two dots
are resolved; characters that may not stand in an address are percent-encoded. -/

namespace InventorySync

/-- The path and the query of an address, both encoded. -/
structure Address where
  /-- The segments of the path, each after a slash. -/
  segments : List String
  query : Option String
deriving DecidableEq, Repr, Inhabited

namespace Address

/-! ## Which characters are encoded -/

/-- Whether a character is a control or not ASCII. -/
def isForeign (c : Char) : Bool := c.toNat < 0x20 || 0x7F ≤ c.toNat

/-- Whether a character of a path is encoded. -/
def isEscapedInPath (c : Char) : Bool :=
  isForeign c || c ∈ [' ', '"', '<', '>', '\x60', '#', '?', '\x7b', '\x7d']

/-- Whether a character of a query is encoded. -/
def isEscapedInQuery (c : Char) : Bool :=
  isForeign c || c ∈ [' ', '"', '#', '<', '>', '\'']

/-! ## Segments -/

/-- Whether a character separates segments. -/
def isSeparator (c : Char) : Bool := c == '/' || c == '\\'

/-- The parts of a path between its separators. -/
def cutSegments : List Char → List (List Char)
  | [] => [[]]
  | c :: rest =>
    if isSeparator c then [] :: cutSegments rest
    else
      match cutSegments rest with
      | [] => [[c]]
      | part :: parts => (c :: part) :: parts

/-- The dots that a segment consists of, written as dots or encoded; none when there is more to
it. -/
def dots? : List Char → Option Nat
  | [] => some 0
  | '.' :: rest => (dots? rest).map (· + 1)
  | '%' :: '2' :: e :: rest => if e = 'e' ∨ e = 'E' then (dots? rest).map (· + 1) else none
  | _ => none

/-- Resolves the dot segments; `done` holds the segments before, last first. One dot stands for
nothing and two dots take back a segment; at the end both leave an empty segment. -/
def resolve (done : List (List Char)) : List (List Char) → List (List Char)
  | [] => done.reverse
  | part :: rest =>
    let done :=
      match dots? part with
      | some 1 => done
      | some 2 => done.tail
      | _ => part :: done
    if rest.isEmpty ∧ (dots? part = some 1 ∨ dots? part = some 2) then ([] :: done).reverse
    else resolve done rest

/-! ## Reading -/

/-- A text without controls and spaces at its end. -/
def trimEnd (cs : List Char) : List Char := (cs.reverse.dropWhile fun c => c.toNat ≤ 0x20).reverse

/-- Whether a character is dropped wherever it stands. -/
def isDropped (c : Char) : Bool := c == '\t' || c == '\n' || c == '\r'

/-- The segments of a path; an empty path is that of the root. -/
def readPath : List Char → Option (List String)
  | [] => some [""]
  | c :: rest =>
    if isSeparator c then
      some ((resolve [] (cutSegments rest)).map fun part =>
        String.ofList (Text.percentEncode isEscapedInPath part))
    else none

/-- The address that the text after the host gives; none when the text belongs to the host. -/
def read? (text : String) : Option Address :=
  let cs := ((trimEnd text.toList).filter fun c => !isDropped c).takeWhile (· ≠ '#')
  let path := cs.takeWhile (· ≠ '?')
  let query :=
    match cs.drop path.length with
    | [] => none
    | _ :: rest => some (String.ofList (Text.percentEncode isEscapedInQuery rest))
  (readPath path).map fun segments => ⟨segments, query⟩

/-- The address with one more pair in its query. -/
def addQuery (a : Address) (name value : String) : Address :=
  let pair := Text.formEncode name ++ "=" ++ Text.formEncode value
  { a with query := some (match a.query with
      | none => pair
      | some "" => pair
      | some query => query ++ "&" ++ pair) }

/-- The address as a request names it. -/
def target (a : Address) : String :=
  String.join (a.segments.map fun part => "/" ++ part) ++
    match a.query with
    | some query => "?" ++ query
    | none => ""

end Address
end InventorySync
