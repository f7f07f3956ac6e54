import InventorySync.Number.Binary64

/-! # JSON values

The document type. The members of an object are kept as an association list in increasing order of
their names, each name once: `Json.Canonical` says so at every depth, and `Members.insert`, through
which every object is built, keeps it. Canonical values are equal exactly when they are equal as
JSON values, the order of members ignored. -/

namespace InventorySync

/-- A number as it is stored: an integer that a 64-bit reader keeps exactly, or a double. -/
inductive Number where
  | int (value : Int)
  | real (value : Binary64)
deriving DecidableEq, Repr, Inhabited

/-- A JSON value. -/
inductive Json where
  | null
  | bool (value : Bool)
  | number (value : Number)
  | string (value : String)
  | array (items : List Json)
  | object (members : List (String × Json))
deriving Repr, Inhabited

/-- The members of an object, in increasing order of their names. -/
abbrev Members := List (String × Json)

namespace Json

/-! ## Equality is decidable -/

mutual

/-- Decides whether two values are equal. -/
def decEq : (a b : Json) → Decidable (a = b)
  | .null, .null => isTrue rfl
  | .bool a, .bool b => decidable_of_iff (a = b) (by simp)
  | .number a, .number b => decidable_of_iff (a = b) (by simp)
  | .string a, .string b => decidable_of_iff (a = b) (by simp)
  | .array a, .array b =>
    match decEqItems a b with
    | isTrue h => isTrue (by rw [h])
    | isFalse h => isFalse (by simpa using h)
  | .object a, .object b =>
    match decEqMembers a b with
    | isTrue h => isTrue (by rw [h])
    | isFalse h => isFalse (by simpa using h)
  | .null, .bool _ | .null, .number _ | .null, .string _ | .null, .array _ | .null, .object _
  | .bool _, .null | .bool _, .number _ | .bool _, .string _ | .bool _, .array _
  | .bool _, .object _ | .number _, .null | .number _, .bool _ | .number _, .string _
  | .number _, .array _ | .number _, .object _ | .string _, .null | .string _, .bool _
  | .string _, .number _ | .string _, .array _ | .string _, .object _ | .array _, .null
  | .array _, .bool _ | .array _, .number _ | .array _, .string _ | .array _, .object _
  | .object _, .null | .object _, .bool _ | .object _, .number _ | .object _, .string _
  | .object _, .array _ => isFalse (by simp)

/-- Decides whether two lists of values are equal. -/
def decEqItems : (a b : List Json) → Decidable (a = b)
  | [], [] => isTrue rfl
  | [], _ :: _ => isFalse (by simp)
  | _ :: _, [] => isFalse (by simp)
  | x :: xs, y :: ys =>
    match decEq x y, decEqItems xs ys with
    | isTrue h, isTrue hs => isTrue (by rw [h, hs])
    | isFalse h, _ => isFalse (by simp [h])
    | _, isFalse hs => isFalse (by simp [hs])

/-- Decides whether two lists of members are equal. -/
def decEqMembers : (a b : List (String × Json)) → Decidable (a = b)
  | [], [] => isTrue rfl
  | [], _ :: _ => isFalse (by simp)
  | _ :: _, [] => isFalse (by simp)
  | (k, x) :: xs, (l, y) :: ys =>
    match decidable_of_iff (k = l) Iff.rfl, decEq x y, decEqMembers xs ys with
    | isTrue hk, isTrue h, isTrue hs => isTrue (by rw [hk, h, hs])
    | isFalse hk, _, _ => isFalse (by simp [hk])
    | _, isFalse h, _ => isFalse (by simp [h])
    | _, _, isFalse hs => isFalse (by simp [hs])

end

instance : DecidableEq Json := decEq

end Json

/-! ## Members -/

namespace Members

/-- The value of the member with this name. -/
def get? (ms : Members) (name : String) : Option Json := ms.lookup name

/-- The value of the member with this name in members as they were written: none when it is missing,
and no answer when it is repeated. -/
def single? (ms : List (String × Json)) (name : String) : Option (Option Json) :=
  match ms.filter fun m => m.1 = name with
  | [] => some none
  | [m] => some (some m.2)
  | _ => none

/-- The members with `name` set to `value`, in its place by the order of names. -/
def insert (name : String) (value : Json) : Members → Members
  | [] => [(name, value)]
  | (k, v) :: rest =>
    if name = k then (name, value) :: rest
    else if name < k then (name, value) :: (k, v) :: rest
    else (k, v) :: insert name value rest

/-- The members other than `name`. -/
def erase (ms : Members) (name : String) : Members := ms.filter fun m => m.1 ≠ name

/-- The members of a list of pairs; of pairs with one name the last one counts. -/
def ofList (pairs : List (String × Json)) : Members :=
  pairs.foldl (fun ms p => insert p.1 p.2 ms) []

end Members

namespace Json

/-- The object with these members; of members with one name the last one counts. -/
def mkObject (pairs : List (String × Json)) : Json := .object (Members.ofList pairs)

/-- A whole number. -/
def ofNat (n : Nat) : Json := .number (.int n)

/-- The text of a string, nothing for other values. -/
def asString? : Json → Option String
  | .string s => some s
  | _ => none

/-- The member of an object, nothing for other values. -/
def get? (v : Json) (name : String) : Option Json :=
  match v with
  | .object ms => Members.get? ms name
  | _ => none

/-- The text of a member, empty when there is none. -/
def textAt (v : Json) (name : String) : String := ((v.get? name).bind asString?).getD ""

/-- The items of a member, none when there is no such array. -/
def itemsAt (v : Json) (name : String) : List Json :=
  match v.get? name with
  | some (.array items) => items
  | _ => []

/-! ## Canonical values -/

mutual

/-- At every depth the names of an object's members increase strictly. -/
def Canonical : Json → Prop
  | .array items => CanonicalItems items
  | .object ms => ms.Pairwise (fun a b => a.1 < b.1) ∧ CanonicalMembers ms
  | _ => True

/-- Every item is canonical. -/
def CanonicalItems : List Json → Prop
  | [] => True
  | v :: rest => Canonical v ∧ CanonicalItems rest

/-- Every member's value is canonical. -/
def CanonicalMembers : List (String × Json) → Prop
  | [] => True
  | (_, v) :: rest => Canonical v ∧ CanonicalMembers rest

end

end Json
end InventorySync
